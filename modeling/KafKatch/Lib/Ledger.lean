/-
  KafKatch.Lib.Ledger — which resources are held along a trace.

  A resource is acquired, used and released; acquiring what is held, and using or releasing what
  is not, has no successor.  A trace that runs from nothing to nothing releases everything it
  acquires, once for each time (`held_iff_released`).  A condition on what is held together can be
  checked along the trace (`guarded`), and then holds of every prefix.
-/
import KafKatch.Lib.Run
import Mathlib.Data.Finset.Basic

namespace KafKatch.Lib

variable {ρ : Type} [DecidableEq ρ]

/-- What a trace does to a resource. -/
inductive Effect (ρ : Type) where
  | acquire (r : ρ)
  | use (r : ρ)
  | release (r : ρ)
  deriving DecidableEq

/-- The resources held after an effect. -/
def touch (held : Finset ρ) : Effect ρ → Option (Finset ρ)
  | .acquire r => if r ∈ held then none else some (insert r held)
  | .use r => if r ∈ held then some held else none
  | .release r => if r ∈ held then some (held.erase r) else none

section Steps

variable {held : Finset ρ} {r : ρ}

theorem touch_use (h : r ∈ held) : touch held (.use r) = some held := if_pos h

/-- Only its own effects change whether a resource is held. -/
theorem mem_touch {held' : Finset ρ} {e : Effect ρ} (h : touch held e = some held')
    (hacquire : e ≠ .acquire r) : r ∈ held' ↔ r ∈ held ∧ e ≠ .release r := by
  cases e with
  | acquire x =>
      dsimp only [touch] at h
      split at h
      · cases h
      · cases h
        have hne : r ≠ x := fun hrx => hacquire (hrx ▸ rfl)
        simp [hne]
  | use x =>
      dsimp only [touch] at h
      split at h
      · cases h
        simp
      · cases h
  | release x =>
      dsimp only [touch] at h
      split at h
      · cases h
        rw [Finset.mem_erase, and_comm]
        refine and_congr_right fun _ => ?_
        rw [ne_eq, ne_eq, Effect.release.injEq, eq_comm]
      · cases h

end Steps

/-- **A resource that is not acquired again is held exactly when it is still to be released.** -/
theorem held_iff_released {trace : List (Effect ρ)} {held held' : Finset ρ} {r : ρ}
    (h : run touch held trace = some held') (hend : r ∉ held')
    (hacquire : Effect.acquire r ∉ trace) : r ∈ held ↔ Effect.release r ∈ trace := by
  induction trace generalizing held with
  | nil =>
      rw [run_nil, Option.some.injEq] at h
      rw [h]
      exact iff_of_false hend List.not_mem_nil
  | cons e trace ih =>
      obtain ⟨next, hnext, hrest⟩ := Option.bind_eq_some_iff.mp h
      obtain ⟨hne, hacquire⟩ := List.ne_and_not_mem_of_not_mem_cons hacquire
      have hmem := mem_touch hnext (r := r) (Ne.symm hne)
      rw [List.mem_cons, ← ih hrest hacquire, hmem]
      by_cases hrelease : e = .release r
      · subst hrelease
        have hheld : r ∈ held := by
          by_contra hnot
          rw [touch, if_neg hnot] at hnext
          cases hnext
        simp [hheld]
      · simp [hrelease, Ne.symm hrelease]

/-- One more use, somewhere in a trace that runs: the trace still runs exactly when the resource
is held there. -/
theorem run_insert_use {pre post : List (Effect ρ)} {held mid held' : Finset ρ} {r : ρ}
    (hpre : run touch held pre = some mid) (hpost : run touch mid post = some held') :
    (run touch held (pre ++ .use r :: post)).isSome ↔ r ∈ mid := by
  have hsplit : run touch held (pre ++ .use r :: post)
      = (touch mid (.use r)).bind (fun next => run touch next post) := by
    rw [run_append, hpre]
    rfl
  rw [hsplit, touch]
  by_cases hmem : r ∈ mid
  · rw [if_pos hmem, Option.bind_some, hpost]
    exact iff_of_true rfl hmem
  · rw [if_neg hmem]
    exact iff_of_false (by simp) hmem

/-! ## Conditions along a trace. -/

/-- An effect after which the condition holds. -/
def guarded (safe : Finset ρ → Prop) [DecidablePred safe] (held : Finset ρ) (e : Effect ρ) :
    Option (Finset ρ) :=
  (touch held e).filter (fun held => decide (safe held))

section Guarded

variable {safe : Finset ρ → Prop} [DecidablePred safe]

theorem guarded_eq_some {held held' : Finset ρ} {e : Effect ρ} :
    guarded safe held e = some held' ↔ touch held e = some held' ∧ safe held' := by
  unfold guarded
  rw [Option.filter_eq_some_iff, decide_eq_true_eq]

/-- Without the condition the trace runs the same. -/
theorem run_touch_of_guarded {trace : List (Effect ρ)} {held held' : Finset ρ}
    (h : run (guarded safe) held trace = some held') : run touch held trace = some held' := by
  induction trace generalizing held with
  | nil => exact h
  | cons e trace ih =>
      obtain ⟨next, hnext, hrest⟩ := Option.bind_eq_some_iff.mp h
      exact Option.bind_eq_some_iff.mpr ⟨next, (guarded_eq_some.mp hnext).1, ih hrest⟩

/-- **The condition holds of every prefix.** -/
theorem safe_prefix {pre post : List (Effect ρ)} {held held' : Finset ρ} (hstart : safe held)
    (h : run (guarded safe) held (pre ++ post) = some held') :
    ∃ mid, run touch held pre = some mid ∧ safe mid ∧ run touch mid post = some held' := by
  rw [run_append] at h
  obtain ⟨mid, hpre, hpost⟩ := Option.bind_eq_some_iff.mp h
  refine ⟨mid, run_touch_of_guarded hpre, ?_, run_touch_of_guarded hpost⟩
  exact run_invariant safe hstart (fun _ _ _ _ hstep => (guarded_eq_some.mp hstep).2) hpre

end Guarded

end KafKatch.Lib
