/-
  KafKatch.Lib.Run — runs of a partial step function, and the induction over them.

  `step s a = none` says that `a` is not enabled in `s`.  A property that every enabled step
  keeps holds after every run (`run_invariant`); `run_trace` is the same with the list of
  actions taken so far in view, and `run_simulates` carries a whole run over to another step
  function.  A rank that every step lowers by one says how long a run can be (`run_rank`).
-/
import Mathlib.Data.List.Basic
import Mathlib.Data.List.Induction

namespace KafKatch.Lib

variable {σ τ α : Type*}

/-- One line of a `do` block whose value is known. -/
theorem bind_of_eq_some {α β : Type} {x : Option α} {a : α} (h : x = some a)
    {f : α → Option β} : (x >>= f) = f a := by
  rw [h]
  rfl

/-- One line of a `do` block, whatever its value. -/
theorem forall_bind {α β : Type} {P : β → Prop} {x : Option α} {f : α → Option β}
    (h : ∀ a b, f a = some b → P b) (b : β) (hb : (x >>= f) = some b) : P b := by
  obtain ⟨a, -, ha⟩ := Option.bind_eq_some_iff.mp hb
  exact h a b ha

/-- The state after taking the actions `as` from `s`, if every one of them is enabled. -/
def run (step : σ → α → Option σ) (s : σ) (as : List α) : Option σ := as.foldlM step s

@[simp] theorem run_nil (step : σ → α → Option σ) (s : σ) : run step s [] = some s := rfl

theorem run_append (step : σ → α → Option σ) (s : σ) (as bs : List α) :
    run step s (as ++ bs) = (run step s as).bind (fun t => run step t bs) := by
  unfold run
  rw [List.foldlM_append]
  rfl

theorem run_concat (step : σ → α → Option σ) (s : σ) (as : List α) (a : α) :
    run step s (as ++ [a]) = (run step s as).bind (fun t => step t a) := by
  rw [run_append]
  congr 1
  funext t
  show (step t a).bind some = step t a
  cases step t a <;> rfl

/-- The last step of a run that is not empty. -/
theorem run_concat_eq_some {step : σ → α → Option σ} {s s' : σ} {as : List α} {a : α}
    (h : run step s (as ++ [a]) = some s') :
    ∃ t, run step s as = some t ∧ step t a = some s' := by
  rw [run_concat] at h
  exact Option.bind_eq_some_iff.mp h

/-- **The run rule, with the trace.** -/
theorem run_trace {step : σ → α → Option σ} {s : σ} (P : List α → σ → Prop) (h0 : P [] s)
    (hstep : ∀ as t a t', P as t → step t a = some t' → P (as ++ [a]) t') :
    ∀ {as s'}, run step s as = some s' → P as s' := by
  intro as
  -- on the last action: `P` holds of the trace without it
  induction as using List.reverseRecOn with
  | nil =>
      intro s' h
      rw [run_nil, Option.some.injEq] at h
      exact h ▸ h0
  | append_singleton as a ih =>
      intro s' h
      obtain ⟨t, hrun, ht⟩ := run_concat_eq_some h
      exact hstep as t a s' (ih hrun) ht

/-- **The run rule.** -/
theorem run_invariant {step : σ → α → Option σ} {s : σ} (P : σ → Prop) (h0 : P s)
    (hstep : ∀ t a t', P t → step t a = some t' → P t') {as : List α} {s' : σ}
    (h : run step s as = some s') : P s' :=
  run_trace (fun _ => P) h0 (fun _ t a t' => hstep t a t') h

/-- **The run rule for a step function that is enabled wherever `P` holds.** -/
theorem run_exists {step : σ → α → Option σ} {s : σ} (P : List α → σ → Prop) (h0 : P [] s)
    (hstep : ∀ as t a, P as t → ∃ t', step t a = some t' ∧ P (as ++ [a]) t') (as : List α) :
    ∃ s', run step s as = some s' ∧ P as s' := by
  induction as using List.reverseRecOn with
  | nil => exact ⟨s, rfl, h0⟩
  | append_singleton as a ih =>
      obtain ⟨t, hrun, ht⟩ := ih
      obtain ⟨t', hnext, ht'⟩ := hstep as t a ht
      exact ⟨t', by rw [run_concat, hrun]; exact hnext, ht'⟩

section Rank

variable {step : σ → α → Option σ} (P : σ → Prop) (rank : σ → Nat)
  (hstep : ∀ t a t', P t → step t a = some t' → P t' ∧ rank t' + 1 = rank t)

include hstep

/-- **If every step takes one off the rank, a run is as long as what it has taken off.** -/
theorem run_rank {s s' : σ} (hs : P s) {as : List α} (h : run step s as = some s') :
    P s' ∧ as.length + rank s' = rank s := by
  refine run_trace (fun as s' => P s' ∧ as.length + rank s' = rank s) ⟨hs, Nat.zero_add _⟩ ?_ h
  rintro as t a t' ⟨ht, hlength⟩ hnext
  obtain ⟨ht', hrank⟩ := hstep t a t' ht hnext
  refine ⟨ht', ?_⟩
  rw [List.length_append, List.length_singleton]
  omega

/-- So some run goes on until nothing is enabled. -/
theorem run_until_stuck {s : σ} (hs : P s) :
    ∃ as s', run step s as = some s' ∧ P s' ∧ ∀ a, step s' a = none := by
  induction hn : rank s generalizing s with
  | zero =>
      refine ⟨[], s, rfl, hs, ?_⟩
      intro a
      cases ha : step s a with
      | none => rfl
      | some t =>
          have := (hstep s a t hs ha).2
          omega
  | succ n ih =>
      by_cases hstuck : ∀ a, step s a = none
      · exact ⟨[], s, rfl, hs, hstuck⟩
      · obtain ⟨a, ha⟩ := not_forall.mp hstuck
        obtain ⟨t, ht⟩ := Option.ne_none_iff_exists'.mp ha
        obtain ⟨hPt, hrank⟩ := hstep s a t hs ht
        obtain ⟨as, s', hrun, hend⟩ := ih hPt (by omega)
        exact ⟨a :: as, s', Option.bind_eq_some_iff.mpr ⟨t, ht, hrun⟩, hend⟩

end Rank

/-- **A map that commutes with every step commutes with every run.** -/
theorem run_simulates {step : σ → α → Option σ} {step' : τ → α → Option τ} (f : σ → τ)
    (hstep : ∀ t a, step' (f t) a = (step t a).map f) (s : σ) (as : List α) :
    run step' (f s) as = (run step s as).map f := by
  induction as using List.reverseRecOn with
  | nil => rfl
  | append_singleton as a ih =>
      rw [run_concat, run_concat, ih]
      cases run step s as with
      | none => rfl
      | some t => exact hstep t a

/-! ## Response properties of a trace. -/

/-- Every `p`-action of the trace is followed, later on, by a `q`-action. -/
def Followed (p q : α → Prop) (as : List α) : Prop :=
  ∀ pre a post, as = pre ++ a :: post → p a → ∃ b ∈ post, q b

theorem followed_nil (p q : α → Prop) : Followed p q [] := by
  intro pre a post h
  simp at h

/-- A trace that ends in a `p`-action is not followed. -/
theorem not_followed_concat {p q : α → Prop} (as : List α) {a : α} (hp : p a) :
    ¬ Followed p q (as ++ [a]) := by
  intro h
  obtain ⟨b, hb, _⟩ := h as a [] rfl hp
  simp at hb

/-- A trace that ends in a `q`-action, itself no `p`-action, is followed. -/
theorem followed_concat {p q : α → Prop} (as : List α) {a : α} (hq : q a) (hp : ¬ p a) :
    Followed p q (as ++ [a]) := by
  intro pre b post h hb
  rcases List.eq_nil_or_concat' post with rfl | ⟨post', c, rfl⟩
  · have hab : a = b := by simpa using (List.append_inj' h rfl).2
    exact absurd hb (hab ▸ hp)
  · have hac : a = c := by
      have hlast := congrArg List.getLast? h
      simpa [List.getLast?_append, List.getLast?_cons] using hlast
    exact ⟨c, by simp, hac ▸ hq⟩

/-- Any other action leaves the property as it was. -/
theorem followed_concat_iff {p q : α → Prop} (as : List α) {a : α} (hq : ¬ q a) (hp : ¬ p a) :
    Followed p q (as ++ [a]) ↔ Followed p q as := by
  constructor
  · intro h pre b post has hb
    obtain ⟨c, hc, hqc⟩ := h pre b (post ++ [a]) (by simp [has]) hb
    rcases List.mem_append.mp hc with hc | hc
    · exact ⟨c, hc, hqc⟩
    · exact absurd (List.mem_singleton.mp hc ▸ hqc) hq
  · intro h pre b post has hb
    rcases List.eq_nil_or_concat' post with rfl | ⟨post', c, rfl⟩
    · have hab : a = b := by simpa using (List.append_inj' has rfl).2
      exact absurd hb (hab ▸ hp)
    · have hinit : as = pre ++ b :: post' := by
        have : as ++ [a] = (pre ++ b :: post') ++ [c] := by simpa using has
        exact (List.append_inj' this rfl).1
      obtain ⟨d, hd, hqd⟩ := h pre b post' hinit hb
      exact ⟨d, List.mem_append_left _ hd, hqd⟩

end KafKatch.Lib
