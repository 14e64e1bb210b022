/-
  KafKatch.Lib.SlidingWindow — the last `n` elements of a growing list, kept by eviction.

  A window that is pushed at the end and evicted at the front is always the last `n` elements of
  everything pushed (`push_rtake`).  A summary that can undo the removal of the front element
  follows the window through the eviction loop (`evict_tracks`).  A window that is resized on the
  way is still a suffix of everything pushed (`window_suffix`).  A maximum cannot undo a removal,
  but it only has to be looked for again if the element removed attains it (`highest_evicted`).
-/
import Mathlib.Data.List.DropRight
import Mathlib.Order.Bounds.Basic
import Mathlib.Order.MinMax

namespace KafKatch.Lib

variable {α σ : Type*}

/-! ## §1. The window. -/

theorem rtake_of_length_le {n : Nat} {xs : List α} (h : xs.length ≤ n) : xs.rtake n = xs := by
  rw [List.rtake, Nat.sub_eq_zero_of_le h, List.drop_zero]

theorem rtake_suffix (n : Nat) (xs : List α) : xs.rtake n <:+ xs := List.drop_suffix _ _

theorem length_rtake_le (n : Nat) (xs : List α) : (xs.rtake n).length ≤ n := by
  rw [List.rtake, List.length_drop]
  omega

/-- An element in front of `n` others is out of the window. -/
theorem rtake_cons {n : Nat} {x : α} {xs : List α} (h : n ≤ xs.length) :
    (x :: xs).rtake n = xs.rtake n := by
  have hdrop : (x :: xs).length - n = (xs.length - n) + 1 := by
    rw [List.length_cons]
    omega
  rw [List.rtake, hdrop, List.drop_succ_cons, List.rtake]

/-- **A push to the window is a push to the whole history.** -/
theorem push_rtake (n : Nat) (xs : List α) (x : α) :
    (xs.rtake n ++ [x]).rtake n = (xs ++ [x]).rtake n := by
  cases n with
  | zero => rw [List.rtake_zero, List.rtake_zero]
  | succ n =>
      rw [List.rtake_concat_succ, List.rtake_concat_succ]
      congr 1
      rw [List.rtake, List.rtake, List.rtake, List.drop_drop, List.length_drop]
      congr 1
      omega

theorem length_push_rtake_le (n : Nat) (xs : List α) (x : α) :
    (xs.rtake n ++ [x]).length ≤ n + 1 := by
  rw [List.length_append, List.length_singleton]
  exact Nat.succ_le_succ (length_rtake_le n xs)

/-! ## §2. The eviction loop. -/

/-- Remove elements from the front while there are more than `limit`, undoing each one in the
summary; `none` if an element is to be removed from an empty window. -/
def evict (undo : σ → α → σ) (limit : Int) : List α → σ → Option (List α × σ)
  | [], s => if limit < 0 then none else some ([], s)
  | x :: xs, s =>
      if limit < xs.length + 1 then evict undo limit xs (undo s x) else some (x :: xs, s)

/-- **The summary follows the window**: eviction leaves the last `n` elements and their
summary. -/
theorem evict_tracks {undo : σ → α → σ} {f : List α → σ}
    (hundo : ∀ x xs, undo (f (x :: xs)) x = f xs) (n : Nat) (xs : List α) :
    evict undo n xs (f xs) = some (xs.rtake n, f (xs.rtake n)) := by
  induction xs with
  | nil => rw [evict, if_neg (by omega), List.rtake_nil]
  | cons x xs ih =>
      rw [evict]
      -- `x` is evicted exactly if `n` elements are behind it
      by_cases h : n ≤ xs.length
      · rw [if_pos (by omega), hundo, ih, rtake_cons h]
      · rw [if_neg (by omega), rtake_of_length_le (by rw [List.length_cons]; omega)]

/-- Evicting one element is enough for a window that is one too long. -/
theorem rtake_of_cons_too_long {n : Nat} {x : α} {xs : List α} (h : (x :: xs).length = n + 1) :
    (x :: xs).rtake n = xs := by
  have hlen : xs.length = n := by simpa using h
  rw [rtake_cons hlen.ge, rtake_of_length_le hlen.le]

/-- **The loop fails exactly for a negative limit**: an empty window is still too long. -/
theorem evict_eq_none_iff {undo : σ → α → σ} {limit : Int} {xs : List α} {s : σ} :
    evict undo limit xs s = none ↔ limit < 0 := by
  induction xs generalizing s with
  | nil =>
      rw [evict]
      by_cases h : limit < 0
      · rw [if_pos h]
        exact iff_of_true rfl h
      · rw [if_neg h]
        exact iff_of_false (Option.some_ne_none _) h
  | cons x xs ih =>
      rw [evict]
      by_cases h : limit < xs.length + 1
      · rw [if_pos h, ih]
      · rw [if_neg h]
        exact iff_of_false (Option.some_ne_none _) (by omega)

/-! ## §3. A window that is resized. -/

/-- What happens to a window. -/
inductive WindowOp (α : Type*) where
  | push (x : α)
  | resize (size : Nat)

/-- A window, with the size it is cut to at every push. -/
structure Window (α : Type*) where
  values : List α
  size : Nat

/-- A push cuts the window to its size.  A resize evicts nothing until the next push. -/
def Window.step (w : Window α) : WindowOp α → Window α
  | .push x => { w with values := (w.values ++ [x]).rtake w.size }
  | .resize size => { w with size := size }

/-- The elements pushed, in order. -/
def pushed (ops : List (WindowOp α)) : List α :=
  ops.filterMap (fun op => match op with | .push x => some x | .resize _ => none)

/-- One operation keeps the window a suffix. -/
theorem Window.step_suffix {w : Window α} {xs : List α} (h : w.values <:+ xs) (op : WindowOp α) :
    (w.step op).values <:+ xs ++ pushed [op] := by
  cases op with
  | push x =>
      obtain ⟨before, hbefore⟩ := h
      have happend : w.values ++ [x] <:+ xs ++ [x] := ⟨before, by rw [← hbefore]; simp⟩
      exact (rtake_suffix w.size (w.values ++ [x])).trans happend
  | resize size =>
      show w.values <:+ xs ++ []
      rw [List.append_nil]
      exact h

/-- **A window is a suffix of everything pushed, whatever its sizes were.** -/
theorem window_suffix (size : Nat) (ops : List (WindowOp α)) :
    (ops.foldl Window.step ⟨[], size⟩).values <:+ pushed ops := by
  induction ops using List.reverseRecOn with
  | nil => exact List.suffix_refl []
  | append_singleton ops op ih =>
      rw [List.foldl_concat, pushed, List.filterMap_append]
      exact Window.step_suffix ih op

/-! ## §4. The maximum of the window. -/

section Highest

variable {β : Type*} [LinearOrder β]

/-- The largest of `bottom` and the elements. -/
def highest (bottom : β) (xs : List β) : β := xs.foldl max bottom

theorem highest_concat (bottom : β) (xs : List β) (x : β) :
    highest bottom (xs ++ [x]) = max (highest bottom xs) x := by
  simp [highest]

theorem highest_cons (bottom : β) (x : β) (xs : List β) :
    highest bottom (x :: xs) = max x (highest bottom xs) := by
  induction xs using List.reverseRecOn with
  | nil => exact max_comm bottom x
  | append_singleton xs y ih =>
      rw [← List.cons_append, highest_concat, highest_concat, ih, max_assoc]

/-- **An element below the maximum can be evicted without looking for a new one.** -/
theorem highest_evicted {bottom x : β} {xs : List β} (h : x < highest bottom (x :: xs)) :
    highest bottom xs = highest bottom (x :: xs) := by
  rw [highest_cons] at h ⊢
  rcases le_total x (highest bottom xs) with hle | hle
  · exact (max_eq_right hle).symm
  · rw [max_eq_left hle] at h
    exact absurd h (lt_irrefl x)

theorem highest_mem {bottom : β} {xs : List β} (hne : xs ≠ []) (hbottom : ∀ x ∈ xs, bottom ≤ x) :
    highest bottom xs ∈ xs := by
  induction xs using List.reverseRecOn with
  | nil => exact absurd rfl hne
  | append_singleton xs x ih =>
      rw [highest_concat]
      by_cases hxs : xs = []
      · subst hxs
        have hle : bottom ≤ x := hbottom x (by simp)
        simp [highest, hle]
      · rcases max_choice (highest bottom xs) x with h | h <;> rw [h]
        · exact List.mem_append_left _ (ih hxs (fun y hy => hbottom y (List.mem_append_left _ hy)))
        · simp

theorem le_highest (bottom : β) {xs : List β} {x : β} (hx : x ∈ xs) : x ≤ highest bottom xs := by
  induction xs using List.reverseRecOn with
  | nil => simp at hx
  | append_singleton xs y ih =>
      rw [highest_concat]
      rcases List.mem_append.mp hx with hx | hx
      · exact (ih hx).trans (le_max_left _ _)
      · exact (List.mem_singleton.mp hx).le.trans (le_max_right _ _)

/-- Over a bottom that no element is below, it is the greatest element. -/
theorem isGreatest_highest {bottom : β} {xs : List β} (hne : xs ≠ [])
    (hbottom : ∀ x ∈ xs, bottom ≤ x) : IsGreatest {x | x ∈ xs} (highest bottom xs) :=
  ⟨highest_mem hne hbottom, fun _ hx => le_highest bottom hx⟩

end Highest

end KafKatch.Lib
