/-
  KafKatch.Lib.DoublyLinked
  ─────────────────────────
  **INTRUSIVE DOUBLY LINKED LISTS.**

  The links of a node are fields of the node; a memory is one function per field.  `Path` follows
  one field from a pointer through a list of nodes, and `DList` is a path of `next` from the head
  together with a path of `prev` from the tail.  Swapping the two fields reverses the list
  (`DList.mirror`), so each operation is proved for one end only:

    • `DList.prepend`, `DList.append` — a new node at either end,
    • `DList.unlink` — a node out of the middle, with the neighbours patched,
    • `DList.congr` — a list does not depend on the links of other nodes.
-/
import Mathlib.Data.List.Basic
import Mathlib.Data.List.Nodup
import Mathlib.Logic.Function.Basic

namespace KafKatch.Lib

variable {α : Type*}

/-! ## §1. Following one field. -/

/-- From `p`, the field `next` leads through the nodes `l`, in order, and then to `q`. -/
def Path (next : α → Option α) : Option α → List α → Option α → Prop
  | p, [], q => p = q
  | p, a :: l, q => p = some a ∧ Path next (next a) l q

@[simp] theorem path_nil {next : α → Option α} {p q : Option α} : Path next p [] q ↔ p = q :=
  Iff.rfl

@[simp] theorem path_cons {next : α → Option α} {p q : Option α} {a : α} {l : List α} :
    Path next p (a :: l) q ↔ p = some a ∧ Path next (next a) l q := Iff.rfl

theorem path_append {next : α → Option α} {p q : Option α} {l r : List α} :
    Path next p (l ++ r) q ↔ ∃ m, Path next p l m ∧ Path next m r q := by
  induction l generalizing p with
  | nil => simp
  | cons a l ih =>
      rw [List.cons_append, path_cons, ih]
      constructor
      · rintro ⟨hp, m, hl, hr⟩
        exact ⟨m, ⟨hp, hl⟩, hr⟩
      · rintro ⟨m, ⟨hp, hl⟩, hr⟩
        exact ⟨hp, m, hl, hr⟩

/-- A path to NULL starts at its first node. -/
theorem Path.start {next : α → Option α} {p : Option α} {l : List α} (h : Path next p l none) :
    p = l.head? := by
  cases l with
  | nil => exact h
  | cons a l => exact h.1

/-- A path reads the links of its own nodes only. -/
theorem Path.congr {next next' : α → Option α} {p q : Option α} {l : List α}
    (h : Path next p l q) (heq : ∀ a ∈ l, next' a = next a) : Path next' p l q := by
  induction l generalizing p with
  | nil => exact h
  | cons a l ih =>
      obtain ⟨hp, hl⟩ := h
      refine ⟨hp, ?_⟩
      rw [heq a List.mem_cons_self]
      exact ih hl (fun b hb => heq b (List.mem_cons_of_mem _ hb))

/-! ## §2. Writing through a pointer. -/

variable [DecidableEq α]

/-- The field after `if (p) p->field = v`. -/
def redirect (field : α → Option α) (p v : Option α) : α → Option α :=
  p.elim field (fun a => Function.update field a v)

@[simp] theorem redirect_none (field : α → Option α) (v : Option α) :
    redirect field none v = field := rfl

@[simp] theorem redirect_some (field : α → Option α) (a : α) (v : Option α) :
    redirect field (some a) v = Function.update field a v := rfl

theorem redirect_of_ne {field : α → Option α} {p v : Option α} {a : α} (h : p ≠ some a) :
    redirect field p v a = field a := by
  cases p with
  | none => rfl
  | some b => exact Function.update_of_ne (fun e => h (by rw [e])) _ _

/-- Turning the last link of a path elsewhere. -/
theorem Path.retarget {next : α → Option α} {p q : Option α} {l : List α}
    (h : Path next p l q) (hnd : l.Nodup) (v : Option α) :
    Path (redirect next l.getLast? v) (if l = [] then v else p) l v := by
  rcases List.eq_nil_or_concat' l with rfl | ⟨l, b, rfl⟩
  · rfl
  · have hb : b ∉ l := fun hb => (List.nodup_append.mp hnd).2.2 b hb b (by simp) rfl
    obtain ⟨m, hl, hm, -⟩ := path_append.mp h
    rw [if_neg (by simp), List.getLast?_concat, redirect_some, path_append]
    refine ⟨m, hl.congr ?_, hm, ?_⟩
    · intro a ha
      exact Function.update_of_ne (ne_of_mem_of_not_mem ha hb) _ _
    · exact Function.update_self _ _ _

/-! ## §3. Both directions. -/

omit [DecidableEq α] in
theorem mem_middle {l₁ l₂ : List α} {a x : α} (hx : x ∈ l₁ ++ l₂) : x ∈ l₁ ++ a :: l₂ := by
  rcases List.mem_append.mp hx with hx | hx
  · exact List.mem_append_left _ hx
  · exact List.mem_append_right _ (List.mem_cons_of_mem _ hx)

omit [DecidableEq α] in
/-- What is left of a list without repetition when `a` is taken out. -/
theorem mem_unlinked_iff {l₁ l₂ : List α} {a : α} (hnd : (l₁ ++ a :: l₂).Nodup) (x : α) :
    x ∈ l₁ ++ l₂ ↔ x ∈ l₁ ++ a :: l₂ ∧ x ≠ a := by
  rw [List.nodup_middle, List.nodup_cons] at hnd
  rw [List.perm_middle.mem_iff, List.mem_cons]
  constructor
  · exact fun hx => ⟨.inr hx, ne_of_mem_of_not_mem hx hnd.1⟩
  · rintro ⟨rfl | hx, hne⟩
    · exact absurd rfl hne
    · exact hx

/-- `l` is the doubly linked list from `head` to `tail`. -/
structure DList (prev next : α → Option α) (head tail : Option α) (l : List α) : Prop where
  forward : Path next head l none
  backward : Path prev tail l.reverse none
  nodup : l.Nodup

namespace DList

variable {prev next prev' next' : α → Option α} {head tail : Option α} {l : List α}

omit [DecidableEq α] in
theorem nil : DList prev next none none [] := ⟨rfl, rfl, List.nodup_nil⟩

omit [DecidableEq α] in
/-- The same list from its other end. -/
theorem mirror (h : DList prev next head tail l) : DList next prev tail head l.reverse where
  forward := h.backward
  backward := by
    rw [List.reverse_reverse]
    exact h.forward
  nodup := List.nodup_reverse.mpr h.nodup

omit [DecidableEq α] in
theorem head_eq (h : DList prev next head tail l) : head = l.head? := h.forward.start

omit [DecidableEq α] in
theorem tail_eq (h : DList prev next head tail l) : tail = l.getLast? := by
  rw [h.backward.start, List.head?_reverse]

omit [DecidableEq α] in
/-- A list does not depend on the links of other nodes. -/
theorem congr (h : DList prev next head tail l) (hprev : ∀ a ∈ l, prev' a = prev a)
    (hnext : ∀ a ∈ l, next' a = next a) : DList prev' next' head tail l where
  forward := h.forward.congr hnext
  backward := h.backward.congr (fun a ha => hprev a (List.mem_reverse.mp ha))
  nodup := h.nodup

omit [DecidableEq α] in
/-- The links of a node in the middle. -/
theorem next_eq {l₁ l₂ : List α} {a : α} (h : DList prev next head tail (l₁ ++ a :: l₂)) :
    next a = l₂.head? := by
  obtain ⟨m, -, -, hr⟩ := path_append.mp h.forward
  exact hr.start

omit [DecidableEq α] in
theorem prev_eq {l₁ l₂ : List α} {a : α} (h : DList prev next head tail (l₁ ++ a :: l₂)) :
    prev a = l₁.getLast? := by
  have hm := h.mirror
  rw [List.reverse_append, List.reverse_cons, List.append_assoc, List.singleton_append] at hm
  rw [hm.next_eq, List.head?_reverse]

omit [DecidableEq α] in
/-- The head has no predecessor, and no other node lacks one. -/
theorem head_eq_some_iff {l₁ l₂ : List α} {a : α}
    (h : DList prev next head tail (l₁ ++ a :: l₂)) : head = some a ↔ prev a = none := by
  rw [h.prev_eq, h.head_eq, List.getLast?_eq_none_iff]
  constructor
  · intro hhead
    cases l₁ with
    | nil => rfl
    | cons c l₁ =>
        rw [List.cons_append, List.head?_cons, Option.some.injEq] at hhead
        subst hhead
        exact absurd (List.mem_append_right _ List.mem_cons_self) (List.nodup_cons.mp h.nodup).1
  · rintro rfl
    rfl

omit [DecidableEq α] in
theorem tail_eq_some_iff {l₁ l₂ : List α} {a : α}
    (h : DList prev next head tail (l₁ ++ a :: l₂)) : tail = some a ↔ next a = none := by
  have hm := h.mirror
  rw [List.reverse_append, List.reverse_cons, List.append_assoc, List.singleton_append] at hm
  exact hm.head_eq_some_iff

/-- **A new node before the head.** -/
theorem prepend (h : DList prev next head tail l) {a : α} (ha : a ∉ l) :
    DList (redirect (Function.update prev a none) head (some a)) (Function.update next a head)
      (some a) (if l = [] then some a else tail) (a :: l) where
  forward := by
    refine ⟨rfl, ?_⟩
    rw [Function.update_self]
    exact h.forward.congr (fun b hb => Function.update_of_ne (ne_of_mem_of_not_mem hb ha) _ _)
  backward := by
    have hback : Path (Function.update prev a none) tail l.reverse none :=
      h.backward.congr (fun b hb =>
        Function.update_of_ne (ne_of_mem_of_not_mem (List.mem_reverse.mp hb) ha) _ _)
    have hturn := hback.retarget (List.nodup_reverse.mpr h.nodup) (some a)
    rw [List.getLast?_reverse, ← h.head_eq, if_congr List.reverse_eq_nil_iff rfl rfl] at hturn
    rw [List.reverse_cons, path_append]
    refine ⟨some a, hturn, rfl, ?_⟩
    -- the old head is another node
    have hne : head ≠ some a := by
      rw [h.head_eq]
      exact fun e => ha (List.mem_of_mem_head? e)
    rw [redirect_of_ne hne, Function.update_self]
    rfl
  nodup := List.nodup_cons.mpr ⟨ha, h.nodup⟩

/-- **A new node after the tail.** -/
theorem append (h : DList prev next head tail l) {a : α} (ha : a ∉ l) :
    DList (Function.update prev a tail) (redirect (Function.update next a none) tail (some a))
      (if l = [] then some a else head) (some a) (l ++ [a]) := by
  have hm := (h.mirror.prepend (fun hr => ha (List.mem_reverse.mp hr))).mirror
  rw [List.reverse_cons, List.reverse_reverse, if_congr List.reverse_eq_nil_iff rfl rfl] at hm
  exact hm

/-- The forward half of `unlink`. -/
theorem path_unlink {l₁ l₂ : List α} {a : α} (h : Path next head (l₁ ++ a :: l₂) none)
    (hnd : (l₁ ++ a :: l₂).Nodup) :
    Path (redirect next l₁.getLast? (next a)) (if l₁ = [] then next a else head) (l₁ ++ l₂)
      none := by
  obtain ⟨hnd₁, -, hdisj⟩ := List.nodup_append.mp hnd
  obtain ⟨m, hl, hm, hr⟩ := path_append.mp h
  refine path_append.mpr ⟨next a, hl.retarget hnd₁ (next a), hr.congr ?_⟩
  intro b hb
  apply redirect_of_ne
  intro e
  exact hdisj b (List.mem_of_getLast? e) b (List.mem_cons_of_mem _ hb) rfl

/-- **A node taken out**: its neighbours are linked to each other, and an end that it was moves
on. -/
theorem unlink {l₁ l₂ : List α} {a : α} (h : DList prev next head tail (l₁ ++ a :: l₂)) :
    DList (redirect prev (next a) (prev a)) (redirect next (prev a) (next a))
      (if prev a = none then next a else head) (if next a = none then prev a else tail)
      (l₁ ++ l₂) where
  forward := by
    have hpath := path_unlink h.forward h.nodup
    rw [← h.prev_eq] at hpath
    have hend : (l₁ = []) ↔ prev a = none := by
      rw [h.prev_eq, List.getLast?_eq_none_iff]
    rwa [if_congr hend rfl rfl] at hpath
  backward := by
    have hm := h.mirror
    rw [List.reverse_append, List.reverse_cons, List.append_assoc, List.singleton_append] at hm
    have hpath := path_unlink hm.forward hm.nodup
    have hend : (l₂.reverse = []) ↔ next a = none := by
      rw [h.next_eq, List.head?_eq_none_iff, List.reverse_eq_nil_iff]
    rw [← hm.prev_eq, if_congr hend rfl rfl] at hpath
    rw [List.reverse_append]
    exact hpath
  nodup := by
    have hnd := h.nodup
    rw [List.nodup_middle] at hnd
    exact hnd.of_cons

end DList

end KafKatch.Lib
