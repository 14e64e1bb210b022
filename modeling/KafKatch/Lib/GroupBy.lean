/-
  KafKatch.Lib.GroupBy
  ────────────────────
  **KEYED TABLES AS AN INCREMENTAL GROUP-BY.**

  A table holds at most one entry per key.  An item either updates the entry
  of its key in place or appends a fresh one.  Folding a list of items into
  the empty table is a group-by:

    • `nodup_keys_groupBy` / `mem_keys_groupBy` — one entry per occurring key,
    • `groupBy_entry` — the entry of a key is the fold of that key's items,
    • `sum_groupBy` — a per-entry measure that is additive over the items of
      the entry sums to the same total over the items.

  `Keyed.traced` carries, next to each entry, the items folded into it.
-/
import Mathlib.Algebra.BigOperators.Group.List.Basic
import Mathlib.Data.List.Induction
import Mathlib.Data.List.Nodup
import Mathlib.Data.List.Perm.Basic

namespace KafKatch.Lib

/-! ## §1. Keyed entries and the in-place update. -/

/-- How items are folded into the entries of a table: the key an item names,
the key an entry carries, the entry made for a new key, and the update.  The
two laws say that an entry never changes its key. -/
structure Keyed (α β κ : Type*) where
  key : α → κ
  keyOf : β → κ
  fresh : κ → β
  update : β → α → β
  keyOf_fresh : ∀ k, keyOf (fresh k) = k
  keyOf_update : ∀ b a, keyOf (update b a) = keyOf b

namespace Keyed

variable {α β κ : Type*} [DecidableEq κ] (K : Keyed α β κ)

/-- Position of the first entry with key `k`. -/
def find (t : List β) (k : κ) : Option Nat :=
  t.findIdx? (fun b => decide (K.keyOf b = k))

/-- Update the entry of `a`'s key in place, or append a fresh one. -/
def upsert (t : List β) (a : α) : List β :=
  match K.find t (K.key a) with
  | some i => t.modify i (fun b => K.update b a)
  | none => t ++ [K.update (K.fresh (K.key a)) a]

/-- The table of a list of items. -/
def groupBy (as : List α) : List β := as.foldl K.upsert []

/-- The fold of the items with key `k`. -/
def tally (k : κ) (as : List α) : β :=
  (as.filter (fun a => decide (K.key a = k))).foldl K.update (K.fresh k)

/-- The current value of key `k`: its entry, or the fresh one. -/
def entry (t : List β) (k : κ) : β :=
  (t.find? (fun b => decide (K.keyOf b = k))).getD (K.fresh k)

@[simp] theorem upsert_nil (a : α) :
    K.upsert [] a = [K.update (K.fresh (K.key a)) a] := rfl

theorem upsert_cons_hit {b : β} {t : List β} {a : α} (h : K.keyOf b = K.key a) :
    K.upsert (b :: t) a = K.update b a :: t := by
  simp [upsert, find, List.findIdx?_cons, h]

theorem upsert_cons_miss {b : β} {t : List β} {a : α} (h : K.keyOf b ≠ K.key a) :
    K.upsert (b :: t) a = b :: K.upsert t a := by
  simp only [upsert, find, List.findIdx?_cons, h, decide_false, Bool.false_eq_true, if_false]
  cases t.findIdx? (fun b => decide (K.keyOf b = K.key a)) <;> simp

/-- The entry of the key is changed where it stands. -/
theorem upsert_append_hit {t₁ t₂ : List β} {b : β} {a : α}
    (h : ∀ x ∈ t₁, K.keyOf x ≠ K.key a) (hb : K.keyOf b = K.key a) :
    K.upsert (t₁ ++ b :: t₂) a = t₁ ++ K.update b a :: t₂ := by
  induction t₁ with
  | nil => exact K.upsert_cons_hit hb
  | cons x t₁ ih =>
      rw [List.cons_append, K.upsert_cons_miss (h x List.mem_cons_self),
        ih (fun y hy => h y (List.mem_cons_of_mem _ hy)), List.cons_append]

/-- A new key goes to the end. -/
theorem upsert_miss {t : List β} {a : α} (h : ∀ x ∈ t, K.keyOf x ≠ K.key a) :
    K.upsert t a = t ++ [K.update (K.fresh (K.key a)) a] := by
  induction t with
  | nil => exact K.upsert_nil a
  | cons x t ih =>
      rw [K.upsert_cons_miss (h x List.mem_cons_self),
        ih (fun y hy => h y (List.mem_cons_of_mem _ hy)), List.cons_append]

theorem upsert_ne_nil (t : List β) (a : α) : K.upsert t a ≠ [] := by
  cases t with
  | nil => simp
  | cons b t =>
      by_cases h : K.keyOf b = K.key a
      · simp [K.upsert_cons_hit h]
      · simp [K.upsert_cons_miss h]

/-- A property of entries that every update establishes or keeps. -/
theorem forall_upsert {P : β → Prop} {t : List β} {a : α}
    (hnew : P (K.update (K.fresh (K.key a)) a))
    (hold : ∀ b, P b → K.keyOf b = K.key a → P (K.update b a)) (ht : ∀ b ∈ t, P b) :
    ∀ b ∈ K.upsert t a, P b := by
  induction t with
  | nil => simpa using hnew
  | cons c t ih =>
      rw [List.forall_mem_cons] at ht
      by_cases h : K.keyOf c = K.key a
      · rw [K.upsert_cons_hit h, List.forall_mem_cons]
        exact ⟨hold c ht.1 h, ht.2⟩
      · rw [K.upsert_cons_miss h, List.forall_mem_cons]
        exact ⟨ht.1, ih ht.2⟩

@[simp] theorem groupBy_nil : K.groupBy [] = [] := rfl

@[simp] theorem groupBy_concat (as : List α) (a : α) :
    K.groupBy (as ++ [a]) = K.upsert (K.groupBy as) a := by
  simp [groupBy]

/-! ## §2. One entry per occurring key. -/

theorem keys_upsert (t : List β) (a : α) :
    (K.upsert t a).map K.keyOf
      = if K.key a ∈ t.map K.keyOf then t.map K.keyOf else t.map K.keyOf ++ [K.key a] := by
  induction t with
  | nil => simp [K.keyOf_update, K.keyOf_fresh]
  | cons b t ih =>
      -- a hit keeps every key, since an update never changes the key of its entry
      by_cases h : K.keyOf b = K.key a
      · simp [K.upsert_cons_hit h, K.keyOf_update, h]
      · have h' : K.key a ≠ K.keyOf b := fun e => h e.symm
        simp only [K.upsert_cons_miss h, List.map_cons, ih, List.mem_cons, h', false_or]
        split <;> rfl

theorem mem_keys_upsert (t : List β) (a : α) (k : κ) :
    k ∈ (K.upsert t a).map K.keyOf ↔ k ∈ t.map K.keyOf ∨ k = K.key a := by
  rw [K.keys_upsert]
  split
  next h =>
    constructor
    · exact Or.inl
    · rintro (hk | rfl)
      · exact hk
      · exact h
  next => simp

theorem nodup_keys_upsert {t : List β} (a : α) (h : (t.map K.keyOf).Nodup) :
    ((K.upsert t a).map K.keyOf).Nodup := by
  rw [K.keys_upsert]
  split
  next => exact h
  next hk => exact List.Nodup.append h (by simp) (by simpa using hk)

/-- An item adds at most one entry. -/
theorem length_upsert_le (t : List β) (a : α) : (K.upsert t a).length ≤ t.length + 1 := by
  have hkeys := congrArg List.length (K.keys_upsert t a)
  rw [List.length_map] at hkeys
  rw [hkeys]
  split
  next => simp
  next => simp

/-- **No key has two entries.** -/
theorem nodup_keys_groupBy (as : List α) : ((K.groupBy as).map K.keyOf).Nodup := by
  induction as using List.reverseRecOn with
  | nil => simp
  | append_singleton as a ih =>
      rw [K.groupBy_concat]
      exact K.nodup_keys_upsert a ih

/-- **The keys of the table are the keys of the items.** -/
theorem mem_keys_groupBy (as : List α) (k : κ) :
    k ∈ (K.groupBy as).map K.keyOf ↔ k ∈ as.map K.key := by
  induction as using List.reverseRecOn with
  | nil => simp
  | append_singleton as a ih =>
      rw [K.groupBy_concat, K.mem_keys_upsert, ih, List.map_append, List.mem_append]
      simp

/-! ## §3. Each entry is the fold of its key's items. -/

theorem entry_upsert (t : List β) (a : α) (k : κ) :
    K.entry (K.upsert t a) k
      = if K.key a = k then K.update (K.entry t k) a else K.entry t k := by
  induction t with
  | nil =>
      by_cases hk : K.key a = k
      · simp [entry, K.keyOf_update, K.keyOf_fresh, hk]
      · simp [entry, K.keyOf_update, K.keyOf_fresh, hk]
  | cons b t ih =>
      -- whether `b` takes the item, and whether `k` is the key that is asked for
      by_cases h : K.keyOf b = K.key a
      · rw [K.upsert_cons_hit h]
        by_cases hk : K.key a = k
        · simp [entry, K.keyOf_update, h, hk]
        · simp [entry, K.keyOf_update, h, hk]
      · rw [K.upsert_cons_miss h]
        by_cases hb : K.keyOf b = k
        · have hk : K.key a ≠ k := fun e => h (hb.trans e.symm)
          simp [entry, hb, hk]
        · simpa [entry, hb] using ih

theorem tally_concat (k : κ) (as : List α) (a : α) :
    K.tally k (as ++ [a])
      = if K.key a = k then K.update (K.tally k as) a else K.tally k as := by
  by_cases hk : K.key a = k <;> simp [tally, hk]

@[simp] theorem keyOf_tally (k : κ) (as : List α) : K.keyOf (K.tally k as) = k := by
  induction as using List.reverseRecOn with
  | nil => exact K.keyOf_fresh k
  | append_singleton as a ih =>
      rw [K.tally_concat]
      split
      · rw [K.keyOf_update, ih]
      · exact ih

theorem entry_groupBy (as : List α) (k : κ) : K.entry (K.groupBy as) k = K.tally k as := by
  induction as using List.reverseRecOn with
  | nil => rfl
  | append_singleton as a ih =>
      rw [K.groupBy_concat, K.entry_upsert, K.tally_concat, ih]

/-- In a table without repeated keys, an entry is the current value of its key. -/
theorem entry_of_mem {t : List β} (h : (t.map K.keyOf).Nodup) {b : β} (hb : b ∈ t) :
    K.entry t (K.keyOf b) = b := by
  induction t with
  | nil => simp at hb
  | cons c t ih =>
      simp only [List.map_cons, List.nodup_cons] at h
      rcases List.mem_cons.mp hb with rfl | hb
      · simp [entry]
      · have hne : K.keyOf c ≠ K.keyOf b := by
          intro e
          exact h.1 (e ▸ List.mem_map_of_mem hb)
        have := ih h.2 hb
        simpa [entry, hne] using this

/-- **The entry of a key is the fold of that key's items.** -/
theorem groupBy_entry {as : List α} {b : β} (hb : b ∈ K.groupBy as) :
    b = K.tally (K.keyOf b) as := by
  rw [← K.entry_groupBy, K.entry_of_mem (K.nodup_keys_groupBy as) hb]

omit [DecidableEq κ] in
/-- Induction over the items folded into one entry: the first one, then each further one. -/
theorem foldl_update_induction {I : β → List α → Prop} {b₀ : β} {as : List α} (hne : as ≠ [])
    (first : ∀ a ∈ as, I (K.update b₀ a) [a])
    (next : ∀ b seen a, seen ≠ [] → seen ++ [a] <+: as → I b seen →
      I (K.update b a) (seen ++ [a])) :
    I (as.foldl K.update b₀) as := by
  induction as using List.reverseRecOn with
  | nil => exact absurd rfl hne
  | append_singleton as a ih =>
      rw [List.foldl_concat]
      by_cases has : as = []
      · subst has
        exact first a (by simp)
      · have ih := ih has (fun x hx => first x (List.mem_append_left _ hx))
          (fun b seen x hseen hpre => next b seen x hseen (hpre.trans (List.prefix_append as [a])))
        exact next _ as a has (List.prefix_refl _) ih

/-! ## §4. Additive measures. -/

/-- In a list without repetition at most one summand is hit. -/
theorem sum_indicator {M : Type*} [AddCommMonoid M] (x : M) (k : κ) {ks : List κ}
    (hks : ks.Nodup) :
    (ks.map (fun j => if j = k then x else 0)).sum = if k ∈ ks then x else 0 := by
  induction ks with
  | nil => simp
  | cons j ks ih =>
      rw [List.nodup_cons] at hks
      rw [List.map_cons, List.sum_cons, ih hks.2]
      by_cases hj : j = k
      · subst hj
        simp [hks.1]
      · simp [hj, Ne.symm hj]

/-- Regrouping a sum: over keys without repetition that cover the items. -/
theorem sum_regroup {M : Type*} [AddCommMonoid M] (w : α → M) (ks : List κ) (hks : ks.Nodup)
    (as : List α) (hcov : ∀ a ∈ as, K.key a ∈ ks) :
    (ks.map (fun k => ((as.filter (fun a => decide (K.key a = k))).map w).sum)).sum
      = (as.map w).sum := by
  induction as with
  | nil => simp
  | cons a as ih =>
      have ih := ih (fun x hx => hcov x (List.mem_cons_of_mem _ hx))
      -- `a` goes to the group of its own key and to no other
      have hsplit : ∀ k, (((a :: as).filter (fun a => decide (K.key a = k))).map w).sum
          = (if k = K.key a then w a else 0)
            + ((as.filter (fun a => decide (K.key a = k))).map w).sum := by
        intro k
        by_cases h : K.key a = k
        · simp [h]
        · simp [h, Ne.symm h]
      have hone : (ks.map (fun k => if k = K.key a then w a else 0)).sum = w a := by
        have hmem := hcov a List.mem_cons_self
        rw [sum_indicator (w a) (K.key a) hks, if_pos hmem]
      simp only [hsplit, List.sum_map_add, hone, ih, List.map_cons, List.sum_cons]

/-- **A measure that is additive on every entry has the items' total.** -/
theorem sum_groupBy {M : Type*} [AddCommMonoid M] (m : β → M) (w : α → M) (as : List α)
    (h : ∀ k ∈ as.map K.key,
      m (K.tally k as) = ((as.filter (fun a => decide (K.key a = k))).map w).sum) :
    ((K.groupBy as).map m).sum = (as.map w).sum := by
  -- every entry is the tally of its key, so the sum runs over keys, not entries
  have hentry : (K.groupBy as).map m
      = ((K.groupBy as).map K.keyOf).map
          (fun k => ((as.filter (fun a => decide (K.key a = k))).map w).sum) := by
    rw [List.map_map]
    apply List.map_congr_left
    intro b hb
    have hk : K.keyOf b ∈ as.map K.key :=
      (K.mem_keys_groupBy as _).mp (List.mem_map_of_mem hb)
    rw [Function.comp_apply, ← h _ hk, ← K.groupBy_entry hb]
  rw [hentry]
  apply K.sum_regroup w _ (K.nodup_keys_groupBy as)
  intro a ha
  exact (K.mem_keys_groupBy as _).mpr (List.mem_map_of_mem ha)

/-! ## §5. Entries that remember their items. -/

end Keyed

/-- An entry together with the items folded into it, in order. -/
structure Traced (α β : Type*) where
  entry : β
  items : List α
  deriving Repr, DecidableEq

namespace Keyed

variable {α β κ : Type*} (K : Keyed α β κ)

/-- The same table, each entry remembering the items folded into it. -/
def traced : Keyed α (Traced α β) κ where
  key := K.key
  keyOf b := K.keyOf b.entry
  fresh k := ⟨K.fresh k, []⟩
  update b a := ⟨K.update b.entry a, b.items ++ [a]⟩
  keyOf_fresh := K.keyOf_fresh
  keyOf_update b a := K.keyOf_update b.entry a

/-- `b` is exactly the fold of the items it remembers, all of its own key. -/
def Honest (b : Traced α β) : Prop :=
  b.entry = b.items.foldl K.update (K.fresh (K.keyOf b.entry))
    ∧ ∀ a ∈ b.items, K.key a = K.keyOf b.entry

theorem honest_update {b : Traced α β} {a : α} (hb : K.Honest b)
    (hk : K.keyOf b.entry = K.key a) : K.Honest (K.traced.update b a) := by
  obtain ⟨hfold, hkeys⟩ := hb
  constructor
  · simp only [traced, K.keyOf_update, List.foldl_concat]
    rw [← hfold]
  · intro x hx
    simp only [traced, List.mem_append, List.mem_singleton, K.keyOf_update] at hx ⊢
    rcases hx with hx | rfl
    · exact hkeys x hx
    · exact hk.symm

theorem honest_fresh (k : κ) : K.Honest (K.traced.fresh k) := by
  constructor
  · simp [traced, K.keyOf_fresh]
  · simp [traced]

variable [DecidableEq κ]

/-- Forgetting the items gives the plain table. -/
theorem map_entry_upsert_traced (t : List (Traced α β)) (a : α) :
    (K.traced.upsert t a).map Traced.entry = K.upsert (t.map Traced.entry) a := by
  induction t with
  | nil => rfl
  | cons b t ih =>
      by_cases h : K.keyOf b.entry = K.key a
      · rw [K.traced.upsert_cons_hit h, List.map_cons, List.map_cons, K.upsert_cons_hit h]
        rfl
      · rw [K.traced.upsert_cons_miss h, List.map_cons, List.map_cons, K.upsert_cons_miss h, ih]

/-- One item more is remembered, exactly once. -/
theorem items_upsert_traced (t : List (Traced α β)) (a : α) :
    ((K.traced.upsert t a).flatMap Traced.items).Perm (a :: t.flatMap Traced.items) := by
  induction t with
  | nil => simp [traced]
  | cons b t ih =>
      by_cases h : K.keyOf b.entry = K.key a
      · rw [K.traced.upsert_cons_hit h]
        simp only [List.flatMap_cons, traced, List.append_assoc, List.singleton_append]
        exact List.perm_middle
      · rw [K.traced.upsert_cons_miss h]
        simp only [List.flatMap_cons]
        exact (ih.append_left b.items).trans List.perm_middle

theorem honest_upsert_traced {t : List (Traced α β)} (a : α) (ht : ∀ b ∈ t, K.Honest b) :
    ∀ b ∈ K.traced.upsert t a, K.Honest b :=
  K.traced.forall_upsert (K.honest_update (K.honest_fresh _) (K.keyOf_fresh _))
    (fun _ hb hk => K.honest_update hb hk) ht

/-- No entry is made without an item. -/
theorem items_ne_nil_upsert_traced {t : List (Traced α β)} (a : α)
    (ht : ∀ b ∈ t, b.items ≠ []) : ∀ b ∈ K.traced.upsert t a, b.items ≠ [] :=
  K.traced.forall_upsert (by simp [traced]) (fun _ _ _ => by simp [traced]) ht

end Keyed

end KafKatch.Lib
