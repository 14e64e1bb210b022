/-
  KafKatch.Sniffer.UtHashChains
  ─────────────────────────────
  **THE BUCKET CHAINS OF A HASH TABLE.**

  `Chains m nb buckets items`: each bucket's chain is a doubly linked list of exactly those
  `items` whose hash value selects the bucket, and `count` is its length.

    • `Chains.insert` — an element put before the head of its chain,
    • `Chains.erase` — an element taken out of its chain.
-/
import KafKatch.Sniffer.UtHash
import Mathlib.Data.List.Perm.Subperm
import Mathlib.Tactic.Choose

namespace KafKatch.Sniffer.UtHash

open KafKatch.Lib

variable {β : Type}

/-! ## §1. Selecting a bucket. -/

/-- With a power of two of buckets the mask takes the low bits of the hash value. -/
theorem hash_to_bkt_eq {nb : UInt32} {k : Nat} (hnb : nb.toNat = 2 ^ k) (hashv : UInt32) :
    HASH_TO_BKT hashv nb = hashv.toNat % 2 ^ k := by
  unfold HASH_TO_BKT
  have hone : (1 : UInt32) ≤ nb := by
    rw [UInt32.le_iff_toNat_le, hnb]
    exact Nat.one_le_two_pow
  rw [UInt32.toNat_and, UInt32.toNat_sub_of_le _ _ hone, hnb]
  exact Nat.and_two_pow_sub_one_eq_mod _ _

/-- Every hash value selects a bucket that there is. -/
theorem hash_to_bkt_lt {nb : UInt32} {k : Nat} (hnb : nb.toNat = 2 ^ k) (hashv : UInt32) :
    HASH_TO_BKT hashv nb < nb.toNat := by
  rw [hash_to_bkt_eq hnb, hnb]
  exact Nat.mod_lt _ (Nat.two_pow_pos k)

/-- A chain that gets longer has its `count` incremented. -/
theorem ofNat_length_succ {α : Type} (l : List α) (a : α) :
    UInt32.ofNat (a :: l).length = UInt32.ofNat l.length + 1 := by
  rw [List.length_cons, UInt32.ofNat_add]
  rfl

/-! ## §2. Memory operations that cannot fail. -/

namespace Memory

variable {m : Memory β}

/-- The memory with the whole field `f` replaced. -/
def withLink (m : Memory β) (f : Link) (field : Nat → Option Nat) : Memory β :=
  { m with link := Function.update m.link f field }

/-- The field reads as it was set. -/
@[simp] theorem withLink_link (f : Link) (field : Nat → Option Nat) :
    (m.withLink f field).link f = field := Function.update_self _ _ _

/-- Other fields are not affected. -/
theorem withLink_link_of_ne {f g : Link} (h : g ≠ f) (field : Nat → Option Nat) :
    (m.withLink f field).link g = m.link g := Function.update_of_ne h _ _

/-- The last of two writes of a field remains. -/
theorem withLink_withLink (f : Link) (x y : Nat → Option Nat) :
    (m.withLink f x).withLink f y = m.withLink f y := by
  unfold withLink
  rw [Function.update_idem]

/-- Writes of different fields commute. -/
theorem withLink_comm {f g : Link} (h : f ≠ g) (x y : Nat → Option Nat) :
    (m.withLink f x).withLink g y = (m.withLink g y).withLink f x := by
  unfold withLink
  rw [Function.update_comm h]

/-- Links are not part of a table. -/
@[simp] theorem setTable_link (t : Nat) (T : UTHashTable) : (m.setTable t T).link = m.link := rfl

/-- A table reads as it was set. -/
@[simp] theorem setTable_table (t : Nat) (T : UTHashTable) :
    (m.setTable t T).table t = some T := Function.update_self _ _ _

/-- The last of two writes of a table remains. -/
theorem setTable_setTable (t : Nat) (T T' : UTHashTable) :
    (m.setTable t T).setTable t T' = m.setTable t T' := by
  unfold setTable
  rw [Function.update_idem]

/-- An allocated element passes the check. -/
theorem check_ok {a : Nat} (h : (m.elem a).isSome) : m.check a = .ok () := if_pos h

/-- A link of an allocated element can be read. -/
theorem load_ok {a : Nat} (h : (m.elem a).isSome) (f : Link) :
    m.load f a = .ok (m.link f a) := by
  unfold load
  rw [check_ok h]
  rfl

/-- A link of an allocated element can be written. -/
theorem store_ok {a : Nat} (h : (m.elem a).isSome) (f : Link) (v : Option Nat) :
    m.store f a v = .ok (m.withLink f (Function.update (m.link f) a v)) := by
  unfold store
  rw [check_ok h]
  rfl

/-- A store through a pointer that is NULL or leads to an element is a redirection. -/
theorem storeIf_ok {p : Option Nat} (h : ∀ a, p = some a → (m.elem a).isSome) (f : Link)
    (v : Option Nat) : m.storeIf f p v = .ok (m.withLink f (redirect (m.link f) p v)) := by
  cases p with
  | some a => exact store_ok (h a rfl) f v
  | none =>
      show Except.ok m = _
      rw [redirect_none, withLink, Function.update_eq_self]

/-- A table that is allocated can be read. -/
theorem tableAt_ok {t : Nat} {T : UTHashTable} (h : m.table t = some T) :
    m.tableAt t = .ok T := by
  unfold tableAt
  rw [h]
  rfl

/-- An element in a table leads to it. -/
theorem tblOf_ok {a t : Nat} {T : UTHashTable} (ha : (m.elem a).isSome) (ht : m.tbl a = some t)
    (hT : m.table t = some T) : m.tblOf a = .ok (t, T) := by
  unfold tblOf
  rw [check_ok ha, ht]
  show (do let T ← m.tableAt t; pure (t, T)) = _
  rw [tableAt_ok hT]
  rfl

end Memory

/-- A bucket within the array can be read. -/
theorem bucketAt_ok {buckets : List UTHashBucket} {i : Nat} {b : UTHashBucket}
    (h : buckets[i]? = some b) : bucketAt buckets i = .ok b := by
  unfold bucketAt
  rw [h]
  rfl

/-! ## §3. Linking and unlinking. -/

section Linking

variable {m : Memory β} {back fwd : Link}

/-- The memory after `a` was linked before `front`, the end of a list that has no `back` link. -/
def pushed (m : Memory β) (back fwd : Link) (front : Option Nat) (a : Nat) : Memory β :=
  (m.withLink fwd (Function.update (m.link fwd) a front)).withLink back
    (redirect (Function.update (m.link back) a none) front (some a))

/-- The old end points back to the new element. -/
theorem pushed_back (front : Option Nat) (a : Nat) :
    (pushed m back fwd front a).link back
      = redirect (Function.update (m.link back) a none) front (some a) :=
  Memory.withLink_link _ _

/-- The new element points forward to the old end. -/
theorem pushed_fwd (h : fwd ≠ back) (front : Option Nat) (a : Nat) :
    (pushed m back fwd front a).link fwd = Function.update (m.link fwd) a front := by
  unfold pushed
  rw [Memory.withLink_link_of_ne h, Memory.withLink_link]

/-- The other fields are left alone. -/
theorem pushed_other {f : Link} (hb : f ≠ back) (hf : f ≠ fwd) (front : Option Nat) (a : Nat) :
    (pushed m back fwd front a).link f = m.link f := by
  unfold pushed
  rw [Memory.withLink_link_of_ne hb, Memory.withLink_link_of_ne hf]

/-- So are the links of elements other than the new one and the old end. -/
theorem pushed_of_ne (h : fwd ≠ back) {front : Option Nat} {a x : Nat} (f : Link) (hx : x ≠ a)
    (hfront : front ≠ some x) : (pushed m back fwd front a).link f x = m.link f x := by
  by_cases hb : f = back
  · subst hb
    rw [pushed_back, redirect_of_ne hfront, Function.update_of_ne hx]
  · by_cases hf : f = fwd
    · subst hf
      rw [pushed_fwd h, Function.update_of_ne hx]
    · rw [pushed_other hb hf]

/-- The stores of a push, the forward link first. -/
theorem pushed_of_fwd_first (h : fwd ≠ back) {m₁ m₂ : Memory β} {front : Option Nat} {a : Nat}
    (h₁ : m₁ = m.withLink fwd (Function.update (m.link fwd) a front))
    (h₂ : m₂ = m₁.withLink back (Function.update (m₁.link back) a none)) :
    m₂.withLink back (redirect (m₂.link back) front (some a)) = pushed m back fwd front a := by
  have hback : m₁.link back = m.link back := by
    rw [h₁, Memory.withLink_link_of_ne h.symm]
  rw [h₂, Memory.withLink_link, hback, Memory.withLink_withLink, h₁]
  rfl

/-- The stores of a push, the back link first. -/
theorem pushed_of_back_first (h : fwd ≠ back) {m₁ m₂ : Memory β} {front : Option Nat} {a : Nat}
    (h₁ : m₁ = m.withLink back (Function.update (m.link back) a none))
    (h₂ : m₂ = m₁.withLink fwd (Function.update (m₁.link fwd) a front)) :
    m₂.withLink back (redirect (m₂.link back) front (some a)) = pushed m back fwd front a := by
  have hback : m₂.link back = Function.update (m.link back) a none := by
    rw [h₂, Memory.withLink_link_of_ne h.symm, h₁, Memory.withLink_link]
  have hfwd : m₁.link fwd = m.link fwd := by
    rw [h₁, Memory.withLink_link_of_ne h]
  rw [hback, h₂, hfwd, h₁, Memory.withLink_comm h.symm, Memory.withLink_withLink]
  rfl

/-- The memory after `a` was taken out of its list. -/
def unlinked (m : Memory β) (back fwd : Link) (a : Nat) : Memory β :=
  (m.withLink fwd (redirect (m.link fwd) (m.link back a) (m.link fwd a))).withLink back
    (redirect (m.link back) (m.link fwd a) (m.link back a))

/-- The successor points back past the element. -/
theorem unlinked_back (a : Nat) :
    (unlinked m back fwd a).link back
      = redirect (m.link back) (m.link fwd a) (m.link back a) :=
  Memory.withLink_link _ _

/-- The predecessor points forward past the element. -/
theorem unlinked_fwd (h : fwd ≠ back) (a : Nat) :
    (unlinked m back fwd a).link fwd
      = redirect (m.link fwd) (m.link back a) (m.link fwd a) := by
  unfold unlinked
  rw [Memory.withLink_link_of_ne h, Memory.withLink_link]

/-- The links of the other list are left alone. -/
theorem unlinked_other {f : Link} (hb : f ≠ back) (hf : f ≠ fwd) (a : Nat) :
    (unlinked m back fwd a).link f = m.link f := by
  unfold unlinked
  rw [Memory.withLink_link_of_ne hb, Memory.withLink_link_of_ne hf]

/-- Only the neighbours of `a` are written to. -/
theorem unlinked_of_ne (h : fwd ≠ back) {a x : Nat} (f : Link) (hb : m.link back a ≠ some x)
    (hf : m.link fwd a ≠ some x) : (unlinked m back fwd a).link f x = m.link f x := by
  by_cases hfb : f = back
  · subst hfb
    rw [unlinked_back, redirect_of_ne hf]
  · by_cases hff : f = fwd
    · subst hff
      rw [unlinked_fwd h, redirect_of_ne hb]
    · rw [unlinked_other hfb hff]

/-- The two stores of an unlinking. -/
theorem unlink_stores (h : fwd ≠ back) {a : Nat}
    (hb : ∀ x, m.link back a = some x → (m.elem x).isSome)
    (hf : ∀ x, m.link fwd a = some x → (m.elem x).isSome) :
    (do
      let m₁ ← m.storeIf fwd (m.link back a) (m.link fwd a)
      m₁.storeIf back (m.link fwd a) (m.link back a)) = Except.ok (unlinked m back fwd a) := by
  rw [Memory.storeIf_ok hb, ok_bind, Memory.storeIf_ok (m := Memory.withLink _ _ _) hf,
    Memory.withLink_link_of_ne h.symm]
  rfl

end Linking

/-! ## §4. Chains. -/

/-- `chain` is the chain of the `i`-th bucket `b`. -/
structure Chained (m : Memory β) (nb : UInt32) (items : List Nat) (i : Nat) (b : UTHashBucket)
    (chain : List Nat) : Prop where
  links : DList (m.link .hh_prev) (m.link .hh_next) b.hh_head chain.getLast? chain
  count : b.count = UInt32.ofNat chain.length
  mem : ∀ a, a ∈ chain ↔ a ∈ items ∧ HASH_TO_BKT (m.hashv a) nb = i

/-- Every bucket holds the items that it should. -/
def Chains (m : Memory β) (nb : UInt32) (buckets : List UTHashBucket) (items : List Nat) : Prop :=
  ∀ i b, buckets[i]? = some b → ∃ chain, Chained m nb items i b chain

section Chains

variable {m m' : Memory β} {nb : UInt32} {buckets : List UTHashBucket} {items items' : List Nat}

/-- A chain has no more elements than the table. -/
theorem Chained.length_le {i : Nat} {b : UTHashBucket} {chain : List Nat}
    (h : Chained m nb items i b chain) : chain.length ≤ items.length :=
  (List.subperm_of_subset h.links.nodup (fun a ha => ((h.mem a).mp ha).1)).length_le

/-- The chains depend on the links and hash values of the items only. -/
theorem Chains.congr (h : Chains m nb buckets items) (hmem : ∀ a, a ∈ items' ↔ a ∈ items)
    (hprev : ∀ a ∈ items, m'.link .hh_prev a = m.link .hh_prev a)
    (hnext : ∀ a ∈ items, m'.link .hh_next a = m.link .hh_next a)
    (hhash : ∀ a ∈ items, m'.hashv a = m.hashv a) : Chains m' nb buckets items' := by
  intro i b hb
  obtain ⟨chain, hc⟩ := h i b hb
  refine ⟨chain, hc.links.congr ?_ ?_, hc.count, ?_⟩
  · exact fun a ha => hprev a ((hc.mem a).mp ha).1
  · exact fun a ha => hnext a ((hc.mem a).mp ha).1
  · intro a
    rw [hc.mem, hmem]
    exact and_congr_right fun ha => by rw [hhash a ha]

/-- A new bucket array has empty chains. -/
theorem chains_replicate (n : Nat) : Chains m nb (List.replicate n zero_bucket) [] := by
  intro i b hb
  have hzero : b = zero_bucket := List.eq_of_mem_replicate (List.mem_of_getElem? hb)
  subst hzero
  exact ⟨[], DList.nil, rfl, by simp⟩

/-- **An element put before the head of its chain.** -/
theorem Chains.insert (h : Chains m nb buckets items) {a i : Nat} (ha : a ∉ items)
    (hi : HASH_TO_BKT (m.hashv a) nb = i) {b : UTHashBucket} (hb : buckets[i]? = some b)
    (expand_mult : UInt32) :
    Chains (pushed m .hh_prev .hh_next b.hh_head a) nb
      (buckets.set i ⟨some a, b.count + 1, expand_mult⟩)
      (items ++ [a]) := by
  intro j c hc
  by_cases hij : i = j
  · -- the chain that grows
    subst hij
    have hlt : i < buckets.length := (List.getElem?_eq_some_iff.mp hb).1
    rw [List.getElem?_set_self hlt, Option.some.injEq] at hc
    subst hc
    obtain ⟨chain, hchain⟩ := h i b hb
    have hnew : a ∉ chain := fun hin => ha ((hchain.mem a).mp hin).1
    -- its links, its count, and what is in it
    refine ⟨a :: chain, ?_, ?_, ?_⟩
    · have hlist := hchain.links.prepend hnew
      rw [pushed_fwd (by decide), pushed_back]
      cases chain with
      | nil => exact hlist
      | cons c chain => exact hlist
    · show b.count + 1 = _
      rw [hchain.count, ofNat_length_succ]
    · intro x
      rw [List.mem_cons, hchain.mem, List.mem_append, List.mem_singleton]
      constructor
      · rintro (rfl | ⟨hx, hbkt⟩)
        · exact ⟨.inr rfl, hi⟩
        · exact ⟨.inl hx, hbkt⟩
      · rintro ⟨hx | rfl, hbkt⟩
        · exact .inr ⟨hx, hbkt⟩
        · exact .inl rfl
  · -- the old head of the chain that grows is in no other chain
    rw [List.getElem?_set_ne hij] at hc
    obtain ⟨grown, hgrown⟩ := h i b hb
    obtain ⟨chain, hchain⟩ := h j c hc
    have hhead : ∀ x ∈ chain, b.hh_head ≠ some x := by
      intro x hx e
      have hxg : x ∈ grown := by
        rw [hgrown.links.head_eq] at e
        exact List.mem_of_mem_head? e
      exact hij (((hgrown.mem x).mp hxg).2.symm.trans ((hchain.mem x).mp hx).2)
    have hne : ∀ x ∈ chain, x ≠ a := fun x hx =>
      ne_of_mem_of_not_mem ((hchain.mem x).mp hx).1 ha
    refine ⟨chain, hchain.links.congr ?_ ?_, hchain.count, ?_⟩
    · intro x hx
      rw [pushed_back, redirect_of_ne (hhead x hx), Function.update_of_ne (hne x hx)]
    · intro x hx
      rw [pushed_fwd (by decide), Function.update_of_ne (hne x hx)]
    · intro x
      rw [hchain.mem, List.mem_append, List.mem_singleton]
      constructor
      · rintro ⟨hx, hbkt⟩
        exact ⟨.inl hx, hbkt⟩
      · rintro ⟨hx | rfl, hbkt⟩
        · exact ⟨hx, hbkt⟩
        · exact absurd (hi.symm.trans hbkt) hij

/-- The neighbours of an element of a chain are in the chain. -/
theorem Chained.hh_next_mem {i a x : Nat} {b : UTHashBucket} {chain : List Nat}
    (h : Chained m nb items i b chain) (ha : a ∈ chain) (hx : m.link .hh_next a = some x) :
    x ∈ chain := by
  obtain ⟨l₁, l₂, rfl⟩ := List.append_of_mem ha
  rw [h.links.next_eq] at hx
  exact List.mem_append_right _ (List.mem_cons_of_mem _ (List.mem_of_mem_head? hx))

/-- The element before one of a chain is in the chain. -/
theorem Chained.hh_prev_mem {i a x : Nat} {b : UTHashBucket} {chain : List Nat}
    (h : Chained m nb items i b chain) (ha : a ∈ chain) (hx : m.link .hh_prev a = some x) :
    x ∈ chain := by
  obtain ⟨l₁, l₂, rfl⟩ := List.append_of_mem ha
  rw [h.links.prev_eq] at hx
  exact List.mem_append_left _ (List.mem_of_getLast? hx)

/-- **An element taken out of its chain.** -/
theorem Chains.erase (h : Chains m nb buckets items) {a i : Nat} (ha : a ∈ items)
    (hi : HASH_TO_BKT (m.hashv a) nb = i) {b : UTHashBucket} (hb : buckets[i]? = some b)
    (hmem : ∀ x, x ∈ items' ↔ x ∈ items ∧ x ≠ a) :
    Chains (unlinked m .hh_prev .hh_next a) nb
      (buckets.set i
        { b with
          count := b.count - 1
          hh_head := if b.hh_head = some a then m.link .hh_next a else b.hh_head })
      items' := by
  obtain ⟨shrunk, hshrunk⟩ := h i b hb
  have hin : a ∈ shrunk := (hshrunk.mem a).mpr ⟨ha, hi⟩
  intro j c hc
  by_cases hij : i = j
  · subst hij
    have hlt : i < buckets.length := (List.getElem?_eq_some_iff.mp hb).1
    rw [List.getElem?_set_self hlt, Option.some.injEq] at hc
    subst hc
    -- the chain that shrinks, cut where the element is
    obtain ⟨l₁, l₂, rfl⟩ := List.append_of_mem hin
    refine ⟨l₁ ++ l₂, ?_, ?_, ?_⟩
    · have hlist := hshrunk.links.unlink
      rw [unlinked_fwd (by decide), unlinked_back]
      rw [if_congr hshrunk.links.head_eq_some_iff.symm rfl rfl] at hlist
      rw [← hlist.tail_eq]
      exact hlist
    · show b.count - 1 = _
      rw [hshrunk.count, List.perm_middle.length_eq, ofNat_length_succ, UInt32.add_sub_cancel]
    · intro x
      rw [mem_unlinked_iff hshrunk.links.nodup, hshrunk.mem, hmem]
      show (x ∈ items ∧ HASH_TO_BKT (m.hashv x) nb = i) ∧ x ≠ a
        ↔ (x ∈ items ∧ x ≠ a) ∧ HASH_TO_BKT (m.hashv x) nb = i
      rw [and_right_comm]
  · -- the neighbours that are patched are in no other chain
    rw [List.getElem?_set_ne hij] at hc
    obtain ⟨chain, hchain⟩ := h j c hc
    have hapart : ∀ x ∈ chain, x ∉ shrunk := fun x hx hxs =>
      hij (((hshrunk.mem x).mp hxs).2.symm.trans ((hchain.mem x).mp hx).2)
    refine ⟨chain, hchain.links.congr ?_ ?_, hchain.count, ?_⟩
    · intro x hx
      rw [unlinked_back, redirect_of_ne]
      exact fun e => hapart x hx (hshrunk.hh_next_mem hin e)
    · intro x hx
      rw [unlinked_fwd (by decide), redirect_of_ne]
      exact fun e => hapart x hx (hshrunk.hh_prev_mem hin e)
    · intro x
      rw [hchain.mem, hmem]
      constructor
      · rintro ⟨hx, hbkt⟩
        refine ⟨⟨hx, ?_⟩, hbkt⟩
        rintro rfl
        exact hij (hi.symm.trans hbkt)
      · rintro ⟨⟨hx, -⟩, hbkt⟩
        exact ⟨hx, hbkt⟩

end Chains

end KafKatch.Sniffer.UtHash
