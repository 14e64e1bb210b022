/-
  KafKatch.Sniffer.UtHashExpand
  ─────────────────────────────
  **`HASH_EXPAND_BUCKETS` REDISTRIBUTES THE ITEMS.**

  `Moved` says what holds after the items `done` were moved to the doubled bucket array.  Moving
  one more keeps it (`rehash_item_spec`), so does a whole old chain (`rehash_chain_spec`) and the
  whole old array (`rehash_buckets_spec`), whose chains partition the items.
-/
import KafKatch.Sniffer.UtHashChains
import Mathlib.Algebra.BigOperators.Group.List.Basic

namespace KafKatch.Sniffer.UtHash

open KafKatch.Lib

variable {β : Type}

/-! ## §1. Moving one item. -/

/-- The items of a bucket array whose chain position exceeds `ideal`. -/
def excess (ideal : UInt32) (buckets : List UTHashBucket) : Nat :=
  (buckets.map fun b => b.count.toNat - ideal.toNat).sum

/-- The state of the loops after the items `done` were moved, from the memory `m₀`. -/
structure Moved (m₀ : Memory β) (nb ideal : UInt32) (s : Rehash β) (done : List Nat) : Prop where
  elem : s.mem.elem = m₀.elem
  tbl : s.mem.tbl = m₀.tbl
  hashv : s.mem.hashv = m₀.hashv
  table : s.mem.table = m₀.table
  prev : s.mem.link .prev = m₀.link .prev
  next : s.mem.link .next = m₀.link .next
  outside : ∀ f, ∀ a ∉ done, s.mem.link f a = m₀.link f a
  length : s.new_buckets.length = (nb * 2).toNat
  chains : Chains s.mem (nb * 2) s.new_buckets done
  nonideal : done.length < 2 ^ 32 → s.nonideal_items = UInt32.ofNat (excess ideal s.new_buckets)

/-- One bucket that grows by an item. -/
theorem excess_set {ideal : UInt32} {buckets : List UTHashBucket} {i : Nat} {b : UTHashBucket}
    (hb : buckets[i]? = some b) {count : UInt32} (hcount : count.toNat = b.count.toNat + 1)
    (hh_head : Option Nat) (expand_mult : UInt32) :
    excess ideal (buckets.set i ⟨hh_head, count, expand_mult⟩)
      = excess ideal buckets + (if ideal < count then 1 else 0) := by
  have hgrow : count.toNat - ideal.toNat
      = (b.count.toNat - ideal.toNat) + (if ideal < count then 1 else 0) := by
    have hlt : ideal < count ↔ ideal.toNat < count.toNat := UInt32.lt_iff_toNat_lt
    by_cases h : ideal < count
    · rw [if_pos h]
      have := hlt.mp h
      omega
    · rw [if_neg h]
      have := mt hlt.mpr h
      omega
  -- on the array, down to the bucket that grows
  unfold excess
  induction buckets generalizing i with
  | nil => simp at hb
  | cons c buckets ih =>
      cases i with
      | zero =>
          rw [List.getElem?_cons_zero, Option.some.injEq] at hb
          subst hb
          rw [List.set_cons_zero, List.map_cons, List.sum_cons, List.map_cons, List.sum_cons]
          show count.toNat - ideal.toNat + _ = _
          omega
      | succ i =>
          rw [List.getElem?_cons_succ] at hb
          rw [List.set_cons_succ, List.map_cons, List.sum_cons, List.map_cons, List.sum_cons,
            ih hb]
          omega

section Items

variable {m₀ : Memory β} {nb ideal : UInt32} {s : Rehash β} {done : List Nat} {k : Nat}

/-- The head of a new bucket is an item that was moved. -/
theorem Moved.head_done (h : Moved m₀ nb ideal s done) {i x : Nat} {b : UTHashBucket}
    (hb : s.new_buckets[i]? = some b) (hx : b.hh_head = some x) : x ∈ done := by
  obtain ⟨chain, hchain⟩ := h.chains i b hb
  rw [hchain.links.head_eq] at hx
  exact ((hchain.mem x).mp (List.mem_of_mem_head? hx)).1

/-- **One item moved.** -/
theorem rehash_item_spec (h : Moved m₀ nb ideal s done) (hnb : (nb * 2).toNat = 2 ^ k)
    (hlive : ∀ x ∈ done, (m₀.elem x).isSome) {a : Nat} (ha : a ∉ done)
    (halive : (m₀.elem a).isSome) :
    ∃ s', rehash_item nb ideal s a = .ok s' ∧ Moved m₀ nb ideal s' (done ++ [a]) := by
  have halive' : (s.mem.elem a).isSome := by rwa [h.elem]
  have hlt : HASH_TO_BKT (s.mem.hashv a) (nb * 2) < s.new_buckets.length := by
    rw [h.length]
    exact hash_to_bkt_lt hnb _
  obtain ⟨b, hb⟩ : ∃ b, s.new_buckets[HASH_TO_BKT (s.mem.hashv a) (nb * 2)]? = some b :=
    ⟨_, List.getElem?_eq_getElem hlt⟩
  have hhead : ∀ x, b.hh_head = some x → (s.mem.elem x).isSome := by
    intro x hx
    rw [h.elem]
    exact hlive x (h.head_done hb hx)
  refine ⟨
    { mem := pushed s.mem .hh_prev .hh_next b.hh_head a
      new_buckets := s.new_buckets.set (HASH_TO_BKT (s.mem.hashv a) (nb * 2))
        ⟨some a, b.count + 1,
          if decide (ideal < b.count + 1) ∧ b.expand_mult * ideal < b.count + 1 then
            b.expand_mult + 1
          else b.expand_mult⟩
      nonideal_items :=
        if decide (ideal < b.count + 1) then s.nonideal_items + 1 else s.nonideal_items }, ?_, ?_⟩
  · -- the three stores are a push
    unfold rehash_item
    rw [Memory.check_ok halive', ok_bind]
    dsimp only
    rw [bucketAt_ok hb, ok_bind, Memory.store_ok halive', ok_bind,
      Memory.store_ok (m := Memory.withLink _ _ _) halive', ok_bind,
      Memory.storeIf_ok (m := Memory.withLink (Memory.withLink _ _ _) _ _) hhead, ok_bind,
      pushed_of_back_first (by decide) rfl rfl]
    rfl
  · have hout : ∀ f, ∀ x ∉ done ++ [a],
        (pushed s.mem .hh_prev .hh_next b.hh_head a).link f x = m₀.link f x := by
      intro f x hx
      rw [List.mem_append, List.mem_singleton, not_or] at hx
      rw [pushed_of_ne (by decide) f hx.2 (fun e => hx.1 (h.head_done hb e)), h.outside f x hx.1]
    refine
      { elem := h.elem
        tbl := h.tbl
        hashv := h.hashv
        table := h.table
        prev := (pushed_other (by decide) (by decide) _ _).trans h.prev
        next := (pushed_other (by decide) (by decide) _ _).trans h.next
        outside := hout
        length := by rw [List.length_set, h.length]
        chains := h.chains.insert ha rfl hb _
        nonideal := ?_ }
    -- with fewer than `2 ^ 32` items no bucket's count wraps
    intro hlen
    rw [List.length_append, List.length_singleton] at hlen
    obtain ⟨chain, hchain⟩ := h.chains _ b hb
    have hle := hchain.length_le
    have hcount : (b.count + 1).toNat = b.count.toNat + 1 := by
      rw [hchain.count, UInt32.toNat_add, UInt32.toNat_ofNat']
      simp only [UInt32.reduceToNat]
      omega
    rw [excess_set hb hcount]
    by_cases hex : ideal < b.count + 1
    · simp only [hex, decide_true, if_true]
      rw [h.nonideal (by omega), UInt32.ofNat_add]
      rfl
    · simp only [hex, decide_false, if_false, Bool.false_eq_true]
      exact h.nonideal (by omega)

/-- **A whole chain moved.** -/
theorem rehash_chain_spec (hnb : (nb * 2).toNat = 2 ^ k) {chain : List Nat} :
    ∀ {fuel : Nat} {p : Option Nat} {s : Rehash β} {done : List Nat},
      Moved m₀ nb ideal s done → (∀ x ∈ done ++ chain, (m₀.elem x).isSome) →
      (done ++ chain).Nodup → Path (m₀.link .hh_next) p chain none → chain.length ≤ fuel →
      ∃ s', rehash_chain nb ideal fuel p s = .ok s' ∧ Moved m₀ nb ideal s' (done ++ chain) := by
  -- on the old chain, whose links are those of `m₀` as far as it has not been moved
  induction chain with
  | nil =>
      intro fuel p s done h _ _ hp _
      rw [path_nil] at hp
      subst hp
      refine ⟨s, ?_, by rwa [List.append_nil]⟩
      unfold rehash_chain
      rfl
  | cons a chain ih =>
      intro fuel p s done h hlive hnd hp hfuel
      obtain ⟨rfl, hpath⟩ := hp
      have ha : a ∉ done := by
        rw [List.nodup_middle, List.nodup_cons, List.mem_append, not_or] at hnd
        exact hnd.1.1
      have halive : (m₀.elem a).isSome := hlive a (by simp)
      cases fuel with
      | zero => simp at hfuel
      | succ fuel =>
          obtain ⟨s₁, hitem, hs₁⟩ := rehash_item_spec h hnb
            (fun x hx => hlive x (List.mem_append_left _ hx)) ha halive
          -- the link to follow is read before the item is moved
          have hload : s.mem.load .hh_next a = .ok (m₀.link .hh_next a) := by
            rw [Memory.load_ok (by rwa [h.elem]), h.outside _ a ha]
          have hcat : done ++ a :: chain = (done ++ [a]) ++ chain := by simp
          rw [hcat] at hlive hnd ⊢
          obtain ⟨s', hrest, hs'⟩ := ih hs₁ hlive hnd hpath (Nat.le_of_succ_le_succ hfuel)
          refine ⟨s', ?_, hs'⟩
          unfold rehash_chain
          rw [hload, ok_bind, hitem, ok_bind, hrest]

/-- **The whole array moved**, bucket by bucket. -/
theorem rehash_buckets_spec {tbl : UTHashTable} {k : Nat}
    (hnb : (tbl.num_buckets * 2).toNat = 2 ^ k) {fuel : Nat} {chain : Nat → List Nat}
    {is : List Nat} :
    ∀ {s : Rehash β} {done : List Nat}, Moved m₀ tbl.num_buckets ideal s done →
      (∀ i ∈ is, ∃ b, tbl.buckets[i]? = some b
        ∧ Path (m₀.link .hh_next) b.hh_head (chain i) none ∧ (chain i).length ≤ fuel) →
      (∀ x ∈ done ++ is.flatMap chain, (m₀.elem x).isSome) →
      (done ++ is.flatMap chain).Nodup →
      ∃ s', rehash_buckets fuel tbl ideal is s = .ok s'
        ∧ Moved m₀ tbl.num_buckets ideal s' (done ++ is.flatMap chain) := by
  induction is with
  | nil =>
      intro s done h _ _ _
      exact ⟨s, rfl, by rwa [List.flatMap_nil, List.append_nil]⟩
  | cons i is ih =>
      intro s done h hbuckets hlive hnd
      rw [List.flatMap_cons, ← List.append_assoc] at hlive hnd ⊢
      obtain ⟨b, hb, hpath, hlen⟩ := hbuckets i List.mem_cons_self
      obtain ⟨s₁, hchain, hs₁⟩ := rehash_chain_spec hnb h
        (fun x hx => hlive x (List.mem_append_left _ hx)) hnd.of_append_left hpath hlen
      obtain ⟨s', hrest, hs'⟩ := ih hs₁
        (fun j hj => hbuckets j (List.mem_cons_of_mem _ hj)) hlive hnd
      refine ⟨s', ?_, hs'⟩
      unfold rehash_buckets
      rw [bucketAt_ok hb, ok_bind, hchain, ok_bind, hrest]

end Items

/-! ## §2. The expansion. -/

/-- The hash side of a table: a power of two of buckets, with their chains. -/
structure Hashed (m : Memory β) (tbl : UTHashTable) (items : List Nat) : Prop where
  log2_lt : tbl.log2_num_buckets.toNat < 32
  num_buckets : tbl.num_buckets.toNat = 2 ^ tbl.log2_num_buckets.toNat
  length : tbl.buckets.length = tbl.num_buckets.toNat
  chains : Chains m tbl.num_buckets tbl.buckets items

section Expansion

variable {m m' : Memory β} {tbl : UTHashTable} {items : List Nat}

/-- The hash side reads the buckets of the table, the bucket links and the hash values. -/
theorem Hashed.congr (h : Hashed m tbl items) {tbl' : UTHashTable}
    (hbuckets : tbl'.buckets = tbl.buckets) (hnum : tbl'.num_buckets = tbl.num_buckets)
    (hlog : tbl'.log2_num_buckets = tbl.log2_num_buckets)
    (hprev : ∀ a ∈ items, m'.link .hh_prev a = m.link .hh_prev a)
    (hnext : ∀ a ∈ items, m'.link .hh_next a = m.link .hh_next a)
    (hhash : ∀ a ∈ items, m'.hashv a = m.hashv a) : Hashed m' tbl' items where
  log2_lt := by rw [hlog]; exact h.log2_lt
  num_buckets := by rw [hnum, hlog]; exact h.num_buckets
  length := by rw [hbuckets, hnum]; exact h.length
  chains := by
    rw [hbuckets, hnum]
    exact h.chains.congr (fun _ => Iff.rfl) hprev hnext hhash

/-- Any hash value selects a bucket. -/
theorem Hashed.bucket (h : Hashed m tbl items) (hashv : UInt32) :
    ∃ b, tbl.buckets[HASH_TO_BKT hashv tbl.num_buckets]? = some b := by
  have hlt : HASH_TO_BKT hashv tbl.num_buckets < tbl.buckets.length := by
    rw [h.length]
    exact hash_to_bkt_lt h.num_buckets _
  exact ⟨_, List.getElem?_eq_getElem hlt⟩

/-- **The chains partition the items.** -/
theorem Hashed.partition (h : Hashed m tbl items) :
    ∃ chain : Nat → List Nat,
      (∀ i < tbl.num_buckets.toNat, ∃ b, tbl.buckets[i]? = some b
        ∧ Chained m tbl.num_buckets items i b (chain i))
      ∧ ((List.range tbl.num_buckets.toNat).flatMap chain).Nodup
      ∧ ∀ a, a ∈ (List.range tbl.num_buckets.toNat).flatMap chain ↔ a ∈ items := by
  have hchain : ∀ i : Nat, ∃ chain : List Nat, i < tbl.num_buckets.toNat →
      ∃ b, tbl.buckets[i]? = some b ∧ Chained m tbl.num_buckets items i b chain := by
    intro i
    by_cases hi : i < tbl.num_buckets.toNat
    · have hb := List.getElem?_eq_getElem (l := tbl.buckets) (i := i) (by rwa [h.length])
      obtain ⟨chain, hc⟩ := h.chains i _ hb
      exact ⟨chain, fun _ => ⟨_, hb, hc⟩⟩
    · exact ⟨[], fun hlt => absurd hlt hi⟩
  -- one function for the chains of all buckets
  choose chain hspec using hchain
  refine ⟨chain, hspec, ?_, ?_⟩
  · rw [List.nodup_flatMap]
    constructor
    · intro i hi
      obtain ⟨b, -, hc⟩ := hspec i (List.mem_range.mp hi)
      exact hc.links.nodup
    · -- an item is in the chain of its own bucket only
      have hmem : ∀ i < tbl.num_buckets.toNat, ∀ x ∈ chain i,
          HASH_TO_BKT (m.hashv x) tbl.num_buckets = i := by
        intro i hi x hx
        obtain ⟨b, -, hc⟩ := hspec i hi
        exact ((hc.mem x).mp hx).2
      refine List.Pairwise.imp_of_mem ?_ List.nodup_range
      intro i j hi hj hne x hxi hxj
      exact hne ((hmem i (List.mem_range.mp hi) x hxi).symm.trans
        (hmem j (List.mem_range.mp hj) x hxj))
  · intro a
    rw [List.mem_flatMap]
    constructor
    · rintro ⟨i, hi, ha⟩
      obtain ⟨b, -, hc⟩ := hspec i (List.mem_range.mp hi)
      exact ((hc.mem a).mp ha).1
    · intro ha
      have hlt := hash_to_bkt_lt h.num_buckets (m.hashv a)
      obtain ⟨b, -, hc⟩ := hspec _ hlt
      exact ⟨_, List.mem_range.mpr hlt, (hc.mem a).mpr ⟨ha, rfl⟩⟩

/-- Writing to the buckets of the table at `t`: the chains of `items` are rebuilt, and nothing
else is touched. -/
structure BucketWrite (m m' : Memory β) (t : Nat) (tbl tbl' : UTHashTable) (items : List Nat) :
    Prop where
  elem : m'.elem = m.elem
  tbl_eq : m'.tbl = m.tbl
  hashv : m'.hashv = m.hashv
  prev : m'.link .prev = m.link .prev
  next : m'.link .next = m.link .next
  outside : ∀ f, ∀ a ∉ items, m'.link f a = m.link f a
  tables : ∀ u, u ≠ t → m'.table u = m.table u
  table : m'.table t = some tbl'
  hashed : Hashed m' tbl' items
  num_items : tbl'.num_items = tbl.num_items
  tail : tbl'.tail = tbl.tail

theorem BucketWrite.trans {m₁ m₂ : Memory β} {t : Nat} {tbl₁ tbl₂ : UTHashTable}
    (h₁ : BucketWrite m m₁ t tbl tbl₁ items) (h₂ : BucketWrite m₁ m₂ t tbl₁ tbl₂ items) :
    BucketWrite m m₂ t tbl tbl₂ items where
  elem := h₂.elem.trans h₁.elem
  tbl_eq := h₂.tbl_eq.trans h₁.tbl_eq
  hashv := h₂.hashv.trans h₁.hashv
  prev := h₂.prev.trans h₁.prev
  next := h₂.next.trans h₁.next
  outside f a ha := (h₂.outside f a ha).trans (h₁.outside f a ha)
  tables u hu := (h₂.tables u hu).trans (h₁.tables u hu)
  table := h₂.table
  hashed := h₂.hashed
  num_items := h₂.num_items.trans h₁.num_items
  tail := h₂.tail.trans h₁.tail

/-- What an expansion of the table at `t` does. -/
structure Expansion (m m' : Memory β) (t : Nat) (tbl tbl' : UTHashTable) (items : List Nat) :
    Prop extends BucketWrite m m' t tbl tbl' items where
  num_buckets : tbl'.num_buckets.toNat = tbl.num_buckets.toNat * 2
  ideal : tbl'.ideal_chain_maxlen = ideal_chain tbl
  nonideal : items.length < 2 ^ 32 →
    tbl'.nonideal_items = UInt32.ofNat (excess tbl'.ideal_chain_maxlen tbl'.buckets)

/-- The errors that a refusing `malloc` accounts for. -/
def Platform.Exits (P : Platform β) : Stop → Prop
  | .out_of_memory request => P.Refuses request
  | _ => False

theorem Platform.alloc_spec (P : Platform β) (m : Memory β) (request : Request) :
    Returns P.Exits (fun a => P.malloc m request = some a) (P.alloc m request) := by
  unfold Platform.alloc
  cases hm : P.malloc m request with
  | some a => rfl
  | none => exact ⟨m, hm⟩

/-- What `malloc` still grants leaves room for the doubled count. -/
theorem double_num_buckets (P : Platform β) {a : Nat} (h : Hashed m tbl items)
    (ha : P.malloc m (.buckets (sizeof_bucket * tbl.num_buckets.toNat * 2)) = some a) :
    (tbl.log2_num_buckets + 1).toNat = tbl.log2_num_buckets.toNat + 1
      ∧ tbl.log2_num_buckets.toNat + 1 < 32
      ∧ (tbl.num_buckets * 2).toNat = tbl.num_buckets.toNat * 2 := by
  have hbound := P.buckets_bound m _ (by rw [ha]; exact Option.some_ne_none a)
  have hlt := h.log2_lt
  -- doubling `2 ^ 31` buckets would ask for 64 GiB
  have hpow : tbl.log2_num_buckets.toNat < 31 := by
    by_contra hge
    have h31 : tbl.log2_num_buckets.toNat = 31 := by omega
    rw [h.num_buckets, h31] at hbound
    exact absurd hbound (by decide)
  have hnb : tbl.num_buckets.toNat ≤ 2 ^ 30 := by
    rw [h.num_buckets]
    exact Nat.pow_le_pow_right (by decide) (by omega)
  refine ⟨?_, by omega, ?_⟩
  · rw [UInt32.toNat_add]
    simp only [UInt32.reduceToNat]
    omega
  · rw [UInt32.toNat_mul]
    simp only [UInt32.reduceToNat]
    omega

/-- **`HASH_EXPAND_BUCKETS`** keeps every item, in chains of twice as many buckets. -/
theorem HASH_EXPAND_BUCKETS_spec (P : Platform β) {fuel t : Nat} (h : Hashed m tbl items)
    (htbl : m.table t = some tbl) (hlive : ∀ a ∈ items, (m.elem a).isSome)
    (hfuel : items.length ≤ fuel) :
    Returns P.Exits (fun m' => ∃ tbl', Expansion m m' t tbl tbl' items)
      (HASH_EXPAND_BUCKETS P fuel m t) := by
  unfold HASH_EXPAND_BUCKETS
  rw [Memory.tableAt_ok htbl, ok_bind]
  refine (P.alloc_spec m _).bind ?_
  intro _ ha
  obtain ⟨hlog2, hlt, hnb⟩ := double_num_buckets P h ha
  have hpow : (tbl.num_buckets * 2).toNat = 2 ^ (tbl.log2_num_buckets.toNat + 1) := by
    rw [hnb, h.num_buckets, Nat.pow_succ]
  -- the loops go through the old chains, one after the other
  obtain ⟨chain, hspec, hnd, hmem⟩ := h.partition
  have hstart : Moved m tbl.num_buckets (ideal_chain tbl)
      { mem := m
        new_buckets := List.replicate (tbl.num_buckets.toNat * 2) zero_bucket
        nonideal_items := 0 } [] :=
    { elem := rfl
      tbl := rfl
      hashv := rfl
      table := rfl
      prev := rfl
      next := rfl
      outside := fun _ _ _ => rfl
      length := by rw [List.length_replicate, hnb]
      chains := chains_replicate _
      nonideal := by
        intro _
        have hzero : excess (ideal_chain tbl)
            (List.replicate (tbl.num_buckets.toNat * 2) zero_bucket) = 0 := by
          unfold excess zero_bucket
          simp
        rw [hzero]
        rfl }
  obtain ⟨s, hs, hmoved⟩ := @rehash_buckets_spec _ _ _ _ _ hpow fuel chain
    (List.range tbl.num_buckets.toNat) _ _ hstart
    (by
      intro i hi
      obtain ⟨b, hb, hc⟩ := hspec i (List.mem_range.mp hi)
      exact ⟨b, hb, hc.links.forward, Nat.le_trans hc.length_le hfuel⟩)
    (by
      intro x hx
      exact hlive x ((hmem x).mp hx))
    (by rwa [List.nil_append])
  rw [List.nil_append] at hmoved
  rw [hs, ok_bind]
  refine ⟨expanded tbl s.new_buckets s.nonideal_items, ?_⟩
  exact
    { elem := hmoved.elem
      tbl_eq := hmoved.tbl
      hashv := hmoved.hashv
      prev := hmoved.prev
      next := hmoved.next
      outside := fun f a ha => hmoved.outside f a (mt (hmem a).mp ha)
      tables := by
        intro u hu
        show Function.update s.mem.table t _ u = _
        rw [Function.update_of_ne hu, hmoved.table]
      table := Memory.setTable_table _ _
      hashed :=
        { log2_lt := by
            show (tbl.log2_num_buckets + 1).toNat < 32
            rwa [hlog2]
          num_buckets := by
            show (tbl.num_buckets * 2).toNat = 2 ^ (tbl.log2_num_buckets + 1).toNat
            rw [hlog2, hpow]
          length := hmoved.length
          chains := hmoved.chains.congr (fun a => (hmem a).symm) (fun _ _ => rfl)
            (fun _ _ => rfl) (fun _ _ => rfl) }
      num_buckets := hnb
      num_items := rfl
      tail := rfl
      ideal := rfl
      nonideal := by
        intro hlen
        refine hmoved.nonideal (Nat.lt_of_le_of_lt ?_ hlen)
        exact (List.subperm_of_subset hnd (fun x hx => (hmem x).mp hx)).length_le }

end Expansion

end KafKatch.Sniffer.UtHash
