/-
  KafKatch.Sniffer.UtHashTable
  ────────────────────────────
  **ADD, FIND AND DELETE KEEP A HASH TABLE INTACT.**

  `IsTable` is the integrity of a table: the application order is a doubly linked list of live
  elements from the head to `tail`, the buckets hold each of them in the chain its hash value
  selects, the counters are right, and every handle leads back to the table.  `HashOf` adds the
  NULL table.

    • `HASH_FIND_spec` — the lookup finds an element with the key, and misses only if there is none,
    • `HASH_ADD_spec` — the new element is the last one of the application order,
    • `HASH_DELETE_HH_spec` — the element is out of both lists; the last one takes the table along,
    • `HashOf.frame` — each of them leaves every other table as it was.
-/
import KafKatch.Sniffer.UtHashExpand

namespace KafKatch.Sniffer.UtHash

open KafKatch.Lib

variable {β : Type}

/-! ## §1. Integrity. -/

/-- The table at `t`, with the elements `items` in application order. -/
structure IsTable (P : Platform β) (m : Memory β) (t : Nat) (tbl : UTHashTable)
    (items : List Nat) : Prop where
  table : m.table t = some tbl
  app : DList (m.link .prev) (m.link .next) items.head? tbl.tail items
  num_items : tbl.num_items = UInt32.ofNat items.length
  hashed : Hashed m tbl items
  owner : ∀ a ∈ items, m.tbl a = some t
  elem : ∀ a ∈ items, ∃ e, m.elem a = some e ∧ m.hashv a = P.HASH_FUNCTION (P.key e)

/-- `head` is a hash table of the elements `items`, whose `UT_hash_table` is at `tbl`. -/
inductive HashOf (P : Platform β) (m : Memory β) : Option Nat → List Nat → Option Nat → Prop
  | null : HashOf P m none [] none
  | table {t : Nat} {tbl : UTHashTable} {head : Nat} {rest : List Nat}
      (h : IsTable P m t tbl (head :: rest)) : HashOf P m (some head) (head :: rest) (some t)

/-- `m'` differs from `m` in the elements `touched` and the table at `t` only. -/
structure Frame (m m' : Memory β) (touched : List Nat) (t : Nat) : Prop where
  elem : ∀ a ∉ touched, m'.elem a = m.elem a
  link : ∀ f, ∀ a ∉ touched, m'.link f a = m.link f a
  tbl : ∀ a ∉ touched, m'.tbl a = m.tbl a
  hashv : ∀ a ∉ touched, m'.hashv a = m.hashv a
  table : ∀ u, u ≠ t → m'.table u = m.table u

section Integrity

variable {P : Platform β} {m m' : Memory β} {t : Nat} {tbl : UTHashTable} {items : List Nat}
  {head tb : Option Nat}

theorem IsTable.live (h : IsTable P m t tbl items) : ∀ a ∈ items, (m.elem a).isSome := by
  intro a ha
  obtain ⟨e, he, -⟩ := h.elem a ha
  rw [he]
  rfl

/-- A table does not depend on other elements, nor on the data next to a key. -/
theorem IsTable.congr (h : IsTable P m t tbl items)
    (helem : ∀ a ∈ items, ∀ e, m.elem a = some e → ∃ e', m'.elem a = some e' ∧ P.key e' = P.key e)
    (hlink : ∀ f, ∀ a ∈ items, m'.link f a = m.link f a)
    (htbl : ∀ a ∈ items, m'.tbl a = m.tbl a) (hhash : ∀ a ∈ items, m'.hashv a = m.hashv a)
    (htable : m'.table t = m.table t) : IsTable P m' t tbl items where
  table := htable.trans h.table
  app := h.app.congr (hlink .prev) (hlink .next)
  num_items := h.num_items
  hashed := h.hashed.congr rfl rfl rfl (hlink .hh_prev) (hlink .hh_next) hhash
  owner a ha := (htbl a ha).trans (h.owner a ha)
  elem := by
    intro a ha
    obtain ⟨e, he, hv⟩ := h.elem a ha
    obtain ⟨e', he', hkey⟩ := helem a ha e he
    exact ⟨e', he', by rw [hhash a ha, hv, hkey]⟩

/-- Nor does a table that may be NULL. -/
theorem HashOf.congr (h : HashOf P m head items tb)
    (helem : ∀ a ∈ items, ∀ e, m.elem a = some e → ∃ e', m'.elem a = some e' ∧ P.key e' = P.key e)
    (hlink : ∀ f, ∀ a ∈ items, m'.link f a = m.link f a)
    (htbl : ∀ a ∈ items, m'.tbl a = m.tbl a) (hhash : ∀ a ∈ items, m'.hashv a = m.hashv a)
    (htable : ∀ u, tb = some u → m'.table u = m.table u) : HashOf P m' head items tb := by
  cases h with
  | null => exact .null
  | table h => exact .table (h.congr helem hlink htbl hhash (htable _ rfl))

/-- **Other tables are left as they were.** -/
theorem HashOf.frame (h : HashOf P m head items tb) {touched : List Nat}
    (hframe : Frame m m' touched t) (hitems : ∀ a ∈ items, a ∉ touched) (ht : tb ≠ some t) :
    HashOf P m' head items tb := by
  refine h.congr ?_ ?_ ?_ ?_ ?_
  · intro a ha e he
    exact ⟨e, by rw [hframe.elem a (hitems a ha), he], rfl⟩
  · exact fun f a ha => hframe.link f a (hitems a ha)
  · exact fun a ha => hframe.tbl a (hitems a ha)
  · exact fun a ha => hframe.hashv a (hitems a ha)
  · intro u hu
    refine hframe.table u ?_
    rintro rfl
    exact ht hu

/-- Changing what an element holds next to its key. -/
theorem HashOf.modify (h : HashOf P m head items tb) {a : Nat} {e e' : β} (he : m.elem a = some e)
    (hkey : P.key e' = P.key e) :
    HashOf P { m with elem := Function.update m.elem a (some e') } head items tb := by
  refine h.congr ?_ (fun _ _ _ => rfl) (fun _ _ => rfl) (fun _ _ => rfl) (fun _ _ => rfl)
  intro x _ e₀ he₀
  by_cases hx : x = a
  · subst hx
    rw [he, Option.some.injEq] at he₀
    exact ⟨e', Function.update_self _ _ _, he₀ ▸ hkey⟩
  · exact ⟨e₀, (Function.update_of_ne hx _ _).trans he₀, rfl⟩

/-- Freeing an element that is not in the table. -/
theorem HashOf.free (h : HashOf P m head items tb) {a : Nat} (ha : a ∉ items) :
    HashOf P { m with elem := Function.update m.elem a none } head items tb := by
  refine h.congr ?_ (fun _ _ _ => rfl) (fun _ _ => rfl) (fun _ _ => rfl) (fun _ _ => rfl)
  intro x hx e he
  exact ⟨e, (Function.update_of_ne (ne_of_mem_of_not_mem hx ha) _ _).trans he, rfl⟩

theorem Frame.trans {m₁ m₂ : Memory β} {touched : List Nat} (h₁ : Frame m m₁ touched t)
    (h₂ : Frame m₁ m₂ touched t) : Frame m m₂ touched t where
  elem a ha := (h₂.elem a ha).trans (h₁.elem a ha)
  link f a ha := (h₂.link f a ha).trans (h₁.link f a ha)
  tbl a ha := (h₂.tbl a ha).trans (h₁.tbl a ha)
  hashv a ha := (h₂.hashv a ha).trans (h₁.hashv a ha)
  table u hu := (h₂.table u hu).trans (h₁.table u hu)

theorem Frame.mono {S S' : List Nat} (h : Frame m m' S t) (hsub : ∀ a ∈ S, a ∈ S') :
    Frame m m' S' t where
  elem a ha := h.elem a (mt (hsub a) ha)
  link f a ha := h.link f a (mt (hsub a) ha)
  tbl a ha := h.tbl a (mt (hsub a) ha)
  hashv a ha := h.hashv a (mt (hsub a) ha)
  table := h.table

theorem HashOf.nodup (h : HashOf P m head items tb) : items.Nodup := by
  cases h with
  | null => exact List.nodup_nil
  | table h => exact h.app.nodup

theorem HashOf.head_eq (h : HashOf P m head items tb) : head = items.head? := by
  cases h with
  | null => rfl
  | table h => rfl

theorem HashOf.live (h : HashOf P m head items tb) : ∀ a ∈ items, (m.elem a).isSome := by
  cases h with
  | null => exact fun a ha => absurd ha List.not_mem_nil
  | table h => exact h.live

/-- A head pointer that is not NULL leads to a table. -/
theorem HashOf.isTable {hd : Nat} (h : HashOf P m (some hd) items (some t)) :
    ∃ tbl, IsTable P m t tbl items ∧ items.head? = some hd := by
  cases h with
  | table h => exact ⟨_, h, rfl⟩

theorem IsTable.hashOf {hd : Nat} (h : IsTable P m t tbl items) (hhead : items.head? = some hd) :
    HashOf P m (some hd) items (some t) := by
  cases items with
  | nil => cases hhead
  | cons a items =>
      rw [List.head?_cons, Option.some.injEq] at hhead
      subst hhead
      exact .table h

/-- NULL is the table without elements. -/
theorem HashOf.tb_eq_none_iff (h : HashOf P m head items tb) : tb = none ↔ items = [] := by
  cases h with
  | null => exact ⟨fun _ => rfl, fun _ => rfl⟩
  | table h =>
      constructor
      · intro hnone
        cases hnone
      · intro hnil
        cases hnil

/-- The address of a table is in use. -/
theorem HashOf.table_some (h : HashOf P m head items tb) (ht : tb = some t) :
    m.table t ≠ none := by
  cases h with
  | null => cases ht
  | table h =>
      cases ht
      rw [h.table]
      exact Option.some_ne_none _

end Integrity

/-! ## §2. Finding. -/

section Find

variable {P : Platform β} {m : Memory β} {keyptr : List UInt8} {hashval : UInt32}

/-- What a lookup among `items` may answer. -/
def Found (P : Platform β) (m : Memory β) (items : List Nat) (keyptr : List UInt8) :
    Option Nat → Prop
  | some a => a ∈ items ∧ ∃ e, m.elem a = some e ∧ P.key e = keyptr
  | none => ∀ a ∈ items, ∀ e, m.elem a = some e → P.key e ≠ keyptr

/-- The walk over one chain. -/
theorem HASH_FIND_IN_BKT_spec {chain : List Nat} :
    ∀ {fuel : Nat} {p : Option Nat}, Path (m.link .hh_next) p chain none →
      (∀ a ∈ chain, ∃ e, m.elem a = some e ∧ m.hashv a = P.HASH_FUNCTION (P.key e)) →
      chain.length ≤ fuel →
      ∃ out, HASH_FIND_IN_BKT P m keyptr (P.HASH_FUNCTION keyptr) fuel p = .ok out
        ∧ Found P m chain keyptr out := by
  induction chain with
  | nil =>
      intro fuel p hp _ _
      rw [path_nil] at hp
      subst hp
      refine ⟨none, ?_, fun a ha => absurd ha List.not_mem_nil⟩
      unfold HASH_FIND_IN_BKT
      rfl
  | cons a chain ih =>
      intro fuel p hp helem hfuel
      obtain ⟨rfl, hpath⟩ := hp
      obtain ⟨e, he, hv⟩ := helem a List.mem_cons_self
      cases fuel with
      | zero => simp at hfuel
      | succ fuel =>
          unfold HASH_FIND_IN_BKT
          rw [he]
          dsimp only
          by_cases hkey : P.key e = keyptr
          · -- equal keys have equal hash values
            rw [if_pos ⟨by rw [hv, hkey], hkey⟩]
            exact ⟨some a, rfl, List.mem_cons_self, e, he, hkey⟩
          · rw [if_neg (fun h => hkey h.2)]
            obtain ⟨out, hout, hfound⟩ := ih hpath
              (fun b hb => helem b (List.mem_cons_of_mem _ hb)) (Nat.le_of_succ_le_succ hfuel)
            refine ⟨out, hout, ?_⟩
            cases out with
            | some b => exact ⟨List.mem_cons_of_mem _ hfound.1, hfound.2⟩
            | none =>
                intro b hb e' he'
                rcases List.mem_cons.mp hb with rfl | hb
                · rw [he, Option.some.injEq] at he'
                  exact he' ▸ hkey
                · exact hfound b hb e' he'

/-- **`HASH_FIND`** returns an element with the key, or NULL when no element has it. -/
theorem HASH_FIND_spec {head tb : Option Nat} {items : List Nat} {fuel : Nat}
    (h : HashOf P m head items tb) (hfuel : items.length ≤ fuel) (keyptr : List UInt8) :
    ∃ out, HASH_FIND P fuel m head keyptr = .ok out ∧ Found P m items keyptr out := by
  cases h with
  | null => exact ⟨none, rfl, fun a ha => absurd ha List.not_mem_nil⟩
  | @table t tbl head rest h =>
      obtain ⟨b, hb⟩ := h.hashed.bucket (P.HASH_FUNCTION keyptr)
      obtain ⟨chain, hc⟩ := h.hashed.chains _ b hb
      have hsub : ∀ a ∈ chain, a ∈ head :: rest := fun a ha => ((hc.mem a).mp ha).1
      have hlen : chain.length ≤ fuel := Nat.le_trans hc.length_le hfuel
      obtain ⟨out, hout, hfound⟩ := HASH_FIND_IN_BKT_spec hc.links.forward
        (fun a ha => h.elem a (hsub a ha)) hlen
      refine ⟨out, ?_, ?_⟩
      · unfold HASH_FIND
        dsimp only
        rw [Memory.tblOf_ok (h.live head List.mem_cons_self) (h.owner head List.mem_cons_self)
          h.table, ok_bind]
        dsimp only
        rw [bucketAt_ok hb, ok_bind, hout]
      · cases out with
        | some a => exact ⟨hsub a hfound.1, hfound.2⟩
        | none =>
            -- an element with the key is in the chain that was walked
            intro a ha e he hkey
            refine hfound a ((hc.mem a).mpr ⟨ha, ?_⟩) e he hkey
            obtain ⟨e', he', hv⟩ := h.elem a ha
            rw [he, Option.some.injEq] at he'
            rw [hv, ← he', hkey]

end Find

/-! ## §3. Adding. -/

section Add

variable {P : Platform β} {m : Memory β} {t fuel a : Nat} {tbl : UTHashTable} {items : List Nat}

/-- **`HASH_ADD_TO_BKT`**, with the expansion it may set off. -/
theorem HASH_ADD_TO_BKT_spec (htable : m.table t = some tbl) (h : Hashed m tbl items)
    (hlive : ∀ x ∈ items ++ [a], (m.elem x).isSome) (ha : a ∉ items) (howner : m.tbl a = some t)
    (hfuel : items.length + 1 ≤ fuel) :
    Returns P.Exits (fun m' => ∃ tbl', BucketWrite m m' t tbl tbl' (items ++ [a]))
      (HASH_ADD_TO_BKT P fuel m t (HASH_TO_BKT (m.hashv a) tbl.num_buckets) a) := by
  have halive : (m.elem a).isSome := hlive a (by simp)
  obtain ⟨b, hb⟩ := h.bucket (m.hashv a)
  obtain ⟨chain, hchain⟩ := h.chains _ b hb
  have hhead : ∀ x, b.hh_head = some x → x ∈ items := by
    intro x hx
    rw [hchain.links.head_eq] at hx
    exact ((hchain.mem x).mp (List.mem_of_mem_head? hx)).1
  have hheadlive : ∀ x, b.hh_head = some x → (m.elem x).isSome :=
    fun x hx => hlive x (List.mem_append_left _ (hhead x hx))
  -- the table once the element is in its bucket
  let tbl₁ : UTHashTable :=
    { tbl with
      buckets := tbl.buckets.set (HASH_TO_BKT (m.hashv a) tbl.num_buckets)
        ⟨some a, b.count + 1, b.expand_mult⟩ }
  let m₁ : Memory β := (pushed m .hh_prev .hh_next b.hh_head a).setTable t tbl₁
  have hwrite : BucketWrite m m₁ t tbl tbl₁ (items ++ [a]) :=
    { elem := rfl
      tbl_eq := rfl
      hashv := rfl
      prev := by
        show (pushed m .hh_prev .hh_next b.hh_head a).link .prev = _
        exact pushed_other (by decide) (by decide) _ _
      next := by
        show (pushed m .hh_prev .hh_next b.hh_head a).link .next = _
        exact pushed_other (by decide) (by decide) _ _
      outside := by
        intro f x hx
        rw [List.mem_append, List.mem_singleton, not_or] at hx
        exact pushed_of_ne (by decide) f hx.2 (fun e => hx.1 (hhead x e))
      tables := fun u hu => Function.update_of_ne hu _ _
      table := Memory.setTable_table _ _
      hashed :=
        { log2_lt := h.log2_lt
          num_buckets := h.num_buckets
          length := by
            show (tbl.buckets.set _ _).length = _
            rw [List.length_set, h.length]
          chains := (h.chains.insert ha rfl hb b.expand_mult).congr (fun _ => Iff.rfl)
            (fun _ _ => rfl) (fun _ _ => rfl) (fun _ _ => rfl) }
      num_items := rfl
      tail := rfl }
  unfold HASH_ADD_TO_BKT
  rw [Memory.tableAt_ok htable, ok_bind, bucketAt_ok hb, ok_bind, Memory.store_ok halive, ok_bind,
    Memory.store_ok (m := Memory.withLink _ _ _) halive, ok_bind,
    Memory.storeIf_ok (m := Memory.withLink (Memory.withLink _ _ _) _ _) hheadlive, ok_bind,
    pushed_of_fwd_first (by decide) rfl rfl]
  dsimp only
  by_cases hcap : (b.expand_mult + 1) * HASH_BKT_CAPACITY_THRESH ≤ b.count + 1
  · rw [if_pos hcap]
    have htblOf : m₁.tblOf a = .ok (t, tbl₁) :=
      Memory.tblOf_ok halive howner (Memory.setTable_table _ _)
    show Returns P.Exits _ (expand_full_bucket P fuel m₁ a)
    unfold expand_full_bucket
    rw [htblOf, ok_bind]
    dsimp only
    by_cases hno : tbl₁.noexpand = 0
    · rw [if_pos hno]
      refine (HASH_EXPAND_BUCKETS_spec P hwrite.hashed hwrite.table hlive ?_).mono ?_
      · rw [List.length_append]
        exact hfuel
      · rintro m' ⟨tbl', hexp⟩
        exact ⟨tbl', hwrite.trans hexp.toBucketWrite⟩
    · rw [if_neg hno]
      exact ⟨tbl₁, hwrite⟩
  · rw [if_neg hcap]
    exact ⟨tbl₁, hwrite⟩

/-- A table whose application order is one element ahead of its buckets. -/
structure Appended (P : Platform β) (m : Memory β) (t : Nat) (tbl : UTHashTable)
    (items : List Nat) (a : Nat) : Prop where
  table : m.table t = some tbl
  app : DList (m.link .prev) (m.link .next) (items ++ [a]).head? tbl.tail (items ++ [a])
  num_items : tbl.num_items = UInt32.ofNat items.length
  hashed : Hashed m tbl items
  owner : ∀ x ∈ items ++ [a], m.tbl x = some t
  elem : ∀ x ∈ items ++ [a], ∃ e, m.elem x = some e ∧ m.hashv x = P.HASH_FUNCTION (P.key e)

/-- **`HASH_ADD_TO_TABLE`** brings the buckets up to the application order. -/
theorem Appended.add_to_table (h : Appended P m t tbl items a) {head : Nat}
    (hhead : head ∈ items ++ [a]) (hfuel : items.length + 1 ≤ fuel) :
    Returns P.Exits (fun m' => ∃ tbl', IsTable P m' t tbl' (items ++ [a])
        ∧ Frame m m' (items ++ [a]) t ∧ m'.elem = m.elem)
      (HASH_ADD_TO_TABLE P fuel m head (m.hashv a) a) := by
  have hlive : ∀ x ∈ items ++ [a], (m.elem x).isSome := by
    intro x hx
    obtain ⟨e, he, -⟩ := h.elem x hx
    rw [he]
    rfl
  have ha : a ∉ items := fun hin =>
    (List.nodup_append.mp h.app.nodup).2.2 a hin a (List.mem_singleton_self a) rfl
  unfold HASH_ADD_TO_TABLE
  rw [Memory.tblOf_ok (hlive head hhead) (h.owner head hhead) h.table, ok_bind]
  dsimp only
  have hcounted : Hashed (m.setTable t { tbl with num_items := tbl.num_items + 1 })
      { tbl with num_items := tbl.num_items + 1 } items :=
    h.hashed.congr rfl rfl rfl (fun _ _ => rfl) (fun _ _ => rfl) (fun _ _ => rfl)
  refine (HASH_ADD_TO_BKT_spec (P := P) (Memory.setTable_table _ _) hcounted hlive ha
    (h.owner a (by simp)) hfuel).mono ?_
  rintro m' ⟨tbl', hw⟩
  refine ⟨tbl', ?_, ?_, hw.elem⟩
  · exact
      { table := hw.table
        app := by
          rw [hw.prev, hw.next, hw.tail]
          exact h.app
        num_items := by
          rw [hw.num_items, List.length_append, UInt32.ofNat_add, ← h.num_items]
          rfl
        hashed := hw.hashed
        owner := fun x hx => by rw [hw.tbl_eq]; exact h.owner x hx
        elem := fun x hx => by rw [hw.elem, hw.hashv]; exact h.elem x hx }
  · exact
      { elem := fun x _ => by rw [hw.elem]; rfl
        link := hw.outside
        tbl := fun x _ => by rw [hw.tbl_eq]; rfl
        hashv := fun x _ => by rw [hw.hashv]; rfl
        table := fun u hu => (hw.tables u hu).trans (Function.update_of_ne hu _ _) }

/-- `HASH_APPEND_LIST` is a push at the tail. -/
theorem HASH_APPEND_LIST_eq {head tl : Nat} (halive : (m.elem a).isSome)
    (hhead : (m.elem head).isSome) (howner : m.tbl head = some t) (htable : m.table t = some tbl)
    (htail : tbl.tail = some tl) (htl : (m.elem tl).isSome) :
    HASH_APPEND_LIST m head a
      = .ok ((pushed m .next .prev tbl.tail a).setTable t { tbl with tail := some a }) := by
  unfold HASH_APPEND_LIST
  rw [Memory.store_ok halive, ok_bind,
    Memory.tblOf_ok (m := Memory.withLink _ _ _) hhead howner htable, ok_bind]
  dsimp only
  rw [htail, Memory.store_ok (m := Memory.withLink _ _ _) halive, ok_bind]
  unfold Memory.storeAt
  dsimp only
  have hpush := @pushed_of_back_first β m .next .prev (by decide) _ _ (some tl) a rfl rfl
  rw [redirect_some] at hpush
  rw [Memory.store_ok (m := Memory.withLink (Memory.withLink _ _ _) _ _) htl, ok_bind, hpush]
  rfl

/-- The handle of the first element, filled in before its table is made. -/
def first_handle (P : Platform β) (m : Memory β) (a : Nat) (e : β) : Memory β :=
  (({ m with hashv := Function.update m.hashv a (P.HASH_FUNCTION (P.key e)) } :
    Memory β).withLink .next (Function.update (m.link .next) a none)).withLink .prev
      (Function.update (m.link .prev) a none)

/-- The handle of a further element, filled in before it is linked. -/
def next_handle (P : Platform β) (m : Memory β) (t a : Nat) (e : β) : Memory β :=
  { m with
    hashv := Function.update m.hashv a (P.HASH_FUNCTION (P.key e))
    tbl := Function.update m.tbl a (some t) }

/-- The application order after a push at the tail. -/
theorem IsTable.appended (h : IsTable P m t tbl items) {e : β} (ha : a ∉ items)
    (he : m.elem a = some e) :
    Appended P
      ((pushed (next_handle P m t a e) .next .prev tbl.tail a).setTable t
        { tbl with tail := some a }) t { tbl with tail := some a } items a := by
  have hne : ∀ x ∈ items, x ≠ a := fun x hx => ne_of_mem_of_not_mem hx ha
  have hhash : ∀ x ∈ items, (next_handle P m t a e).hashv x = m.hashv x :=
    fun x hx => Function.update_of_ne (hne x hx) _ _
  refine
    { table := Memory.setTable_table _ _
      app := ?_
      num_items := h.num_items
      hashed := ?_
      owner := ?_
      elem := ?_ }
  · have hlist := h.app.append ha
    rw [Memory.setTable_link, pushed_back, pushed_fwd (by decide)]
    cases items with
    | nil => exact hlist
    | cons c items => exact hlist
  · refine h.hashed.congr rfl rfl rfl ?_ ?_ hhash
    · intro x _
      rw [Memory.setTable_link, pushed_other (by decide) (by decide)]
      rfl
    · intro x _
      rw [Memory.setTable_link, pushed_other (by decide) (by decide)]
      rfl
  · intro x hx
    show (next_handle P m t a e).tbl x = some t
    rcases List.mem_append.mp hx with hx | hx
    · exact (Function.update_of_ne (hne x hx) _ _).trans (h.owner x hx)
    · rw [List.mem_singleton.mp hx]
      exact Function.update_self _ _ _
  · intro x hx
    show ∃ e', m.elem x = some e'
      ∧ (next_handle P m t a e).hashv x = P.HASH_FUNCTION (P.key e')
    rcases List.mem_append.mp hx with hx | hx
    · rw [hhash x hx]
      exact h.elem x hx
    · rw [List.mem_singleton.mp hx]
      exact ⟨e, he, Function.update_self _ _ _⟩

/-- A new table, with its first element. -/
theorem appended_new {e : β} (he : m.elem a = some e) (t : Nat) :
    Appended P
      { (first_handle P m a e).setTable t (new_table a) with
        tbl := Function.update m.tbl a (some t) } t (new_table a) [] a where
  table := Memory.setTable_table _ _
  app := by
    have hlist := (DList.nil : DList (m.link .prev) (m.link .next) none none []).prepend
      (List.not_mem_nil (a := a))
    show DList ((first_handle P m a e).link .prev) ((first_handle P m a e).link .next) (some a)
      (some a) [a]
    unfold first_handle
    rw [Memory.withLink_link, Memory.withLink_link_of_ne (by decide), Memory.withLink_link]
    exact hlist
  num_items := rfl
  hashed :=
    { log2_lt := by
        show HASH_INITIAL_NUM_BUCKETS_LOG2.toNat < 32
        decide
      num_buckets := by
        show HASH_INITIAL_NUM_BUCKETS.toNat = 2 ^ HASH_INITIAL_NUM_BUCKETS_LOG2.toNat
        decide
      length := List.length_replicate
      chains := chains_replicate _ }
  owner x hx := by
    rw [List.nil_append, List.mem_singleton] at hx
    rw [hx]
    exact Function.update_self _ _ _
  elem x hx := by
    rw [List.nil_append, List.mem_singleton] at hx
    rw [hx]
    exact ⟨e, he, Function.update_self _ _ _⟩

/-- `HASH_ADD` to NULL. -/
theorem HASH_ADD_null {e : β} (he : m.elem a = some e) :
    HASH_ADD P fuel m none a = (do
      let m ← HASH_MAKE_TABLE P (first_handle P m a e) a
      let m ← HASH_ADD_TO_TABLE P fuel m a (P.HASH_FUNCTION (P.key e)) a
      pure (m, some a)) := by
  have halive : (m.elem a).isSome := by
    rw [he]
    rfl
  let m₀ : Memory β := { m with hashv := Function.update m.hashv a (P.HASH_FUNCTION (P.key e)) }
  unfold HASH_ADD
  rw [he]
  dsimp only
  rw [Memory.store_ok (m := m₀) halive, ok_bind,
    Memory.store_ok (m := Memory.withLink m₀ _ _) halive, ok_bind,
    Memory.withLink_link_of_ne (by decide)]
  rfl

/-- `HASH_ADD` to a table. -/
theorem HASH_ADD_table {e : β} {head : Nat} {rest : List Nat}
    (h : IsTable P m t tbl (head :: rest)) (he : m.elem a = some e) :
    HASH_ADD P fuel m (some head) a = (do
      let m ← HASH_ADD_TO_TABLE P fuel
        ((pushed (next_handle P m t a e) .next .prev tbl.tail a).setTable t
          { tbl with tail := some a }) head (P.HASH_FUNCTION (P.key e)) a
      pure (m, some head)) := by
  have halive : (m.elem a).isSome := by
    rw [he]
    rfl
  have hhead := h.live head List.mem_cons_self
  have howner := h.owner head List.mem_cons_self
  obtain ⟨tl, htl⟩ : ∃ tl, tbl.tail = some tl :=
    ⟨_, h.app.tail_eq.trans (List.getLast?_eq_some_getLast (List.cons_ne_nil _ _))⟩
  have htllive : (m.elem tl).isSome := by
    rw [h.app.tail_eq] at htl
    exact h.live tl (List.mem_of_getLast? htl)
  let m₀ : Memory β := { m with hashv := Function.update m.hashv a (P.HASH_FUNCTION (P.key e)) }
  -- when the head is the new element itself its handle is already right
  have howner' : (next_handle P m t a e).tbl head = some t := by
    show Function.update m.tbl a (some t) head = some t
    rw [Function.update_apply]
    split
    · rfl
    · exact howner
  unfold HASH_ADD
  rw [he]
  dsimp only
  rw [Memory.tblOf_ok (m := m₀) hhead howner h.table, ok_bind]
  dsimp only
  show (do
    let m ← HASH_APPEND_LIST (next_handle P m t a e) head a
    let m ← HASH_ADD_TO_TABLE P fuel m head (P.HASH_FUNCTION (P.key e)) a
    pure (m, some head)) = _
  rw [HASH_APPEND_LIST_eq (m := next_handle P m t a e) halive hhead howner' h.table htl htllive,
    ok_bind]

/-- The two handles differ from `m` at the new element only. -/
theorem frame_first_handle (e : β) {t : Nat} {items : List Nat} :
    Frame m { (first_handle P m a e).setTable t (new_table a) with
      tbl := Function.update m.tbl a (some t) } (items ++ [a]) t where
  elem _ _ := rfl
  link f x hx := by
    have hne : x ≠ a := fun e => hx (List.mem_append_right _ (List.mem_singleton.mpr e))
    show (first_handle P m a e).link f x = m.link f x
    unfold first_handle
    by_cases hprev : f = .prev
    · rw [hprev, Memory.withLink_link, Function.update_of_ne hne]
    · rw [Memory.withLink_link_of_ne hprev]
      by_cases hnext : f = .next
      · rw [hnext, Memory.withLink_link, Function.update_of_ne hne]
      · rw [Memory.withLink_link_of_ne hnext]
  tbl x hx := Function.update_of_ne
    (fun e => hx (List.mem_append_right _ (List.mem_singleton.mpr e))) _ _
  hashv x hx := Function.update_of_ne
    (fun e => hx (List.mem_append_right _ (List.mem_singleton.mpr e))) _ _
  table _ hu := Function.update_of_ne hu _ _

theorem frame_next_handle (h : IsTable P m t tbl items) (e : β) :
    Frame m ((pushed (next_handle P m t a e) .next .prev tbl.tail a).setTable t
      { tbl with tail := some a }) (items ++ [a]) t where
  elem _ _ := rfl
  link f x hx := by
    rw [List.mem_append, List.mem_singleton, not_or] at hx
    refine pushed_of_ne (by decide) f hx.2 ?_
    intro htail
    rw [h.app.tail_eq] at htail
    exact hx.1 (List.mem_of_getLast? htail)
  tbl x hx := Function.update_of_ne
    (fun e => hx (List.mem_append_right _ (List.mem_singleton.mpr e))) _ _
  hashv x hx := Function.update_of_ne
    (fun e => hx (List.mem_append_right _ (List.mem_singleton.mpr e))) _ _
  table _ hu := Function.update_of_ne hu _ _

/-- **`HASH_ADD`** puts the element at the end of the application order. -/
theorem HASH_ADD_spec {head tb : Option Nat} (h : HashOf P m head items tb) {e : β}
    (ha : a ∉ items) (he : m.elem a = some e) (hfuel : items.length + 1 ≤ fuel) :
    Returns P.Exits (fun r => ∃ t, HashOf P r.1 r.2 (items ++ [a]) (some t)
        ∧ Frame m r.1 (items ++ [a]) t ∧ r.1.elem = m.elem
        ∧ (tb = some t ∨ tb = none ∧ m.table t = none))
      (HASH_ADD P fuel m head a) := by
  cases h with
  | null =>
      rw [HASH_ADD_null he]
      unfold HASH_MAKE_TABLE
      simp only [bind_assoc, pure_bind]
      refine (P.alloc_spec _ .table).bind ?_
      intro t ht
      have halive : ((first_handle P m a e).elem a).isSome := by
        show (m.elem a).isSome
        rw [he]
        rfl
      rw [Memory.check_ok halive, ok_bind]
      refine (P.alloc_spec _ _).bind ?_
      intro _ _
      have happ : Appended P _ t (new_table a) [] a := appended_new he t
      have hadd := happ.add_to_table (List.mem_append_right _ List.mem_cons_self) hfuel
      have hhash : (first_handle P m a e).hashv a = P.HASH_FUNCTION (P.key e) :=
        Function.update_self _ _ _
      refine Returns.bind (hhash ▸ hadd) ?_
      rintro m' ⟨tbl', htable, hframe, helem⟩
      exact ⟨t, .table htable, (frame_first_handle e).trans hframe, helem,
        .inr ⟨trivial, P.table_free (first_handle P m a e) t ht⟩⟩
  | @table t tbl head rest h =>
      rw [HASH_ADD_table h he]
      have hin : head ∈ (head :: rest) ++ [a] := List.mem_append_left _ List.mem_cons_self
      have hadd := (h.appended ha he).add_to_table hin hfuel
      have hhash : (next_handle P m t a e).hashv a = P.HASH_FUNCTION (P.key e) :=
        Function.update_self _ _ _
      refine Returns.bind (hhash ▸ hadd) ?_
      rintro m' ⟨tbl', htable, hframe, helem⟩
      exact ⟨t, .table htable, (frame_next_handle h e).trans hframe, helem, .inl rfl⟩

end Add

/-! ## §4. Deleting. -/

section Delete

variable {P : Platform β} {m : Memory β} {t a : Nat} {tbl : UTHashTable} {items l₁ l₂ : List Nat}

/-- The neighbours of an element of a doubly linked list are in the list. -/
theorem IsTable.next_mem (h : IsTable P m t tbl (l₁ ++ a :: l₂)) {x : Nat}
    (hx : m.link .next a = some x) : x ∈ l₁ ++ l₂ := by
  rw [h.app.next_eq] at hx
  exact List.mem_append_right _ (List.mem_of_mem_head? hx)

theorem IsTable.prev_mem (h : IsTable P m t tbl (l₁ ++ a :: l₂)) {x : Nat}
    (hx : m.link .prev a = some x) : x ∈ l₁ ++ l₂ := by
  rw [h.app.prev_eq] at hx
  exact List.mem_append_left _ (List.mem_of_getLast? hx)

/-- `HASH_DEL_IN_BKT` unlinks the element from its chain. -/
theorem HASH_DEL_IN_BKT_eq {bkt : Nat} {b : UTHashBucket} (htable : m.table t = some tbl)
    (hb : tbl.buckets[bkt]? = some b) (halive : (m.elem a).isSome)
    (hprev : ∀ x, m.link .hh_prev a = some x → (m.elem x).isSome)
    (hnext : ∀ x, m.link .hh_next a = some x → (m.elem x).isSome) :
    HASH_DEL_IN_BKT m t bkt a
      = .ok (unlinked
          (m.setTable t
            { tbl with
              buckets := tbl.buckets.set bkt
                { b with
                  count := b.count - 1
                  hh_head := if b.hh_head = some a then m.link .hh_next a else b.hh_head } })
          .hh_prev .hh_next a) := by
  unfold HASH_DEL_IN_BKT
  rw [Memory.tableAt_ok htable, ok_bind, bucketAt_ok hb, ok_bind, Memory.load_ok halive, ok_bind,
    Memory.load_ok halive, ok_bind]
  exact unlink_stores (m := Memory.setTable m t _) (by decide) hprev hnext

/-- The table with `a` out of the application order, its bucket, and the count. -/
def without (m : Memory β) (tbl : UTHashTable) (b : UTHashBucket) (a : Nat) : UTHashTable :=
  { tbl with
    tail := if tbl.tail = some a then m.link .prev a else tbl.tail
    buckets := tbl.buckets.set (HASH_TO_BKT (m.hashv a) tbl.num_buckets)
      { b with
        count := b.count - 1
        hh_head := if b.hh_head = some a then m.link .hh_next a else b.hh_head }
    num_items := tbl.num_items - 1 }

/-- The memory with `a` out of both lists. -/
def deleted (m : Memory β) (t : Nat) (tbl : UTHashTable) (b : UTHashBucket) (a : Nat) : Memory β :=
  (unlinked (unlinked m .prev .next a) .hh_prev .hh_next a).setTable t (without m tbl b a)

theorem deleted_app (b : UTHashBucket) :
    (deleted m t tbl b a).link .prev = (unlinked m .prev .next a).link .prev
      ∧ (deleted m t tbl b a).link .next = (unlinked m .prev .next a).link .next := by
  unfold deleted
  rw [Memory.setTable_link]
  exact ⟨unlinked_other (by decide) (by decide) _, unlinked_other (by decide) (by decide) _⟩

theorem deleted_hh (b : UTHashBucket) :
    (deleted m t tbl b a).link .hh_prev = (unlinked m .hh_prev .hh_next a).link .hh_prev
      ∧ (deleted m t tbl b a).link .hh_next = (unlinked m .hh_prev .hh_next a).link .hh_next := by
  have hprev : (unlinked m .prev .next a).link .hh_prev = m.link .hh_prev :=
    unlinked_other (by decide) (by decide) _
  have hnext : (unlinked m .prev .next a).link .hh_next = m.link .hh_next :=
    unlinked_other (by decide) (by decide) _
  unfold deleted
  constructor
  · rw [Memory.setTable_link, unlinked_back, unlinked_back, hprev, hnext]
  · rw [Memory.setTable_link, unlinked_fwd (by decide), unlinked_fwd (by decide), hprev, hnext]

/-- **The table stays intact without the element.** -/
theorem IsTable.deleted (h : IsTable P m t tbl (l₁ ++ a :: l₂)) {b : UTHashBucket}
    (hb : tbl.buckets[HASH_TO_BKT (m.hashv a) tbl.num_buckets]? = some b) :
    IsTable P (deleted m t tbl b a) t (without m tbl b a) (l₁ ++ l₂) where
  table := Memory.setTable_table _ _
  app := by
    have hlist := h.app.unlink
    rw [(deleted_app b).1, (deleted_app b).2, unlinked_back, unlinked_fwd (by decide)]
    rw [if_congr h.app.tail_eq_some_iff.symm rfl rfl] at hlist
    rw [← hlist.head_eq]
    exact hlist
  num_items := by
    show tbl.num_items - 1 = _
    rw [h.num_items, List.perm_middle.length_eq, ofNat_length_succ, UInt32.add_sub_cancel]
  hashed :=
    { log2_lt := h.hashed.log2_lt
      num_buckets := h.hashed.num_buckets
      length := by
        show (tbl.buckets.set _ _).length = _
        rw [List.length_set]
        exact h.hashed.length
      chains := by
        refine (h.hashed.chains.erase (List.mem_append_right _ List.mem_cons_self) rfl hb
          (mem_unlinked_iff h.app.nodup)).congr (fun _ => Iff.rfl) ?_ ?_ (fun _ _ => rfl)
        · intro x _
          rw [(deleted_hh b).1]
        · intro x _
          rw [(deleted_hh b).2] }
  owner x hx := h.owner x (mem_middle hx)
  elem x hx := h.elem x (mem_middle hx)

/-- Only elements of the table are written to. -/
theorem IsTable.frame_deleted (h : IsTable P m t tbl (l₁ ++ a :: l₂)) {b : UTHashBucket}
    (hb : tbl.buckets[HASH_TO_BKT (m.hashv a) tbl.num_buckets]? = some b) :
    Frame m (UtHash.deleted m t tbl b a) (l₁ ++ a :: l₂) t where
  elem _ _ := rfl
  link f x hx := by
    obtain ⟨chain, hchain⟩ := h.hashed.chains _ b hb
    have hin : a ∈ chain :=
      (hchain.mem a).mpr ⟨List.mem_append_right _ List.mem_cons_self, rfl⟩
    have happ : ∀ f, (unlinked m .prev .next a).link f x = m.link f x := by
      intro f
      refine unlinked_of_ne (by decide) f ?_ ?_
      · exact fun e => hx (mem_middle (h.prev_mem e))
      · exact fun e => hx (mem_middle (h.next_mem e))
    have hprev : (unlinked m .prev .next a).link .hh_prev = m.link .hh_prev :=
      unlinked_other (by decide) (by decide) _
    have hnext : (unlinked m .prev .next a).link .hh_next = m.link .hh_next :=
      unlinked_other (by decide) (by decide) _
    rw [← happ f]
    refine unlinked_of_ne (by decide) f ?_ ?_
    · rw [hprev]
      exact fun e => hx ((hchain.mem x).mp (hchain.hh_prev_mem hin e)).1
    · rw [hnext]
      exact fun e => hx ((hchain.mem x).mp (hchain.hh_next_mem hin e)).1
  tbl _ _ := rfl
  hashv _ _ := rfl
  table _ hu := Function.update_of_ne hu _ _

/-- The part of `HASH_DELETE_HH` that works on the bucket. -/
theorem delete_from_bucket_eq {head : Nat} {b : UTHashBucket} (htable : m.table t = some tbl)
    (hhead : (m.elem head).isSome) (howner : m.tbl head = some t)
    (hb : tbl.buckets[HASH_TO_BKT (m.hashv a) tbl.num_buckets]? = some b)
    (halive : (m.elem a).isSome)
    (hprev : ∀ x, m.link .hh_prev a = some x → (m.elem x).isSome)
    (hnext : ∀ x, m.link .hh_next a = some x → (m.elem x).isSome) :
    delete_from_bucket m head a
      = .ok ((unlinked m .hh_prev .hh_next a).setTable t
          { tbl with
            buckets := tbl.buckets.set (HASH_TO_BKT (m.hashv a) tbl.num_buckets)
              { b with
                count := b.count - 1
                hh_head := if b.hh_head = some a then m.link .hh_next a else b.hh_head }
            num_items := tbl.num_items - 1 }, some head) := by
  unfold delete_from_bucket
  rw [Memory.tblOf_ok hhead howner htable, ok_bind]
  dsimp only
  rw [HASH_DEL_IN_BKT_eq htable hb halive hprev hnext, ok_bind,
    Memory.tblOf_ok (m := unlinked (Memory.setTable m t _) _ _ _) hhead howner
      (Memory.setTable_table _ _), ok_bind]
  show Except.ok (Memory.setTable (Memory.setTable (unlinked m .hh_prev .hh_next a) t _) t _, _) = _
  rw [Memory.setTable_setTable]

/-- `HASH_DELETE_HH` on an element that is not the only one. -/
theorem HASH_DELETE_HH_eq {head : Nat} (h : IsTable P m t tbl (l₁ ++ a :: l₂))
    (hhead : (l₁ ++ a :: l₂).head? = some head) {b : UTHashBucket}
    (hb : tbl.buckets[HASH_TO_BKT (m.hashv a) tbl.num_buckets]? = some b)
    {new_head : Nat} (hnew : (l₁ ++ l₂).head? = some new_head) :
    HASH_DELETE_HH m head a = .ok (deleted m t tbl b a, some new_head) := by
  have hlive := h.live
  have happ : ∀ x ∈ l₁ ++ l₂, (m.elem x).isSome := fun x hx => hlive x (mem_middle hx)
  have hmem : a ∈ l₁ ++ a :: l₂ := List.mem_append_right _ List.mem_cons_self
  have hin : head ∈ l₁ ++ a :: l₂ := List.mem_of_mem_head? hhead
  have hnewin : new_head ∈ l₁ ++ l₂ := List.mem_of_mem_head? hnew
  have hnot : ¬ (m.link .prev a = none ∧ m.link .next a = none) := by
    rintro ⟨hprev, hnext⟩
    rw [h.app.prev_eq, List.getLast?_eq_none_iff] at hprev
    rw [h.app.next_eq, List.head?_eq_none_iff] at hnext
    rw [hprev, hnext] at hnew
    cases hnew
  -- the head moves on exactly when the head is deleted
  have hsel : (if m.link .prev a = none then m.link .next a else some head) = some new_head := by
    have hlist := h.app.unlink.head_eq
    rw [hhead, hnew] at hlist
    exact hlist
  let tbl₁ : UTHashTable :=
    { tbl with tail := if tbl.tail = some a then m.link .prev a else tbl.tail }
  let m₁ : Memory β := unlinked (m.setTable t tbl₁) .prev .next a
  have hhprev : m₁.link .hh_prev = m.link .hh_prev := by
    show (unlinked (m.setTable t tbl₁) .prev .next a).link .hh_prev = _
    exact unlinked_other (by decide) (by decide) _
  have hhnext : m₁.link .hh_next = m.link .hh_next := by
    show (unlinked (m.setTable t tbl₁) .prev .next a).link .hh_next = _
    exact unlinked_other (by decide) (by decide) _
  obtain ⟨chain, hchain⟩ := h.hashed.chains _ b hb
  have hina : a ∈ chain := (hchain.mem a).mpr ⟨hmem, rfl⟩
  have hbucket := delete_from_bucket_eq (m := m₁) (t := t) (a := a) (b := b)
    (Memory.setTable_table _ _) (happ new_head hnewin) (h.owner new_head (mem_middle hnewin)) hb
    (hlive a hmem)
    (by
      intro x hx
      rw [hhprev] at hx
      exact hlive x ((hchain.mem x).mp (hchain.hh_prev_mem hina hx)).1)
    (by
      intro x hx
      rw [hhnext] at hx
      exact hlive x ((hchain.mem x).mp (hchain.hh_next_mem hina hx)).1)
  unfold HASH_DELETE_HH
  rw [Memory.load_ok (hlive a hmem), ok_bind, Memory.load_ok (hlive a hmem), ok_bind,
    Memory.tblOf_ok (hlive head hin) (h.owner head hin) h.table, ok_bind]
  dsimp only
  rw [if_neg hnot,
    Memory.storeIf_ok (m := Memory.setTable m t _) (fun x hx => happ x (h.prev_mem hx)), ok_bind,
    Memory.storeIf_ok (m := Memory.withLink (Memory.setTable m t _) _ _)
      (fun x hx => happ x (h.next_mem hx)), ok_bind, hsel, Memory.withLink_link_of_ne (by decide)]
  show delete_from_bucket m₁ new_head a = _
  rw [hbucket, hhnext]
  show Except.ok (Memory.setTable (Memory.setTable
    (unlinked (unlinked m .prev .next a) .hh_prev .hh_next a) t _) t _, _) = _
  rw [Memory.setTable_setTable]
  rfl

/-- **`HASH_DELETE_HH`** takes the element out of the table; with the last element the table is
freed. -/
theorem HASH_DELETE_HH_spec {hd : Nat} (h : HashOf P m (some hd) (l₁ ++ a :: l₂) (some t)) :
    ∃ m' head' tb', HASH_DELETE_HH m hd a = .ok (m', head') ∧ HashOf P m' head' (l₁ ++ l₂) tb'
      ∧ Frame m m' (l₁ ++ a :: l₂) t ∧ m'.elem = m.elem
      ∧ (tb' = some t ∨ tb' = none ∧ m'.table t = none) := by
  obtain ⟨tbl, htable, hhead⟩ := h.isTable
  cases hnew : (l₁ ++ l₂).head? with
  | some new_head =>
      obtain ⟨b, hb⟩ := htable.hashed.bucket (m.hashv a)
      exact ⟨_, _, _, HASH_DELETE_HH_eq htable hhead hb hnew, (htable.deleted hb).hashOf hnew,
        htable.frame_deleted hb, rfl, .inl rfl⟩
  | none =>
      -- the only element, which has no neighbours
      rw [List.head?_eq_none_iff, List.append_eq_nil_iff] at hnew
      obtain ⟨rfl, rfl⟩ := hnew
      have hlive := htable.live
      rw [List.nil_append, List.head?_cons, Option.some.injEq] at hhead
      subst hhead
      have hmem : a ∈ [] ++ [a] := List.mem_singleton_self a
      refine ⟨{ m with table := Function.update m.table t none }, none, none, ?_, .null,
        ⟨fun _ _ => rfl, fun _ _ _ => rfl, fun _ _ => rfl, fun _ _ => rfl,
          fun _ hu => Function.update_of_ne hu _ _⟩, rfl, .inr ⟨rfl, Function.update_self _ _ _⟩⟩
      unfold HASH_DELETE_HH
      rw [Memory.load_ok (hlive a hmem), ok_bind, Memory.load_ok (hlive a hmem), ok_bind,
        Memory.tblOf_ok (hlive a hmem) (htable.owner a hmem) htable.table, ok_bind]
      dsimp only
      rw [if_pos ⟨htable.app.prev_eq, htable.app.next_eq⟩]
      rfl

end Delete

end KafKatch.Sniffer.UtHash
