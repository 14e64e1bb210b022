/-
  KafKatch.Sniffer.UtHash
  ───────────────────────
  **THE HASH TABLE MACROS (`uthash.h`) ON AN EXPLICIT MEMORY.**

  The macros are modelled on the memory they work on: an element is an address, the fields of its
  `UT_hash_handle` are functions of that address, and every dereference is checked.  Following
  NULL or an element that was freed, or indexing past the bucket array, is a `fault`; a `while`
  loop runs on fuel and is `endless` when it outlives it; an allocation may be refused, which ends
  the program (`uthash_fatal`).

  The macros are given as the sniffer compiles them: no bloom filter, out of memory fatal, the
  default thresholds.  An element and its handle are one address (`hho` is a constant), and
  `keylen` is the length of the key.
-/
import KafKatch.Lib.DoublyLinked
import Mathlib.Algebra.Order.Ring.Nat

namespace KafKatch.Sniffer.UtHash

open KafKatch.Lib

/-! ## §1. Memory. -/

/-- What is asked of `malloc`: an element, a `UT_hash_table`, or that many bytes of buckets. -/
inductive Request where
  | elem
  | table
  | buckets (bytes : Nat)
  deriving Repr, DecidableEq

/-- Why the program does not go on. -/
inductive Stop where
  | out_of_memory (request : Request)
  | fault
  | endless
  | oops
  deriving Repr, DecidableEq

/-- The pointer fields of a `UT_hash_handle` that link elements. -/
inductive Link where
  | prev
  | next
  | hh_prev
  | hh_next
  deriving Repr, DecidableEq

/-- `UT_hash_bucket`. -/
structure UTHashBucket where
  hh_head : Option Nat
  count : UInt32
  expand_mult : UInt32
  deriving Repr, DecidableEq

/-- `UT_hash_table`, together with the bucket array it owns. -/
structure UTHashTable where
  buckets : List UTHashBucket
  num_buckets : UInt32
  log2_num_buckets : UInt32
  num_items : UInt32
  tail : Option Nat
  ideal_chain_maxlen : UInt32
  nonideal_items : UInt32
  ineff_expands : UInt32
  noexpand : UInt32
  deriving Repr, DecidableEq

/-- The elements that are allocated, the fields of their handles, and the tables. -/
structure Memory (β : Type) where
  elem : Nat → Option β
  link : Link → Nat → Option Nat
  tbl : Nat → Option Nat
  hashv : Nat → UInt32
  table : Nat → Option UTHashTable

/-- `malloc`: it gives out only what is not in use, and never 64 GiB of buckets. -/
structure Allocator (β : Type) where
  malloc : Memory β → Request → Option Nat
  elem_free : ∀ m a, malloc m .elem = some a → m.elem a = none
  table_free : ∀ m t, malloc m .table = some t → m.table t = none
  buckets_bound : ∀ m bytes, malloc m (.buckets bytes) ≠ none → bytes < 2 ^ 36

variable {β : Type}

/-- Nothing is allocated. -/
def Memory.empty : Memory β where
  elem _ := none
  link _ _ := none
  tbl _ := none
  hashv _ := 0
  table _ := none

/-- A `malloc` with `size` addresses of each kind, which gives out the lowest free one. -/
def first_fit (β : Type) (size : Nat) : Allocator β where
  malloc m request :=
    match request with
    | .elem => (List.range size).find? fun a => (m.elem a).isNone
    | .table => (List.range size).find? fun t => (m.table t).isNone
    | .buckets bytes => if bytes < 2 ^ 36 then some 0 else none
  elem_free m a h := by
    have hnone := List.find?_some h
    exact Option.isNone_iff_eq_none.mp hnone
  table_free m t h := by
    have hnone := List.find?_some h
    exact Option.isNone_iff_eq_none.mp hnone
  buckets_bound m bytes h := by
    by_contra hge
    exact h (if_neg hge)

/-- What the macros take from outside: `malloc`, where an element keeps its key, and the hash
function. -/
structure Platform (β : Type) extends Allocator β where
  key : β → List UInt8
  HASH_FUNCTION : List UInt8 → UInt32

/-- A request that `malloc` may answer with NULL. -/
def Platform.Refuses (P : Platform β) (request : Request) : Prop :=
  ∃ m, P.malloc m request = none

/-- An allocation, fatal when it is refused. -/
def Platform.alloc (P : Platform β) (m : Memory β) (request : Request) : Except Stop Nat :=
  match P.malloc m request with
  | some a => pure a
  | none => throw (.out_of_memory request)

namespace Memory

variable (m : Memory β)

/-- Following a pointer to an element. -/
def check (a : Nat) : Except Stop Unit :=
  if (m.elem a).isSome then pure () else throw .fault

/-- `a->field`. -/
def load (field : Link) (a : Nat) : Except Stop (Option Nat) := do
  m.check a
  pure (m.link field a)

/-- The memory after `a->field = v`. -/
def setLink (field : Link) (a : Nat) (v : Option Nat) : Memory β :=
  { m with link := Function.update m.link field (Function.update (m.link field) a v) }

/-- `a->field = v`. -/
def store (field : Link) (a : Nat) (v : Option Nat) : Except Stop (Memory β) := do
  m.check a
  pure (m.setLink field a v)

/-- `p->field = v` through a pointer. -/
def storeAt (field : Link) (p v : Option Nat) : Except Stop (Memory β) :=
  match p with
  | some a => m.store field a v
  | none => throw .fault

/-- `if (p != NULL) p->field = v`. -/
def storeIf (field : Link) (p v : Option Nat) : Except Stop (Memory β) :=
  match p with
  | some a => m.store field a v
  | none => pure m

/-- The table at an address. -/
def tableAt (t : Nat) : Except Stop UTHashTable :=
  match m.table t with
  | some T => pure T
  | none => throw .fault

def setTable (t : Nat) (T : UTHashTable) : Memory β :=
  { m with table := Function.update m.table t (some T) }

/-- `(head)->hh.tbl`, and the table there. -/
def tblOf (head : Nat) : Except Stop (Nat × UTHashTable) := do
  m.check head
  match m.tbl head with
  | some t => do
      let T ← m.tableAt t
      pure (t, T)
  | none => throw .fault

/-- The element at an address. -/
def read (a : Nat) : Except Stop β :=
  match m.elem a with
  | some e => pure e
  | none => throw .fault

/-- A change of the element at an address, its handle apart. -/
def modify (a : Nat) (f : β → β) : Except Stop (Memory β) := do
  let e ← m.read a
  pure { m with elem := Function.update m.elem a (some (f e)) }

/-- `calloc` of an element: the handle is all zero. -/
def calloc (a : Nat) (e : β) : Memory β where
  elem := Function.update m.elem a (some e)
  link f := Function.update (m.link f) a none
  tbl := Function.update m.tbl a none
  hashv := Function.update m.hashv a 0
  table := m.table

/-- `free` of an element. -/
def free (a : Nat) : Except Stop (Memory β) := do
  m.check a
  pure { m with elem := Function.update m.elem a none }

end Memory

/-- `buckets[i]`. -/
def bucketAt (buckets : List UTHashBucket) (i : Nat) : Except Stop UTHashBucket :=
  match buckets[i]? with
  | some b => pure b
  | none => throw .fault

/-! ## §2. Constants and new tables. -/

def HASH_INITIAL_NUM_BUCKETS : UInt32 := 32
def HASH_INITIAL_NUM_BUCKETS_LOG2 : UInt32 := 5
def HASH_BKT_CAPACITY_THRESH : UInt32 := 10

/-- `sizeof(struct UT_hash_bucket)`. -/
def sizeof_bucket : Nat := 16

/-- A bucket after `uthash_bzero`. -/
def zero_bucket : UTHashBucket := ⟨none, 0, 0⟩

/-- `HASH_TO_BKT`. -/
def HASH_TO_BKT (hashv num_bkts : UInt32) : Nat := (hashv &&& (num_bkts - 1)).toNat

/-- The table of `HASH_MAKE_TABLE`. -/
def new_table (head : Nat) : UTHashTable where
  buckets := List.replicate HASH_INITIAL_NUM_BUCKETS.toNat zero_bucket
  num_buckets := HASH_INITIAL_NUM_BUCKETS
  log2_num_buckets := HASH_INITIAL_NUM_BUCKETS_LOG2
  num_items := 0
  tail := some head
  ideal_chain_maxlen := 0
  nonideal_items := 0
  ineff_expands := 0
  noexpand := 0

section Macros

variable (P : Platform β)

/-- `HASH_MAKE_TABLE`. -/
def HASH_MAKE_TABLE (m : Memory β) (head : Nat) : Except Stop (Memory β) := do
  let t ← P.alloc m .table
  m.check head
  let _ ← P.alloc m (.buckets (HASH_INITIAL_NUM_BUCKETS.toNat * sizeof_bucket))
  pure { m.setTable t (new_table head) with tbl := Function.update m.tbl head (some t) }

/-! ## §3. Expanding the buckets. -/

/-- What the loops of `HASH_EXPAND_BUCKETS` work on. -/
structure Rehash (β : Type) where
  mem : Memory β
  new_buckets : List UTHashBucket
  nonideal_items : UInt32

/-- `HASH_EXPAND_BUCKETS`, one element moved to its new bucket. -/
def rehash_item (num_buckets ideal_chain_maxlen : UInt32) (s : Rehash β) (thh : Nat) :
    Except Stop (Rehash β) := do
  s.mem.check thh
  let bkt := HASH_TO_BKT (s.mem.hashv thh) (num_buckets * 2)
  let newbkt ← bucketAt s.new_buckets bkt
  let count := newbkt.count + 1
  let nonideal := decide (ideal_chain_maxlen < count)
  let expand_mult :=
    if nonideal ∧ newbkt.expand_mult * ideal_chain_maxlen < count then newbkt.expand_mult + 1
    else newbkt.expand_mult
  let m ← s.mem.store .hh_prev thh none
  let m ← m.store .hh_next thh newbkt.hh_head
  let m ← m.storeIf .hh_prev newbkt.hh_head (some thh)
  pure
    { mem := m
      new_buckets := s.new_buckets.set bkt ⟨some thh, count, expand_mult⟩
      nonideal_items := if nonideal then s.nonideal_items + 1 else s.nonideal_items }

/-- `HASH_EXPAND_BUCKETS`, the `while` loop over one old chain. -/
def rehash_chain (num_buckets ideal_chain_maxlen : UInt32) :
    Nat → Option Nat → Rehash β → Except Stop (Rehash β)
  | _, none, s => pure s
  | 0, some _, _ => throw .endless
  | fuel + 1, some thh, s => do
      let hh_nxt ← s.mem.load .hh_next thh
      let s ← rehash_item num_buckets ideal_chain_maxlen s thh
      rehash_chain num_buckets ideal_chain_maxlen fuel hh_nxt s

/-- `HASH_EXPAND_BUCKETS`, the `for` loop over the old buckets. -/
def rehash_buckets (fuel : Nat) (tbl : UTHashTable) (ideal_chain_maxlen : UInt32) :
    List Nat → Rehash β → Except Stop (Rehash β)
  | [], s => pure s
  | i :: is, s => do
      let bucket ← bucketAt tbl.buckets i
      let s ← rehash_chain tbl.num_buckets ideal_chain_maxlen fuel bucket.hh_head s
      rehash_buckets fuel tbl ideal_chain_maxlen is s

/-- `(n >> lb) + ((n & (b - 1)) ? 1 : 0)` for the doubled bucket count. -/
def ideal_chain (tbl : UTHashTable) : UInt32 :=
  (tbl.num_items >>> (tbl.log2_num_buckets + 1))
    + (if tbl.num_items &&& (tbl.num_buckets * 2 - 1) ≠ 0 then 1 else 0)

/-- The table at the end of `HASH_EXPAND_BUCKETS`. -/
def expanded (tbl : UTHashTable) (new_buckets : List UTHashBucket) (nonideal_items : UInt32) :
    UTHashTable :=
  let ineff_expands :=
    if tbl.num_items >>> 1 < nonideal_items then tbl.ineff_expands + 1 else 0
  { buckets := new_buckets
    num_buckets := tbl.num_buckets * 2
    log2_num_buckets := tbl.log2_num_buckets + 1
    num_items := tbl.num_items
    tail := tbl.tail
    ideal_chain_maxlen := ideal_chain tbl
    nonideal_items := nonideal_items
    ineff_expands := ineff_expands
    noexpand := if 1 < ineff_expands then 1 else tbl.noexpand }

/-- `HASH_EXPAND_BUCKETS`. -/
def HASH_EXPAND_BUCKETS (fuel : Nat) (m : Memory β) (t : Nat) : Except Stop (Memory β) := do
  let tbl ← m.tableAt t
  -- the product is a `size_t`
  let _ ← P.alloc m (.buckets (sizeof_bucket * tbl.num_buckets.toNat * 2))
  let s ← rehash_buckets fuel tbl (ideal_chain tbl) (List.range tbl.num_buckets.toNat)
    { mem := m
      new_buckets := List.replicate (tbl.num_buckets.toNat * 2) zero_bucket
      nonideal_items := 0 }
  pure (s.mem.setTable t (expanded tbl s.new_buckets s.nonideal_items))

/-! ## §4. Adding. -/

/-- `HASH_ADD_TO_BKT`, once the bucket is full: expand it unless `noexpand` is set. -/
def expand_full_bucket (fuel : Nat) (m : Memory β) (addhh : Nat) : Except Stop (Memory β) := do
  let (t, tbl) ← m.tblOf addhh
  if tbl.noexpand = 0 then HASH_EXPAND_BUCKETS P fuel m t else pure m

/-- `HASH_ADD_TO_BKT` on `tbl->buckets[bkt]`. -/
def HASH_ADD_TO_BKT (fuel : Nat) (m : Memory β) (t bkt addhh : Nat) :
    Except Stop (Memory β) := do
  let tbl ← m.tableAt t
  let head ← bucketAt tbl.buckets bkt
  let m ← m.store .hh_next addhh head.hh_head
  let m ← m.store .hh_prev addhh none
  let m ← m.storeIf .hh_prev head.hh_head (some addhh)
  let head := { head with count := head.count + 1, hh_head := some addhh }
  let m := m.setTable t { tbl with buckets := tbl.buckets.set bkt head }
  if (head.expand_mult + 1) * HASH_BKT_CAPACITY_THRESH ≤ head.count then
    expand_full_bucket P fuel m addhh
  else pure m

/-- `HASH_ADD_TO_TABLE`. -/
def HASH_ADD_TO_TABLE (fuel : Nat) (m : Memory β) (head : Nat) (hashval : UInt32) (add : Nat) :
    Except Stop (Memory β) := do
  let (t, tbl) ← m.tblOf head
  let m := m.setTable t { tbl with num_items := tbl.num_items + 1 }
  HASH_ADD_TO_BKT P fuel m t (HASH_TO_BKT hashval tbl.num_buckets) add

/-- `HASH_APPEND_LIST`. -/
def HASH_APPEND_LIST (m : Memory β) (head add : Nat) : Except Stop (Memory β) := do
  let m ← m.store .next add none
  let (t, tbl) ← m.tblOf head
  let m ← m.store .prev add tbl.tail
  let m ← m.storeAt .next tbl.tail (some add)
  pure (m.setTable t { tbl with tail := some add })

/-- `HASH_ADD`, down to `HASH_ADD_KEYPTR_BYHASHVALUE`: the memory and the new `head`. -/
def HASH_ADD (fuel : Nat) (m : Memory β) (head : Option Nat) (add : Nat) :
    Except Stop (Memory β × Option Nat) := do
  match m.elem add with
  | none => throw .fault
  | some e =>
      let hashval := P.HASH_FUNCTION (P.key e)
      let m := { m with hashv := Function.update m.hashv add hashval }
      match head with
      | none => do
          let m ← m.store .next add none
          let m ← m.store .prev add none
          let m ← HASH_MAKE_TABLE P m add
          let m ← HASH_ADD_TO_TABLE P fuel m add hashval add
          pure (m, some add)
      | some head => do
          let (t, _) ← m.tblOf head
          let m := { m with tbl := Function.update m.tbl add (some t) }
          let m ← HASH_APPEND_LIST m head add
          let m ← HASH_ADD_TO_TABLE P fuel m head hashval add
          pure (m, some head)

/-! ## §5. Finding. -/

/-- `HASH_FIND_IN_BKT`, from the chain's element `out` on. -/
def HASH_FIND_IN_BKT (m : Memory β) (keyptr : List UInt8) (hashval : UInt32) :
    Nat → Option Nat → Except Stop (Option Nat)
  | _, none => pure none
  | 0, some _ => throw .endless
  | fuel + 1, some out =>
      match m.elem out with
      | none => throw .fault
      | some e =>
          -- equal hash values first, then `keylen` and `HASH_KEYCMP`
          if m.hashv out = hashval ∧ P.key e = keyptr then pure (some out)
          else HASH_FIND_IN_BKT m keyptr hashval fuel (m.link .hh_next out)

/-- `HASH_FIND`. -/
def HASH_FIND (fuel : Nat) (m : Memory β) (head : Option Nat) (keyptr : List UInt8) :
    Except Stop (Option Nat) := do
  match head with
  | none => pure none
  | some head => do
      let hashval := P.HASH_FUNCTION keyptr
      let (_, tbl) ← m.tblOf head
      let bucket ← bucketAt tbl.buckets (HASH_TO_BKT hashval tbl.num_buckets)
      HASH_FIND_IN_BKT P m keyptr hashval fuel bucket.hh_head

end Macros

/-! ## §6. Deleting. -/

/-- `HASH_DEL_IN_BKT` on `tbl->buckets[bkt]`. -/
def HASH_DEL_IN_BKT (m : Memory β) (t bkt delhh : Nat) : Except Stop (Memory β) := do
  let tbl ← m.tableAt t
  let head ← bucketAt tbl.buckets bkt
  let hh_prev ← m.load .hh_prev delhh
  let hh_next ← m.load .hh_next delhh
  let head :=
    { head with
      count := head.count - 1
      hh_head := if head.hh_head = some delhh then hh_next else head.hh_head }
  let m := m.setTable t { tbl with buckets := tbl.buckets.set bkt head }
  let m ← m.storeIf .hh_next hh_prev hh_next
  m.storeIf .hh_prev hh_next hh_prev

/-- `HASH_DELETE_HH`, from the bucket on; the table is read through the new `head`. -/
def delete_from_bucket (m : Memory β) (head del : Nat) :
    Except Stop (Memory β × Option Nat) := do
  let (t, tbl) ← m.tblOf head
  let m ← HASH_DEL_IN_BKT m t (HASH_TO_BKT (m.hashv del) tbl.num_buckets) del
  let (t, tbl) ← m.tblOf head
  pure (m.setTable t { tbl with num_items := tbl.num_items - 1 }, some head)

/-- `HASH_DELETE_HH`: the memory and the new `head`. -/
def HASH_DELETE_HH (m : Memory β) (head del : Nat) :
    Except Stop (Memory β × Option Nat) := do
  let prev ← m.load .prev del
  let next ← m.load .next del
  let (t, tbl) ← m.tblOf head
  if prev = none ∧ next = none then
    -- the last element: the buckets and the table are freed
    pure ({ m with table := Function.update m.table t none }, none)
  else do
    let m := m.setTable t { tbl with tail := if tbl.tail = some del then prev else tbl.tail }
    let m ← m.storeIf .next prev next
    let new_head := if prev = none then next else some head
    let m ← m.storeIf .prev next prev
    match new_head with
    | none => throw .fault
    | some head => delete_from_bucket m head del

/-- `HASH_DEL`. -/
def HASH_DEL (m : Memory β) (head : Option Nat) (del : Nat) :
    Except Stop (Memory β × Option Nat) :=
  match head with
  | some head => HASH_DELETE_HH m head del
  | none => throw .fault

/-! ## §7. Iterating. -/

/-- `HASH_ITER` at the element `p`: `el`, and `tmp`, the element after it. -/
def HASH_ITER_at (m : Memory β) (p : Option Nat) : Except Stop (Option Nat × Option Nat) :=
  match p with
  | none => pure (none, none)
  | some a => do
      let tmp ← m.load .next a
      pure (some a, tmp)

/-! ## §8. The integrity check. -/

/-- `HASH_JEN_MIX`. -/
def HASH_JEN_MIX (a b c : UInt32) : UInt32 × UInt32 × UInt32 :=
  let a := (a - b - c) ^^^ (c >>> 13)
  let b := (b - c - a) ^^^ (a <<< 8)
  let c := (c - a - b) ^^^ (b >>> 13)
  let a := (a - b - c) ^^^ (c >>> 12)
  let b := (b - c - a) ^^^ (a <<< 16)
  let c := (c - a - b) ^^^ (b >>> 5)
  let a := (a - b - c) ^^^ (c >>> 3)
  let b := (b - c - a) ^^^ (a <<< 10)
  let c := (c - a - b) ^^^ (b >>> 15)
  (a, b, c)

/-- Four bytes of the key, the first the lowest. -/
def jen_word (k₀ k₁ k₂ k₃ : UInt8) : UInt32 :=
  k₀.toUInt32 + (k₁.toUInt32 <<< 8) + (k₂.toUInt32 <<< 16) + (k₃.toUInt32 <<< 24)

/-- The `while` loop of `HASH_JEN`, twelve bytes a round, and the bytes it leaves. -/
def jen_blocks : List UInt8 → UInt32 × UInt32 × UInt32 → (UInt32 × UInt32 × UInt32) × List UInt8
  | k₀ :: k₁ :: k₂ :: k₃ :: k₄ :: k₅ :: k₆ :: k₇ :: k₈ :: k₉ :: k₁₀ :: k₁₁ :: rest, (i, j, hashv) =>
      jen_blocks rest (HASH_JEN_MIX (i + jen_word k₀ k₁ k₂ k₃) (j + jen_word k₄ k₅ k₆ k₇)
        (hashv + jen_word k₈ k₉ k₁₀ k₁₁))
  | rest, s => (s, rest)

/-- `HASH_JEN`. -/
def HASH_JEN (key : List UInt8) : UInt32 :=
  let ((i, j, hashv), rest) := jen_blocks key (0x9e3779b9, 0x9e3779b9, 0xfeedbeef)
  let hashv := hashv + UInt32.ofNat key.length
  -- every case of the `switch` falls through, so each byte that is left is added once
  let k (n : Nat) : UInt8 := rest[n]?.getD 0
  let (_, _, hashv) := HASH_JEN_MIX (i + jen_word (k 0) (k 1) (k 2) (k 3))
    (j + jen_word (k 4) (k 5) (k 6) (k 7)) (hashv + jen_word 0 (k 8) (k 9) (k 10))
  hashv

/-! ## §10. Programs that may stop. -/

section Outcome

variable {ε α β : Type}

/-- `x` returns a value with `Q`, or stops with an error that `E` allows. -/
def Returns (E : ε → Prop) (Q : α → Prop) : Except ε α → Prop
  | .ok a => Q a
  | .error e => E e

/-- **One line after the other.** -/
theorem Returns.bind {E : ε → Prop} {P : α → Prop} {Q : β → Prop} {x : Except ε α}
    {f : α → Except ε β} (hx : Returns E P x) (hf : ∀ a, P a → Returns E Q (f a)) :
    Returns E Q (x >>= f) := by
  cases x with
  | ok a => exact hf a hx
  | error e => exact hx

/-- **A weaker postcondition.** -/
theorem Returns.mono {E : ε → Prop} {P Q : α → Prop} {x : Except ε α} (hx : Returns E P x)
    (h : ∀ a, P a → Q a) : Returns E Q x := by
  cases x with
  | ok a => exact h a hx
  | error e => exact hx

/-- A line whose value is known. -/
theorem ok_bind {a : α} {f : α → Except ε β} : (Except.ok a >>= f) = f a := rfl

end Outcome

end KafKatch.Sniffer.UtHash
