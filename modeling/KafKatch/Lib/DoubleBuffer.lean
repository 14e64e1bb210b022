/-
  KafKatch.Lib.DoubleBuffer
  ─────────────────────────
  **THE DOUBLE BUFFER, ABSTRACTLY: an active table, a detached one, and an exported log.**

  Items are added to the active table; a swap detaches it, once the previous detached table is
  empty; the entries of the detached table move one by one to the log.  There are no pointers
  and no slots here: this is what a double buffer is for.  If adding an item adds its weight to
  the active table, then in every run

      exported + detached + active  =  the weight of the items added      (`run_conserves`)

  and an entry property kept by `add` holds of every entry anywhere      (`run_forall`).

  What has been detached are the tables of the items between two swaps, each complete and in
  order; the items since the last swap are in the active table            (`run_cut`).
-/
import KafKatch.Lib.Run
import Mathlib.Algebra.BigOperators.Group.List.Basic

namespace KafKatch.Lib

variable {α β : Type*}

/-! ## §1. States and operations. -/

structure Buffers (β : Type*) where
  active : List β
  held : List β
  exported : List β
  deriving Repr, DecidableEq

/-- The operations; `add` carries the item added. -/
inductive BufferOp (α : Type*) where
  | add (a : α)
  | swap
  | exportOne
  deriving Repr, DecidableEq

namespace Buffers

/-- Nothing recorded, nothing exported. -/
def empty : Buffers β := ⟨[], [], []⟩

/-- One operation, where enabled. -/
def step (add : List β → α → List β) (b : Buffers β) : BufferOp α → Option (Buffers β)
  | .add a => some { b with active := add b.active a }
  | .swap =>
      match b.held with
      | [] => some { b with active := [], held := b.active }
      | _ :: _ => none
  | .exportOne =>
      match b.held with
      | [] => none
      | e :: rest => some { b with held := rest, exported := b.exported ++ [e] }

/-- Every entry, wherever it is. -/
def entries (b : Buffers β) : List β := b.exported ++ b.held ++ b.active

end Buffers

/-- The items added by a list of operations, in order. -/
def added (ops : List (BufferOp α)) : List α :=
  ops.filterMap (fun op => match op with | .add a => some a | _ => none)

/-! ## §2. Conservation. -/

section Conservation

variable {M : Type*} [AddCommMonoid M] (add : List β → α → List β) (m : β → M) (w : α → M)

/-- The weight of all entries. -/
def Buffers.total (b : Buffers β) : M := (b.entries.map m).sum

theorem Buffers.total_eq (b : Buffers β) :
    b.total m = (b.exported.map m).sum + (b.held.map m).sum + (b.active.map m).sum := by
  simp [Buffers.total, Buffers.entries, add_assoc]

/-- One operation changes the total by the weight of the item it adds. -/
theorem Buffers.step_total
    (hadd : ∀ t a, ((add t a).map m).sum = (t.map m).sum + w a)
    {b b' : Buffers β} {op : BufferOp α} (h : b.step add op = some b') :
    b'.total m = b.total m + ((added [op]).map w).sum := by
  cases op with
  | add a =>
      simp only [Buffers.step, Option.some.injEq] at h
      subst h
      simp [Buffers.total_eq, hadd, added, add_assoc]
  | swap =>
      -- a swap moves weight only if nothing is held
      cases hheld : b.held with
      | nil =>
          simp only [Buffers.step, hheld, Option.some.injEq] at h
          subst h
          simp [Buffers.total_eq, hheld, added]
      | cons e rest => simp [Buffers.step, hheld] at h
  | exportOne =>
      cases hheld : b.held with
      | nil => simp [Buffers.step, hheld] at h
      | cons e rest =>
          simp only [Buffers.step, hheld, Option.some.injEq] at h
          subst h
          simp [Buffers.total_eq, hheld, added, add_assoc]

/-- **Conservation over every run.** -/
theorem Buffers.run_conserves
    (hadd : ∀ t a, ((add t a).map m).sum = (t.map m).sum + w a)
    {b b' : Buffers β} {ops : List (BufferOp α)} (h : run (Buffers.step add) b ops = some b') :
    b'.total m = b.total m + ((added ops).map w).sum := by
  refine run_trace (fun ops b' => b'.total m = b.total m + ((added ops).map w).sum) ?_ ?_ h
  · simp [added]
  · intro ops t op t' ih hstep
    rw [Buffers.step_total add m w hadd hstep, ih, add_assoc]
    simp [added]

end Conservation

/-! ## §3. Entry properties. -/

theorem Buffers.step_forall {add : List β → α → List β} (P : β → Prop)
    (hadd : ∀ t a, (∀ e ∈ t, P e) → ∀ e ∈ add t a, P e)
    {b b' : Buffers β} {op : BufferOp α} (hb : ∀ e ∈ b.entries, P e)
    (h : b.step add op = some b') : ∀ e ∈ b'.entries, P e := by
  simp only [Buffers.entries, List.mem_append] at hb ⊢
  cases op with
  | add a =>
      simp only [Buffers.step, Option.some.injEq] at h
      subst h
      intro e he
      rcases he with he | he
      · exact hb e (Or.inl he)
      · exact hadd b.active a (fun e he => hb e (Or.inr he)) e he
  | swap =>
      cases hheld : b.held with
      | nil =>
          simp only [Buffers.step, hheld, Option.some.injEq] at h
          subst h
          intro e he
          apply hb e
          simpa [hheld] using he
      | cons _ _ => simp [Buffers.step, hheld] at h
  | exportOne =>
      cases hheld : b.held with
      | nil => simp [Buffers.step, hheld] at h
      | cons f rest =>
          simp only [Buffers.step, hheld, Option.some.injEq] at h
          subst h
          intro e he
          apply hb e
          simp only [List.mem_append, hheld, List.mem_cons] at he ⊢
          tauto

/-- **An entry property kept by `add` holds of every entry of every run.** -/
theorem Buffers.run_forall {add : List β → α → List β} (P : β → Prop)
    (hadd : ∀ t a, (∀ e ∈ t, P e) → ∀ e ∈ add t a, P e)
    {ops : List (BufferOp α)} {b : Buffers β}
    (h : run (Buffers.step add) Buffers.empty ops = some b) : ∀ e ∈ b.entries, P e :=
  run_invariant (fun b => ∀ e ∈ b.entries, P e) (by simp [Buffers.empty, Buffers.entries])
    (fun _ _ _ hb hstep => Buffers.step_forall P hadd hb hstep) h

/-! ## §4. The tables, swap by swap. -/

/-- Some items: those of each closed window, and those since the last swap. -/
structure Cut (α : Type*) where
  closed : List (List α)
  current : List α

namespace Cut

/-- The items added between the swaps. -/
def step (c : Cut α) : BufferOp α → Cut α
  | .add a => { c with current := c.current ++ [a] }
  | .swap => ⟨c.closed ++ [c.current], []⟩
  | .exportOne => c

/-- The windows of a list of operations. -/
def of (ops : List (BufferOp α)) : Cut α := ops.foldl step ⟨[], []⟩

/-- All windows, the open one last. -/
def windows (c : Cut α) : List (List α) := c.closed ++ [c.current]

/-- No item is in two windows or in none. -/
theorem flatten_windows (ops : List (BufferOp α)) : (of ops).windows.flatten = added ops := by
  have hfold : ∀ (ops : List (BufferOp α)) (c : Cut α),
      (ops.foldl step c).windows.flatten = c.windows.flatten ++ added ops := by
    intro ops
    induction ops with
    | nil =>
        intro c
        exact (List.append_nil _).symm
    | cons op ops ih =>
        intro c
        rw [List.foldl_cons, ih]
        cases op <;> simp [step, windows, added]
  exact hfold ops ⟨[], []⟩

end Cut

/-- **What was detached are the tables of the closed windows; the active one is that of the
current window.** -/
theorem Buffers.run_cut {add : List β → α → List β} {ops : List (BufferOp α)} {b : Buffers β}
    (h : run (Buffers.step add) Buffers.empty ops = some b) :
    b.exported ++ b.held = (Cut.of ops).closed.flatMap (fun window => window.foldl add [])
      ∧ b.active = (Cut.of ops).current.foldl add [] := by
  refine run_trace (fun ops b =>
    b.exported ++ b.held = (Cut.of ops).closed.flatMap (fun window => window.foldl add [])
      ∧ b.active = (Cut.of ops).current.foldl add []) ⟨rfl, rfl⟩ ?_ h
  rintro ops t op t' ⟨hdetached, hactive⟩ hstep
  have hof : Cut.of (ops ++ [op]) = (Cut.of ops).step op := List.foldl_concat Cut.step _ op ops
  rw [hof]
  cases op with
  | add a =>
      simp only [Buffers.step, Option.some.injEq] at hstep
      subst hstep
      refine ⟨hdetached, ?_⟩
      show add t.active a = ((Cut.of ops).current ++ [a]).foldl add []
      rw [List.foldl_concat, hactive]
  | swap =>
      -- the table that is detached joins an empty queue
      cases hheld : t.held with
      | nil =>
          simp only [Buffers.step, hheld, Option.some.injEq] at hstep
          subst hstep
          refine ⟨?_, rfl⟩
          show t.exported ++ t.active = ((Cut.of ops).closed ++ [(Cut.of ops).current]).flatMap _
          rw [List.flatMap_append, List.flatMap_singleton, ← hdetached, ← hactive, hheld,
            List.append_nil]
      | cons e rest => simp [Buffers.step, hheld] at hstep
  | exportOne =>
      cases hheld : t.held with
      | nil => simp [Buffers.step, hheld] at hstep
      | cons e rest =>
          simp only [Buffers.step, hheld, Option.some.injEq] at hstep
          subst hstep
          refine ⟨?_, hactive⟩
          show t.exported ++ [e] ++ rest = (Cut.of ops).closed.flatMap _
          rw [← hdetached, hheld, List.append_assoc, List.singleton_append]

end KafKatch.Lib
