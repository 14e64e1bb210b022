/-
  KafKatch.Sniffer.Capture
  ────────────────────────
  **THE SNIFFER'S TWO THREADS (`main.c`) AS A STEP SYSTEM.**

  The main thread runs `main`: it captures with `pcap_loop`, whose callback `pkt_handler` works
  on the active table, and then shuts down.  The other thread runs `flush_worker`: it swaps the
  tables and exports the detached one, node by node.  One `Action` is one critical section, or
  one stretch of code that touches no memory of the other thread; a run is any interleaving.

  A pointer to a table is the address of its head node.  `heap` maps such an address to the
  nodes of the table from there on, and to `[]` when no live node is there: the address was
  never given out, or its node was freed.  Addresses are not given out twice, so a dangling
  pointer stays recognisable; using one raises `fault`.

  The step system is written for any node type `β` and any `flow_process_packet`-like
  `process`, so that it can be run on nodes that carry more than a `flow_t`.
-/
import KafKatch.Lib.DoubleBuffer
import Mathlib.Logic.Function.Basic

namespace KafKatch.Sniffer

open KafKatch.Lib

variable {α β γ : Type}

/-! ## §1. States. -/

/-- The status with which `main` returns. -/
inductive ExitStatus where
  | EXIT_SUCCESS
  | EXIT_FAILURE
  deriving Repr, DecidableEq

open ExitStatus

/-- Where `main` is, from the creation of the flush thread on. -/
inductive MainPc where
  | setup
  | pcap_loop
  | shutdown (status : ExitStatus)
  | join (status : ExitStatus)
  | cleanup (status : ExitStatus)
  | exited (status : ExitStatus)
  deriving Repr, DecidableEq

/-- Where `flush_worker` is. -/
inductive FlushPc where
  | loop_test
  | swap
  | send_flows
  | sleep
  | returned
  deriving Repr, DecidableEq

/-- The memory of both threads.  `tables`, `active_idx` and `is_running` are the fields of
`sniffer_context`, `table_to_export` is the local variable of `flush_worker`, and `produced`
the flows handed to `rd_kafka_producev` so far. -/
structure SnifferState (β : Type) where
  heap : Nat → List β
  next : Nat
  tables : Bool → Option Nat
  active_idx : Bool
  is_running : Bool
  table_to_export : Option Nat
  produced : List β
  main_pc : MainPc
  flush_pc : FlushPc
  fault : Bool

/-- The state after `pthread_create`. -/
def init : SnifferState β where
  heap := fun _ => []
  next := 0
  tables := fun _ => none
  active_idx := false
  is_running := true
  table_to_export := none
  produced := []
  main_pc := .setup
  flush_pc := .loop_test
  fault := false

/-! ## §2. Steps. -/

inductive Action (α : Type) where
  | pkt_handler (stats : α)
  | flush_test
  | flush_swap
  | flush_send
  | flush_sleep
  | setup_pcap (ok : Bool)
  | pcap_breakloop
  | stop
  | pthread_join
  | kafka_client_cleanup
  deriving Repr, DecidableEq

/-- The actions that touch the tables. -/
def Action.onTables : Action α → Bool
  | .pkt_handler _ | .flush_swap | .flush_send => true
  | _ => false

namespace SnifferState

/-- The critical section of `pkt_handler`: `flow_process_packet` on `tables[active_idx]`. -/
def record (process : List β → α → List β) (s : SnifferState β) (stats : α) : SnifferState β :=
  match s.tables s.active_idx with
  | none =>
      -- the first node of the window becomes the head of a new table
      { s with
        heap := Function.update s.heap s.next (process [] stats)
        next := s.next + 1
        tables := Function.update s.tables s.active_idx (some s.next) }
  | some head =>
      match s.heap head with
      -- the head was freed: `HASH_FIND` would read a dangling pointer
      | [] => { s with fault := true }
      | node :: rest =>
          { s with heap := Function.update s.heap head (process (node :: rest) stats) }

/-- The critical section of `flush_worker`, with the test of `table_to_export` after it. -/
def swap (s : SnifferState β) : SnifferState β :=
  { s with
    table_to_export := s.tables s.active_idx
    active_idx := !s.active_idx
    tables := Function.update s.tables (!s.active_idx) none
    flush_pc := if s.tables s.active_idx = none then .sleep else .send_flows }

/-- One round of the `HASH_ITER` loop of `kafka_client_send_flows`: produce the head node,
`HASH_DEL` it and free it.  The pointer moves on to the next node, if there is one. -/
def send_flow (s : SnifferState β) : SnifferState β :=
  match s.table_to_export with
  | none => { s with flush_pc := .sleep }
  | some head =>
      match s.heap head with
      -- `HASH_ITER` over a table that is not there any more
      | [] => { s with fault := true }
      | [flow] =>
          { s with
            heap := Function.update s.heap head []
            table_to_export := none
            produced := s.produced ++ [flow]
            flush_pc := .sleep }
      | flow :: node :: rest =>
          { s with
            heap := Function.update (Function.update s.heap head []) s.next (node :: rest)
            next := s.next + 1
            table_to_export := some s.next
            produced := s.produced ++ [flow] }

/-- One step of the program, where it is enabled. -/
def step (process : List β → α → List β) (s : SnifferState β) : Action α → Option (SnifferState β)
  | .pkt_handler stats =>
      if s.main_pc = .pcap_loop then some (s.record process stats) else none
  | .flush_test =>
      if s.flush_pc = .loop_test then
        -- `while (ctx->is_running)`: leaving the loop exports nothing
        if s.is_running then some { s with table_to_export := none, flush_pc := .swap }
        else some { s with flush_pc := .returned }
      else none
  | .flush_swap => if s.flush_pc = .swap then some s.swap else none
  | .flush_send => if s.flush_pc = .send_flows then some s.send_flow else none
  | .flush_sleep =>
      if s.flush_pc = .sleep then some { s with flush_pc := .loop_test } else none
  | .setup_pcap ok =>
      -- `goto err_thread` on failure
      if s.main_pc = .setup then
        some { s with main_pc := if ok then .pcap_loop else .shutdown EXIT_FAILURE }
      else none
  | .pcap_breakloop =>
      if s.main_pc = .pcap_loop then some { s with main_pc := .shutdown EXIT_SUCCESS } else none
  | .stop =>
      match s.main_pc with
      | .shutdown status => some { s with is_running := false, main_pc := .join status }
      | _ => none
  | .pthread_join =>
      match s.main_pc with
      | .join status =>
          -- blocks until the flush thread has returned
          if s.flush_pc = .returned then some { s with main_pc := .cleanup status } else none
      | _ => none
  | .kafka_client_cleanup =>
      match s.main_pc with
      | .cleanup status => some { s with main_pc := .exited status }
      | _ => none

/-! ## §3. The branches of the two table operations. -/

theorem record_null {process : List β → α → List β} {s : SnifferState β} (stats : α)
    (ht : s.tables s.active_idx = none) :
    s.record process stats =
      { s with
        heap := Function.update s.heap s.next (process [] stats)
        next := s.next + 1
        tables := Function.update s.tables s.active_idx (some s.next) } := by
  unfold record
  rw [ht]

theorem record_live {process : List β → α → List β} {s : SnifferState β} (stats : α)
    {head : Nat} (ht : s.tables s.active_idx = some head) (hn : s.heap head ≠ []) :
    s.record process stats =
      { s with heap := Function.update s.heap head (process (s.heap head) stats) } := by
  unfold record
  rw [ht]
  dsimp only
  cases h : s.heap head with
  | nil => exact absurd h hn
  | cons node rest => rfl

theorem send_flow_last {s : SnifferState β} {head : Nat} {flow : β}
    (ht : s.table_to_export = some head) (hn : s.heap head = [flow]) :
    s.send_flow =
      { s with
        heap := Function.update s.heap head []
        table_to_export := none
        produced := s.produced ++ [flow]
        flush_pc := .sleep } := by
  unfold send_flow
  rw [ht]
  dsimp only
  rw [hn]

theorem send_flow_more {s : SnifferState β} {head : Nat} {flow node : β} {rest : List β}
    (ht : s.table_to_export = some head) (hn : s.heap head = flow :: node :: rest) :
    s.send_flow =
      { s with
        heap := Function.update (Function.update s.heap head []) s.next (node :: rest)
        next := s.next + 1
        table_to_export := some s.next
        produced := s.produced ++ [flow] } := by
  unfold send_flow
  rw [ht]
  dsimp only
  rw [hn]

/-- A step of control: the tables stay as they are, and `flush_worker` neither enters nor
leaves its export loop. -/
structure Control (s s' : SnifferState β) : Prop where
  heap : s'.heap = s.heap
  next : s'.next = s.next
  tables : s'.tables = s.tables
  active_idx : s'.active_idx = s.active_idx
  produced : s'.produced = s.produced
  fault : s'.fault = s.fault
  flush : (s'.flush_pc = s.flush_pc ∧ s'.table_to_export = s.table_to_export)
    ∨ (s.flush_pc ≠ .send_flows ∧ s'.flush_pc ≠ .send_flows
        ∧ (s'.table_to_export = s.table_to_export ∨ s'.table_to_export = none))

/-- **What one step can do.** -/
theorem step_cases {process : List β → α → List β} {s s' : SnifferState β} {act : Action α}
    (h : s.step process act = some s') :
    (∃ stats, act = .pkt_handler stats ∧ s.main_pc = .pcap_loop ∧ s' = s.record process stats)
      ∨ (act = .flush_swap ∧ s.flush_pc = .swap ∧ s' = s.swap)
      ∨ (act = .flush_send ∧ s.flush_pc = .send_flows ∧ s' = s.send_flow)
      ∨ (act.onTables = false ∧ Control s s') := by
  cases act with
  | pkt_handler stats =>
      simp only [step, Option.ite_none_right_eq_some, Option.some.injEq] at h
      exact Or.inl ⟨stats, rfl, h.1, h.2.symm⟩
  | flush_swap =>
      simp only [step, Option.ite_none_right_eq_some, Option.some.injEq] at h
      exact Or.inr (Or.inl ⟨rfl, h.1, h.2.symm⟩)
  | flush_send =>
      simp only [step, Option.ite_none_right_eq_some, Option.some.injEq] at h
      exact Or.inr (Or.inr (Or.inl ⟨rfl, h.1, h.2.symm⟩))
  | flush_test =>
      simp only [step, Option.ite_none_right_eq_some] at h
      obtain ⟨hpc, h⟩ := h
      -- `table_to_export` may be cleared here, outside the export loop
      refine Or.inr (Or.inr (Or.inr ⟨rfl, ?_⟩))
      split at h <;> simp only [Option.some.injEq] at h <;> subst h
      · exact ⟨rfl, rfl, rfl, rfl, rfl, rfl, Or.inr ⟨by simp [hpc], by simp, Or.inr rfl⟩⟩
      · exact ⟨rfl, rfl, rfl, rfl, rfl, rfl, Or.inr ⟨by simp [hpc], by simp, Or.inl rfl⟩⟩
  | flush_sleep =>
      simp only [step, Option.ite_none_right_eq_some, Option.some.injEq] at h
      obtain ⟨hpc, rfl⟩ := h
      exact Or.inr (Or.inr (Or.inr
        ⟨rfl, rfl, rfl, rfl, rfl, rfl, rfl, Or.inr ⟨by simp [hpc], by simp, Or.inl rfl⟩⟩))
  | setup_pcap _ | pcap_breakloop =>
      simp only [step, Option.ite_none_right_eq_some, Option.some.injEq] at h
      obtain ⟨_, rfl⟩ := h
      exact Or.inr (Or.inr (Or.inr ⟨rfl, rfl, rfl, rfl, rfl, rfl, rfl, Or.inl ⟨rfl, rfl⟩⟩))
  | stop | kafka_client_cleanup =>
      cases hpc : s.main_pc <;> simp only [step, hpc, Option.some.injEq, reduceCtorEq] at h
      subst h
      exact Or.inr (Or.inr (Or.inr ⟨rfl, rfl, rfl, rfl, rfl, rfl, rfl, Or.inl ⟨rfl, rfl⟩⟩))
  | pthread_join =>
      cases hpc : s.main_pc <;>
        simp only [step, hpc, Option.ite_none_right_eq_some, Option.some.injEq,
          reduceCtorEq] at h
      obtain ⟨_, rfl⟩ := h
      exact Or.inr (Or.inr (Or.inr ⟨rfl, rfl, rfl, rfl, rfl, rfl, rfl, Or.inl ⟨rfl, rfl⟩⟩))

/-! ## §4. What the pointers stand for. -/

/-- The nodes a table pointer leads to. -/
def deref (s : SnifferState β) (table : Option Nat) : List β := table.elim [] s.heap

/-- The active table. -/
def active (s : SnifferState β) : List β := s.deref (s.tables s.active_idx)

/-- The table `flush_worker` holds. -/
def held (s : SnifferState β) : List β := s.deref s.table_to_export

/-- The state without its pointers. -/
def buffers (s : SnifferState β) : Buffers β := ⟨s.active, s.held, s.produced⟩

/-- A change of node type. -/
def map (f : β → γ) (s : SnifferState β) : SnifferState γ :=
  { s with
    heap := fun head => (s.heap head).map f
    produced := s.produced.map f }

end SnifferState

/-- The packets recorded by a schedule. -/
def recorded (schedule : List (Action α)) : List α :=
  schedule.filterMap (fun act => match act with | .pkt_handler stats => some stats | _ => none)

/-! ## §5. Relabelling the nodes commutes with every step. -/

section Relabelling

variable {process : List β → α → List β} {process' : List γ → α → List γ} (f : β → γ)

theorem map_update (heap : Nat → List β) (head : Nat) (nodes : List β) :
    (fun a => (Function.update heap head nodes a).map f)
      = Function.update (fun a => (heap a).map f) head (nodes.map f) := by
  funext a
  by_cases h : a = head
  · subst h
    simp
  · simp [h]

theorem record_map (hf : ∀ t a, (process t a).map f = process' (t.map f) a)
    (s : SnifferState β) (stats : α) :
    (s.map f).record process' stats = (s.record process stats).map f := by
  unfold SnifferState.record
  cases ht : s.tables s.active_idx with
  | none => simp [SnifferState.map, map_update, hf, ht]
  | some head =>
      cases hn : s.heap head with
      | nil => simp [SnifferState.map, ht, hn]
      | cons node rest => simp [SnifferState.map, map_update, hf, ht, hn]

theorem send_flow_map (s : SnifferState β) : (s.map f).send_flow = s.send_flow.map f := by
  unfold SnifferState.send_flow
  cases ht : s.table_to_export with
  | none => simp [SnifferState.map, ht]
  | some head =>
      rcases hn : s.heap head with _ | ⟨flow, _ | ⟨node, rest⟩⟩
      · simp [SnifferState.map, ht, hn]
      · simp [SnifferState.map, map_update, ht, hn]
      · simp [SnifferState.map, map_update, ht, hn]

/-- If `f` carries one table update to the other, it carries every step over. -/
theorem step_map (hf : ∀ t a, (process t a).map f = process' (t.map f) a)
    (s : SnifferState β) (act : Action α) :
    (s.map f).step process' act = (s.step process act).map (SnifferState.map f) := by
  cases act with
  | pkt_handler stats =>
      simp only [SnifferState.step, record_map f hf]
      by_cases h : s.main_pc = .pcap_loop <;> simp [SnifferState.map, h]
  | flush_send =>
      simp only [SnifferState.step, send_flow_map f]
      by_cases h : s.flush_pc = .send_flows <;> simp [SnifferState.map, h]
  | flush_test =>
      by_cases h : s.flush_pc = .loop_test <;> cases hr : s.is_running <;>
        simp [SnifferState.step, SnifferState.map, h, hr]
  | flush_swap =>
      by_cases h : s.flush_pc = .swap <;>
        simp [SnifferState.step, SnifferState.swap, SnifferState.map, h]
  | flush_sleep =>
      by_cases h : s.flush_pc = .sleep <;> simp [SnifferState.step, SnifferState.map, h]
  | setup_pcap ok =>
      by_cases h : s.main_pc = .setup <;> simp [SnifferState.step, SnifferState.map, h]
  | pcap_breakloop =>
      by_cases h : s.main_pc = .pcap_loop <;> simp [SnifferState.step, SnifferState.map, h]
  | stop => cases h : s.main_pc <;> simp [SnifferState.step, SnifferState.map, h]
  | pthread_join =>
      by_cases hr : s.flush_pc = .returned <;> cases h : s.main_pc <;>
        simp [SnifferState.step, SnifferState.map, h, hr]
  | kafka_client_cleanup =>
      cases h : s.main_pc <;> simp [SnifferState.step, SnifferState.map, h]

end Relabelling

end KafKatch.Sniffer
