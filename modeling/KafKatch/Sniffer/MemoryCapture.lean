/-
  KafKatch.Sniffer.MemoryCapture
  ──────────────────────────────
  **BOTH THREADS ON THE MEMORY OF `uthash.h`.**

  `Capture.lean` keeps a flow table as one list behind a pointer.  Here the two threads of `main.c`
  run on the nodes, handles and bucket arrays themselves: the packet path looks up and adds, while
  the export loop deletes and frees node by node, in any interleaving.  An `Action` is the same
  stretch of code as there.

    • `MemoryState.Represents` — what the memory has to do with the lists of `Capture.lean`,
    • `memory_run_refines` — every run on the memory is a run on the lists: no fault, no endless
      loop, and every node in use is in exactly one of the two tables,
    • `memory_at_exit` — what is still allocated when `main` returns.
-/
import KafKatch.Sniffer.FlowMemory
import KafKatch.Sniffer.Shutdown

namespace KafKatch.Sniffer.FlowMemory

open KafKatch.Lib KafKatch.Sniffer.UtHash

/-! ## §1. States and steps. -/

/-- The memory of both threads.  `exporting` are the variables of the export loop, its `head`
being `table_to_export`; `produced` are the flows handed to `rd_kafka_producev` so far. -/
structure MemoryState where
  mem : Memory FlowT
  tables : Bool → Option Nat
  active_idx : Bool
  is_running : Bool
  exporting : Iter
  produced : List FlowT
  main_pc : MainPc
  flush_pc : FlushPc

namespace MemoryState

/-- The state after `pthread_create`, in a memory that may hold anything. -/
def start (m₀ : Memory FlowT) : MemoryState where
  mem := m₀
  tables := fun _ => none
  active_idx := false
  is_running := true
  exporting := ⟨none, none, none⟩
  produced := []
  main_pc := .setup
  flush_pc := .loop_test

section Steps

variable (A : Allocator FlowT) (fuel : Nat) (net : LocalNet) (s : MemoryState)

/-- The critical section of `pkt_handler`. -/
def record (stats : PktStatsT) : Except Stop MemoryState := do
  let (m, table) ← flow_process_packet A fuel net s.mem (s.tables s.active_idx) stats
  pure { s with mem := m, tables := Function.update s.tables s.active_idx table }

/-- The critical section of `flush_worker`, and the start of the export loop after it. -/
def swap : Except Stop MemoryState := do
  let exporting ← Iter.start s.mem (s.tables s.active_idx)
  pure
    { s with
      exporting := exporting
      active_idx := !s.active_idx
      tables := Function.update s.tables (!s.active_idx) none
      flush_pc := if s.tables s.active_idx = none then .sleep else .send_flows }

/-- One round of the export loop: `HASH_DEL` and `free` of the current node. -/
def send_flow : Except Stop MemoryState :=
  match s.exporting.el with
  | none => pure { s with flush_pc := .sleep }
  | some current_flow => do
      let (flow, m, exporting) ← s.exporting.round s.mem current_flow
      pure
        { s with
          mem := m
          exporting := exporting
          produced := s.produced ++ [flow]
          flush_pc := if exporting.el = none then .sleep else .send_flows }

/-- The control of both threads, without their tables. -/
def control : SnifferState FlowT :=
  { init with is_running := s.is_running, main_pc := s.main_pc, flush_pc := s.flush_pc }

/-- One step, where it is enabled.  Off the tables it is that of `Capture.lean`; the assignment
`table_to_export = NULL` is overwritten by the critical section that follows it. -/
def step : Action PktStatsT → Option (Except Stop MemoryState)
  | .pkt_handler stats =>
      if s.main_pc = .pcap_loop then some (s.record A fuel net stats) else none
  | .flush_swap => if s.flush_pc = .swap then some s.swap else none
  | .flush_send => if s.flush_pc = .send_flows then some s.send_flow else none
  | act =>
      (s.control.step (fun table _ => table) act).map fun c =>
        .ok { s with is_running := c.is_running, main_pc := c.main_pc, flush_pc := c.flush_pc }

/-- A program that has stopped takes no more steps. -/
def step_or_stopped : Except Stop MemoryState → Action PktStatsT →
    Option (Except Stop MemoryState)
  | .ok s, act => s.step A fuel net act
  | .error _, _ => none

end Steps

end MemoryState

/-! ## §2. The memory and the lists. -/

/-- `s` and `c` are at the same point of the program. -/
structure SamePoint (s : MemoryState) (c : SnifferState FlowT) : Prop where
  active_idx : c.active_idx = s.active_idx
  is_running : c.is_running = s.is_running
  produced : c.produced = s.produced
  main_pc : c.main_pc = s.main_pc
  flush_pc : c.flush_pc = s.flush_pc

/-- The memory state `s` represents the list state `c`: the active table holds `c.active` in the
nodes `items`, the export loop is at the head of a table that holds `c.held` in the nodes
`helds`, the two share nothing, and together they are all that was allocated since `m₀`. -/
structure MemoryState.Represents (A : Allocator FlowT) (m₀ : Memory FlowT) (s : MemoryState)
    (c : SnifferState FlowT) (items helds : List Nat) (tb htb : Option Nat) : Prop where
  point : SamePoint s c
  owned : Owned c
  keys : (c.active.map FlowT.key).Nodup
  active : Holds (flow_platform A) s.mem (s.tables s.active_idx) items tb c.active
  held : Iterating (flow_platform A) s.mem s.exporting helds htb c.held
  disjoint : ∀ a ∈ items, a ∉ helds
  separate : ∀ t, tb = some t → htb ≠ some t
  owns : Owns m₀ s.mem (items ++ helds) (tb.toList ++ htb.toList)

/-- For some nodes and tables. -/
def MemoryState.Refines (A : Allocator FlowT) (m₀ : Memory FlowT) (s : MemoryState)
    (c : SnifferState FlowT) : Prop :=
  ∃ items helds tb htb, s.Represents A m₀ c items helds tb htb

section Lists

variable {process : List FlowT → PktStatsT → List FlowT} {c : SnifferState FlowT}

/-- The active table is NULL exactly when it holds nothing. -/
theorem active_null_iff_nil (h : Owned c) :
    c.tables c.active_idx = none ↔ c.active = [] := by
  unfold SnifferState.active SnifferState.deref
  cases ht : c.tables c.active_idx with
  | none => exact iff_of_true rfl rfl
  | some head => exact iff_of_false (Option.some_ne_none head) (h.active_live head ht)

end Lists

/-! ## §3. One step. -/

section Step

variable {A : Allocator FlowT} {m₀ : Memory FlowT} {fuel : Nat} {net : LocalNet}
  {s : MemoryState} {c : SnifferState FlowT}

theorem refines_start (A : Allocator FlowT) (m₀ : Memory FlowT) :
    (MemoryState.start m₀).Refines A m₀ init :=
  ⟨[], [], none, none,
    { point := ⟨rfl, rfl, rfl, rfl, rfl⟩
      owned := owned_init
      keys := List.nodup_nil
      active := ⟨.null, rfl⟩
      held := ⟨⟨.null, rfl⟩, rfl, rfl⟩
      disjoint := fun _ ha => absurd ha List.not_mem_nil
      separate := fun _ hu => by cases hu
      owns := Owns.refl m₀ }⟩

/-- **A packet**, while the other table is being exported. -/
theorem refines_record (h : s.Refines A m₀ c) (hfuel : c.active.length + 1 ≤ fuel)
    (stats : PktStatsT) :
    Returns (flow_platform A).Exits
      (fun s' => s'.Refines A m₀ (c.record (Sniffer.flow_process_packet net) stats))
      (s.record A fuel net stats) := by
  obtain ⟨items, helds, tb, htb, h⟩ := h
  have hbuf := @buffers_record _ _ (Sniffer.flow_process_packet net) c h.owned stats
  have hactive : (c.record (Sniffer.flow_process_packet net) stats).active
      = Sniffer.flow_process_packet net c.active stats := congrArg Buffers.active hbuf
  have hheld : (c.record (Sniffer.flow_process_packet net) stats).held = c.held :=
    congrArg Buffers.held hbuf
  have hlive : ∀ x ∈ items ++ helds, (s.mem.elem x).isSome := by
    intro x hx
    rcases List.mem_append.mp hx with hx | hx
    · exact h.active.hash.live x hx
    · exact h.held.holds.hash.live x hx
  unfold MemoryState.record
  refine (flow_process_packet_spec h.active h.keys hfuel).bind ?_
  rintro ⟨m', head'⟩ ⟨items', t, hspec⟩
  -- a node that was free, and a table that was free, are not those being exported
  have hdisjoint : ∀ x ∈ items', x ∉ helds := by
    rcases hspec.items with rfl | ⟨a, rfl, hnone⟩
    · exact h.disjoint
    · intro x hx hin
      rcases List.mem_append.mp hx with hx | hx
      · exact h.disjoint x hx hin
      · rw [List.mem_singleton] at hx
        have hsome := h.held.holds.hash.live x hin
        rw [hx, hnone] at hsome
        cases hsome
  have hseparate : htb ≠ some t := by
    rcases hspec.table with htb' | ⟨-, hnone⟩
    · exact h.separate t htb'
    · exact fun hin => h.held.holds.hash.table_some hin hnone
  have hkeep : ∀ x ∈ helds, x ∉ items' := fun x hx hin => hdisjoint x hin hx
  refine ⟨items', helds, some t, htb, ?_⟩
  exact
    { point :=
        { active_idx := (record_fields c stats).1.trans h.point.active_idx
          is_running := (record_fields c stats).2.1.trans h.point.is_running
          produced := (record_fields c stats).2.2.trans h.point.produced
          main_pc := (record_pcs c stats).1.trans h.point.main_pc
          flush_pc := (record_pcs c stats).2.trans h.point.flush_pc }
      owned := owned_record
        (fun table p => by
          rw [flow_process_packet_eq]
          exact (flowKeyed net).upsert_ne_nil table p) h.owned stats
      keys := by
        rw [hactive]
        exact nodup_keys_process h.keys stats
      active := by
        rw [hactive]
        show Holds _ m' (Function.update s.tables s.active_idx head' s.active_idx) items' _ _
        rw [Function.update_self]
        exact hspec.holds
      held := by
        rw [hheld]
        exact ⟨h.held.holds.frame hspec.frame hkeep hseparate, h.held.el, h.held.tmp⟩
      disjoint := hdisjoint
      separate := by
        intro u hu
        cases hu
        exact hseparate
      owns := hspec.owns helds htb.toList h.owns hlive }

/-- **The swap**, once nothing is held. -/
theorem refines_swap (h : s.Refines A m₀ c) (hpc : c.flush_pc = .swap) :
    ∃ s', s.swap = .ok s' ∧ s'.Refines A m₀ c.swap := by
  obtain ⟨items, helds, tb, htb, h⟩ := h
  have hnone : c.table_to_export = none := h.owned.not_sending (by simp [hpc])
  have hheld : c.held = [] := by
    unfold SnifferState.held
    rw [hnone]
    rfl
  have hbuf := @buffers_swap _ c
  have hactive : c.swap.active = [] := congrArg Buffers.active hbuf
  have hheld' : c.swap.held = c.active := congrArg Buffers.held hbuf
  -- so the table of the last export is gone
  have hhelds : helds = [] := by
    have hlen := h.held.holds.length_eq
    rw [hheld] at hlen
    exact List.eq_nil_of_length_eq_zero hlen
  have hhtb : htb = none := h.held.holds.hash.tb_eq_none_iff.mpr hhelds
  subst hhelds
  subst hhtb
  obtain ⟨it, hstart, hiter⟩ := h.active.start
  have howns := h.owns
  rw [List.append_nil, Option.toList_none, List.append_nil] at howns
  refine
    ⟨{ s with
        exporting := it
        active_idx := !s.active_idx
        tables := Function.update s.tables (!s.active_idx) none
        flush_pc := if s.tables s.active_idx = none then .sleep else .send_flows },
      ?_, [], items, none, tb, ?_⟩
  · unfold MemoryState.swap
    rw [hstart, ok_bind]
    rfl
  · exact
      { point :=
          { active_idx := congrArg (!·) h.point.active_idx
            is_running := h.point.is_running
            produced := h.point.produced
            main_pc := h.point.main_pc
            flush_pc := by
              have hnull : c.tables c.active_idx = none ↔ s.tables s.active_idx = none :=
                (active_null_iff_nil h.owned).trans h.active.head_eq_none_iff.symm
              show (if c.tables c.active_idx = none then FlushPc.sleep else .send_flows)
                = if s.tables s.active_idx = none then FlushPc.sleep else .send_flows
              exact if_congr hnull rfl rfl }
        owned := owned_swap h.owned hpc
        keys := by
          rw [hactive]
          exact List.nodup_nil
        active := by
          rw [hactive]
          show Holds _ s.mem (Function.update s.tables (!s.active_idx) none (!s.active_idx)) _ _ _
          rw [Function.update_self]
          exact ⟨.null, rfl⟩
        held := by
          rw [hheld']
          exact hiter
        disjoint := fun _ ha => absurd ha List.not_mem_nil
        separate := fun _ hu => by cases hu
        owns := howns }

/-- **One node exported**, while the other table is being filled. -/
theorem refines_send_flow (h : s.Refines A m₀ c) (hpc : c.flush_pc = .send_flows) :
    ∃ s', s.send_flow = .ok s' ∧ s'.Refines A m₀ c.send_flow := by
  obtain ⟨items, helds, tb, htb, h⟩ := h
  obtain ⟨flow, rest, hheld, hbuf⟩ := buffers_send_flow h.owned hpc
  have hactive : c.send_flow.active = c.active := congrArg Buffers.active hbuf
  have hheld' : c.send_flow.held = rest := congrArg Buffers.held hbuf
  have hproduced : c.send_flow.produced = c.produced ++ [flow] := congrArg Buffers.exported hbuf
  have hiter := h.held
  rw [hheld] at hiter
  -- the loop is at a node of the held table
  obtain ⟨a, helds', rfl⟩ : ∃ a helds', helds = a :: helds' := by
    refine List.exists_cons_of_ne_nil fun hnil => ?_
    have hlen := hiter.holds.length_eq
    rw [hnil] at hlen
    cases hlen
  obtain ⟨t, rfl⟩ : ∃ t, htb = some t := by
    refine Option.ne_none_iff_exists'.mp fun hnone => ?_
    cases hiter.holds.hash.tb_eq_none_iff.mp hnone
  obtain ⟨m', it, tb', hround, hiter', hshrunk⟩ := hiter.round
  have hkeep : ∀ x ∈ items, x ∉ [] ++ a :: helds' := h.disjoint
  have hseparate : tb ≠ some t := fun htb => h.separate t htb rfl
  have hel : it.el = none ↔ rest = [] := by
    rw [hiter'.el, List.head?_eq_none_iff, ← List.length_eq_zero_iff, hiter'.holds.length_eq,
      List.length_eq_zero_iff]
  refine
    ⟨{ s with
        mem := m'
        exporting := it
        produced := s.produced ++ [flow]
        flush_pc := if it.el = none then .sleep else .send_flows },
      ?_, items, helds', tb, tb', ?_⟩
  · have hcurrent : s.exporting.el = some a := hiter.el
    unfold MemoryState.send_flow
    rw [hcurrent]
    dsimp only
    rw [hround, ok_bind]
    rfl
  · exact
      { point :=
          { active_idx := (send_flow_slots c).2.trans h.point.active_idx
            is_running := (send_flow_is_running c).trans h.point.is_running
            produced := by
              rw [hproduced, h.point.produced]
            main_pc := (send_flow_main_pc c).trans h.point.main_pc
            flush_pc := by
              rw [send_flow_flush_pc h.owned hpc, hheld']
              exact if_congr hel.symm rfl rfl }
        owned := owned_send_flow h.owned hpc
        keys := by
          rw [hactive]
          exact h.keys
        active := by
          rw [hactive]
          exact h.active.frame hshrunk.frame hkeep hseparate
        held := by
          rw [hheld']
          exact hiter'
        disjoint := fun x hx hin => h.disjoint x hx (List.mem_cons_of_mem _ hin)
        separate := by
          intro u hu htb'
          rcases hshrunk.table with hsome | ⟨hnone, -⟩
          · rw [hsome] at htb'
            exact hseparate (hu.trans htb'.symm)
          · rw [hnone] at htb'
            cases htb'
        owns := hshrunk.owns items tb.toList h.owns }

/-- Off the tables a step depends on the control of the two threads only. -/
theorem step_control {process process' : List FlowT → PktStatsT → List FlowT}
    {c c' d : SnifferState FlowT} {act : Action PktStatsT} (hact : act.onTables = false)
    (hrun : d.is_running = c.is_running) (hmain : d.main_pc = c.main_pc)
    (hflush : d.flush_pc = c.flush_pc) (hstep : c.step process act = some c') :
    ∃ d', d.step process' act = some d' ∧ d'.is_running = c'.is_running
      ∧ d'.main_pc = c'.main_pc ∧ d'.flush_pc = c'.flush_pc := by
  have henabled : ∀ d', ControlStep d act d' → d.step process' act = some d' :=
    fun d' hd => (controlStep_iff hact).mpr hd
  cases (controlStep_iff hact).mp hstep with
  | flush_again hpc hrunning =>
      exact ⟨_, henabled _ (.flush_again (hflush.trans hpc) (hrun.trans hrunning)), hrun, hmain, rfl⟩
  | flush_return hpc hrunning =>
      exact ⟨_, henabled _ (.flush_return (hflush.trans hpc) (hrun.trans hrunning)), hrun, hmain,
        rfl⟩
  | flush_sleep hpc => exact ⟨_, henabled _ (.flush_sleep (hflush.trans hpc)), hrun, hmain, rfl⟩
  | setup_pcap ok hpc =>
      exact ⟨_, henabled _ (.setup_pcap ok (hmain.trans hpc)), hrun, rfl, hflush⟩
  | pcap_breakloop hpc =>
      exact ⟨_, henabled _ (.pcap_breakloop (hmain.trans hpc)), hrun, rfl, hflush⟩
  | stop hpc => exact ⟨_, henabled _ (.stop (hmain.trans hpc)), rfl, rfl, hflush⟩
  | pthread_join hpc hreturned =>
      exact ⟨_, henabled _ (.pthread_join (hmain.trans hpc) (hflush.trans hreturned)), hrun, rfl,
        hflush⟩
  | kafka_client_cleanup hpc =>
      exact ⟨_, henabled _ (.kafka_client_cleanup (hmain.trans hpc)), hrun, rfl, hflush⟩

/-- **A step off the tables.** -/
theorem refines_control (h : s.Refines A m₀ c) {act : Action PktStatsT}
    (hact : act.onTables = false) {k : SnifferState FlowT}
    (hstep : s.control.step (fun table _ => table) act = some k) :
    ∃ c', c.step (Sniffer.flow_process_packet net) act = some c' ∧ c'.buffers = c.buffers
      ∧ MemoryState.Refines A m₀
        { s with is_running := k.is_running, main_pc := k.main_pc, flush_pc := k.flush_pc } c' := by
  obtain ⟨items, helds, tb, htb, h⟩ := h
  obtain ⟨c', hc', hrun, hmain, hflush⟩ := @step_control _ (Sniffer.flow_process_packet net) _ _ c
    act hact h.point.is_running h.point.main_pc h.point.flush_pc hstep
  have hcontrol : SnifferState.Control c c' := by
    obtain ⟨_, rfl, -⟩ | ⟨rfl, -⟩ | ⟨rfl, -⟩ | ⟨-, hcontrol⟩ := SnifferState.step_cases hc'
    · cases hact
    · cases hact
    · cases hact
    · exact hcontrol
  have hbuf := buffers_control h.owned hcontrol
  have hactive : c'.active = c.active := congrArg Buffers.active hbuf
  have hheld : c'.held = c.held := congrArg Buffers.held hbuf
  refine ⟨c', hc', hbuf, items, helds, tb, htb, ?_⟩
  exact
    { point :=
        { active_idx := hcontrol.active_idx.trans h.point.active_idx
          is_running := hrun
          produced := hcontrol.produced.trans h.point.produced
          main_pc := hmain
          flush_pc := hflush }
      owned := owned_control h.owned hcontrol
      keys := by
        rw [hactive]
        exact h.keys
      active := by
        rw [hactive]
        exact h.active
      held := by
        rw [hheld]
        exact h.held
      disjoint := h.disjoint
      separate := h.separate
      owns := h.owns }

/-- The number of flows in the two tables. -/
def flow_count (c : SnifferState FlowT) : Nat := c.active.length + c.held.length

theorem flow_count_of_buffers {c c' : SnifferState FlowT} (h : c'.buffers = c.buffers) :
    flow_count c' = flow_count c := by
  have hactive : c'.active = c.active := congrArg Buffers.active h
  have hheld : c'.held = c.held := congrArg Buffers.held h
  unfold flow_count
  rw [hactive, hheld]

/-- **Every step on the memory is a step on the lists.** -/
theorem refines_step (h : s.Refines A m₀ c) (hfuel : flow_count c + 1 ≤ fuel)
    {act : Action PktStatsT} {r : Except Stop MemoryState}
    (hstep : s.step A fuel net act = some r) :
    ∃ c', c.step (Sniffer.flow_process_packet net) act = some c'
      ∧ flow_count c' ≤ flow_count c + 1
      ∧ Returns (flow_platform A).Exits (fun s' => s'.Refines A m₀ c') r := by
  have hpoint : SamePoint s c := by
    obtain ⟨_, _, _, _, h⟩ := h
    exact h.point
  have howned : Owned c := by
    obtain ⟨_, _, _, _, h⟩ := h
    exact h.owned
  -- a step of control, whichever it is
  have hcontrol : act.onTables = false →
      (s.control.step (fun table _ => table) act).map (fun k => Except.ok
        { s with is_running := k.is_running, main_pc := k.main_pc, flush_pc := k.flush_pc })
        = some r →
      ∃ c', c.step (Sniffer.flow_process_packet net) act = some c'
        ∧ flow_count c' ≤ flow_count c + 1
        ∧ Returns (flow_platform A).Exits (fun s' => s'.Refines A m₀ c') r := by
    intro hact hmap
    obtain ⟨k, hk, rfl⟩ := Option.map_eq_some_iff.mp hmap
    obtain ⟨c', hc', hbuf, hrefines⟩ := @refines_control A m₀ net s c h act hact k hk
    exact ⟨c', hc', by rw [flow_count_of_buffers hbuf]; exact Nat.le_succ _, hrefines⟩
  cases act with
  | pkt_handler stats =>
      simp only [MemoryState.step, Option.ite_none_right_eq_some, Option.some.injEq] at hstep
      obtain ⟨hpc, rfl⟩ := hstep
      have hactive : c.active.length + 1 ≤ fuel :=
        Nat.le_trans (Nat.succ_le_succ (Nat.le_add_right _ _)) hfuel
      refine ⟨c.record (Sniffer.flow_process_packet net) stats, ?_, ?_,
        refines_record h hactive stats⟩
      · simp [SnifferState.step, hpoint.main_pc, hpc]
      · have hbuf := @buffers_record _ _ (Sniffer.flow_process_packet net) c howned stats
        have hnew : (c.record (Sniffer.flow_process_packet net) stats).active
            = Sniffer.flow_process_packet net c.active stats := congrArg Buffers.active hbuf
        have hheld : (c.record (Sniffer.flow_process_packet net) stats).held = c.held :=
          congrArg Buffers.held hbuf
        have hlen := @length_process_le c.active net stats
        unfold flow_count
        rw [hnew, hheld]
        omega
  | flush_swap =>
      simp only [MemoryState.step, Option.ite_none_right_eq_some, Option.some.injEq] at hstep
      obtain ⟨hpc, rfl⟩ := hstep
      rw [← hpoint.flush_pc] at hpc
      obtain ⟨s', hs', hrefines⟩ := refines_swap h hpc
      refine ⟨c.swap, by simp [SnifferState.step, hpc], ?_, by rw [hs']; exact hrefines⟩
      have hactive : c.swap.active = [] := congrArg Buffers.active buffers_swap
      have hheld : c.swap.held = c.active := congrArg Buffers.held buffers_swap
      unfold flow_count
      rw [hactive, hheld, List.length_nil]
      omega
  | flush_send =>
      simp only [MemoryState.step, Option.ite_none_right_eq_some, Option.some.injEq] at hstep
      obtain ⟨hpc, rfl⟩ := hstep
      rw [← hpoint.flush_pc] at hpc
      obtain ⟨s', hs', hrefines⟩ := refines_send_flow h hpc
      obtain ⟨flow, rest, hold, hbuf⟩ := buffers_send_flow howned hpc
      refine ⟨c.send_flow, by simp [SnifferState.step, hpc], ?_, by rw [hs']; exact hrefines⟩
      have hactive : c.send_flow.active = c.active := congrArg Buffers.active hbuf
      have hheld : c.send_flow.held = rest := congrArg Buffers.held hbuf
      unfold flow_count
      rw [hactive, hheld, hold, List.length_cons]
      omega
  | flush_test => exact hcontrol rfl hstep
  | flush_sleep => exact hcontrol rfl hstep
  | setup_pcap ok => exact hcontrol rfl hstep
  | pcap_breakloop => exact hcontrol rfl hstep
  | stop => exact hcontrol rfl hstep
  | pthread_join => exact hcontrol rfl hstep
  | kafka_client_cleanup => exact hcontrol rfl hstep

end Step

/-! ## §4. Runs. -/

section Runs

variable {A : Allocator FlowT} {net : LocalNet} {m₀ : Memory FlowT} {fuel : Nat}
  {schedule : List (Action PktStatsT)}

/-- The run of the lists that a run on the memory follows. -/
theorem run_follows {r : Except Stop MemoryState}
    (h : run (MemoryState.step_or_stopped A fuel net) (.ok (MemoryState.start m₀)) schedule
      = some r) :
    schedule.length ≤ fuel →
      Returns (flow_platform A).Exits
        (fun s => ∃ c, run (SnifferState.step (Sniffer.flow_process_packet net)) init schedule
            = some c ∧ flow_count c ≤ schedule.length ∧ s.Refines A m₀ c) r := by
  refine run_trace
    (fun schedule r => schedule.length ≤ fuel →
      Returns (flow_platform A).Exits
        (fun s => ∃ c, run (SnifferState.step (Sniffer.flow_process_packet net)) init schedule
            = some c ∧ flow_count c ≤ schedule.length ∧ s.Refines A m₀ c) r) ?_ ?_ h
  · exact fun _ => ⟨init, rfl, Nat.le_refl _, refines_start A m₀⟩
  · intro schedule r act r' ih hstep hfuel
    rw [List.length_append, List.length_singleton] at hfuel
    cases r with
    | error e => cases hstep
    | ok s =>
        obtain ⟨c, hrun, hlen, hrefines⟩ := ih (Nat.le_of_succ_le hfuel)
        obtain ⟨c', hc', hlen', hret⟩ :=
          refines_step hrefines (Nat.le_trans (Nat.succ_le_succ hlen) hfuel) hstep
        refine hret.mono fun s' hs' => ⟨c', ?_, ?_, hs'⟩
        · rw [run_concat, hrun]
          exact hc'
        · rw [List.length_append, List.length_singleton]
          exact Nat.le_trans hlen' (Nat.succ_le_succ hlen)

/-- **What is still allocated when `main` returns** is one table, holding the flows of the packets
captured after the last swap.  Everything has been given back exactly when every packet was
followed by a swap. -/
theorem memory_at_exit {s : MemoryState} (hfuel : schedule.length ≤ fuel)
    (h : run (MemoryState.step_or_stopped A fuel net) (.ok (MemoryState.start m₀)) schedule
      = some (.ok s)) {status : ExitStatus} (hexit : s.main_pc = .exited status) :
    (∃ c, run (SnifferState.step (Sniffer.flow_process_packet net)) init schedule = some c
        ∧ c.active = flow_table net (flush_cuts schedule).current)
      ∧ Stores (flow_platform A) m₀ (s.mem, s.tables s.active_idx)
          (flow_table net (flush_cuts schedule).current)
      ∧ (Owns m₀ s.mem [] [] ↔ AllSwapped schedule) := by
  obtain ⟨c, hrun, -, items, helds, tb, htb, h⟩ := run_follows h hfuel
  -- `flush_worker` has returned, so nothing is held
  have hreturned : c.flush_pc = .returned :=
    joined_run hrun ⟨status, .inr (h.point.main_pc.trans hexit)⟩
  have hheld : c.held = [] := by
    unfold SnifferState.held
    rw [h.owned.not_sending (by simp [hreturned])]
    rfl
  have hhelds : helds = [] := by
    have hlen := h.held.holds.length_eq
    rw [hheld] at hlen
    exact List.eq_nil_of_length_eq_zero hlen
  have hhtb : htb = none := h.held.holds.hash.tb_eq_none_iff.mpr hhelds
  subst hhelds
  subst hhtb
  have howns := h.owns
  rw [List.append_nil, Option.toList_none, List.append_nil] at howns
  have hactive := (run_flow_tables net hrun).2
  have hstores : Stores (flow_platform A) m₀ (s.mem, s.tables s.active_idx) c.active :=
    ⟨items, tb, h.active, howns⟩
  rw [hactive] at hstores
  refine ⟨⟨c, hrun, hactive⟩, hstores, ?_⟩
  rw [← active_null_iff hrun, active_null_iff_nil h.owned]
  constructor
  · -- a node would be in use now, but not before
    intro hnone
    by_contra hne
    obtain ⟨flow, hflow⟩ := List.exists_mem_of_ne_nil _ hne
    obtain ⟨a, ha, he⟩ := h.active.address hflow
    rw [hnone.elem a List.not_mem_nil, howns.fresh a ha] at he
    cases he
  · intro hnil
    have hitems : items = [] := by
      have hlen := h.active.length_eq
      rw [hnil] at hlen
      exact List.eq_nil_of_length_eq_zero hlen
    have htb : tb = none := h.active.hash.tb_eq_none_iff.mpr hitems
    subst hitems
    subst htb
    exact howns

/-- A run from an empty memory. -/
def memory_run (schedule : List (Action PktStatsT)) : Option (Except Stop MemoryState) :=
  run (MemoryState.step_or_stopped (first_fit FlowT 4) 20 ⟨0, 0⟩) (.ok (.start .empty)) schedule

/-- The state it ends in. -/
def memory_exit_state (schedule : List (Action PktStatsT)) : MemoryState :=
  ((memory_run schedule).bind Except.toOption).getD (.start .empty)

/-- A handshake captured after the last swap. -/
theorem memory_at_exit_late :
    (∃ c, run (SnifferState.step (Sniffer.flow_process_packet ⟨0, 0⟩)) init late_handshake = some c
        ∧ c.active = flow_table ⟨0, 0⟩ (flush_cuts late_handshake).current)
      ∧ Stores (flow_platform (first_fit FlowT 4)) .empty
          ((memory_exit_state late_handshake).mem,
            (memory_exit_state late_handshake).tables
              (memory_exit_state late_handshake).active_idx)
          (flow_table ⟨0, 0⟩ (flush_cuts late_handshake).current)
      ∧ (Owns .empty (memory_exit_state late_handshake).mem [] []
        ↔ AllSwapped late_handshake) :=
  memory_at_exit (by decide : late_handshake.length ≤ 20)
    (rfl : memory_run late_handshake = some (.ok (memory_exit_state late_handshake)))
    (rfl : _ = MainPc.exited .EXIT_SUCCESS)

end Runs

end KafKatch.Sniffer.FlowMemory
