/-
  KafKatch.Sniffer.DoubleBuffering
  ────────────────────────────────
  **THE TWO SLOTS ARE A DOUBLE BUFFER.**

  `Owned` is the ownership discipline of the two threads: a live table is the active one or the
  one `flush_worker` holds, never both, and the retired slot leads to no live table that is
  not held.  Every step keeps it (`owned_step`), and under it every step is an operation of the
  abstract double buffer (`step_simulates`).  Conservation is then the library's
  `run_conserves`, with the packets folded into each node as its weight.
-/
import KafKatch.Sniffer.Capture
import KafKatch.Sniffer.FlowTable
import Mathlib.Algebra.BigOperators.Group.Multiset.Basic

namespace KafKatch.Sniffer

open KafKatch.Lib

variable {α β : Type}

/-! ## §1. Ownership of the tables. -/

/-- Who may use which table. -/
structure Owned (s : SnifferState β) : Prop where
  no_fault : s.fault = false
  active_live : ∀ a, s.tables s.active_idx = some a → s.heap a ≠ []
  held_live : ∀ a, s.table_to_export = some a → s.heap a ≠ []
  separate : ∀ a, s.tables s.active_idx = some a → s.table_to_export ≠ some a
  sending : s.flush_pc = .send_flows ↔ s.table_to_export ≠ none
  owned : ∀ a, s.heap a ≠ [] → s.tables s.active_idx = some a ∨ s.table_to_export = some a
  slots_differ : ∀ a, s.tables s.active_idx = some a → s.tables (!s.active_idx) ≠ some a
  slots_old : ∀ i a, s.tables i = some a → a < s.next
  heap_old : ∀ a, s.heap a ≠ [] → a < s.next

/-- At the start there is no table to own. -/
theorem owned_init : Owned (init : SnifferState β) := by
  constructor <;> simp [init]

/-- The slot the next swap overwrites leads to no live table. -/
theorem Owned.retired {s : SnifferState β} (h : Owned s) (hpc : s.flush_pc ≠ .send_flows)
    {a : Nat} (ha : s.tables (!s.active_idx) = some a) : s.heap a = [] := by
  -- a live table has an owner, and neither owner is possible here
  by_contra hlive
  rcases h.owned a hlive with hact | hheld
  · exact h.slots_differ a hact ha
  · exact hpc (h.sending.mpr (by simp [hheld]))

section Steps

variable {process : List β → α → List β}

/-- A packet goes to the active table, which may be new. -/
theorem owned_record (hprocess : ∀ t a, process t a ≠ []) {s : SnifferState β} (h : Owned s)
    (stats : α) : Owned (s.record process stats) := by
  cases ht : s.tables s.active_idx with
  | none =>
      -- a fresh address: no pointer leads there yet
      have hheld : ∀ a, s.table_to_export = some a → a ≠ s.next :=
        fun a ha => Nat.ne_of_lt (h.heap_old a (h.held_live a ha))
      have hother : s.tables (!s.active_idx) ≠ some s.next :=
        fun e => Nat.lt_irrefl _ (h.slots_old _ _ e)
      rw [SnifferState.record_null stats ht]
      refine ⟨h.no_fault, ?_, ?_, ?_, h.sending, ?_, ?_, ?_, ?_⟩ <;> dsimp only
      · intro a ha
        rw [Function.update_self, Option.some.injEq] at ha
        simp [← ha, hprocess]
      · intro a ha
        rw [Function.update_of_ne (hheld a ha)]
        exact h.held_live a ha
      · intro a ha he
        rw [Function.update_self, Option.some.injEq] at ha
        exact hheld a he ha.symm
      · intro a ha
        by_cases hne : a = s.next
        · simp [hne]
        · rw [Function.update_of_ne hne] at ha
          exact Or.inr ((h.owned a ha).resolve_left (by simp [ht]))
      · intro a ha
        rw [Function.update_self, Option.some.injEq] at ha
        rw [← ha, Function.update_of_ne (by simp)]
        exact hother
      · intro i a ha
        by_cases hi : i = s.active_idx
        · rw [hi, Function.update_self, Option.some.injEq] at ha
          omega
        · rw [Function.update_of_ne hi] at ha
          exact Nat.lt_succ_of_lt (h.slots_old i a ha)
      · intro a ha
        by_cases hne : a = s.next
        · omega
        · rw [Function.update_of_ne hne] at ha
          exact Nat.lt_succ_of_lt (h.heap_old a ha)
  | some head =>
      -- the same addresses are live as before
      have hlive : ∀ a, Function.update s.heap head (process (s.heap head) stats) a ≠ []
          ↔ s.heap a ≠ [] := by
        intro a
        by_cases hne : a = head
        · subst hne
          simp [hprocess, h.active_live a ht]
        · simp [hne]
      rw [SnifferState.record_live stats ht (h.active_live head ht)]
      exact
        { no_fault := h.no_fault
          active_live := fun a ha => (hlive a).mpr (h.active_live a ha)
          held_live := fun a ha => (hlive a).mpr (h.held_live a ha)
          separate := h.separate
          sending := h.sending
          owned := fun a ha => h.owned a ((hlive a).mp ha)
          slots_differ := h.slots_differ
          slots_old := h.slots_old
          heap_old := fun a ha => h.heap_old a ((hlive a).mp ha) }

/-- Outside the export loop nothing is held. -/
theorem Owned.not_sending {s : SnifferState β} (h : Owned s) (hpc : s.flush_pc ≠ .send_flows) :
    s.table_to_export = none := by
  by_contra hne
  exact hpc (h.sending.mpr hne)

/-- A swap hands the active table over. -/
theorem owned_swap {s : SnifferState β} (h : Owned s) (hpc : s.flush_pc = .swap) :
    Owned s.swap := by
  have hheld : s.table_to_export = none := h.not_sending (by simp [hpc])
  -- the active table becomes the held one; the new active slot is `NULL`
  refine ⟨h.no_fault, ?_, h.active_live, ?_, ?_, ?_, ?_, ?_, h.heap_old⟩
  · simp [SnifferState.swap]
  · simp [SnifferState.swap]
  · cases ht : s.tables s.active_idx <;> simp [SnifferState.swap, ht]
  · intro a ha
    exact Or.inr ((h.owned a ha).resolve_right (by simp [hheld]))
  · simp [SnifferState.swap]
  · intro i a ha
    by_cases hi : i = !s.active_idx
    · simp [SnifferState.swap, hi] at ha
    · simp only [SnifferState.swap, Function.update_of_ne hi] at ha
      exact h.slots_old i a ha

/-- In the export loop there is a head node, and it is not the active table's. -/
theorem Owned.head {s : SnifferState β} (h : Owned s) (hpc : s.flush_pc = .send_flows) :
    ∃ head flow rest, s.table_to_export = some head ∧ s.heap head = flow :: rest
      ∧ ∀ a, s.tables s.active_idx = some a → a ≠ head := by
  obtain ⟨head, ht⟩ := Option.ne_none_iff_exists'.mp (h.sending.mp hpc)
  obtain ⟨flow, rest, hn⟩ := List.exists_cons_of_ne_nil (h.held_live head ht)
  exact ⟨head, flow, rest, ht, hn, fun a ha e => h.separate a ha (e ▸ ht)⟩

/-- Each round of the export loop moves on to the next node, or gives the table up. -/
theorem owned_send_flow {s : SnifferState β} (h : Owned s) (hpc : s.flush_pc = .send_flows) :
    Owned s.send_flow := by
  obtain ⟨head, flow, rest, ht, hn, hact⟩ := h.head hpc
  have hothers : ∀ a, a ≠ head → s.heap a ≠ [] → s.tables s.active_idx = some a := by
    intro a hne ha
    refine (h.owned a ha).resolve_right (fun hheld => hne ?_)
    exact Option.some.inj (hheld.symm.trans ht)
  cases rest with
  | nil =>
      -- the last node: the table is gone
      have hfreed : ∀ a, Function.update s.heap head [] a ≠ [] → a ≠ head ∧ s.heap a ≠ [] := by
        intro a ha
        have hne : a ≠ head := fun e => by simp [e] at ha
        exact ⟨hne, by rwa [Function.update_of_ne hne] at ha⟩
      rw [SnifferState.send_flow_last ht hn]
      refine ⟨h.no_fault, ?_, by simp, by simp, by simp, ?_, h.slots_differ, h.slots_old, ?_⟩
        <;> dsimp only
      · intro a ha
        rw [Function.update_of_ne (hact a ha)]
        exact h.active_live a ha
      · intro a ha
        exact Or.inl (hothers a (hfreed a ha).1 (hfreed a ha).2)
      · intro a ha
        exact h.heap_old a (hfreed a ha).2
  | cons node rest =>
      -- the next node becomes the head, at an address no slot knows
      have hnew : ∀ i a, s.tables i = some a → a ≠ s.next :=
        fun i a ha => Nat.ne_of_lt (h.slots_old i a ha)
      have hmoved : ∀ a,
          Function.update (Function.update s.heap head []) s.next (node :: rest) a ≠ [] →
            a = s.next ∨ (a ≠ head ∧ s.heap a ≠ []) := by
        intro a ha
        by_cases hne : a = s.next
        · exact Or.inl hne
        · rw [Function.update_of_ne hne] at ha
          have hne' : a ≠ head := fun e => by simp [e] at ha
          exact Or.inr ⟨hne', by rwa [Function.update_of_ne hne'] at ha⟩
      rw [SnifferState.send_flow_more ht hn]
      refine ⟨h.no_fault, ?_, by simp, ?_, by simp [hpc], ?_, h.slots_differ, ?_, ?_⟩
        <;> dsimp only
      · intro a ha
        rw [Function.update_of_ne (hnew _ a ha), Function.update_of_ne (hact a ha)]
        exact h.active_live a ha
      · intro a ha he
        exact hnew _ a ha (Option.some.inj he).symm
      · intro a ha
        rcases hmoved a ha with rfl | ⟨hne, ha⟩
        · exact Or.inr rfl
        · exact Or.inl (hothers a hne ha)
      · intro i a ha
        exact Nat.lt_succ_of_lt (h.slots_old i a ha)
      · intro a ha
        rcases hmoved a ha with rfl | ⟨_, ha⟩
        · exact Nat.lt_succ_self _
        · exact Nat.lt_succ_of_lt (h.heap_old a ha)

/-! ## §2. What each step does to the buffers. -/

/-- A pointer is dereferenced alike in two heaps that agree where it leads. -/
theorem deref_congr {s t : SnifferState β} {table : Option Nat}
    (h : ∀ a, table = some a → t.heap a = s.heap a) : t.deref table = s.deref table := by
  cases table with
  | none => rfl
  | some a => exact h a rfl

/-- A packet is processed by the active table only. -/
theorem buffers_record {s : SnifferState β} (h : Owned s) (stats : α) :
    (s.record process stats).buffers
      = { s.buffers with active := process s.active stats } := by
  cases ht : s.tables s.active_idx with
  | none =>
      rw [SnifferState.record_null stats ht]
      simp only [SnifferState.buffers, SnifferState.active, SnifferState.held]
      congr 1
      · simp [SnifferState.deref, ht]
      · apply deref_congr
        intro a ha
        exact Function.update_of_ne (Nat.ne_of_lt (h.heap_old a (h.held_live a ha))) _ _
  | some head =>
      rw [SnifferState.record_live stats ht (h.active_live head ht)]
      simp only [SnifferState.buffers, SnifferState.active, SnifferState.held]
      congr 1
      · simp [SnifferState.deref, ht]
      · apply deref_congr
        intro a ha
        exact Function.update_of_ne (fun e : a = head => h.separate head ht (e ▸ ha)) _ _

/-- After a swap the old table is the held one. -/
theorem buffers_swap {s : SnifferState β} :
    s.swap.buffers = ⟨[], s.active, s.produced⟩ := by
  simp [SnifferState.buffers, SnifferState.active, SnifferState.held, SnifferState.swap,
    SnifferState.deref]

/-- One round of the export loop takes the first flow of the held table. -/
theorem buffers_send_flow {s : SnifferState β} (h : Owned s) (hpc : s.flush_pc = .send_flows) :
    ∃ flow rest, s.held = flow :: rest
      ∧ s.send_flow.buffers = ⟨s.active, rest, s.produced ++ [flow]⟩ := by
  obtain ⟨head, flow, rest, ht, hn, hact⟩ := h.head hpc
  refine ⟨flow, rest, by simp [SnifferState.held, SnifferState.deref, ht, hn], ?_⟩
  cases rest with
  | nil =>
      rw [SnifferState.send_flow_last ht hn]
      simp only [SnifferState.buffers, SnifferState.active, SnifferState.held]
      congr 1
      apply deref_congr
      intro a ha
      exact Function.update_of_ne (hact a ha) _ _
  | cons node rest =>
      rw [SnifferState.send_flow_more ht hn]
      simp only [SnifferState.buffers, SnifferState.active, SnifferState.held]
      congr 1
      · apply deref_congr
        intro a ha
        dsimp only
        rw [Function.update_of_ne (Nat.ne_of_lt (h.slots_old _ a ha)),
          Function.update_of_ne (hact a ha)]
      · simp [SnifferState.deref]

/-! ## §3. Every step keeps ownership and is an operation of the double buffer. -/

/-- Where a step of control clears `table_to_export`, it was `NULL` already. -/
theorem Owned.control_held {s s' : SnifferState β} (h : Owned s) (hc : s.Control s') :
    s'.table_to_export = s.table_to_export := by
  rcases hc.flush with ⟨_, he⟩ | ⟨hpc, _, he | he⟩
  · exact he
  · exact he
  · rw [he, h.not_sending hpc]

/-- Steps off the tables keep the discipline. -/
theorem owned_control {s s' : SnifferState β} (h : Owned s) (hc : s.Control s') : Owned s' := by
  have hheld := h.control_held hc
  have hsending : s'.flush_pc = .send_flows ↔ s.flush_pc = .send_flows := by
    rcases hc.flush with ⟨hpc, _⟩ | ⟨hpc, hpc', _⟩
    · rw [hpc]
    · simp [hpc, hpc']
  constructor
  · exact hc.fault ▸ h.no_fault
  · simpa only [hc.heap, hc.tables, hc.active_idx] using h.active_live
  · simpa only [hc.heap, hheld] using h.held_live
  · simpa only [hc.tables, hc.active_idx, hheld] using h.separate
  · rw [hsending, hheld]
    exact h.sending
  · simpa only [hc.heap, hc.tables, hc.active_idx, hheld] using h.owned
  · simpa only [hc.tables, hc.active_idx] using h.slots_differ
  · simpa only [hc.tables, hc.next] using h.slots_old
  · simpa only [hc.heap, hc.next] using h.heap_old

/-- Steps off the tables leave the buffers alone. -/
theorem buffers_control {s s' : SnifferState β} (h : Owned s) (hc : s.Control s') :
    s'.buffers = s.buffers := by
  have hheld := h.control_held hc
  simp only [SnifferState.buffers, SnifferState.active, SnifferState.held, SnifferState.deref,
    hc.heap, hc.tables, hc.active_idx, hc.produced, hheld]

/-- **Every step keeps the ownership discipline.** -/
theorem owned_step (hprocess : ∀ t a, process t a ≠ []) {s s' : SnifferState β}
    {act : Action α} (h : Owned s) (hstep : s.step process act = some s') : Owned s' := by
  obtain ⟨stats, -, -, rfl⟩ | ⟨-, hpc, rfl⟩ | ⟨-, hpc, rfl⟩ | ⟨-, hc⟩ :=
    SnifferState.step_cases hstep
  · exact owned_record hprocess h stats
  · exact owned_swap h hpc
  · exact owned_send_flow h hpc
  · exact owned_control h hc

/-- The abstract operations of one action. -/
def bufferOps : Action α → List (BufferOp α)
  | .pkt_handler stats => [.add stats]
  | .flush_swap => [.swap]
  | .flush_send => [.exportOne]
  | _ => []

/-- What is added to the buffers are the packets recorded. -/
theorem added_bufferOps (schedule : List (Action α)) :
    added (schedule.flatMap bufferOps) = recorded schedule := by
  induction schedule with
  | nil => rfl
  | cons act schedule ih =>
      rw [List.flatMap_cons]
      cases act <;> simp_all [added, recorded, bufferOps]

/-- **One step of the sniffer is at most one operation of the double buffer.** -/
theorem step_simulates {s s' : SnifferState β} {act : Action α} (h : Owned s)
    (hstep : s.step process act = some s') :
    run (Buffers.step process) s.buffers (bufferOps act) = some s'.buffers := by
  obtain ⟨stats, rfl, -, rfl⟩ | ⟨rfl, hpc, rfl⟩ | ⟨rfl, hpc, rfl⟩ | ⟨htables, hc⟩ :=
    SnifferState.step_cases hstep
  · rw [buffers_record h stats]
    rfl
  · have hheld : s.table_to_export = none := h.not_sending (by simp [hpc])
    rw [buffers_swap]
    simp [bufferOps, run, Buffers.step, SnifferState.buffers, SnifferState.held,
      SnifferState.deref, hheld]
  · obtain ⟨flow, rest, hheld, hbuf⟩ := buffers_send_flow h hpc
    rw [hbuf]
    simp [bufferOps, run, Buffers.step, SnifferState.buffers, hheld]
  · rw [buffers_control h hc]
    cases act <;> first | rfl | simp [Action.onTables] at htables

/-! ## §4. Runs. -/

/-- Every reachable state keeps the discipline. -/
theorem owned_run (hprocess : ∀ t a, process t a ≠ []) {schedule : List (Action α)}
    {s : SnifferState β} (h : run (SnifferState.step process) init schedule = some s) :
    Owned s :=
  run_invariant Owned owned_init (fun _ _ _ ht hstep => owned_step hprocess ht hstep) h

/-- **The sniffer refines the double buffer.** -/
theorem run_buffers (hprocess : ∀ t a, process t a ≠ []) {schedule : List (Action α)}
    {s : SnifferState β} (h : run (SnifferState.step process) init schedule = some s) :
    run (Buffers.step process) Buffers.empty (schedule.flatMap bufferOps) = some s.buffers := by
  -- ownership is needed at every step, so it goes into the invariant
  have hboth := run_trace
    (fun schedule s => Owned s ∧
      run (Buffers.step process) Buffers.empty (schedule.flatMap bufferOps) = some s.buffers)
    ⟨owned_init, rfl⟩ ?_ h
  · exact hboth.2
  · rintro schedule t act t' ⟨howned, hrun⟩ hstep
    refine ⟨owned_step hprocess howned hstep, ?_⟩
    rw [List.flatMap_append, run_append, hrun, Option.bind_some, List.flatMap_singleton]
    exact step_simulates howned hstep

end Steps

/-! ## §5. The packets behind the flows. -/

/-- The packets of a schedule, as its swaps cut them. -/
def flush_cuts (schedule : List (Action PktStatsT)) : Cut PktStatsT :=
  Cut.of (schedule.flatMap bufferOps)

section Packets

variable (net : LocalNet)

/-- **What has left the active table are the tables of the closed windows**, in order; the current
window is in the active table. -/
theorem run_flow_tables {schedule : List (Action PktStatsT)} {s : SnifferState FlowT}
    (h : run (SnifferState.step (flow_process_packet net)) init schedule = some s) :
    s.produced ++ s.held = (flush_cuts schedule).closed.flatMap (flow_table net)
      ∧ s.active = flow_table net (flush_cuts schedule).current := by
  refine Buffers.run_cut (run_buffers ?_ h)
  intro t p
  rw [flow_process_packet_eq]
  exact (flowKeyed net).upsert_ne_nil t p

/-- A node of the flow table together with the packets folded into it. -/
abbrev LabelledFlow := Traced PktStatsT FlowT

/-- The packets counted in a list of nodes. -/
def packets (nodes : List LabelledFlow) : Multiset PktStatsT :=
  (nodes.map (fun node => (node.items : Multiset PktStatsT))).sum

/-- As a list, the packets counted node by node. -/
theorem packets_eq (nodes : List LabelledFlow) :
    packets nodes = (nodes.flatMap Traced.items : List PktStatsT) := by
  induction nodes with
  | nil => rfl
  | cons node nodes ih =>
      rw [List.flatMap_cons, ← Multiset.coe_add, ← ih]
      simp [packets]

/-- `g` is the state `s` with every node labelled by the packets counted in it, and the
labels are exactly the packets `pkts`. -/
structure Accounts (s : SnifferState FlowT) (pkts : List PktStatsT)
    (g : SnifferState LabelledFlow) : Prop where
  erases : g.map Traced.entry = s
  conserved : packets g.produced + packets g.held + packets g.active = pkts
  counted : ∀ node ∈ g.produced ++ g.held ++ g.active,
    node.items ≠ [] ∧ (∀ p ∈ node.items, p.key = node.entry.key)
      ∧ node.entry = node.items.foldl flow_update_stats ((flowKeyed net).fresh node.entry.key)

/-- A run with the labels erased is the run without them. -/
theorem run_erase (schedule : List (Action PktStatsT)) :
    run (SnifferState.step (flow_process_packet net)) init schedule
      = (run (SnifferState.step (flowKeyed net).traced.upsert) init schedule).map
          (SnifferState.map Traced.entry) := by
  refine run_simulates (SnifferState.map Traced.entry) ?_ init schedule
  intro s act
  apply step_map
  intro table stats
  rw [flow_process_packet_eq]
  exact (flowKeyed net).map_entry_upsert_traced table stats

/-- **Every run of the sniffer accounts for every recorded packet exactly once.** -/
theorem run_accounts {schedule : List (Action PktStatsT)} {s : SnifferState FlowT}
    (h : run (SnifferState.step (flow_process_packet net)) init schedule = some s) :
    ∃ g, run (SnifferState.step (flowKeyed net).traced.upsert) init schedule = some g
      ∧ Accounts net s (recorded schedule) g := by
  rw [run_erase, Option.map_eq_some_iff] at h
  obtain ⟨g, hg, herase⟩ := h
  -- the labelled run is a run of the double buffer, with the items of a node as its weight
  have hbuf := run_buffers ((flowKeyed net).traced.upsert_ne_nil) hg
  refine ⟨g, hg, herase, ?_, ?_⟩
  · have hadd : ∀ (t : List LabelledFlow) (p : PktStatsT),
        packets ((flowKeyed net).traced.upsert t p) = packets t + {p} := by
      intro t p
      rw [packets_eq, packets_eq, add_comm, Multiset.singleton_add, Multiset.cons_coe]
      exact Multiset.coe_eq_coe.mpr ((flowKeyed net).items_upsert_traced t p)
    have hsum := Buffers.run_conserves _ _ (fun p => ({p} : Multiset PktStatsT)) hadd hbuf
    rw [Buffers.total_eq, added_bufferOps] at hsum
    have hpkts : ((recorded schedule).map (fun p => ({p} : Multiset PktStatsT))).sum
        = recorded schedule := by
      simpa using Multiset.sum_map_singleton (recorded schedule : Multiset PktStatsT)
    rw [hpkts] at hsum
    simpa [Buffers.total_eq, Buffers.empty, packets, SnifferState.buffers] using hsum
  · have hall := Buffers.run_forall
      (fun node : LabelledFlow => (flowKeyed net).Honest node ∧ node.items ≠ []) ?_ hbuf
    · intro node hnode
      obtain ⟨⟨hfold, hkeys⟩, hne⟩ := hall node hnode
      exact ⟨hne, hkeys, hfold⟩
    · intro t p ht node hnode
      exact ⟨(flowKeyed net).honest_upsert_traced p (fun b hb => (ht b hb).1) node hnode,
        (flowKeyed net).items_ne_nil_upsert_traced p (fun b hb => (ht b hb).2) node hnode⟩

/-- **Double buffering loses no packet and counts none twice.**  In every reachable state the
recorded packets are those counted in the flows already produced, in the table being exported
and in the active table.  The active table is live and is not the one being exported; when a
swap is due nothing is held, and the slot it overwrites leads to no live node. -/
theorem double_buffering_conserves {schedule : List (Action PktStatsT)}
    {s : SnifferState FlowT}
    (h : run (SnifferState.step (flow_process_packet net)) init schedule = some s) :
    (∃ g, run (SnifferState.step (flowKeyed net).traced.upsert) init schedule = some g
        ∧ Accounts net s (recorded schedule) g)
      ∧ Owned s
      ∧ (s.flush_pc = .swap →
          s.held = [] ∧ ∀ a, s.tables (!s.active_idx) = some a → s.heap a = []) := by
  have howned : Owned s := by
    refine owned_run ?_ h
    intro t p
    rw [flow_process_packet_eq]
    exact (flowKeyed net).upsert_ne_nil t p
  refine ⟨run_accounts net h, howned, ?_⟩
  intro hpc
  constructor
  · rw [SnifferState.held, howned.not_sending (by simp [hpc])]
    rfl
  · intro a ha
    exact howned.retired (by simp [hpc]) ha

/-- Two flows swapped out, one of them exported, while the next window has begun. -/
def half_exported : List (Action PktStatsT) :=
  [.setup_pcap true, .flush_test] ++ handshake.map .pkt_handler
    ++ [.flush_swap, .flush_send] ++ handshake.map .pkt_handler

/-- The state it ends in. -/
def half_exported_state : SnifferState FlowT :=
  (run (SnifferState.step (flow_process_packet ⟨0, 0⟩)) init half_exported).getD init

theorem double_buffering_conserves_half_exported :
    (∃ g, run (SnifferState.step (flowKeyed ⟨0, 0⟩).traced.upsert) init half_exported = some g
        ∧ Accounts ⟨0, 0⟩ half_exported_state (recorded half_exported) g)
      ∧ Owned half_exported_state
      ∧ (half_exported_state.flush_pc = .swap →
          half_exported_state.held = []
            ∧ ∀ a, half_exported_state.tables (!half_exported_state.active_idx) = some a →
                half_exported_state.heap a = []) :=
  double_buffering_conserves ⟨0, 0⟩
    (rfl : run _ init half_exported = some half_exported_state)

end Packets

end KafKatch.Sniffer
