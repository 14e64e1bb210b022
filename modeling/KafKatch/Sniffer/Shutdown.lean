/-
  KafKatch.Sniffer.Shutdown
  ─────────────────────────
  **WHAT THE GRACEFUL SHUTDOWN OF `main` LEAVES BEHIND.**

  When `main` returns, `flush_worker` has returned and holds no table, but it returns from its
  loop test without a last swap.  The active table is then empty exactly when every recorded
  packet was followed by a swap (`active_null_iff`), so that is exactly when everything
  recorded was also produced.
-/
import KafKatch.Sniffer.DoubleBuffering

namespace KafKatch.Sniffer

open KafKatch.Lib

variable {α β : Type} {process : List β → α → List β}

/-! ## §1. The active slot and the schedule. -/

/-- The action records a packet. -/
def Action.IsRecord : Action α → Prop
  | .pkt_handler _ => True
  | _ => False

/-- Every recorded packet is followed by a swap. -/
def AllSwapped (schedule : List (Action α)) : Prop :=
  Followed Action.IsRecord (· = .flush_swap) schedule

theorem record_slot (s : SnifferState β) (stats : α) :
    (s.record process stats).tables (s.record process stats).active_idx ≠ none := by
  unfold SnifferState.record
  cases ht : s.tables s.active_idx with
  | none => simp
  | some head =>
      dsimp only
      cases s.heap head <;> simp [ht]

theorem send_flow_slots (s : SnifferState β) :
    s.send_flow.tables = s.tables ∧ s.send_flow.active_idx = s.active_idx := by
  unfold SnifferState.send_flow
  cases s.table_to_export with
  | none => exact ⟨rfl, rfl⟩
  | some head =>
      dsimp only
      rcases s.heap head with _ | ⟨flow, _ | ⟨node, rest⟩⟩ <;> exact ⟨rfl, rfl⟩

/-- **The active table is `NULL` exactly when nothing was recorded since the last swap.** -/
theorem active_null_iff {schedule : List (Action α)} {s : SnifferState β}
    (h : run (SnifferState.step process) init schedule = some s) :
    s.tables s.active_idx = none ↔ AllSwapped schedule := by
  refine run_trace (fun schedule s => s.tables s.active_idx = none ↔ AllSwapped schedule)
    ?_ ?_ h
  · exact iff_of_true rfl (followed_nil _ _)
  · intro schedule t act t' ih hstep
    obtain ⟨stats, rfl, -, rfl⟩ | ⟨rfl, -, rfl⟩ | ⟨rfl, -, rfl⟩ | ⟨htables, hc⟩ :=
      SnifferState.step_cases hstep
    -- a packet fills the active slot, a swap empties it, nothing else touches it
    · exact iff_of_false (record_slot t stats) (not_followed_concat schedule trivial)
    · refine iff_of_true ?_ (followed_concat schedule rfl (by simp [Action.IsRecord]))
      simp [SnifferState.swap]
    · rw [(send_flow_slots t).1, (send_flow_slots t).2, ih]
      exact (followed_concat_iff schedule (by simp) (by simp [Action.IsRecord])).symm
    · rw [hc.tables, hc.active_idx, ih]
      refine (followed_concat_iff schedule ?_ ?_).symm
      · rintro rfl
        simp [Action.onTables] at htables
      · cases act <;> simp [Action.IsRecord, Action.onTables] at htables ⊢

/-! ## §2. The exit of `main`. -/

/-- `main` has joined `flush_worker`. -/
def Joined (s : SnifferState β) : Prop :=
  ∃ status, s.main_pc = .cleanup status ∨ s.main_pc = .exited status

theorem record_pcs (s : SnifferState β) (stats : α) :
    (s.record process stats).main_pc = s.main_pc
      ∧ (s.record process stats).flush_pc = s.flush_pc := by
  unfold SnifferState.record
  cases s.tables s.active_idx with
  | none => exact ⟨rfl, rfl⟩
  | some head =>
      dsimp only
      cases s.heap head <;> exact ⟨rfl, rfl⟩

/-- The other fields that `record` does not touch. -/
theorem record_fields (s : SnifferState β) (stats : α) :
    (s.record process stats).active_idx = s.active_idx
      ∧ (s.record process stats).is_running = s.is_running
      ∧ (s.record process stats).produced = s.produced := by
  unfold SnifferState.record
  cases s.tables s.active_idx with
  | none => exact ⟨rfl, rfl, rfl⟩
  | some head =>
      dsimp only
      cases s.heap head <;> exact ⟨rfl, rfl, rfl⟩

theorem send_flow_main_pc (s : SnifferState β) : s.send_flow.main_pc = s.main_pc := by
  unfold SnifferState.send_flow
  cases s.table_to_export with
  | none => rfl
  | some head =>
      dsimp only
      rcases s.heap head with _ | ⟨flow, _ | ⟨node, rest⟩⟩ <;> rfl

theorem send_flow_is_running (s : SnifferState β) : s.send_flow.is_running = s.is_running := by
  unfold SnifferState.send_flow
  cases s.table_to_export with
  | none => rfl
  | some head =>
      dsimp only
      rcases s.heap head with _ | ⟨flow, _ | ⟨node, rest⟩⟩ <;> rfl

/-- The export loop goes on as long as something is held. -/
theorem send_flow_flush_pc {s : SnifferState β} (h : Owned s) (hpc : s.flush_pc = .send_flows) :
    s.send_flow.flush_pc = if s.send_flow.held = [] then .sleep else .send_flows := by
  obtain ⟨head, flow, rest, ht, hn, -⟩ := h.head hpc
  cases rest with
  | nil =>
      rw [SnifferState.send_flow_last ht hn]
      rfl
  | cons node rest =>
      rw [SnifferState.send_flow_more ht hn, if_neg]
      · exact hpc
      · simp [SnifferState.held, SnifferState.deref]

/-- What a step off the tables does, and where it is enabled. -/
inductive ControlStep (s : SnifferState β) : Action α → SnifferState β → Prop
  | flush_again (hpc : s.flush_pc = .loop_test) (hrunning : s.is_running = true) :
      ControlStep s .flush_test { s with table_to_export := none, flush_pc := .swap }
  | flush_return (hpc : s.flush_pc = .loop_test) (hrunning : s.is_running = false) :
      ControlStep s .flush_test { s with flush_pc := .returned }
  | flush_sleep (hpc : s.flush_pc = .sleep) :
      ControlStep s .flush_sleep { s with flush_pc := .loop_test }
  | setup_pcap (ok : Bool) (hpc : s.main_pc = .setup) :
      ControlStep s (.setup_pcap ok)
        { s with main_pc := if ok then .pcap_loop else .shutdown .EXIT_FAILURE }
  | pcap_breakloop (hpc : s.main_pc = .pcap_loop) :
      ControlStep s .pcap_breakloop { s with main_pc := .shutdown .EXIT_SUCCESS }
  | stop {status : ExitStatus} (hpc : s.main_pc = .shutdown status) :
      ControlStep s .stop { s with is_running := false, main_pc := .join status }
  | pthread_join {status : ExitStatus} (hpc : s.main_pc = .join status)
      (hreturned : s.flush_pc = .returned) :
      ControlStep s .pthread_join { s with main_pc := .cleanup status }
  | kafka_client_cleanup {status : ExitStatus} (hpc : s.main_pc = .cleanup status) :
      ControlStep s .kafka_client_cleanup { s with main_pc := .exited status }

/-- **The steps off the tables are these.** -/
theorem controlStep_iff {s s' : SnifferState β} {act : Action α} (hact : act.onTables = false) :
    s.step process act = some s' ↔ ControlStep s act s' := by
  constructor
  · intro hstep
    cases act with
    | pkt_handler _ | flush_swap | flush_send => cases hact
    | flush_test =>
        simp only [SnifferState.step, Option.ite_none_right_eq_some] at hstep
        obtain ⟨hpc, hstep⟩ := hstep
        split at hstep
        · rename_i hrunning
          exact Option.some.inj hstep ▸ .flush_again hpc hrunning
        · rename_i hrunning
          exact Option.some.inj hstep ▸ .flush_return hpc (Bool.eq_false_iff.mpr hrunning)
    | flush_sleep =>
        simp only [SnifferState.step, Option.ite_none_right_eq_some, Option.some.injEq] at hstep
        exact hstep.2 ▸ .flush_sleep hstep.1
    | setup_pcap ok =>
        simp only [SnifferState.step, Option.ite_none_right_eq_some, Option.some.injEq] at hstep
        exact hstep.2 ▸ .setup_pcap ok hstep.1
    | pcap_breakloop =>
        simp only [SnifferState.step, Option.ite_none_right_eq_some, Option.some.injEq] at hstep
        exact hstep.2 ▸ .pcap_breakloop hstep.1
    | stop =>
        cases hpc : s.main_pc <;>
          simp only [SnifferState.step, hpc, Option.some.injEq, reduceCtorEq] at hstep
        exact hstep ▸ .stop hpc
    | pthread_join =>
        cases hpc : s.main_pc <;>
          simp only [SnifferState.step, hpc, Option.ite_none_right_eq_some, Option.some.injEq,
            reduceCtorEq] at hstep
        exact hstep.2 ▸ .pthread_join hpc hstep.1
    | kafka_client_cleanup =>
        cases hpc : s.main_pc <;>
          simp only [SnifferState.step, hpc, Option.some.injEq, reduceCtorEq] at hstep
        exact hstep ▸ .kafka_client_cleanup hpc
  · intro hstep
    cases hstep with
    | flush_again hpc hrunning | flush_return hpc hrunning =>
        simp [SnifferState.step, hpc, hrunning]
    | flush_sleep hpc | setup_pcap _ hpc | pcap_breakloop hpc | stop hpc
    | kafka_client_cleanup hpc => simp [SnifferState.step, hpc]
    | pthread_join hpc hreturned => simp [SnifferState.step, hpc, hreturned]

theorem joined_step {s s' : SnifferState β} {act : Action α}
    (h : Joined s → s.flush_pc = .returned) (hstep : s.step process act = some s') :
    Joined s' → s'.flush_pc = .returned := by
  rintro ⟨status, hmain⟩
  cases act with
  | pkt_handler stats =>
      simp only [SnifferState.step, Option.ite_none_right_eq_some, Option.some.injEq] at hstep
      obtain ⟨hpc, rfl⟩ := hstep
      simp [(record_pcs s stats).1, hpc] at hmain
  | flush_test =>
      simp only [SnifferState.step, Option.ite_none_right_eq_some] at hstep
      obtain ⟨hpc, hstep⟩ := hstep
      split at hstep <;> simp only [Option.some.injEq] at hstep <;> subst hstep
      · exact absurd (h ⟨status, hmain⟩) (by simp [hpc])
      · rfl
  | flush_swap =>
      simp only [SnifferState.step, Option.ite_none_right_eq_some, Option.some.injEq] at hstep
      obtain ⟨hpc, rfl⟩ := hstep
      exact absurd (h ⟨status, hmain⟩) (by simp [hpc])
  | flush_send =>
      simp only [SnifferState.step, Option.ite_none_right_eq_some, Option.some.injEq] at hstep
      obtain ⟨hpc, rfl⟩ := hstep
      rw [send_flow_main_pc] at hmain
      exact absurd (h ⟨status, hmain⟩) (by simp [hpc])
  | flush_sleep =>
      simp only [SnifferState.step, Option.ite_none_right_eq_some, Option.some.injEq] at hstep
      obtain ⟨hpc, rfl⟩ := hstep
      exact absurd (h ⟨status, hmain⟩) (by simp [hpc])
  | setup_pcap ok =>
      simp only [SnifferState.step, Option.ite_none_right_eq_some, Option.some.injEq] at hstep
      obtain ⟨_, rfl⟩ := hstep
      cases ok <;> simp at hmain
  | pcap_breakloop =>
      simp only [SnifferState.step, Option.ite_none_right_eq_some, Option.some.injEq] at hstep
      obtain ⟨_, rfl⟩ := hstep
      simp at hmain
  | stop =>
      cases hpc : s.main_pc <;>
        simp only [SnifferState.step, hpc, Option.some.injEq, reduceCtorEq] at hstep
      subst hstep
      simp at hmain
  | pthread_join =>
      cases hpc : s.main_pc <;>
        simp only [SnifferState.step, hpc, Option.ite_none_right_eq_some, Option.some.injEq,
          reduceCtorEq] at hstep
      obtain ⟨hret, rfl⟩ := hstep
      exact hret
  | kafka_client_cleanup =>
      cases hpc : s.main_pc <;>
        simp only [SnifferState.step, hpc, Option.some.injEq, reduceCtorEq] at hstep
      subst hstep
      exact h ⟨_, Or.inl hpc⟩

theorem joined_run {schedule : List (Action α)} {s : SnifferState β}
    (h : run (SnifferState.step process) init schedule = some s) :
    Joined s → s.flush_pc = .returned :=
  run_invariant (fun s => Joined s → s.flush_pc = .returned)
    (by rintro ⟨_, h | h⟩ <;> simp [init] at h)
    (fun _ _ _ ht hstep => joined_step ht hstep) h

/-! ## §3. What was produced at the exit. -/

section Exit

variable (net : LocalNet)

/-- Every packet recorded in the run is counted in exactly one of the flows handed to the
producer. -/
def AllProduced (schedule : List (Action PktStatsT)) (s : SnifferState FlowT) : Prop :=
  ∃ g, run (SnifferState.step (flowKeyed net).traced.upsert) init schedule = some g
    ∧ Accounts net s (recorded schedule) g
    ∧ packets g.produced = (recorded schedule : Multiset PktStatsT)

/-- A table of counted nodes without packets is empty. -/
theorem packets_eq_zero {nodes : List LabelledFlow} (h : ∀ node ∈ nodes, node.items ≠ []) :
    packets nodes = 0 ↔ nodes = [] := by
  constructor
  · intro h0
    cases nodes with
    | nil => rfl
    | cons node rest =>
        have hne := h node List.mem_cons_self
        rw [packets_eq] at h0
        simp [hne] at h0
  · rintro rfl
    rfl

/-- **At a successful exit, everything recorded was produced if and only if every recorded
packet was followed by a swap.** -/
theorem exit_all_produced_iff {schedule : List (Action PktStatsT)} {s : SnifferState FlowT}
    (h : run (SnifferState.step (flow_process_packet net)) init schedule = some s)
    (hexit : s.main_pc = .exited .EXIT_SUCCESS) :
    AllProduced net schedule s ↔ AllSwapped schedule := by
  obtain ⟨g, hg, hacc⟩ := run_accounts net h
  have howned : Owned g := owned_run ((flowKeyed net).traced.upsert_ne_nil) hg
  have hjoined : Joined g := by
    have hmain : g.main_pc = s.main_pc := hacc.erases ▸ rfl
    exact ⟨_, Or.inr (hmain.trans hexit)⟩
  -- `flush_worker` has returned, so it holds no table
  have hheld : g.held = [] := by
    rw [SnifferState.held, howned.not_sending (by simp [joined_run hg hjoined])]
    rfl
  have hcons : packets g.produced + packets g.active = recorded schedule := by
    have := hacc.conserved
    rwa [hheld, show packets [] = 0 from rfl, add_zero] at this
  have hactive : packets g.active = 0 ↔ AllSwapped schedule := by
    rw [packets_eq_zero (fun node hnode => (hacc.counted node (by simp [hnode])).1),
      ← active_null_iff hg]
    cases ht : g.tables g.active_idx with
    | none => simp [SnifferState.active, SnifferState.deref, ht]
    | some head =>
        simpa [SnifferState.active, SnifferState.deref, ht] using howned.active_live head ht
  rw [← hactive]
  constructor
  · rintro ⟨g', hg', _, hall⟩
    rw [hg, Option.some.injEq] at hg'
    subst hg'
    rw [← hcons] at hall
    exact left_eq_add.mp hall
  · intro hzero
    refine ⟨g, hg, hacc, ?_⟩
    rw [← hcons, hzero, add_zero]

/-- A first swap, then a handshake is captured, then the capture ends: the flush thread wakes
up and returns. -/
def late_handshake : List (Action PktStatsT) :=
  [.setup_pcap true, .flush_test, .flush_swap] ++ handshake.map .pkt_handler
    ++ [.pcap_breakloop, .stop, .flush_sleep, .flush_test, .pthread_join, .kafka_client_cleanup]

/-- The same, but the flush thread wakes up before the capture ends. -/
def early_handshake : List (Action PktStatsT) :=
  [.setup_pcap true, .flush_test, .flush_swap] ++ handshake.map .pkt_handler
    ++ [.flush_sleep, .flush_test, .pcap_breakloop, .stop, .flush_swap, .flush_send,
        .flush_send, .flush_sleep, .flush_test, .pthread_join, .kafka_client_cleanup]

def exit_state (schedule : List (Action PktStatsT)) : SnifferState FlowT :=
  (run (SnifferState.step (flow_process_packet ⟨0, 0⟩)) init schedule).getD init

theorem exit_all_produced_iff_early :
    AllProduced ⟨0, 0⟩ early_handshake (exit_state early_handshake)
      ↔ AllSwapped early_handshake :=
  exit_all_produced_iff ⟨0, 0⟩
    (rfl : run _ init early_handshake = some (exit_state early_handshake)) rfl

/-- **The last window is lost**: a successful exit with three packets recorded and no flow
produced. -/
theorem exit_loses_last_window :
    ¬ ∀ (net : LocalNet) (schedule : List (Action PktStatsT)) (s : SnifferState FlowT),
        run (SnifferState.step (flow_process_packet net)) init schedule = some s →
          s.main_pc = .exited .EXIT_SUCCESS → AllProduced net schedule s := by
  intro hclaim
  obtain ⟨g, hg, -, hall⟩ := hclaim ⟨0, 0⟩ late_handshake (exit_state late_handshake) rfl rfl
  have hproduced : (run (SnifferState.step (flowKeyed ⟨0, 0⟩).traced.upsert) init
      late_handshake).map SnifferState.produced = some [] := rfl
  rw [hg, Option.map_some, Option.some.injEq] at hproduced
  rw [hproduced] at hall
  exact absurd (congrArg Multiset.card hall) (by decide)

end Exit

end KafKatch.Sniffer
