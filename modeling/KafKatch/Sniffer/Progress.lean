/-
  KafKatch.Sniffer.Progress
  ─────────────────────────
  **THE SHUTDOWN ALWAYS ENDS.**

  Once `main` has cleared `is_running`, what is left to do can be counted: the flush thread
  finishes the round it is in, node by node, tests its loop and returns, and `main` joins it and
  cleans up.  Every step of either thread is one of these steps, so in every interleaving `main`
  returns after exactly `steps_left` of them, and until then some step is enabled
  (`shutdown_ends`).  In particular `pthread_join` cannot wait for ever.
-/
import KafKatch.Sniffer.Shutdown

namespace KafKatch.Sniffer

open KafKatch.Lib

variable {α β : Type} {process : List β → α → List β}

/-! ## §1. What is left to do. -/

/-- The steps `main` has left, from `pthread_join` on. -/
def main_steps : MainPc → Nat
  | .join _ => 2
  | .cleanup _ => 1
  | _ => 0

/-- The steps `flush_worker` has left once `is_running` is cleared. -/
def flush_steps (s : SnifferState β) : Nat :=
  match s.flush_pc with
  | .swap => 3 + s.active.length
  | .send_flows => 2 + s.held.length
  | .sleep => 2
  | .loop_test => 1
  | .returned => 0

/-- The steps both threads have left. -/
def steps_left (s : SnifferState β) : Nat := main_steps s.main_pc + flush_steps s

/-- `main` is at `pthread_join` or behind it. -/
def Leaving (s : SnifferState β) : Prop :=
  ∃ status, s.main_pc = .join status ∨ s.main_pc = .cleanup status ∨ s.main_pc = .exited status

/-- `is_running` is cleared, and `main` is on its way out. -/
structure Stopping (s : SnifferState β) : Prop where
  owned : Owned s
  is_running : s.is_running = false
  main : Leaving s
  joined : Joined s → s.flush_pc = .returned

section Steps

variable {s : SnifferState β}

/-- A swap leaves the table it detached to be sent. -/
theorem flush_steps_swap (hpc : s.flush_pc = .swap) : flush_steps s.swap + 1 = flush_steps s := by
  have hbuffers := @buffers_swap β s
  have hheld : s.swap.held = s.active := congrArg Buffers.held hbuffers
  unfold flush_steps
  rw [hpc, hheld]
  cases ht : s.tables s.active_idx with
  | none =>
      have hactive : s.active = [] := by
        rw [SnifferState.active, ht]
        rfl
      have hsleep : s.swap.flush_pc = .sleep := by rw [SnifferState.swap, ht]; rfl
      rw [hsleep, hactive]
      rfl
  | some head =>
      have hsend : s.swap.flush_pc = .send_flows := by rw [SnifferState.swap, ht]; rfl
      rw [hsend]
      show 2 + s.active.length + 1 = 3 + s.active.length
      omega

/-- A round of the export loop leaves the nodes behind the one it sends. -/
theorem flush_steps_send_flow (h : Owned s) (hpc : s.flush_pc = .send_flows) :
    flush_steps s.send_flow + 1 = flush_steps s := by
  obtain ⟨flow, rest, hheld, hbuffers⟩ := buffers_send_flow h hpc
  have hheld' : s.send_flow.held = rest := congrArg Buffers.held hbuffers
  have hnext := send_flow_flush_pc h hpc
  unfold flush_steps
  rw [hpc, hnext, hheld, hheld']
  cases rest with
  | nil => rfl
  | cons node rest => rfl

/-- **Every step is one of the steps that were left**, and `main` stays on its way out. -/
theorem stopping_step (hprocess : ∀ t a, process t a ≠ []) {s' : SnifferState β} {act : Action α}
    (h : Stopping s) (hstep : s.step process act = some s') :
    Stopping s' ∧ steps_left s' + 1 = steps_left s := by
  obtain ⟨howned, hrunning, ⟨status, hmain⟩, hjoined⟩ := h
  have howned' := owned_step hprocess howned hstep
  have hjoined' := joined_step hjoined hstep
  obtain ⟨stats, rfl, hpc, rfl⟩ | ⟨rfl, hpc, rfl⟩ | ⟨rfl, hpc, rfl⟩ | ⟨hact, -⟩ :=
    SnifferState.step_cases hstep
  · -- the capture is over
    rw [hpc] at hmain
    simp at hmain
  · refine ⟨⟨howned', hrunning, ⟨status, hmain⟩, hjoined'⟩, ?_⟩
    show main_steps s.main_pc + flush_steps s.swap + 1 = main_steps s.main_pc + flush_steps s
    rw [← flush_steps_swap hpc, Nat.add_assoc]
  · have hrunning' := (send_flow_is_running s).trans hrunning
    rw [← send_flow_main_pc s] at hmain
    refine ⟨⟨howned', hrunning', ⟨status, hmain⟩, hjoined'⟩, ?_⟩
    unfold steps_left
    rw [send_flow_main_pc, ← flush_steps_send_flow howned hpc, Nat.add_assoc]
  · cases (controlStep_iff hact).mp hstep with
    | flush_again hpc hagain =>
        rw [hrunning] at hagain
        cases hagain
    | flush_return hpc _ | flush_sleep hpc =>
        refine ⟨⟨howned', hrunning, ⟨status, hmain⟩, hjoined'⟩, ?_⟩
        unfold steps_left flush_steps
        rw [hpc]
        rfl
    | setup_pcap _ hpc | pcap_breakloop hpc | stop hpc =>
        rw [hpc] at hmain
        simp at hmain
    | pthread_join hpc _ =>
        refine ⟨⟨howned', hrunning, ⟨_, Or.inr (Or.inl rfl)⟩, hjoined'⟩, ?_⟩
        unfold steps_left
        rw [hpc]
        show 1 + flush_steps s + 1 = 2 + flush_steps s
        omega
    | kafka_client_cleanup hpc =>
        refine ⟨⟨howned', hrunning, ⟨_, Or.inr (Or.inr rfl)⟩, hjoined'⟩, ?_⟩
        unfold steps_left
        rw [hpc]
        show 0 + flush_steps s + 1 = 1 + flush_steps s
        omega

/-- **Until `main` has returned, some step is enabled**: nobody waits for ever. -/
theorem stuck_iff_exited (h : Stopping s) :
    (∀ act, s.step process act = none) ↔ ∃ status, s.main_pc = .exited status := by
  obtain ⟨_, hrunning, ⟨status, hmain⟩, hjoined⟩ := h
  constructor
  · intro hstuck
    rcases hmain with hmain | hmain | hmain
    · -- `main` waits for the flush thread, which goes on until it returns
      exfalso
      cases hpc : s.flush_pc with
      | loop_test => simpa [SnifferState.step, hpc, hrunning] using hstuck .flush_test
      | swap => simpa [SnifferState.step, hpc] using hstuck .flush_swap
      | send_flows => simpa [SnifferState.step, hpc] using hstuck .flush_send
      | sleep => simpa [SnifferState.step, hpc] using hstuck .flush_sleep
      | returned => simpa [SnifferState.step, hpc, hmain] using hstuck .pthread_join
    · exact absurd (hstuck .kafka_client_cleanup) (by simp [SnifferState.step, hmain])
    · exact ⟨status, hmain⟩
  · rintro ⟨status, hmain⟩ act
    have hpc := hjoined ⟨status, Or.inr hmain⟩
    cases act <;> simp [SnifferState.step, hmain, hpc]

end Steps

/-! ## §2. Runs. -/

/-- `is_running` is cleared where `main` leaves. -/
theorem running_step {s s' : SnifferState β} {act : Action α}
    (h : s.is_running = false ↔ Leaving s) (hstep : s.step process act = some s') :
    s'.is_running = false ↔ Leaving s' := by
  -- the flush thread and the callback touch neither side
  have hkeep : s'.is_running = s.is_running → s'.main_pc = s.main_pc →
      (s'.is_running = false ↔ Leaving s') := by
    intro hrunning hmain
    unfold Leaving at h ⊢
    rw [hrunning, hmain]
    exact h
  obtain ⟨stats, rfl, -, rfl⟩ | ⟨rfl, -, rfl⟩ | ⟨rfl, -, rfl⟩ | ⟨hact, -⟩ :=
    SnifferState.step_cases hstep
  · exact hkeep (record_fields s stats).2.1 (record_pcs s stats).1
  · exact hkeep rfl rfl
  · exact hkeep (send_flow_is_running s) (send_flow_main_pc s)
  · cases (controlStep_iff hact).mp hstep with
    | flush_again _ _ | flush_return _ _ | flush_sleep _ => exact hkeep rfl rfl
    -- `main` moves on, but only `stop` clears the flag
    | setup_pcap ok hpc =>
        have hrunning : ¬ s.is_running = false := by
          rw [h]
          simp [Leaving, hpc]
        cases ok <;> exact iff_of_false hrunning (by simp [Leaving])
    | pcap_breakloop hpc =>
        have hrunning : ¬ s.is_running = false := by
          rw [h]
          simp [Leaving, hpc]
        exact iff_of_false hrunning (by simp [Leaving])
    | stop _ => exact iff_of_true rfl ⟨_, Or.inl rfl⟩
    | pthread_join hpc _ => exact iff_of_true (h.mpr ⟨_, Or.inl hpc⟩) ⟨_, Or.inr (Or.inl rfl)⟩
    | kafka_client_cleanup hpc =>
        exact iff_of_true (h.mpr ⟨_, Or.inr (Or.inl hpc)⟩) ⟨_, Or.inr (Or.inr rfl)⟩

/-- Nothing is left exactly when `main` has returned. -/
theorem steps_left_eq_zero {s : SnifferState β} (h : Stopping s) :
    steps_left s = 0 ↔ ∃ status, s.main_pc = .exited status := by
  obtain ⟨_, _, ⟨status, hmain⟩, hjoined⟩ := h
  constructor
  · intro hzero
    unfold steps_left at hzero
    rcases hmain with hmain | hmain | hmain
    · rw [hmain, main_steps] at hzero
      omega
    · rw [hmain, main_steps] at hzero
      omega
    · exact ⟨status, hmain⟩
  · rintro ⟨status, hmain⟩
    unfold steps_left flush_steps
    rw [hmain, hjoined ⟨status, Or.inr hmain⟩]
    rfl

section Sniffer

variable {net : LocalNet} {schedule : List (Action PktStatsT)} {s : SnifferState FlowT}

theorem process_ne_nil (net : LocalNet) (table : List FlowT) (stats : PktStatsT) :
    flow_process_packet net table stats ≠ [] := by
  rw [flow_process_packet_eq]
  exact (flowKeyed net).upsert_ne_nil table stats

theorem leaving_run
    (h : run (SnifferState.step (flow_process_packet net)) init schedule = some s) :
    s.is_running = false ↔ Leaving s :=
  run_invariant (fun s : SnifferState FlowT => s.is_running = false ↔ Leaving s)
    (iff_of_false (by simp [init]) (by simp [Leaving, init]))
    (fun _ _ _ ht hstep => running_step ht hstep) h

theorem stopping_run
    (h : run (SnifferState.step (flow_process_packet net)) init schedule = some s)
    (hstopped : s.is_running = false) : Stopping s where
  owned := owned_run (process_ne_nil net) h
  is_running := hstopped
  main := (leaving_run h).mp hstopped
  joined := joined_run h

/-- From any reachable state `main` can be brought to leave. -/
theorem stop_reachable
    (h : run (SnifferState.step (flow_process_packet net)) init schedule = some s) :
    ∃ acts s', run (SnifferState.step (flow_process_packet net)) s acts = some s'
      ∧ s'.is_running = false := by
  cases hpc : s.main_pc with
  | setup =>
      have hrun : run (SnifferState.step (flow_process_packet net)) s [.setup_pcap false, .stop]
          = some { s with is_running := false, main_pc := .join .EXIT_FAILURE } := by
        simp [run, SnifferState.step, hpc]
      exact ⟨_, _, hrun, rfl⟩
  | pcap_loop =>
      have hrun : run (SnifferState.step (flow_process_packet net)) s [.pcap_breakloop, .stop]
          = some { s with is_running := false, main_pc := .join .EXIT_SUCCESS } := by
        simp [run, SnifferState.step, hpc]
      exact ⟨_, _, hrun, rfl⟩
  | shutdown status =>
      have hrun : run (SnifferState.step (flow_process_packet net)) s [.stop]
          = some { s with is_running := false, main_pc := .join status } := by
        simp [run, SnifferState.step, hpc]
      exact ⟨_, _, hrun, rfl⟩
  | join status => exact ⟨[], s, rfl, (leaving_run h).mpr ⟨status, Or.inl hpc⟩⟩
  | cleanup status => exact ⟨[], s, rfl, (leaving_run h).mpr ⟨status, Or.inr (Or.inl hpc)⟩⟩
  | exited status => exact ⟨[], s, rfl, (leaving_run h).mpr ⟨status, Or.inr (Or.inr hpc)⟩⟩

/-- **`main` can return from every reachable state, and once `is_running` is cleared it does**: in
every interleaving with the last of `steps_left` steps, and until then some step is enabled. -/
theorem shutdown_ends
    (h : run (SnifferState.step (flow_process_packet net)) init schedule = some s) :
    (∃ acts s', run (SnifferState.step (flow_process_packet net)) s acts = some s'
      ∧ ∃ status, s'.main_pc = .exited status)
    ∧ (s.is_running = false → ∀ acts s',
        run (SnifferState.step (flow_process_packet net)) s acts = some s' →
          acts.length ≤ steps_left s
          ∧ (acts.length = steps_left s ↔ ∃ status, s'.main_pc = .exited status)
          ∧ ((∀ act, s'.step (flow_process_packet net) act = none)
              ↔ ∃ status, s'.main_pc = .exited status)) := by
  have hstep : ∀ (t : SnifferState FlowT) act t', Stopping t →
      t.step (flow_process_packet net) act = some t' →
        Stopping t' ∧ steps_left t' + 1 = steps_left t :=
    fun _ _ _ ht hstep => stopping_step (process_ne_nil net) ht hstep
  constructor
  · obtain ⟨acts, mid, hacts, hstopped⟩ := stop_reachable h
    have hmid : run (SnifferState.step (flow_process_packet net)) init (schedule ++ acts)
        = some mid := by
      rw [run_append, h]
      exact hacts
    obtain ⟨more, s', hmore, hs', hstuck⟩ :=
      run_until_stuck Stopping steps_left hstep (stopping_run hmid hstopped)
    refine ⟨acts ++ more, s', ?_, (stuck_iff_exited hs').mp hstuck⟩
    rw [run_append, hacts]
    exact hmore
  · intro hstopped acts s' hacts
    obtain ⟨hs', hlength⟩ :=
      run_rank Stopping steps_left hstep (stopping_run h hstopped) hacts
    have hzero := steps_left_eq_zero hs'
    refine ⟨by omega, ?_, stuck_iff_exited hs'⟩
    rw [← hzero]
    omega

end Sniffer

/-- Ctrl+C with two flows in the active table and a swap due. -/
def interrupted : List (Action PktStatsT) := early_handshake.take 10

theorem shutdown_ends_interrupted :
    (∃ acts s', run (SnifferState.step (flow_process_packet ⟨0, 0⟩)) (exit_state interrupted) acts
        = some s' ∧ ∃ status, s'.main_pc = .exited status)
    ∧ ((exit_state interrupted).is_running = false → ∀ acts s',
        run (SnifferState.step (flow_process_packet ⟨0, 0⟩)) (exit_state interrupted) acts
            = some s' →
          acts.length ≤ steps_left (exit_state interrupted)
          ∧ (acts.length = steps_left (exit_state interrupted)
              ↔ ∃ status, s'.main_pc = .exited status)
          ∧ ((∀ act, s'.step (flow_process_packet ⟨0, 0⟩) act = none)
              ↔ ∃ status, s'.main_pc = .exited status)) :=
  shutdown_ends (rfl : run _ init interrupted = some (exit_state interrupted))

example : (exit_state interrupted).is_running = false ∧ steps_left (exit_state interrupted) = 7 :=
  ⟨rfl, rfl⟩

end KafKatch.Sniffer
