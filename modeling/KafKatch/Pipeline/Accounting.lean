/-
  KafKatch.Pipeline.Accounting
  ────────────────────────────
  **EVERY CAPTURED PACKET COUNTS ONCE, FROM THE CAPTURE TO THE PUBLISHED AGGREGATES.**

  The two threads of the sniffer run in any interleaving.  Of the flows handed to the producer
  some are lost, and the messages of the others reach the aggregation service in any order, with
  any timestamps and between messages that cannot be read.  Wherever the flush ticks and the
  windows of the service cut the traffic, the volumes and flags of the published aggregates, of
  the windows still open, of the messages that came too late, of the lost flows and of those still
  in the sniffer add up to those of the captured packets (`captured_accounted`).

  `Measure` lists the fields that add up.  Each is a sum over flows in an aggregate, a counter in
  a node of the flow table, and a sum over packets.
-/
import KafKatch.Core.App
import KafKatch.Pipeline.EndToEnd
import KafKatch.Sniffer.DoubleBuffering

namespace KafKatch.Pipeline

open KafKatch.Lib KafKatch.Sniffer KafKatch.Core

/-! ## §1. The measures. -/

/-- The fields of an aggregate that add up. -/
inductive Measure where
  | bytes_inbound
  | bytes_outbound
  | packets_inbound
  | packets_outbound
  | tcp_syn_total
  | tcp_ack_total
  | tcp_fin_total
  | tcp_rst_total
  deriving DecidableEq

namespace Measure

/-- The field of an aggregate. -/
def ofAggregate : Measure → AggregatedFlow → Int64
  | bytes_inbound, agg => agg.bytes_inbound
  | bytes_outbound, agg => agg.bytes_outbound
  | packets_inbound, agg => agg.packets_inbound
  | packets_outbound, agg => agg.packets_outbound
  | tcp_syn_total, agg => agg.tcp_syn_total
  | tcp_ack_total, agg => agg.tcp_ack_total
  | tcp_fin_total, agg => agg.tcp_fin_total
  | tcp_rst_total, agg => agg.tcp_rst_total

/-- What a flow adds to it. -/
def ofFlow : Measure → Flow → Int
  | bytes_inbound, flow => whenDir .INBOUND flow flow.byte_count
  | bytes_outbound, flow => whenDir .OUTBOUND flow flow.byte_count
  | packets_inbound, flow => whenDir .INBOUND flow flow.packet_count
  | packets_outbound, flow => whenDir .OUTBOUND flow flow.packet_count
  | tcp_syn_total, flow => flow.tcp_syn_count.toInt
  | tcp_ack_total, flow => flow.tcp_ack_count.toInt
  | tcp_fin_total, flow => flow.tcp_fin_count.toInt
  | tcp_rst_total, flow => flow.tcp_rst_count.toInt

/-- What the node of a flow adds, once it has been received. -/
def ofNode : Measure → FlowT → Int
  | bytes_inbound, flow => in_dir .DIR_INBOUND flow flow.byte_count
  | bytes_outbound, flow => in_dir .DIR_OUTBOUND flow flow.byte_count
  | packets_inbound, flow => in_dir .DIR_INBOUND flow flow.packet_count
  | packets_outbound, flow => in_dir .DIR_OUTBOUND flow flow.packet_count
  | tcp_syn_total, flow => (narrowed flow.tcp_syn_count.toNat).toInt
  | tcp_ack_total, flow => (narrowed flow.tcp_ack_count.toNat).toInt
  | tcp_fin_total, flow => (narrowed flow.tcp_fin_count.toNat).toInt
  | tcp_rst_total, flow => (narrowed flow.tcp_rst_count.toNat).toInt

/-- What a packet adds. -/
def ofPacket (net : LocalNet) : Measure → PktStatsT → Int
  | bytes_inbound => payload_when net .DIR_INBOUND
  | bytes_outbound => payload_when net .DIR_OUTBOUND
  | packets_inbound => count_when net .DIR_INBOUND
  | packets_outbound => count_when net .DIR_OUTBOUND
  | tcp_syn_total => tcp_flag TH_SYN
  | tcp_ack_total => tcp_flag TH_ACK
  | tcp_fin_total => tcp_flag TH_FIN
  | tcp_rst_total => tcp_flag TH_RST

/-- The field is the total over the flows. -/
theorem ofAggregate_eq (m : Measure) {agg : AggregatedFlow} {flows : List Flow}
    (h : IsAggregate agg flows) : m.ofAggregate agg = total m.ofFlow flows := by
  cases m with
  | bytes_inbound => exact h.bytes_inbound
  | bytes_outbound => exact h.bytes_outbound
  | packets_inbound => exact h.packets_inbound
  | packets_outbound => exact h.packets_outbound
  | tcp_syn_total => exact h.tcp_syn_total
  | tcp_ack_total => exact h.tcp_ack_total
  | tcp_fin_total => exact h.tcp_fin_total
  | tcp_rst_total => exact h.tcp_rst_total

/-- Neither the protocol nor the time of reading matters. -/
theorem ofFlow_received (m : Measure) (flow : FlowT) (protocol : FlowProtocol)
    (timestamp : LocalDateTime) : m.ofFlow (received flow protocol timestamp) = m.ofNode flow := by
  have hdir : ∀ d d', received_dir d = received_dir d' ↔ d = d' := by
    intro d d'
    cases d <;> cases d' <;> decide
  cases m with
  | bytes_inbound => exact if_congr (hdir _ .DIR_INBOUND) rfl rfl
  | bytes_outbound => exact if_congr (hdir _ .DIR_OUTBOUND) rfl rfl
  | packets_inbound => exact if_congr (hdir _ .DIR_INBOUND) rfl rfl
  | packets_outbound => exact if_congr (hdir _ .DIR_OUTBOUND) rfl rfl
  | tcp_syn_total | tcp_ack_total | tcp_fin_total | tcp_rst_total => rfl

/-- The nodes of a window have the total of its packets. -/
theorem ofNode_window (m : Measure) {net : LocalNet} {window : List PktStatsT}
    (hfits : NoOverflow net window) :
    ((flow_table net window).map m.ofNode).sum = (window.map (m.ofPacket net)).sum := by
  cases m with
  | bytes_inbound => exact bytes_window hfits .DIR_INBOUND
  | bytes_outbound => exact bytes_window hfits .DIR_OUTBOUND
  | packets_inbound => exact packets_window hfits .DIR_INBOUND
  | packets_outbound => exact packets_window hfits .DIR_OUTBOUND
  | tcp_syn_total =>
      exact flags_window hfits TH_SYN FlowT.tcp_syn_count (fun _ h => h.tcp_syn_count)
        (fun _ _ h => h.tcp_syn_count)
  | tcp_ack_total =>
      exact flags_window hfits TH_ACK FlowT.tcp_ack_count (fun _ h => h.tcp_ack_count)
        (fun _ _ h => h.tcp_ack_count)
  | tcp_fin_total =>
      exact flags_window hfits TH_FIN FlowT.tcp_fin_count (fun _ h => h.tcp_fin_count)
        (fun _ _ h => h.tcp_fin_count)
  | tcp_rst_total =>
      exact flags_window hfits TH_RST FlowT.tcp_rst_count (fun _ h => h.tcp_rst_count)
        (fun _ _ h => h.tcp_rst_count)

end Measure

/-! ## §2. The flows that are read. -/

theorem total_append (x : Flow → Int) (flows flows' : List Flow) :
    total x (flows ++ flows') = total x flows + total x flows' := by
  unfold total
  rw [List.map_append, List.sum_append, Int64.ofInt_add]

/-- The sum of some totals is the total over all their flows. -/
theorem sum_totals (x : Flow → Int) {ι : Type} (flows : ι → List Flow) (xs : List ι) :
    (xs.map (fun i => total x (flows i))).sum = total x (xs.flatMap flows) := by
  induction xs with
  | nil => rfl
  | cons i xs ih => rw [List.map_cons, List.sum_cons, List.flatMap_cons, total_append, ih]

variable {libs : App.Libraries}

/-- The published texts, read back. -/
theorem aggregates_read {ι : Type} {reads : ι → List (Flow × App.RawMessage)} {starts : List ι}
    {output : List (String × String)}
    (h : List.Forall₂ (fun start record => App.Publishes libs (reads start) record) starts output) :
    output.map (fun record => fromJsonString libs.aggregateMapper record.2)
      = starts.map (some ∘ fun start => clipped (App.windowAggregate (reads start))) := by
  induction h with
  | nil => rfl
  | cons hrecord _ ih => rw [List.map_cons, List.map_cons, hrecord.2, ih]; rfl

/-- **The service accounts for every flow it reads**: its windows, closed and open, and the flows
that came too late have the total of all. -/
theorem service_accounts (libs : App.Libraries) (m : Measure) (log : List App.RawMessage) :
    ((App.windows libs log).map (fun start =>
        total m.ofFlow ((App.flowsIn libs log start).map Prod.fst))).sum
      + total m.ofFlow ((App.pendingFlows libs log).map Prod.fst)
      + total m.ofFlow ((App.lateFlows libs log).map Prod.fst)
    = total m.ofFlow ((App.readable libs log).map (fun read => read.2.1)) := by
  have hwindows := (perm_windows App.windowMillis (App.readable libs log)).map Prod.fst
  rw [List.map_append, List.map_append, List.map_flatMap, List.map_map,
    ← List.append_assoc] at hwindows
  rw [sum_totals, ← total_append, ← total_append]
  exact total_perm m.ofFlow hwindows

section Cuts

variable {net : LocalNet} {cuts : List (List PktStatsT)}

/-- The nodes of all windows have the totals of all packets. -/
theorem sum_nodes (m : Measure) (hfits : ∀ window ∈ cuts, NoOverflow net window) :
    ((nodes net cuts).map m.ofNode).sum = (cuts.flatten.map (m.ofPacket net)).sum := by
  unfold nodes
  induction cuts with
  | nil => rfl
  | cons window cuts ih =>
      rw [List.flatMap_cons, List.flatten_cons, List.map_append, List.map_append, List.sum_append,
        List.sum_append, m.ofNode_window (hfits window List.mem_cons_self),
        ih (fun w hw => hfits w (List.mem_cons_of_mem window hw))]

variable (hproto : ∀ window ∈ cuts, ∀ p ∈ window,
    p.key.protocol = IPPROTO_TCP ∨ p.key.protocol = IPPROTO_UDP)
  (hfits : ∀ window ∈ cuts, NoOverflow net window)

include hproto hfits

/-- A message of the sniffer is read as the node it was written from. -/
theorem parse_sent {flow : FlowT} (hflow : flow ∈ nodes net cuts) {message : App.RawMessage}
    (hvalue : message.value = some (json_payload flow)) :
    App.parse libs message
      = some (received flow (protocol_of flow) (libs.zone message.currentTimeMillis)) := by
  obtain ⟨window, hwindow, hnode⟩ := List.mem_flatMap.mp hflow
  have hprotocol := nodes_protocol hproto hflow
  unfold App.parse
  rw [hvalue, Option.bind_some,
    readJson_payload libs.jackson libs.zone _ (mean_iat_window (hfits window hwindow) hnode),
    ← protocol_of_name hprotocol, FlowProtocol.valueOf_name]
  rfl

/-- The messages of some nodes, in any order, are read as flows with the totals of the nodes. -/
theorem total_delivered (m : Measure) {delivered : List FlowT}
    (hnodes : ∀ flow ∈ delivered, flow ∈ nodes net cuts) {log : List App.RawMessage}
    (hlog : (log.map (·.value)).Perm (delivered.map (fun flow => some (json_payload flow)))) :
    total m.ofFlow ((App.readable libs log).map (fun read => read.2.1))
      = Int64.ofInt (delivered.map m.ofNode).sum := by
  have hvalues : ∀ message ∈ log, ∃ flow ∈ nodes net cuts,
      message.value = some (json_payload flow) := by
    intro message hmem
    obtain ⟨flow, hflow, hvalue⟩ := List.mem_map.mp (hlog.subset (List.mem_map_of_mem hmem))
    exact ⟨flow, hnodes flow hflow, hvalue.symm⟩
  -- what a value adds is the same at any time
  let weight : Option String → Int := fun value =>
    ((App.parse libs ⟨0, value, 0, noon, noon⟩).map m.ofFlow).getD 0
  have hweight : ∀ flow ∈ nodes net cuts, weight (some (json_payload flow)) = m.ofNode flow := by
    intro flow hflow
    show ((App.parse libs _).map m.ofFlow).getD 0 = _
    rw [parse_sent hproto hfits hflow rfl]
    exact m.ofFlow_received flow _ _
  have hread : (App.readable libs log).map (fun read => m.ofFlow read.2.1)
      = (log.map (·.value)).map weight := by
    clear hlog
    unfold App.readable
    induction log with
    | nil => rfl
    | cons message log ih =>
        obtain ⟨flow, hflow, hvalue⟩ := hvalues message List.mem_cons_self
        have hparse : App.parse libs message = _ := parse_sent hproto hfits hflow hvalue
        rw [List.filterMap_cons_some (b := (message.timestamp, received flow (protocol_of flow)
            (libs.zone message.currentTimeMillis), message)) (by rw [hparse]; rfl),
          List.map_cons, List.map_cons, List.map_cons,
          ih (fun other h => hvalues other (List.mem_cons_of_mem message h)), hvalue,
          hweight flow hflow, m.ofFlow_received]
  have hsum : (delivered.map (fun flow => some (json_payload flow))).map weight
      = delivered.map m.ofNode := by
    rw [List.map_map]
    exact List.map_congr_left (fun flow hflow => hweight flow (hnodes flow hflow))
  unfold total
  rw [List.map_map]
  show Int64.ofInt ((App.readable libs log).map (fun read => m.ofFlow read.2.1)).sum = _
  rw [hread, (hlog.map weight).sum_eq, hsum]

end Cuts

/-! ## §3. The sniffer. -/

/-- **Every run of the sniffer produces the nodes of its windows**, in order; the current window
is in the active table. -/
theorem run_nodes {net : LocalNet} {schedule : List (Action PktStatsT)} {s : SnifferState FlowT}
    (h : run (SnifferState.step (flow_process_packet net)) init schedule = some s) :
    s.produced ++ s.held = nodes net (flush_cuts schedule).closed
      ∧ s.active = flow_table net (flush_cuts schedule).current :=
  run_flow_tables net h

/-- What has left the active table and what is in it have the totals of the packets recorded. -/
theorem sum_run (m : Measure) {net : LocalNet} {schedule : List (Action PktStatsT)}
    {s : SnifferState FlowT}
    (h : run (SnifferState.step (flow_process_packet net)) init schedule = some s)
    (hfits : ∀ window ∈ (flush_cuts schedule).windows, NoOverflow net window) :
    ((s.produced ++ s.held ++ s.active).map m.ofNode).sum
      = ((recorded schedule).map (m.ofPacket net)).sum := by
  obtain ⟨hdetached, hactive⟩ := run_nodes h
  have hall : nodes net (flush_cuts schedule).windows = s.produced ++ s.held ++ s.active := by
    unfold nodes Cut.windows at *
    rw [List.flatMap_append, List.flatMap_singleton, hdetached, hactive]
  rw [← hall, sum_nodes m hfits, flush_cuts, Cut.flatten_windows, added_bufferOps]

/-! ## §4. All stages together. -/

/-- **Every captured packet counts once**: in a published aggregate, in a window still open, in a
message that came too late, in a flow that was lost, or in the sniffer.  If the messages come in
the order of their timestamps, none comes too late. -/
theorem captured_accounted (libs : App.Libraries) (net : LocalNet)
    {schedule : List (Action PktStatsT)} {s : SnifferState FlowT}
    (hrun : run (SnifferState.step (flow_process_packet net)) init schedule = some s)
    (hproto : ∀ p ∈ recorded schedule,
      p.key.protocol = IPPROTO_TCP ∨ p.key.protocol = IPPROTO_UDP)
    (hfits : ∀ window ∈ (flush_cuts schedule).windows, NoOverflow net window)
    {delivered lost : List FlowT} (hsent : (delivered ++ lost).Perm s.produced)
    {log : List App.RawMessage}
    (hlog : ((log.filter (fun message => (App.parse libs message).isSome)).map (·.value)).Perm
      (delivered.map (fun flow => some (json_payload flow)))) :
    ∃ (output : List (String × String)) (aggregates : List AggregatedFlow),
      App.topology libs log = some output
      ∧ output.map (fun record => fromJsonString libs.aggregateMapper record.2)
          = aggregates.map some
      ∧ (∀ m : Measure, (aggregates.map m.ofAggregate).sum
          + total m.ofFlow ((App.pendingFlows libs log).map Prod.fst)
          + total m.ofFlow ((App.lateFlows libs log).map Prod.fst)
          + Int64.ofInt ((lost ++ s.held ++ s.active).map m.ofNode).sum
          = packet_total (m.ofPacket net) (recorded schedule))
      ∧ (log.Pairwise (fun message message' => message.timestamp ≤ message'.timestamp) →
          App.lateFlows libs log = []) := by
  obtain ⟨output, houtput, hrecords⟩ := App.topology_publishes libs log
  obtain ⟨hdetached, _⟩ := run_nodes hrun
  have hclosed : ∀ window ∈ (flush_cuts schedule).closed,
      window ∈ (flush_cuts schedule).windows := fun window h => List.mem_append_left _ h
  have hprotocols : ∀ window ∈ (flush_cuts schedule).closed, ∀ p ∈ window,
      p.key.protocol = IPPROTO_TCP ∨ p.key.protocol = IPPROTO_UDP := by
    intro window hwindow p hp
    have hflatten : p ∈ (flush_cuts schedule).windows.flatten :=
      List.mem_flatten.mpr ⟨window, hclosed window hwindow, hp⟩
    rw [flush_cuts, Cut.flatten_windows, added_bufferOps] at hflatten
    exact hproto p hflatten
  have hnodes : ∀ flow ∈ delivered, flow ∈ nodes net (flush_cuts schedule).closed := by
    intro flow hflow
    rw [← hdetached]
    exact List.mem_append_left _ (hsent.subset (List.mem_append_left _ hflow))
  refine ⟨output, (App.windows libs log).map (fun start =>
    clipped (App.windowAggregate (App.flowsIn libs log start))), houtput, ?_, ?_, ?_⟩
  · rw [List.map_map]
    exact aggregates_read hrecords
  · intro m
    have hpublished : (App.windows libs log).map (m.ofAggregate ∘ fun start =>
          clipped (App.windowAggregate (App.flowsIn libs log start)))
        = (App.windows libs log).map (fun start =>
            total m.ofFlow ((App.flowsIn libs log start).map Prod.fst)) := by
      refine List.map_congr_left ?_
      intro start _
      exact m.ofAggregate_eq (App.isAggregate_windowAggregate _)
    have hservice := service_accounts libs m log
    rw [← App.readable_filter, total_delivered hprotocols
      (fun window h => hfits window (hclosed window h)) m hnodes hlog] at hservice
    -- the sniffer: delivered, lost, held and active are what was captured
    have hsniffer : (delivered.map m.ofNode).sum + ((lost ++ s.held ++ s.active).map m.ofNode).sum
        = ((recorded schedule).map (m.ofPacket net)).sum := by
      have hall : (delivered ++ (lost ++ s.held ++ s.active)).Perm
          (s.produced ++ s.held ++ s.active) := by
        simpa only [List.append_assoc] using
          (hsent.append_right s.held).append_right s.active
      rw [← sum_run m hrun hfits, ← (hall.map m.ofNode).sum_eq]
      generalize lost ++ s.held ++ s.active = rest
      rw [List.map_append, List.sum_append]
    rw [List.map_map, hpublished, hservice, ← Int64.ofInt_add, hsniffer]
    rfl
  · intro hordered
    refine late_of_ordered (by decide) ?_
    unfold App.readable
    rw [List.pairwise_filterMap]
    refine hordered.imp ?_
    intro message message' hle read hread read' hread'
    obtain ⟨flow, _, rfl⟩ := Option.map_eq_some_iff.mp hread
    obtain ⟨flow', _, rfl⟩ := Option.map_eq_some_iff.mp hread'
    exact hle

theorem handshake_noOverflow (net : LocalNet) : NoOverflow net handshake := by
  have hlight : ∀ k, (packets_of k handshake).length ≤ 3 := fun k => List.length_filter_le _ _
  have hpay : ∀ p ∈ handshake, 0 ≤ payload p ∧ payload p ≤ 517 := by decide
  refine noOverflow_of_light (fun k => ?_) (fun p hp => (hpay p hp).1) (fun k => ?_)
  · have := hlight k
    omega
  · have hsum : ((packets_of k handshake).map payload).sum
        ≤ ((packets_of k handshake).map payload).length • 517 := by
      apply List.sum_le_card_nsmul
      intro n hn
      obtain ⟨p, hp, rfl⟩ := List.mem_map.mp hn
      exact (hpay p (List.mem_filter.mp hp).1).2
    have := hlight k
    rw [List.length_map, nsmul_eq_mul] at hsum
    omega

/-- A null value, and the message of the flow that `half_exported` has sent. -/
def half_exported_log : List App.RawMessage :=
  ⟨0, none, 0, noon, noon⟩ :: half_exported_state.produced.map
    (fun flow => ⟨12000, some (json_payload flow), 0, noon, noon⟩)

theorem captured_accounted_half_exported :
    ∃ (output : List (String × String)) (aggregates : List AggregatedFlow),
      App.topology .reference half_exported_log = some output
      ∧ output.map (fun record => fromJsonString .reference record.2) = aggregates.map some
      ∧ (∀ m : Measure, (aggregates.map m.ofAggregate).sum
          + total m.ofFlow ((App.pendingFlows .reference half_exported_log).map Prod.fst)
          + total m.ofFlow ((App.lateFlows .reference half_exported_log).map Prod.fst)
          + Int64.ofInt (([] ++ half_exported_state.held ++ half_exported_state.active).map
              m.ofNode).sum
          = packet_total (m.ofPacket ⟨0, 0⟩) (recorded half_exported))
      ∧ (half_exported_log.Pairwise
            (fun message message' => message.timestamp ≤ message'.timestamp) →
          App.lateFlows .reference half_exported_log = []) := by
  have hrun : run (SnifferState.step (flow_process_packet ⟨0, 0⟩)) init half_exported
      = some half_exported_state := rfl
  have hcuts : (flush_cuts half_exported).windows = [handshake, handshake] := rfl
  have hfits : ∀ window ∈ (flush_cuts half_exported).windows, NoOverflow ⟨0, 0⟩ window := by
    intro window hwindow
    rw [hcuts] at hwindow
    simp only [List.mem_cons, List.not_mem_nil, or_false, or_self] at hwindow
    exact hwindow ▸ handshake_noOverflow ⟨0, 0⟩
  have hclosed : (flush_cuts half_exported).closed = [handshake] := rfl
  have hproto : ∀ window ∈ (flush_cuts half_exported).closed, ∀ p ∈ window,
      p.key.protocol = IPPROTO_TCP ∨ p.key.protocol = IPPROTO_UDP := by
    rw [hclosed]
    decide
  have hsent : (half_exported_state.produced ++ []).Perm half_exported_state.produced :=
    List.Perm.of_eq (List.append_nil _)
  refine captured_accounted .reference ⟨0, 0⟩ hrun (by decide) hfits hsent ?_
  unfold half_exported_log
  rw [List.filter_cons_of_neg (by decide), List.filter_eq_self.mpr, List.map_map]
  · exact List.Perm.refl _
  · intro message hmem
    obtain ⟨flow, hflow, rfl⟩ := List.mem_map.mp hmem
    have hnode : flow ∈ nodes ⟨0, 0⟩ (flush_cuts half_exported).closed := by
      rw [← (run_nodes hrun).1]
      exact List.mem_append_left _ hflow
    rw [parse_sent hproto (fun window h => hfits window (List.mem_append_left _ h)) hnode rfl]
    rfl

end KafKatch.Pipeline
