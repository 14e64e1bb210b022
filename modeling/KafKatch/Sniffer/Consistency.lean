/-
  KafKatch.Sniffer.Consistency
  ────────────────────────────
  **EVERY MICROFLOW IS SELF-CONSISTENT, WHATEVER BYTES ARRIVE.**

  A frame is any buffer that contains a link-layer header; nothing is asked of the headers in
  it.  The payload size recorded from it is a difference of the frame's own length fields,
  clamped at zero, and stays within 16 bits (`payload_packetRecorded`).  A run of `pkt_handler` over
  such frames never fails and builds the flow table of the packets it recorded
  (`pkt_loop_eq`), so each flow of the table is the summary of those packets, and a summary of
  some packets is self-consistent (`selfConsistent_of_mem`).
-/
import KafKatch.Sniffer.Guards

namespace KafKatch.Sniffer

/-! ## §1. Frames as captured. -/

/-- A captured frame: the buffer holds as many bytes as announced, the link-layer header among
them. -/
structure Captured where
  h : PcapPkthdr
  bytes : List UInt8
  caplen_le : h.caplen.toNat ≤ bytes.length
  ether_captured : EtherCaptured bytes

namespace Captured

variable (f : Captured)

/-- The packet recorded from the frame, if it passes the checks. -/
def packet : Option PktStatsT :=
  match pkt_parse f.h f.bytes with
  | .ok r => r
  | .error _ => none

/-- No read leaves the buffer. -/
theorem pkt_parse_eq : pkt_parse f.h f.bytes = .ok f.packet := by
  unfold packet
  by_cases ha : Admitted f.bytes f.h
  · rw [pkt_parse_of_admitted f.caplen_le ha]
  · rw [pkt_parse_of_not_admitted f.caplen_le f.ether_captured ha]

variable {f}

theorem packet_eq_some {stats : PktStatsT} (hs : f.packet = some stats) :
    Admitted f.bytes f.h ∧ stats = packetRecorded f.bytes f.h := by
  apply (pkt_parse_some_iff f.caplen_le stats).mp
  rw [pkt_parse_eq, hs]

end Captured

/-- The packets recorded from a sequence of frames. -/
def packetsFrom (frames : List Captured) : List PktStatsT := frames.filterMap Captured.packet

/-- `pcap_loop` within one window: `pkt_handler` on frame after frame. -/
def pkt_loop (net : LocalNet) (table : List FlowT) (frames : List Captured) :
    Except OutOfBounds (List FlowT) :=
  frames.foldlM (fun table f => pkt_handler net table f.h f.bytes) table

/-- **A window of frames never fails and holds the packets recorded from them.** -/
theorem pkt_loop_eq (net : LocalNet) (frames : List Captured) (table : List FlowT) :
    pkt_loop net table frames
      = .ok ((packetsFrom frames).foldl (flow_process_packet net) table) := by
  induction frames generalizing table with
  | nil => rfl
  | cons f frames ih =>
      have hstep : pkt_handler net table f.h f.bytes
          = .ok (f.packet.elim table (flow_process_packet net table)) := by
        rw [pkt_handler_eq, f.pkt_parse_eq]
        rfl
      unfold pkt_loop at ih ⊢
      rw [List.foldlM_cons, hstep]
      show frames.foldlM (fun table f => pkt_handler net table f.h f.bytes) _ = _
      rw [ih]
      cases hp : f.packet with
      | none =>
          have hskip : packetsFrom (f :: frames) = packetsFrom frames := List.filterMap_cons_none hp
          rw [hskip]
          rfl
      | some stats =>
          have hrec : packetsFrom (f :: frames) = stats :: packetsFrom frames :=
            List.filterMap_cons_some hp
          rw [hrec]
          rfl

/-! ## §2. The payload size of any frame. -/

section Payload

variable {bytes : List UInt8} {h : PcapPkthdr}

/-- Subtracting two header lengths from a total of 16 bits stays well within an `int`. -/
theorem toInt_raw_payload (bytes : List UInt8) : (raw_payload bytes).toInt
    = (ip_len bytes).toNat - (ip_hl bytes * 4 : Nat) - (transport_hdrlen bytes : Nat) := by
  have htotal := (ip_len bytes).toNat_lt
  have hip : ip_hl bytes < 16 := Nat.mod_lt _ (by decide)
  have htransport : transport_hdrlen bytes ≤ 60 := by
    unfold transport_hdrlen th_off
    have := (byteAt bytes (transport_offset bytes + 12)).toNat_lt
    split <;> omega
  unfold raw_payload
  rw [Int32.toInt_ofInt_of_le] <;> omega

/-- **The clamped size lies in 0..65535**, for every combination of lengths. -/
theorem payload_packetRecorded :
    0 ≤ payload (packetRecorded bytes h) ∧ payload (packetRecorded bytes h) ≤ 65535 := by
  have htotal := (ip_len bytes).toNat_lt
  have hraw := toInt_raw_payload bytes
  show 0 ≤ (if raw_payload bytes < 0 then (0 : Int32) else raw_payload bytes).toInt
    ∧ (if raw_payload bytes < 0 then (0 : Int32) else raw_payload bytes).toInt ≤ 65535
  by_cases hneg : raw_payload bytes < 0
  · rw [if_pos hneg]
    decide
  · rw [if_neg hneg]
    rw [Int32.lt_iff_toInt_lt, Int32.toInt_zero] at hneg
    omega

/-- Only TCP and UDP pass the checks. -/
theorem protocol_packetRecorded (ha : Admitted bytes h) :
    (packetRecorded bytes h).key.protocol = IPPROTO_TCP
      ∨ (packetRecorded bytes h).key.protocol = IPPROTO_UDP := by
  rcases ha.transport with ⟨hp, -⟩ | ⟨hp, -⟩
  · exact .inl hp
  · exact .inr hp

end Payload

/-! ## §3. Summaries are self-consistent. -/

/-- What the fields of one flow owe each other. -/
structure SelfConsistent (flow : FlowT) : Prop where
  counted : 1 ≤ flow.packet_count.toNat
  min_le_max : flow.min_packet_size.toNat ≤ flow.max_packet_size.toNat
  syn_le : flow.tcp_syn_count.toNat ≤ flow.packet_count.toNat
  fin_le : flow.tcp_fin_count.toNat ≤ flow.packet_count.toNat
  rst_le : flow.tcp_rst_count.toNat ≤ flow.packet_count.toNat
  ack_le : flow.tcp_ack_count.toNat ≤ flow.packet_count.toNat
  protocol : flow.key.protocol = IPPROTO_TCP ∨ flow.key.protocol = IPPROTO_UDP
  udp : flow.key.protocol = IPPROTO_UDP → flow.tcp_syn_count = 0 ∧ flow.tcp_fin_count = 0
    ∧ flow.tcp_rst_count = 0 ∧ flow.tcp_ack_count = 0
  single : flow.packet_count = 1 →
    flow.byte_count.toNat = flow.min_packet_size.toNat
      ∧ flow.min_packet_size = flow.max_packet_size

namespace IsSummary

variable {net : LocalNet} {flow : FlowT} {ps : List PktStatsT}

/-- The protocol test is on the flow's own key, so each counter counts some of its packets or
none. -/
theorem flag_count_le {mask : UInt8} {count : UInt32}
    (hc : count.toNat = if flow.key.protocol = IPPROTO_TCP then ps.countP (carries mask) else 0) :
    count.toNat ≤ ps.length := by
  rw [hc]
  split
  · exact List.countP_le_length
  · exact Nat.zero_le _

theorem flag_count_udp {mask : UInt8} {count : UInt32}
    (hc : count.toNat = if flow.key.protocol = IPPROTO_TCP then ps.countP (carries mask) else 0)
    (hudp : flow.key.protocol = IPPROTO_UDP) : count = 0 := by
  have hne : ¬ flow.key.protocol = IPPROTO_TCP := by
    rw [hudp]
    decide
  rw [if_neg hne] at hc
  exact UInt32.toNat_inj.mp hc

/-- **The summary of some packets is self-consistent.** -/
theorem selfConsistent (hs : IsSummary net flow ps) (hne : ps ≠ [])
    (hpay : ∀ p ∈ ps, 0 ≤ payload p ∧ payload p ≤ 65535)
    (hproto : flow.key.protocol = IPPROTO_TCP ∨ flow.key.protocol = IPPROTO_UDP) :
    SelfConsistent flow where
  counted := by
    rw [hs.packet_count]
    exact List.length_pos_iff.mpr hne
  min_le_max := by
    have := hs.max_packet_size.2 hs.min_packet_size.1
    omega
  syn_le := hs.packet_count ▸ flag_count_le hs.tcp_syn_count
  fin_le := hs.packet_count ▸ flag_count_le hs.tcp_fin_count
  rst_le := hs.packet_count ▸ flag_count_le hs.tcp_rst_count
  ack_le := hs.packet_count ▸ flag_count_le hs.tcp_ack_count
  protocol := hproto
  udp hudp := ⟨flag_count_udp hs.tcp_syn_count hudp, flag_count_udp hs.tcp_fin_count hudp,
    flag_count_udp hs.tcp_rst_count hudp, flag_count_udp hs.tcp_ack_count hudp⟩
  single hone := by
    have hlen := hs.packet_count
    rw [hone] at hlen
    obtain ⟨p, rfl⟩ := List.length_eq_one_iff.mp hlen.symm
    have hbytes := hs.byte_count
    obtain ⟨h0, h1⟩ := hpay p (List.mem_singleton.mpr rfl)
    -- the one payload is both extremes, and the whole sum
    have hmin : (flow.min_packet_size.toNat : Int) = payload p := by
      simpa using hs.min_packet_size.1
    have hmax : (flow.max_packet_size.toNat : Int) = payload p := by
      simpa using hs.max_packet_size.1
    simp only [List.map_cons, List.map_nil, List.sum_cons, List.sum_nil, add_zero] at hbytes
    refine ⟨?_, UInt16.toNat_inj.mp (by omega)⟩
    omega

end IsSummary

/-! ## §4. Every table that a window of frames can build. -/

section Window

variable (net : LocalNet)

theorem payload_of_mem {frames : List Captured} {stats : PktStatsT} (hs : stats ∈ packetsFrom frames) :
    (0 ≤ payload stats ∧ payload stats ≤ 65535)
      ∧ (stats.key.protocol = IPPROTO_TCP ∨ stats.key.protocol = IPPROTO_UDP) := by
  obtain ⟨f, -, hf⟩ := List.mem_filterMap.mp hs
  obtain ⟨ha, rfl⟩ := Captured.packet_eq_some hf
  exact ⟨payload_packetRecorded, protocol_packetRecorded ha⟩

theorem selfConsistent_of_mem {frames : List Captured} {flow : FlowT}
    (hflow : flow ∈ flow_table net (packetsFrom frames))
    (hcount : (packets_of flow.key (packetsFrom frames)).length < 2 ^ 32) : SelfConsistent flow := by
  have hne := packets_of_ne_nil net hflow
  have hmem : ∀ p ∈ packets_of flow.key (packetsFrom frames), p ∈ packetsFrom frames :=
    fun p hp => (List.mem_filter.mp hp).1
  have hsum := isSummary_of_mem net hflow (fun p hp => (payload_of_mem hp).1) hcount
  -- a flow has the protocol of any of its packets
  obtain ⟨p, hp⟩ := List.exists_mem_of_ne_nil _ hne
  have hproto := (payload_of_mem (hmem p hp)).2
  rw [hsum.keys p hp] at hproto
  exact hsum.selfConsistent hne (fun q hq => (payload_of_mem (hmem q hq)).1) hproto

/-- **Exported microflows are self-consistent, whatever bytes arrive.**  The size of each packet
keeps its value in the 16-bit extremes and in the 32-bit sum; at every point of a window the
table is there and each of its flows is self-consistent, is exported as TCP or UDP, and has a
divisor other than zero. -/
theorem microflows_self_consistent (frames : List Captured)
    (hcount : ∀ k, (packets_of k (packetsFrom frames)).length < 2 ^ 32) :
    (∀ stats ∈ packetsFrom frames, 0 ≤ payload stats ∧ payload stats ≤ 65535
        ∧ ((UInt16.ofInt (payload stats)).toNat : Int) = payload stats
        ∧ ((UInt32.ofInt (payload stats)).toNat : Int) = payload stats)
      ∧ ∀ seen, seen <+: frames → ∃ table, pkt_loop net [] seen = .ok table
          ∧ ∀ flow ∈ table, SelfConsistent flow
              ∧ (proto_str flow.key.protocol = "TCP" ∨ proto_str flow.key.protocol = "UDP")
              ∧ (flow.packet_count > 1 → (flow.packet_count - 1).toNat ≠ 0) := by
  refine ⟨fun stats hs => ?_, fun seen hseen => ⟨_, pkt_loop_eq net seen [], ?_⟩⟩
  · obtain ⟨h0, h1⟩ := (payload_of_mem hs).1
    refine ⟨h0, h1, toNat_ofInt_payload h0 h1, ?_⟩
    simp only [UInt32.ofInt, UInt32.toNat_ofNat']
    omega
  · intro flow hflow
    have hlen : (packets_of flow.key (packetsFrom seen)).length < 2 ^ 32 := by
      have hsub : (packets_of flow.key (packetsFrom seen)).Sublist
          (packets_of flow.key (packetsFrom frames)) :=
        (hseen.sublist.filterMap _).filter _
      exact Nat.lt_of_le_of_lt hsub.length_le (hcount flow.key)
    have hself := selfConsistent_of_mem net hflow hlen
    refine ⟨hself, ?_, fun hgt => ?_⟩
    · rcases hself.protocol with hp | hp
      · left
        rw [hp]
        rfl
      · right
        rw [hp]
        rfl
    · have hle : 1 ≤ flow.packet_count := UInt32.le_of_lt hgt
      have hgt' : 1 < flow.packet_count.toNat := UInt32.lt_iff_toNat_lt.mp hgt
      rw [UInt32.toNat_sub_of_le _ _ hle]
      show flow.packet_count.toNat - 1 ≠ 0
      omega

/-- A total length of 40 under headers of 20 and 60 bytes: the size is below zero before the
clamp. -/
def overlong_header : Captured where
  h := ⟨⟨0, 0⟩, 54⟩
  bytes := bare_frame 0x45 0 6 0xf0
  caplen_le := by decide
  ether_captured := by decide

theorem microflows_self_consistent_overlong :
    (∀ stats ∈ packetsFrom [overlong_header, overlong_header],
        0 ≤ payload stats ∧ payload stats ≤ 65535
        ∧ ((UInt16.ofInt (payload stats)).toNat : Int) = payload stats
        ∧ ((UInt32.ofInt (payload stats)).toNat : Int) = payload stats)
      ∧ ∀ seen, seen <+: [overlong_header, overlong_header] →
          ∃ table, pkt_loop ⟨0, 0⟩ [] seen = .ok table
            ∧ ∀ flow ∈ table, SelfConsistent flow
              ∧ (proto_str flow.key.protocol = "TCP" ∨ proto_str flow.key.protocol = "UDP")
              ∧ (flow.packet_count > 1 → (flow.packet_count - 1).toNat ≠ 0) :=
  microflows_self_consistent ⟨0, 0⟩ [overlong_header, overlong_header] (fun k =>
    Nat.lt_of_le_of_lt ((List.length_filter_le _ _).trans (List.length_filterMap_le _ _))
      (by decide))

end Window

end KafKatch.Sniffer
