/-
  KafKatch.Sniffer.FlowTable — the flow table of a window is the group-by of its packets.

  `flow_process_packet` is the in-place update of a keyed table (`flow_process_packet_eq`), so
  the table of a window has one node per 5-tuple, and each node is the fold of
  `flow_update_stats` over that 5-tuple's packets.  `IsSummary` says what that fold holds,
  field by field; it is established by the first packet (`isSummary_first`) and preserved by
  each further one (`isSummary_next`).
-/
import KafKatch.Lib.GroupBy
import KafKatch.Sniffer.KafkaClient
import Mathlib.Order.Bounds.Basic

namespace KafKatch.Sniffer

open KafKatch.Lib

/-! ## §1. The table as a keyed table. -/

/-- `flow_process_packet`'s table: packets folded into nodes by their 5-tuple. -/
def flowKeyed (net : LocalNet) : Keyed PktStatsT FlowT FlowKeyT where
  key := PktStatsT.key
  keyOf := FlowT.key
  fresh k := { flow_create k with direction := infer_direction net k }
  update := flow_update_stats
  keyOf_fresh _ := rfl
  keyOf_update := flow_update_stats_key

theorem flow_process_packet_eq (net : LocalNet) (table : List FlowT) (stats : PktStatsT) :
    flow_process_packet net table stats = (flowKeyed net).upsert table stats := by
  have hfind : (flowKeyed net).find table ((flowKeyed net).key stats)
      = HASH_FIND table stats.key := rfl
  unfold flow_process_packet Keyed.upsert
  rw [hfind]
  -- on a miss the source updates the node it has just appended
  cases HASH_FIND table stats.key with
  | some i => rfl
  | none => simp [HASH_ADD, List.modify_eq_set_getElem?, flowKeyed]

theorem flow_table_eq (net : LocalNet) (window : List PktStatsT) :
    flow_table net window = (flowKeyed net).groupBy window := by
  unfold flow_table Keyed.groupBy
  congr
  funext table stats
  exact flow_process_packet_eq net table stats

/-- The packets of a window with key `k`, in order. -/
def packets_of (k : FlowKeyT) (window : List PktStatsT) : List PktStatsT :=
  window.filter (fun p => decide (p.key = k))

theorem packets_of_key {k : FlowKeyT} {window : List PktStatsT} :
    ∀ p ∈ packets_of k window, p.key = k :=
  fun _ hp => of_decide_eq_true (List.mem_filter.mp hp).2

/-! ## §2. What a flow says about its packets. -/

/-- The payload size as an integer. -/
def payload (p : PktStatsT) : Int := p.payload_size.toInt

/-- A timestamp in microseconds. -/
def usec (t : Timeval) : Int := t.tv_sec.toInt * 1000000 + t.tv_usec.toInt

/-- The packet carries the flag. -/
def carries (mask : UInt8) (p : PktStatsT) : Bool := decide (p.tcp_flags &&& mask ≠ 0)

/-- `flow` counts and times the packets `ps` of one 5-tuple. -/
structure IsTally (net : LocalNet) (flow : FlowT) (ps : List PktStatsT) : Prop where
  keys : ∀ p ∈ ps, p.key = flow.key
  direction : flow.direction = infer_direction net flow.key
  packet_count : flow.packet_count.toNat = ps.length
  byte_count : (flow.byte_count.toNat : Int) = (ps.map payload).sum % 2 ^ 32
  tcp_syn_count : flow.tcp_syn_count.toNat
    = if flow.key.protocol = IPPROTO_TCP then ps.countP (carries TH_SYN) else 0
  tcp_fin_count : flow.tcp_fin_count.toNat
    = if flow.key.protocol = IPPROTO_TCP then ps.countP (carries TH_FIN) else 0
  tcp_rst_count : flow.tcp_rst_count.toNat
    = if flow.key.protocol = IPPROTO_TCP then ps.countP (carries TH_RST) else 0
  tcp_ack_count : flow.tcp_ack_count.toNat
    = if flow.key.protocol = IPPROTO_TCP then ps.countP (carries TH_ACK) else 0
  start_time : ps.head?.map PktStatsT.timestamp = some flow.start_time
  last_seen : ps.getLast?.map PktStatsT.timestamp = some flow.last_seen
  total_iat_usec : flow.total_iat_usec = ((usec flow.last_seen - usec flow.start_time : Int) : ℚ)
  mean_iat : mean_iat flow
    = if 1 < ps.length then
        ((usec flow.last_seen - usec flow.start_time : Int) : ℚ) / ((ps.length : ℚ) - 1)
      else 0

/-- `flow` is the exact summary of the packets `ps` of one 5-tuple. -/
structure IsSummary (net : LocalNet) (flow : FlowT) (ps : List PktStatsT) : Prop
    extends IsTally net flow ps where
  min_packet_size : IsLeast {n : Int | ∃ p ∈ ps, payload p = n} flow.min_packet_size.toNat
  max_packet_size : IsGreatest {n : Int | ∃ p ∈ ps, payload p = n} flow.max_packet_size.toNat

/-! ## §3. Machine arithmetic of one update. -/

/-- The incremental inter-arrival times telescope. -/
theorem delta_usec_eq (t last : Timeval) :
    delta_usec t last = ((usec t - usec last : Int) : ℚ) := by
  simp only [delta_usec, usec]
  push_cast
  ring

theorem byte_count_step (bytes : UInt32) (n s : Int) (h : (bytes.toNat : Int) = s % 2 ^ 32) :
    ((bytes + UInt32.ofInt n).toNat : Int) = (s + n) % 2 ^ 32 := by
  have hn : ((UInt32.ofInt n).toNat : Int) = n % 2 ^ 32 := by
    simp only [UInt32.ofInt, UInt32.toNat_ofNat']
    omega
  rw [UInt32.toNat_add]
  push_cast
  rw [h, hn]
  omega

theorem toNat_ofInt_payload {n : Int} (h0 : 0 ≤ n) (h1 : n ≤ 65535) :
    ((UInt16.ofInt n).toNat : Int) = n := by
  simp only [UInt16.ofInt, UInt16.toNat_ofNat']
  omega

/-- One more packet of the same key and a counter that has not wrapped. -/
theorem flag_count_step (mask : UInt8) (count : UInt32) (protocol : UInt8)
    (ps : List PktStatsT) (p : PktStatsT) (hp : p.key.protocol = protocol)
    (hlen : ps.length + 1 < 2 ^ 32)
    (h : count.toNat = if protocol = IPPROTO_TCP then ps.countP (carries mask) else 0) :
    (flag_count p mask count).toNat
      = if protocol = IPPROTO_TCP then (ps ++ [p]).countP (carries mask) else 0 := by
  unfold flag_count count_flag
  rw [hp]
  by_cases ht : protocol = IPPROTO_TCP
  · have hle : ps.countP (carries mask) ≤ ps.length := List.countP_le_length
    rw [if_pos ht] at h ⊢
    rw [if_pos ht]
    by_cases hf : p.tcp_flags &&& mask ≠ 0
    · have hc : carries mask p = true := by simpa [carries] using hf
      rw [if_pos hf, UInt32.toNat_add, h]
      simp only [List.countP_append, List.countP_singleton, hc, if_true, UInt32.reduceToNat]
      omega
    · have hc : carries mask p = false := by simpa [carries] using hf
      rw [if_neg hf, h]
      simp [List.countP_append, hc]
  · rw [if_neg ht] at h ⊢
    rw [if_neg ht, h]

/-- The mean of an exact flow of `n` packets. -/
theorem mean_iat_eq (flow : FlowT) (n : Nat) (hn : flow.packet_count.toNat = n) :
    mean_iat flow = if 1 < n then flow.total_iat_usec / ((n : ℚ) - 1) else 0 := by
  unfold mean_iat
  have hlt : flow.packet_count > 1 ↔ 1 < n := by
    rw [← hn]
    exact UInt32.lt_iff_toNat_lt
  by_cases h : 1 < n
  · rw [if_pos h, if_pos (hlt.mpr h)]
    have hsub : (flow.packet_count - 1).toNat = n - 1 := by
      rw [UInt32.toNat_sub_of_le _ _ (UInt32.le_of_lt (hlt.mpr h)), hn]
      rfl
    rw [hsub, Nat.cast_sub (by omega)]
    norm_num
  · rw [if_neg h, if_neg (fun hgt => h (hlt.mp hgt))]

/-! ## §4. The first packet and the next one. -/

section Step

variable (net : LocalNet)

/-- The first packet of a key makes a tally of itself. -/
theorem isTally_first (p : PktStatsT) :
    IsTally net (flow_update_stats ((flowKeyed net).fresh p.key) p) [p] := by
  have hcount : ((flowKeyed net).fresh p.key).packet_count = 0 := rfl
  have hflag : ∀ mask, (flag_count p mask 0).toNat
      = if p.key.protocol = IPPROTO_TCP then [p].countP (carries mask) else 0 := fun mask =>
    flag_count_step mask 0 p.key.protocol [] p rfl (by simp) (by simp)
  refine
    { keys := by simp [flowKeyed, flow_create]
      direction := by simp [flowKeyed, flow_create]
      packet_count := by simp [hcount]
      byte_count := ?_
      tcp_syn_count := by rw [flow_update_stats_eq]; exact hflag TH_SYN
      tcp_fin_count := by rw [flow_update_stats_eq]; exact hflag TH_FIN
      tcp_rst_count := by rw [flow_update_stats_eq]; exact hflag TH_RST
      tcp_ack_count := by rw [flow_update_stats_eq]; exact hflag TH_ACK
      start_time := by simp [hcount]
      last_seen := by simp
      total_iat_usec := by simp [hcount]
      mean_iat := ?_ }
  · rw [flow_update_stats_byte_count]
    have := byte_count_step 0 (payload p) 0 (by simp)
    simpa [flowKeyed, flow_create, payload] using this
  · rw [mean_iat_eq _ 1 (by simp [hcount])]
    simp

/-- A flow that tallies some packet is past its first-packet branch. -/
theorem IsTally.packet_count_ne_zero {flow : FlowT} {ps : List PktStatsT}
    (h : IsTally net flow ps) (hne : ps ≠ []) : flow.packet_count ≠ 0 := by
  have hpos : 0 < ps.length := List.length_pos_iff.mpr hne
  intro hz
  have := h.packet_count
  rw [hz] at this
  simp at this
  omega

/-- A flow has the key of the packets it tallies. -/
theorem IsTally.key_eq {flow : FlowT} {ps : List PktStatsT} {k : FlowKeyT}
    (h : IsTally net flow ps) (hne : ps ≠ []) (hkeys : ∀ p ∈ ps, p.key = k) : flow.key = k := by
  obtain ⟨p, hp⟩ := List.exists_mem_of_ne_nil ps hne
  rw [← h.keys p hp, hkeys p hp]

/-- A further packet of the key extends the tally. -/
theorem isTally_next {flow : FlowT} {ps : List PktStatsT} (h : IsTally net flow ps)
    (hne : ps ≠ []) (p : PktStatsT) (hkey : p.key = flow.key)
    (hlen : ps.length + 1 < 2 ^ 32) :
    IsTally net (flow_update_stats flow p) (ps ++ [p]) := by
  have hcount := h.packet_count_ne_zero net hne
  have hcount' : (flow_update_stats flow p).packet_count.toNat = (ps ++ [p]).length := by
    rw [flow_update_stats_packet_count, UInt32.toNat_add, h.packet_count]
    simp only [UInt32.reduceToNat, List.length_append, List.length_singleton]
    omega
  have hproto : p.key.protocol = flow.key.protocol := by rw [hkey]
  -- the sum of the gaps telescopes to the span from the first to the last packet
  have htotal : (flow_update_stats flow p).total_iat_usec
      = ((usec p.timestamp - usec flow.start_time : Int) : ℚ) := by
    rw [flow_update_stats_total_iat_usec, if_neg hcount, h.total_iat_usec, delta_usec_eq]
    push_cast
    ring
  have hstart : (flow_update_stats flow p).start_time = flow.start_time := by
    rw [flow_update_stats_start_time, if_neg hcount]
  refine
    { keys := ?_
      direction := by simp [h.direction]
      packet_count := hcount'
      byte_count := ?_
      tcp_syn_count := by
        simpa [flow_update_stats_eq] using
          flag_count_step TH_SYN _ _ ps p hproto hlen h.tcp_syn_count
      tcp_fin_count := by
        simpa [flow_update_stats_eq] using
          flag_count_step TH_FIN _ _ ps p hproto hlen h.tcp_fin_count
      tcp_rst_count := by
        simpa [flow_update_stats_eq] using
          flag_count_step TH_RST _ _ ps p hproto hlen h.tcp_rst_count
      tcp_ack_count := by
        simpa [flow_update_stats_eq] using
          flag_count_step TH_ACK _ _ ps p hproto hlen h.tcp_ack_count
      start_time := ?_
      last_seen := by simp
      total_iat_usec := by rw [htotal, hstart, flow_update_stats_last_seen]
      mean_iat := ?_ }
  · intro q hq
    rw [flow_update_stats_key]
    rcases List.mem_append.mp hq with hq | hq
    · exact h.keys q hq
    · rw [List.mem_singleton.mp hq, hkey]
  · rw [flow_update_stats_byte_count, List.map_append, List.sum_append]
    simpa [payload] using byte_count_step flow.byte_count (payload p) _ h.byte_count
  · rw [hstart, ← h.start_time, List.head?_append_of_ne_nil _ hne]
  · rw [mean_iat_eq _ _ hcount', htotal, hstart, flow_update_stats_last_seen]

/-- The first packet of a key makes a summary of itself. -/
theorem isSummary_first (p : PktStatsT) (h0 : 0 ≤ payload p) (h1 : payload p ≤ 65535) :
    IsSummary net (flow_update_stats ((flowKeyed net).fresh p.key) p) [p] := by
  have hcount : ((flowKeyed net).fresh p.key).packet_count = 0 := rfl
  have hsize := toNat_ofInt_payload h0 h1
  refine { isTally_first net p with min_packet_size := ?_, max_packet_size := ?_ }
  · have hmin : (flow_update_stats ((flowKeyed net).fresh p.key) p).min_packet_size
        = UInt16.ofInt (payload p) := by
      rw [flow_update_stats_eq]
      simp [hcount, first_packet, payload]
    rw [hmin, hsize]
    simp [IsLeast, lowerBounds]
  · have hmax : (flow_update_stats ((flowKeyed net).fresh p.key) p).max_packet_size
        = UInt16.ofInt (payload p) := by
      rw [flow_update_stats_eq]
      simp [hcount, first_packet, payload]
    rw [hmax, hsize]
    simp [IsGreatest, upperBounds]

/-- The payload sizes seen are those of before and the new one. -/
theorem payloads_concat (ps : List PktStatsT) (p : PktStatsT) :
    {n : Int | ∃ q ∈ ps ++ [p], payload q = n}
      = insert (payload p) {n : Int | ∃ q ∈ ps, payload q = n} := by
  ext n
  simp [or_and_right, exists_or, or_comm, eq_comm]

section SizeStep

variable {flow : FlowT} {p : PktStatsT} (hcount : flow.packet_count ≠ 0) (h0 : 0 ≤ payload p)
  (h1 : payload p ≤ 65535)

include hcount h0 h1

/-- The comparison is made in `int`, so it compares the sizes themselves. -/
theorem min_packet_size_next :
    ((flow_update_stats flow p).min_packet_size.toNat : Int)
      = min (payload p) flow.min_packet_size.toNat := by
  have heq : (flow_update_stats flow p).min_packet_size
      = if payload p < flow.min_packet_size.toNat then UInt16.ofInt (payload p)
        else flow.min_packet_size := by
    rw [flow_update_stats_eq]
    exact if_neg hcount
  have hsize := toNat_ofInt_payload h0 h1
  rw [heq]
  by_cases hlt : payload p < flow.min_packet_size.toNat
  · rw [if_pos hlt, hsize]
    omega
  · rw [if_neg hlt]
    omega

theorem max_packet_size_next :
    ((flow_update_stats flow p).max_packet_size.toNat : Int)
      = max (payload p) flow.max_packet_size.toNat := by
  have heq : (flow_update_stats flow p).max_packet_size
      = if (flow.max_packet_size.toNat : Int) < payload p then UInt16.ofInt (payload p)
        else flow.max_packet_size := by
    rw [flow_update_stats_eq]
    exact if_neg hcount
  have hsize := toNat_ofInt_payload h0 h1
  rw [heq]
  by_cases hlt : (flow.max_packet_size.toNat : Int) < payload p
  · rw [if_pos hlt, hsize]
    omega
  · rw [if_neg hlt]
    omega

end SizeStep

/-- A further packet of the key extends the summary. -/
theorem isSummary_next {flow : FlowT} {ps : List PktStatsT} (h : IsSummary net flow ps)
    (hne : ps ≠ []) (p : PktStatsT) (hkey : p.key = flow.key) (hlen : ps.length + 1 < 2 ^ 32)
    (h0 : 0 ≤ payload p) (h1 : payload p ≤ 65535) :
    IsSummary net (flow_update_stats flow p) (ps ++ [p]) := by
  have hcount := h.packet_count_ne_zero net hne
  refine { isTally_next net h.toIsTally hne p hkey hlen with
    min_packet_size := ?_, max_packet_size := ?_ }
  · rw [payloads_concat, min_packet_size_next hcount h0 h1]
    exact h.min_packet_size.insert (payload p)
  · rw [payloads_concat, max_packet_size_next hcount h0 h1]
    exact h.max_packet_size.insert (payload p)

/-- The fold of the packets of one key, as many as a 32-bit counter can hold. -/
theorem isTally_foldl (k : FlowKeyT) (ps : List PktStatsT) (hne : ps ≠ [])
    (hkeys : ∀ p ∈ ps, p.key = k) (hlen : ps.length < 2 ^ 32) :
    IsTally net (ps.foldl flow_update_stats ((flowKeyed net).fresh k)) ps := by
  refine (flowKeyed net).foldl_update_induction hne ?_ ?_
  · intro p hp
    rw [← hkeys p hp]
    exact isTally_first net p
  · intro flow seen p hseen hpre ih
    have hle := hpre.length_le
    rw [List.length_append, List.length_singleton] at hle
    have hkey : flow.key = k :=
      ih.key_eq net hseen (fun q hq => hkeys q (hpre.subset (List.mem_append_left _ hq)))
    have hp : p.key = k := hkeys p (hpre.subset (by simp))
    exact isTally_next net ih hseen p (hp.trans hkey.symm) (by omega)

/-- The same with payloads of a size that 16 bits can hold. -/
theorem isSummary_foldl (k : FlowKeyT) (ps : List PktStatsT) (hne : ps ≠ [])
    (hkeys : ∀ p ∈ ps, p.key = k) (hlen : ps.length < 2 ^ 32)
    (hpay : ∀ p ∈ ps, 0 ≤ payload p ∧ payload p ≤ 65535) :
    IsSummary net (ps.foldl flow_update_stats ((flowKeyed net).fresh k)) ps := by
  refine (flowKeyed net).foldl_update_induction hne ?_ ?_
  · intro p hp
    obtain ⟨h0, h1⟩ := hpay p hp
    rw [← hkeys p hp]
    exact isSummary_first net p h0 h1
  · intro flow seen p hseen hpre ih
    have hle := hpre.length_le
    rw [List.length_append, List.length_singleton] at hle
    have hkey : flow.key = k :=
      ih.key_eq net hseen (fun q hq => hkeys q (hpre.subset (List.mem_append_left _ hq)))
    have hp : p.key = k := hkeys p (hpre.subset (by simp))
    obtain ⟨h0, h1⟩ := hpay p (hpre.subset (by simp))
    exact isSummary_next net ih hseen p (hp.trans hkey.symm) (by omega) h0 h1

end Step

/-! ## §5. The table of a window. -/

section Table

variable (net : LocalNet) {window : List PktStatsT} {flow : FlowT}

/-- A node of the table has packets. -/
theorem packets_of_ne_nil (hflow : flow ∈ flow_table net window) :
    packets_of flow.key window ≠ [] := by
  rw [flow_table_eq] at hflow
  obtain ⟨p, hp, hkey⟩ := List.mem_map.mp
    (((flowKeyed net).mem_keys_groupBy window flow.key).mp (List.mem_map_of_mem hflow))
  exact List.ne_nil_of_mem (List.mem_filter.mpr ⟨hp, decide_eq_true hkey⟩)

/-- Each node is the summary of its own packets. -/
theorem isSummary_of_mem (hflow : flow ∈ flow_table net window)
    (hpay : ∀ p ∈ window, 0 ≤ payload p ∧ payload p ≤ 65535)
    (hcount : (packets_of flow.key window).length < 2 ^ 32) :
    IsSummary net flow (packets_of flow.key window) := by
  have hsum := isSummary_foldl net flow.key (packets_of flow.key window)
    (packets_of_ne_nil net hflow) packets_of_key hcount
    (fun q hq => hpay q (List.mem_filter.mp hq).1)
  rw [flow_table_eq] at hflow
  have htally : flow = (packets_of flow.key window).foldl flow_update_stats
      ((flowKeyed net).fresh flow.key) := (flowKeyed net).groupBy_entry hflow
  rw [← htally] at hsum
  exact hsum

end Table

/-- **The flow table is exactly the group-by of the window's packets**: one node per 5-tuple
that occurs, and each node the exact summary of its 5-tuple's packets. -/
theorem flow_table_is_group_by (net : LocalNet) (window : List PktStatsT)
    (hpay : ∀ p ∈ window, 0 ≤ payload p ∧ payload p ≤ 65535)
    (hcount : ∀ k, (packets_of k window).length < 2 ^ 32) :
    ((flow_table net window).map FlowT.key).Nodup
      ∧ (∀ k, k ∈ (flow_table net window).map FlowT.key ↔ k ∈ window.map PktStatsT.key)
      ∧ ∀ flow ∈ flow_table net window, IsSummary net flow (packets_of flow.key window) := by
  refine ⟨?_, ?_, fun flow hflow => isSummary_of_mem net hflow hpay (hcount flow.key)⟩
  · rw [flow_table_eq]
    exact (flowKeyed net).nodup_keys_groupBy window
  · rw [flow_table_eq]
    exact (flowKeyed net).mem_keys_groupBy window

/-- A TCP connection seen in both directions, the second packet of its first flow captured
with a timestamp before the first. -/
def handshake : List PktStatsT :=
  let out : FlowKeyT := ⟨0x0100000a, 0x08080808, 0x3930, 0xbb01, IPPROTO_TCP⟩
  let back : FlowKeyT := ⟨0x08080808, 0x0100000a, 0xbb01, 0x3930, IPPROTO_TCP⟩
  [⟨out, 0, ⟨10, 500⟩, TH_SYN⟩, ⟨back, 0, ⟨10, 900⟩, TH_SYN ||| TH_ACK⟩,
    ⟨out, 517, ⟨10, 300⟩, TH_ACK⟩]

theorem flow_table_is_group_by_handshake :
    ((flow_table ⟨0x0000000a, 0x000000ff⟩ handshake).map FlowT.key).Nodup
      ∧ (∀ k, k ∈ (flow_table ⟨0x0000000a, 0x000000ff⟩ handshake).map FlowT.key
          ↔ k ∈ handshake.map PktStatsT.key)
      ∧ ∀ flow ∈ flow_table ⟨0x0000000a, 0x000000ff⟩ handshake,
          IsSummary ⟨0x0000000a, 0x000000ff⟩ flow (packets_of flow.key handshake) :=
  flow_table_is_group_by ⟨0x0000000a, 0x000000ff⟩ handshake (by decide)
    (fun k => Nat.lt_of_le_of_lt (List.length_filter_le _ _) (by decide))

end KafKatch.Sniffer
