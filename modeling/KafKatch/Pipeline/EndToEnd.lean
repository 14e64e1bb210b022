/-
  KafKatch.Pipeline.EndToEnd
  ──────────────────────────
  **FROM PACKETS TO THE PUBLISHED AGGREGATE, WHEREVER THE FLUSH TICKS FALL.**

  The packets are cut into flush windows; each window becomes a flow table, each node of it a
  message, each message a `Flow`, and all flows are folded into one aggregate.  A flow that
  spans windows is sent once in each.  Every total of the aggregate is additive over the nodes
  of a table, and over the packets of a node, so it is the total over the packets
  (`end_to_end`); the cut has disappeared from the right-hand side.
-/
import KafKatch.Core.ConnectionKey
import KafKatch.Pipeline.Microflow
import KafKatch.Sniffer.FlowTable
import Mathlib.Algebra.BigOperators.Ring.List
import Mathlib.Algebra.Order.BigOperators.Group.List

namespace KafKatch.Pipeline

open KafKatch.Lib KafKatch.Sniffer KafKatch.Core

/-! ## §1. The pipeline. -/

section Pipeline

variable (net : LocalNet) (jackson : Jackson) (zone : Zone)

/-- The messages of all windows, in order. -/
def messages (cuts : List (List PktStatsT)) : List String :=
  cuts.flatMap (fun window => kafka_client_send_flows (flow_table net window))

/-- `readJson` on every message, the `i`-th one read at `clock i`. -/
def parse_all (clock : Nat → Int64) (msgs : List String) : Option (List Flow) :=
  msgs.zipIdx.mapM (fun msg => readJson jackson zone msg.1 (clock msg.2))

end Pipeline

/-! ## §2. What is published, in terms of the packets. -/

/-- The payload of a packet whose connection has the given direction. -/
def payload_when (net : LocalNet) (dir : FlowDirectionT) (p : PktStatsT) : Int :=
  if infer_direction net p.key = dir then payload p else 0

/-- One, for a packet whose connection has the given direction. -/
def count_when (net : LocalNet) (dir : FlowDirectionT) (p : PktStatsT) : Int :=
  if infer_direction net p.key = dir then 1 else 0

/-- One, for a TCP packet that carries the flag. -/
def tcp_flag (mask : UInt8) (p : PktStatsT) : Int :=
  if p.key.protocol = IPPROTO_TCP then (if carries mask p = true then 1 else 0) else 0

/-- The `addFlow` key string of a 5-tuple. -/
def tuple_key (k : FlowKeyT) : String :=
  inet_ntop k.src_ip ++ (ntohs k.src_port).toNat.repr
    ++ inet_ntop k.dst_ip ++ (ntohs k.dst_port).toNat.repr ++ proto_str k.protocol

/-- The distinct key strings among the packets. -/
def tuple_keys (packets : List PktStatsT) : Finset String :=
  (packets.map (fun p => tuple_key p.key)).toFinset

/-- A sum over the packets, in 64-bit arithmetic. -/
def packet_total (x : PktStatsT → Int) (packets : List PktStatsT) : Int64 :=
  Int64.ofInt (packets.map x).sum

/-- The aggregate of the packets, without its timestamps. -/
def published (net : LocalNet) (packets : List PktStatsT) : AggregatedFlow where
  timestamp_start := none
  timestamp_end := none
  bytes_inbound := packet_total (payload_when net .DIR_INBOUND) packets
  bytes_outbound := packet_total (payload_when net .DIR_OUTBOUND) packets
  packets_inbound := packet_total (count_when net .DIR_INBOUND) packets
  packets_outbound := packet_total (count_when net .DIR_OUTBOUND) packets
  unique_flow_count := Int32.ofNat (tuple_keys packets).card
  flowKeys := tuple_keys packets
  tcp_syn_total := packet_total (tcp_flag TH_SYN) packets
  tcp_ack_total := packet_total (tcp_flag TH_ACK) packets
  tcp_fin_total := packet_total (tcp_flag TH_FIN) packets
  tcp_rst_total := packet_total (tcp_flag TH_RST) packets

/-- The totals as plain numbers. -/
structure Exact (net : LocalNet) (packets : List PktStatsT) (agg : AggregatedFlow) : Prop where
  bytes_inbound :
    agg.bytes_inbound.toInt = (packets.map (payload_when net .DIR_INBOUND)).sum
  bytes_outbound :
    agg.bytes_outbound.toInt = (packets.map (payload_when net .DIR_OUTBOUND)).sum
  packets_inbound :
    agg.packets_inbound.toInt = (packets.map (count_when net .DIR_INBOUND)).sum
  packets_outbound :
    agg.packets_outbound.toInt = (packets.map (count_when net .DIR_OUTBOUND)).sum
  unique_flow_count : agg.unique_flow_count.toInt = (tuple_keys packets).card
  tcp_syn_total : agg.tcp_syn_total.toInt = (packets.map (tcp_flag TH_SYN)).sum
  tcp_ack_total : agg.tcp_ack_total.toInt = (packets.map (tcp_flag TH_ACK)).sum
  tcp_fin_total : agg.tcp_fin_total.toInt = (packets.map (tcp_flag TH_FIN)).sum
  tcp_rst_total : agg.tcp_rst_total.toInt = (packets.map (tcp_flag TH_RST)).sum

/-- What `packet_total` sums. -/
def measures (net : LocalNet) : List (PktStatsT → Int) :=
  [payload_when net .DIR_INBOUND, payload_when net .DIR_OUTBOUND,
    count_when net .DIR_INBOUND, count_when net .DIR_OUTBOUND,
    tcp_flag TH_SYN, tcp_flag TH_ACK, tcp_flag TH_FIN, tcp_flag TH_RST]

/-- The totals fit a `long` and the number of keys an `int`. -/
def Representable (net : LocalNet) (packets : List PktStatsT) : Prop :=
  (∀ x ∈ measures net, -2 ^ 63 ≤ (packets.map x).sum ∧ (packets.map x).sum < 2 ^ 63)
    ∧ (tuple_keys packets).card < 2 ^ 31

/-- What is published is exact as long as it is representable. -/
theorem exact_of_published {net : LocalNet} {packets : List PktStatsT} {agg : AggregatedFlow}
    (hrep : Representable net packets) (hagg : untimed agg = published net packets) :
    Exact net packets agg := by
  have htotal : ∀ x ∈ measures net, (packet_total x packets).toInt = (packets.map x).sum :=
    fun x hx => Int64.toInt_ofInt_of_le (hrep.1 x hx).1 (hrep.1 x hx).2
  have hfields : agg = { published net packets with
      timestamp_start := agg.timestamp_start, timestamp_end := agg.timestamp_end } := by
    rw [← hagg]
    rfl
  rw [hfields]
  exact
    { bytes_inbound := htotal _ (by simp [measures])
      bytes_outbound := htotal _ (by simp [measures])
      packets_inbound := htotal _ (by simp [measures])
      packets_outbound := htotal _ (by simp [measures])
      unique_flow_count := Int32.toInt_ofNat_of_lt hrep.2
      tcp_syn_total := htotal _ (by simp [measures])
      tcp_ack_total := htotal _ (by simp [measures])
      tcp_fin_total := htotal _ (by simp [measures])
      tcp_rst_total := htotal _ (by simp [measures]) }

/-! ## §3. Windows in which no counter reaches `2^31`. -/

/-- At no time during the window has a counter of its table reached `2^31`. -/
def NoOverflow (net : LocalNet) (window : List PktStatsT) : Prop :=
  ∀ seen, seen <+: window → ∀ flow ∈ flow_table net seen, FitsInt flow

section Window

variable {net : LocalNet}

/-- The node of a key that occurs. -/
def node (net : LocalNet) (k : FlowKeyT) (window : List PktStatsT) : FlowT :=
  (flowKeyed net).tally k window

theorem node_mem (net : LocalNet) {k : FlowKeyT} {window : List PktStatsT} (h : packets_of k window ≠ []) :
    node net k window ∈ flow_table net window := by
  obtain ⟨p, hp⟩ := List.exists_mem_of_ne_nil _ h
  obtain ⟨hp, hk⟩ := List.mem_filter.mp hp
  have hkeys : k ∈ ((flowKeyed net).groupBy window).map (flowKeyed net).keyOf :=
    ((flowKeyed net).mem_keys_groupBy window k).mpr
      (List.mem_map.mpr ⟨p, hp, of_decide_eq_true hk⟩)
  obtain ⟨flow, hflow, rfl⟩ := List.mem_map.mp hkeys
  rw [flow_table_eq, node, ← (flowKeyed net).groupBy_entry hflow]
  exact hflow

/-- Every node of the table is the node of its key, and some packet has that key. -/
theorem node_of_mem {window : List PktStatsT} {flow : FlowT} (h : flow ∈ flow_table net window) :
    (∃ p ∈ window, p.key = flow.key) ∧ packets_of flow.key window ≠ []
      ∧ flow = node net flow.key window := by
  have hne := packets_of_ne_nil net h
  obtain ⟨p, hp⟩ := List.exists_mem_of_ne_nil _ hne
  obtain ⟨hp, hkey⟩ := List.mem_filter.mp hp
  rw [flow_table_eq] at h
  exact ⟨⟨p, hp, of_decide_eq_true hkey⟩, hne, (flowKeyed net).groupBy_entry h⟩

theorem packets_of_concat (k : FlowKeyT) (window : List PktStatsT) (p : PktStatsT) :
    packets_of k (window ++ [p])
      = if p.key = k then packets_of k window ++ [p] else packets_of k window := by
  by_cases h : p.key = k <;> simp [packets_of, h]

theorem node_concat (k : FlowKeyT) (window : List PktStatsT) (p : PktStatsT) :
    node net k (window ++ [p])
      = if p.key = k then flow_update_stats (node net k window) p else node net k window :=
  (flowKeyed net).tally_concat k window p

theorem NoOverflow.init {window : List PktStatsT} {p : PktStatsT}
    (h : NoOverflow net (window ++ [p])) : NoOverflow net window :=
  fun seen hseen => h seen (hseen.trans (List.prefix_append window [p]))

/-- Modulo `2^32` is exact for a sum that moves by one 32-bit payload and stays below `2^31`. -/
theorem exact_of_mod {s x : Int} {b : Nat} (hs : 0 ≤ s ∧ s < 2 ^ 31)
    (hx : -2 ^ 31 ≤ x ∧ x < 2 ^ 31) (hb : (b : Int) = (s + x) % 2 ^ 32) (hlt : b < 2 ^ 31) :
    (b : Int) = s + x := by
  omega

/-- **In a window without overflow every node is an exact tally of its packets.** -/
theorem node_exact (window : List PktStatsT) (hfits : NoOverflow net window) (k : FlowKeyT)
    (hne : packets_of k window ≠ []) :
    IsTally net (node net k window) (packets_of k window)
      ∧ ((node net k window).byte_count.toNat : Int)
          = ((packets_of k window).map payload).sum := by
  -- on the last packet; only its own node changes, and `NoOverflow` bounds it before and after
  induction window using List.reverseRecOn with
  | nil => exact absurd rfl hne
  | append_singleton window p ih =>
      have hnode := hfits _ (List.prefix_refl _) _ (node_mem net hne)
      have ih := ih hfits.init
      rw [packets_of_concat] at hne ⊢
      rw [node_concat] at hnode ⊢
      by_cases hk : p.key = k
      · have hpay : -2 ^ 31 ≤ payload p ∧ payload p < 2 ^ 31 :=
          ⟨p.payload_size.le_toInt, p.payload_size.toInt_lt⟩
        rw [if_pos hk] at hnode ⊢
        rw [if_pos hk]
        -- the first packet of its key starts from zero; a later one adds to an exact sum
        by_cases hps : packets_of k window = []
        · -- the first packet of its key
          have hfresh : node net k window = (flowKeyed net).fresh p.key := by
            show (packets_of k window).foldl flow_update_stats ((flowKeyed net).fresh k) = _
            rw [hps, hk]
            rfl
          have htally := isTally_first net p
          rw [hfresh] at hnode ⊢
          rw [hps, List.nil_append]
          refine ⟨htally, ?_⟩
          have hmod := htally.byte_count
          have hlow := hnode.byte_count
          simp only [List.map_cons, List.map_nil, List.sum_cons, List.sum_nil] at hmod ⊢
          omega
        · obtain ⟨htally, hbytes⟩ := ih hps
          have hold := hfits window (List.prefix_append window [p]) _ (node_mem net hps)
          have hlen : (packets_of k window).length < 2 ^ 31 :=
            htally.packet_count ▸ hold.packet_count
          have hkey : (node net k window).key = k := htally.key_eq net hps packets_of_key
          have hnext := isTally_next net htally hps p (hk.trans hkey.symm) (by omega)
          refine ⟨hnext, ?_⟩
          have hmod := hnext.byte_count
          have hlow := hold.byte_count
          rw [List.map_append, List.sum_append] at hmod ⊢
          simp only [List.map_cons, List.map_nil, List.sum_cons, List.sum_nil,
            add_zero] at hmod ⊢
          exact exact_of_mod (by omega) hpay hmod hnode.byte_count
      · rw [if_neg hk] at hne ⊢
        rw [if_neg hk]
        exact ih hne

/-- A window in which no 5-tuple has `2^31` packets or bytes has no overflow. -/
theorem noOverflow_of_light {window : List PktStatsT}
    (hcount : ∀ k, (packets_of k window).length < 2 ^ 31)
    (hpay : ∀ p ∈ window, 0 ≤ payload p)
    (hbytes : ∀ k, ((packets_of k window).map payload).sum < 2 ^ 31) :
    NoOverflow net window := by
  rintro seen ⟨rest, rfl⟩ flow hflow
  obtain ⟨-, hne, hnode⟩ := node_of_mem hflow
  have hsplit : packets_of flow.key (seen ++ rest)
      = packets_of flow.key seen ++ packets_of flow.key rest := List.filter_append seen rest
  have hlen := hcount flow.key
  have hsum := hbytes flow.key
  rw [hsplit, List.length_append] at hlen
  rw [hsplit, List.map_append, List.sum_append] at hsum
  have hnonneg : ∀ ps : List PktStatsT, (∀ p ∈ ps, p ∈ seen ++ rest) →
      0 ≤ ((packets_of flow.key ps).map payload).sum := by
    intro ps hps
    apply List.sum_nonneg
    intro n hn
    obtain ⟨p, hp, rfl⟩ := List.mem_map.mp hn
    exact hpay p (hps p (List.mem_filter.mp hp).1)
  have hseen := hnonneg seen (fun p hp => List.mem_append_left rest hp)
  have hrest := hnonneg rest (fun p hp => List.mem_append_right seen hp)
  have htally : IsTally net flow (packets_of flow.key seen) := by
    have hfold : IsTally net (node net flow.key seen) (packets_of flow.key seen) :=
      isTally_foldl net flow.key (packets_of flow.key seen) hne
        packets_of_key (by omega)
    rwa [← hnode] at hfold
  have hflag : ∀ mask, (if flow.key.protocol = IPPROTO_TCP then
      (packets_of flow.key seen).countP (carries mask) else 0) < 2 ^ 31 := by
    intro mask
    have hle : (packets_of flow.key seen).countP (carries mask)
        ≤ (packets_of flow.key seen).length := List.countP_le_length
    split <;> omega
  exact
    { packet_count := by rw [htally.packet_count]; omega
      byte_count := by have := htally.byte_count; omega
      tcp_syn_count := by rw [htally.tcp_syn_count]; exact hflag TH_SYN
      tcp_ack_count := by rw [htally.tcp_ack_count]; exact hflag TH_ACK
      tcp_fin_count := by rw [htally.tcp_fin_count]; exact hflag TH_FIN
      tcp_rst_count := by rw [htally.tcp_rst_count]; exact hflag TH_RST }

/-! ## §4. One window: the nodes add up to the packets. -/

/-- A quantity that counts only under a condition on the key. -/
theorem sum_if_key (c : FlowKeyT → Prop) [DecidablePred c] (x : PktStatsT → Int)
    {k : FlowKeyT} {ps : List PktStatsT} (hkeys : ∀ p ∈ ps, p.key = k) :
    (ps.map (fun p => if c p.key then x p else 0)).sum
      = if c k then (ps.map x).sum else 0 := by
  have hmap : ps.map (fun p => if c p.key then x p else 0)
      = ps.map (fun p => if c k then x p else 0) :=
    List.map_congr_left (fun p hp => by rw [hkeys p hp])
  rw [hmap]
  by_cases hc : c k <;> simp [hc]

theorem sum_one (ps : List PktStatsT) : (ps.map (fun _ => (1 : Int))).sum = ps.length := by
  simp

theorem sum_carries (mask : UInt8) (ps : List PktStatsT) :
    (ps.map (fun p => if carries mask p = true then (1 : Int) else 0)).sum
      = ps.countP (carries mask) := by
  induction ps with
  | nil => rfl
  | cons p ps ih =>
      rw [List.map_cons, List.sum_cons, ih, List.countP_cons]
      by_cases hp : carries mask p = true
      · simp only [hp, if_true]
        push_cast
        ring
      · simp [hp]

/-- What a received flow adds to a total of one direction. -/
def in_dir (dir : FlowDirectionT) (flow : FlowT) (count : UInt32) : Int :=
  if flow.direction = dir then (narrowed count.toNat).toInt else 0

/-- A measure that every node takes over its packets has the window's total. -/
theorem window_sum {window : List PktStatsT} (m : FlowT → Int) (w : PktStatsT → Int)
    (h : ∀ k, packets_of k window ≠ [] →
      m (node net k window) = ((packets_of k window).map w).sum) :
    ((flow_table net window).map m).sum = (window.map w).sum := by
  rw [flow_table_eq]
  apply (flowKeyed net).sum_groupBy
  intro k hk
  obtain ⟨p, hp, hkey⟩ := List.mem_map.mp hk
  exact h k (List.ne_nil_of_mem (List.mem_filter.mpr ⟨hp, decide_eq_true hkey⟩))

/-- Two 64-bit timestamps in microseconds are less than `10 ^ 30` apart. -/
theorem usec_span (t u : Timeval) : |((usec t - usec u : Int) : ℚ)| ≤ 10 ^ 30 := by
  have hspan : |usec t - usec u| ≤ 10 ^ 30 := by
    have ht := t.tv_sec.toInt_lt
    have ht' := t.tv_sec.le_toInt
    have htu := t.tv_usec.toInt_lt
    have htu' := t.tv_usec.le_toInt
    have hu := u.tv_sec.toInt_lt
    have hu' := u.tv_sec.le_toInt
    have huu := u.tv_usec.toInt_lt
    have huu' := u.tv_usec.le_toInt
    unfold usec
    rw [abs_le]
    omega
  exact_mod_cast hspan

section Sums

variable {window : List PktStatsT} (hfits : NoOverflow net window)

include hfits

/-- The facts about one node that the sums below use. -/
theorem node_facts {k : FlowKeyT} (hne : packets_of k window ≠ []) :
    IsTally net (node net k window) (packets_of k window)
      ∧ FitsInt (node net k window) ∧ (node net k window).key = k
      ∧ ∀ p ∈ packets_of k window, p.key = k := by
  have htally := (node_exact window hfits k hne).1
  exact ⟨htally, hfits _ (List.prefix_refl _) _ (node_mem net hne),
    htally.key_eq net hne packets_of_key, packets_of_key⟩

theorem bytes_window (dir : FlowDirectionT) :
    ((flow_table net window).map (fun flow => in_dir dir flow flow.byte_count)).sum
      = (window.map (payload_when net dir)).sum := by
  apply window_sum
  intro k hne
  obtain ⟨htally, hfit, hkey, hkeys⟩ := node_facts hfits hne
  have hbytes := (node_exact window hfits k hne).2
  show _ = ((packets_of k window).map
    (fun p => if infer_direction net p.key = dir then payload p else 0)).sum
  rw [sum_if_key (fun k => infer_direction net k = dir) payload hkeys, in_dir, htally.direction,
    hkey, narrowed_toInt hfit.byte_count, hbytes]

theorem packets_window (dir : FlowDirectionT) :
    ((flow_table net window).map (fun flow => in_dir dir flow flow.packet_count)).sum
      = (window.map (count_when net dir)).sum := by
  apply window_sum
  intro k hne
  obtain ⟨htally, hfit, hkey, hkeys⟩ := node_facts hfits hne
  show _ = ((packets_of k window).map
    (fun p => if infer_direction net p.key = dir then (fun _ => (1 : Int)) p else 0)).sum
  rw [sum_if_key (fun k => infer_direction net k = dir) (fun _ => 1) hkeys, sum_one, in_dir,
    htally.direction, hkey, narrowed_toInt hfit.packet_count, htally.packet_count]

/-- The four flag counters alike. -/
theorem flags_window (mask : UInt8) (count : FlowT → UInt32)
    (hfit : ∀ flow, FitsInt flow → (count flow).toNat < 2 ^ 31)
    (htally : ∀ flow ps, IsTally net flow ps → (count flow).toNat
      = if flow.key.protocol = IPPROTO_TCP then ps.countP (carries mask) else 0) :
    ((flow_table net window).map (fun flow => (narrowed (count flow).toNat).toInt)).sum
      = (window.map (tcp_flag mask)).sum := by
  apply window_sum
  intro k hne
  obtain ⟨hnode, hfits, hkey, hkeys⟩ := node_facts hfits hne
  show _ = ((packets_of k window).map (fun p => if p.key.protocol = IPPROTO_TCP then
    (if carries mask p = true then (1 : Int) else 0) else 0)).sum
  rw [sum_if_key (fun k => k.protocol = IPPROTO_TCP) _ hkeys, sum_carries,
    narrowed_toInt (hfit _ hfits), htally _ _ hnode, hkey]
  by_cases hp : k.protocol = IPPROTO_TCP <;> simp [hp]

/-- The exported mean is far below the magnitudes `%.1f` has room for. -/
theorem mean_iat_window {flow : FlowT} (hflow : flow ∈ flow_table net window) :
    |mean_iat flow| ≤ 10 ^ 30 := by
  obtain ⟨-, hne, hnode⟩ := node_of_mem hflow
  have hmean := (node_facts hfits hne).1.mean_iat
  rw [← hnode] at hmean
  rw [hmean]
  split
  next hlen =>
    have hspan := usec_span flow.last_seen flow.start_time
    have hpos : (1 : ℚ) ≤ ((packets_of flow.key window).length : ℚ) - 1 := by
      have : (2 : ℚ) ≤ ((packets_of flow.key window).length : ℚ) := by exact_mod_cast hlen
      linarith
    rw [abs_div, abs_of_pos (lt_of_lt_of_le one_pos hpos)]
    exact (div_le_self (abs_nonneg _) hpos).trans hspan
  next => norm_num

end Sums

end Window

/-! ## §5. All windows: every message parses, and the totals are the packets'. -/

/-- The nodes of all windows. -/
def nodes (net : LocalNet) (cuts : List (List PktStatsT)) : List FlowT :=
  cuts.flatMap (flow_table net)

theorem messages_eq (net : LocalNet) (cuts : List (List PktStatsT)) :
    messages net cuts = (nodes net cuts).map json_payload := by
  unfold messages nodes kafka_client_send_flows
  rw [List.map_flatMap]

/-- The protocol a TCP or UDP flow is read with. -/
def protocol_of (flow : FlowT) : FlowProtocol :=
  if flow.key.protocol = IPPROTO_TCP then .TCP else .UDP

theorem protocol_of_name {flow : FlowT}
    (h : flow.key.protocol = IPPROTO_TCP ∨ flow.key.protocol = IPPROTO_UDP) :
    (protocol_of flow).name = proto_str flow.key.protocol := by
  unfold protocol_of
  rcases h with h | h <;> rw [h] <;> decide

/-- The flows read from the messages of `nodes`, the `i`-th one at `clock i`. -/
def received_all (zone : Zone) (clock : Nat → Int64) (nodes : List FlowT) : List Flow :=
  nodes.zipIdx.map (fun x => received x.1 (protocol_of x.1) (zone (clock x.2)))

/-- A `mapM` in which nothing fails. -/
theorem mapM_of_forall {α β : Type} {f : α → Option β} {g : α → β} (xs : List α)
    (h : ∀ x ∈ xs, f x = some (g x)) : xs.mapM f = some (xs.map g) := by
  induction xs with
  | nil => rfl
  | cons x xs ih =>
      have hx := h x List.mem_cons_self
      have hxs := ih (fun y hy => h y (List.mem_cons_of_mem x hy))
      rw [List.mapM_cons, bind_of_eq_some hx, bind_of_eq_some hxs]
      rfl

section Cuts

variable {net : LocalNet} {cuts : List (List PktStatsT)}
  (hproto : ∀ window ∈ cuts, ∀ p ∈ window,
    p.key.protocol = IPPROTO_TCP ∨ p.key.protocol = IPPROTO_UDP)
  (hfits : ∀ window ∈ cuts, NoOverflow net window)

/-- A sum over the received flows, regrouped by window. -/
theorem received_all_sum (zone : Zone) (clock : Nat → Int64) (x : Flow → Int) (m : FlowT → Int)
    (w : PktStatsT → Int) (hx : ∀ flow protocol timestamp,
      x (received flow protocol timestamp) = m flow)
    (hm : ∀ window ∈ cuts, ((flow_table net window).map m).sum = (window.map w).sum) :
    ((received_all zone clock (nodes net cuts)).map x).sum = (cuts.flatten.map w).sum := by
  -- neither the position nor the time of reading matters to `x`
  have hflows : (received_all zone clock (nodes net cuts)).map x = (nodes net cuts).map m := by
    rw [received_all, List.map_map]
    have hcomp : x ∘ (fun a : FlowT × Nat =>
        received a.1 (protocol_of a.1) (zone (clock a.2))) = m ∘ Prod.fst := by
      funext a
      exact hx _ _ _
    rw [hcomp, ← List.map_map, List.zipIdx_map_fst]
  rw [hflows, nodes]
  clear hflows
  induction cuts with
  | nil => rfl
  | cons window cuts ih =>
      rw [List.flatMap_cons, List.flatten_cons, List.map_append, List.map_append,
        List.sum_append, List.sum_append, hm window List.mem_cons_self,
        ih (fun w hw => hm w (List.mem_cons_of_mem window hw))]

/-- So every total over the received flows is one over the packets. -/
theorem total_received_all (zone : Zone) (clock : Nat → Int64) {x : Flow → Int}
    (m : FlowT → Int) {w : PktStatsT → Int}
    (hx : ∀ flow protocol timestamp, x (received flow protocol timestamp) = m flow)
    (hm : ∀ window ∈ cuts, ((flow_table net window).map m).sum = (window.map w).sum) :
    total x (received_all zone clock (nodes net cuts)) = packet_total w cuts.flatten := by
  unfold total packet_total
  rw [received_all_sum zone clock x m w hx hm]

include hproto

/-- A node of any window has the protocol of one of its packets. -/
theorem nodes_protocol {flow : FlowT} (h : flow ∈ nodes net cuts) :
    flow.key.protocol = IPPROTO_TCP ∨ flow.key.protocol = IPPROTO_UDP := by
  obtain ⟨window, hwindow, hflow⟩ := List.mem_flatMap.mp h
  obtain ⟨⟨p, hp, hkey⟩, -⟩ := node_of_mem hflow
  exact hkey ▸ hproto window hwindow p hp

theorem keysOf_received_all (zone : Zone) (clock : Nat → Int64) :
    keysOf (received_all zone clock (nodes net cuts)) = tuple_keys cuts.flatten := by
  have hport : ∀ x : UInt16, decimal (narrowed x.toNat) = x.toNat.repr := by
    intro x
    have := x.toNat_lt
    rw [decimal, narrowed_toInt (by omega)]
    rfl
  have hkey : ∀ flow ∈ nodes net cuts, ∀ timestamp,
      addFlow_key (received flow (protocol_of flow) timestamp) = tuple_key flow.key := by
    intro flow hflow timestamp
    show inet_ntop flow.key.src_ip ++ decimal (narrowed (ntohs flow.key.src_port).toNat)
        ++ inet_ntop flow.key.dst_ip ++ decimal (narrowed (ntohs flow.key.dst_port).toNat)
        ++ (protocol_of flow).name = _
    rw [hport, hport, protocol_of_name (nodes_protocol hproto hflow)]
    rfl
  have hkeys : (received_all zone clock (nodes net cuts)).map addFlow_key
      = (nodes net cuts).map (fun flow => tuple_key flow.key) := by
    rw [received_all, List.map_map]
    have hzip : ((nodes net cuts).zipIdx.map Prod.fst).map (fun flow => tuple_key flow.key)
        = (nodes net cuts).map (fun flow => tuple_key flow.key) := by rw [List.zipIdx_map_fst]
    rw [← hzip, List.map_map]
    exact List.map_congr_left (fun x hx => hkey x.1 (List.fst_mem_of_mem_zipIdx hx) _)
  ext key
  rw [keysOf, tuple_keys, hkeys, List.mem_toFinset, List.mem_toFinset]
  constructor
  · intro h
    obtain ⟨flow, hflow, rfl⟩ := List.mem_map.mp h
    obtain ⟨window, hwindow, hflow⟩ := List.mem_flatMap.mp hflow
    obtain ⟨⟨p, hp, hpkey⟩, -⟩ := node_of_mem hflow
    exact List.mem_map.mpr ⟨p, List.mem_flatten.mpr ⟨window, hwindow, hp⟩, by rw [hpkey]⟩
  · intro h
    obtain ⟨p, hp, rfl⟩ := List.mem_map.mp h
    obtain ⟨window, hwindow, hp⟩ := List.mem_flatten.mp hp
    have hmem : p ∈ packets_of p.key window := List.mem_filter.mpr ⟨hp, decide_eq_true rfl⟩
    have hnode := node_mem net (List.ne_nil_of_mem hmem)
    have hnodekey : (node net p.key window).key = p.key :=
      (flowKeyed net).keyOf_tally p.key window
    exact List.mem_map.mpr ⟨_, List.mem_flatMap.mpr ⟨window, hwindow, hnode⟩, by rw [hnodekey]⟩

include hfits

/-- **Every message of every window parses.** -/
theorem parse_all_eq (jackson : Jackson) (zone : Zone) (clock : Nat → Int64) :
    parse_all jackson zone clock (messages net cuts)
      = some (received_all zone clock (nodes net cuts)) := by
  unfold parse_all received_all
  rw [messages_eq, List.zipIdx_map, List.mapM_map]
  apply mapM_of_forall
  intro x hx
  have hnode := List.fst_mem_of_mem_zipIdx hx
  have htcp := nodes_protocol hproto hnode
  obtain ⟨window, hwindow, hflow⟩ := List.mem_flatMap.mp hnode
  show readJson jackson zone (json_payload x.1) (clock x.2) = _
  rw [readJson_payload jackson zone _ (mean_iat_window (hfits window hwindow) hflow),
    ← protocol_of_name htcp, FlowProtocol.valueOf_name]
  rfl

/-- The received flows, folded into a fresh aggregate at any times. -/
theorem untimed_received (zone : Zone) (clock : Nat → Int64) (start : Option LocalDateTime)
    {calls : List (Flow × LocalDateTime)}
    (hcalls : calls.map Prod.fst = received_all zone clock (nodes net cuts)) :
    untimed (addFlows (AggregatedFlow.fresh start) calls) = published net cuts.flatten := by
  have hagg := isAggregate_addFlows start calls
  rw [hcalls] at hagg
  have hdir : ∀ d d', received_dir d = received_dir d' ↔ d = d' := by
    intro d d'
    cases d <;> cases d' <;> decide
  have hbytes : ∀ d, total (fun f => whenDir (received_dir d) f f.byte_count)
      (received_all zone clock (nodes net cuts))
        = packet_total (payload_when net d) cuts.flatten := by
    intro d
    exact total_received_all zone clock (fun flow => in_dir d flow flow.byte_count)
      (fun flow protocol timestamp => if_congr (hdir _ _) rfl rfl)
      (fun window hwindow => bytes_window (hfits window hwindow) d)
  have hpackets : ∀ d, total (fun f => whenDir (received_dir d) f f.packet_count)
      (received_all zone clock (nodes net cuts))
        = packet_total (count_when net d) cuts.flatten := by
    intro d
    exact total_received_all zone clock (fun flow => in_dir d flow flow.packet_count)
      (fun flow protocol timestamp => if_congr (hdir _ _) rfl rfl)
      (fun window hwindow => packets_window (hfits window hwindow) d)
  have hflags : ∀ (mask : UInt8) (x : Flow → Int32) (count : FlowT → UInt32),
      (∀ flow protocol timestamp,
        x (received flow protocol timestamp) = narrowed (count flow).toNat) →
      (∀ flow, FitsInt flow → (count flow).toNat < 2 ^ 31) →
      (∀ flow ps, IsTally net flow ps → (count flow).toNat
        = if flow.key.protocol = IPPROTO_TCP then ps.countP (carries mask) else 0) →
      total (fun f => (x f).toInt) (received_all zone clock (nodes net cuts))
        = packet_total (tcp_flag mask) cuts.flatten := by
    intro mask x count hx hfit htally
    exact total_received_all zone clock (fun flow => (narrowed (count flow).toNat).toInt)
      (fun flow protocol timestamp => by rw [hx])
      (fun window hwindow => flags_window (hfits window hwindow) mask count hfit htally)
  have hkeys := @keysOf_received_all net cuts hproto zone clock
  unfold untimed published
  congr 1
  · exact hagg.bytes_inbound.trans (hbytes .DIR_INBOUND)
  · exact hagg.bytes_outbound.trans (hbytes .DIR_OUTBOUND)
  · exact hagg.packets_inbound.trans (hpackets .DIR_INBOUND)
  · exact hagg.packets_outbound.trans (hpackets .DIR_OUTBOUND)
  · rw [hagg.unique_flow_count, hkeys]
  · rw [hagg.flowKeys, hkeys]
  · exact hagg.tcp_syn_total.trans (hflags TH_SYN _ FlowT.tcp_syn_count (fun _ _ _ => rfl)
      (fun _ h => h.tcp_syn_count) (fun _ _ h => h.tcp_syn_count))
  · exact hagg.tcp_ack_total.trans (hflags TH_ACK _ FlowT.tcp_ack_count (fun _ _ _ => rfl)
      (fun _ h => h.tcp_ack_count) (fun _ _ h => h.tcp_ack_count))
  · exact hagg.tcp_fin_total.trans (hflags TH_FIN _ FlowT.tcp_fin_count (fun _ _ _ => rfl)
      (fun _ h => h.tcp_fin_count) (fun _ _ h => h.tcp_fin_count))
  · exact hagg.tcp_rst_total.trans (hflags TH_RST _ FlowT.tcp_rst_count (fun _ _ _ => rfl)
      (fun _ h => h.tcp_rst_count) (fun _ _ h => h.tcp_rst_count))

end Cuts

/-- **What is published is what the packets say, wherever the cuts are**: every message parses,
and the received flows, folded in at any times, give every field but the timestamps the value
of `published`, in which the cuts do not occur; it is exact as long as it is representable. -/
theorem end_to_end (net : LocalNet) (jackson : Jackson) (zone : Zone) (clock : Nat → Int64)
    (packets : List PktStatsT) (cuts : List (List PktStatsT)) (hcut : cuts.flatten = packets)
    (hproto : ∀ p ∈ packets, p.key.protocol = IPPROTO_TCP ∨ p.key.protocol = IPPROTO_UDP)
    (hfits : ∀ window ∈ cuts, NoOverflow net window) :
    ∃ flows, parse_all jackson zone clock (messages net cuts) = some flows
      ∧ ∀ (start : Option LocalDateTime) (calls : List (Flow × LocalDateTime)),
          calls.map Prod.fst = flows →
            untimed (addFlows (AggregatedFlow.fresh start) calls) = published net packets
              ∧ (Representable net packets →
                  Exact net packets (addFlows (AggregatedFlow.fresh start) calls)) := by
  subst hcut
  have hproto : ∀ window ∈ cuts, ∀ p ∈ window,
      p.key.protocol = IPPROTO_TCP ∨ p.key.protocol = IPPROTO_UDP :=
    fun window hwindow p hp => hproto p (List.mem_flatten.mpr ⟨window, hwindow, hp⟩)
  refine ⟨_, parse_all_eq hproto hfits jackson zone clock, ?_⟩
  intro start calls hcalls
  have hagg := untimed_received hproto hfits zone clock start hcalls
  exact ⟨hagg, fun hrep => exact_of_published hrep hagg⟩

/-- A TCP flow that goes on after a flush tick, an empty window, and a DNS reply. -/
def split_cuts : List (List PktStatsT) :=
  let web : FlowKeyT := ⟨0x0100000a, 0x08080808, 0x3930, 0xbb01, IPPROTO_TCP⟩
  let dns : FlowKeyT := ⟨0x08080808, 0x0100000a, 0x3500, 0x3930, IPPROTO_UDP⟩
  [[⟨web, 0, ⟨10, 500⟩, TH_SYN⟩, ⟨web, 517, ⟨10, 900⟩, TH_ACK⟩], [],
    [⟨web, 1200, ⟨12, 300⟩, TH_FIN ||| TH_ACK⟩, ⟨dns, 90, ⟨12, 400⟩, 0⟩]]

theorem split_cuts_noOverflow (net : LocalNet) : ∀ window ∈ split_cuts, NoOverflow net window := by
  have hlen : ∀ window ∈ split_cuts, window.length ≤ 2 := by decide
  have hpay : ∀ window ∈ split_cuts, ∀ p ∈ window, 0 ≤ payload p ∧ payload p ≤ 1200 := by decide
  intro window hwindow
  have hlight : ∀ k, (packets_of k window).length ≤ 2 := fun k =>
    (List.length_filter_le _ _).trans (hlen window hwindow)
  refine noOverflow_of_light (fun k => ?_) (fun p hp => (hpay window hwindow p hp).1)
    (fun k => ?_)
  · exact lt_of_le_of_lt (hlight k) (by norm_num)
  · have hsum : ((packets_of k window).map payload).sum
        ≤ ((packets_of k window).map payload).length • 1200 := by
      apply List.sum_le_card_nsmul
      intro n hn
      obtain ⟨p, hp, rfl⟩ := List.mem_map.mp hn
      exact (hpay window hwindow p (List.mem_filter.mp hp).1).2
    have := hlight k
    rw [List.length_map, nsmul_eq_mul] at hsum
    omega

theorem end_to_end_split :
    ∃ flows, parse_all .reference (fun _ => noon) (fun _ => 0)
        (messages ⟨0x0000000a, 0x000000ff⟩ split_cuts) = some flows
      ∧ ∀ (start : Option LocalDateTime) (calls : List (Flow × LocalDateTime)),
          calls.map Prod.fst = flows →
            untimed (addFlows (AggregatedFlow.fresh start) calls)
                = published ⟨0x0000000a, 0x000000ff⟩ split_cuts.flatten
              ∧ (Representable ⟨0x0000000a, 0x000000ff⟩ split_cuts.flatten →
                  Exact ⟨0x0000000a, 0x000000ff⟩ split_cuts.flatten
                    (addFlows (AggregatedFlow.fresh start) calls)) :=
  end_to_end ⟨0x0000000a, 0x000000ff⟩ .reference (fun _ => noon) (fun _ => 0) split_cuts.flatten
    split_cuts rfl (by decide) (split_cuts_noOverflow _)

/-! ## §6. The totals are machine integers. -/

/-- Empty UDP packets from `n` sources to one destination. -/
def scan (n : Nat) : List PktStatsT :=
  (List.range n).map (fun i => ⟨⟨UInt32.ofNat i, 0, 0, 0, IPPROTO_UDP⟩, 0, ⟨0, 0⟩, 0⟩)

theorem scan_keys_nodup {n : Nat} (hn : n ≤ 2 ^ 32) : ((scan n).map PktStatsT.key).Nodup := by
  rw [scan, List.map_map]
  refine List.Nodup.map_on ?_ List.nodup_range
  intro i hi j hj heq
  have hsrc : UInt32.ofNat i = UInt32.ofNat j := congrArg FlowKeyT.src_ip heq
  have hnat := congrArg UInt32.toNat hsrc
  rw [List.mem_range] at hi hj
  rw [UInt32.toNat_ofNat', UInt32.toNat_ofNat'] at hnat
  omega

theorem scan_noOverflow (net : LocalNet) {n : Nat} (hn : n ≤ 2 ^ 32) :
    NoOverflow net (scan n) := by
  have hpay : ∀ p ∈ scan n, payload p = 0 := by
    intro p hp
    obtain ⟨i, -, rfl⟩ := List.mem_map.mp hp
    rfl
  refine noOverflow_of_light (fun k => ?_) (fun p hp => (hpay p hp).ge) (fun k => ?_)
  -- no key occurs twice, so every node counts one empty packet
  · have hone := List.nodup_iff_count_le_one.mp (scan_keys_nodup hn) k
    have hcount : (packets_of k (scan n)).length = ((scan n).map PktStatsT.key).count k := by
      rw [packets_of, ← List.countP_eq_length_filter, List.count, List.countP_map]
      rfl
    omega
  · have hzero : (packets_of k (scan n)).map payload = (packets_of k (scan n)).map (fun _ => 0) :=
      List.map_congr_left (fun p hp => hpay p (List.mem_filter.mp hp).1)
    rw [hzero]
    simp

theorem inet_ntop_eq (addr : UInt32) : (inet_ntop addr).toList = dotted addr.toNat := by
  simp [inet_ntop, dotted, octet, List.intercalate, List.range_succ]

/-- Different addresses have different texts. -/
theorem inet_ntop_inj {a b : UInt32} (h : inet_ntop a = inet_ntop b) : a = b := by
  have hlists := congrArg String.toList h
  rw [inet_ntop_eq, inet_ntop_eq] at hlists
  exact UInt32.toNat_inj.mp (dotted_inj a.toNat_lt b.toNat_lt hlists)

theorem scan_tuple_keys {n : Nat} (hn : n ≤ 2 ^ 32) : (tuple_keys (scan n)).card = n := by
  have hinj : ((scan n).map (fun p => tuple_key p.key)).Nodup := by
    have hkeys := scan_keys_nodup hn
    have hmap : (scan n).map (fun p => tuple_key p.key)
        = ((scan n).map PktStatsT.key).map tuple_key := by rw [List.map_map]; rfl
    rw [hmap]
    refine List.Nodup.map_on ?_ hkeys
    intro k hk k' hk' heq
    obtain ⟨p, hp, rfl⟩ := List.mem_map.mp hk
    obtain ⟨p', hp', rfl⟩ := List.mem_map.mp hk'
    obtain ⟨i, -, rfl⟩ := List.mem_map.mp hp
    obtain ⟨j, -, rfl⟩ := List.mem_map.mp hp'
    have hsrc : inet_ntop (UInt32.ofNat i) = inet_ntop (UInt32.ofNat j) := by
      simpa [tuple_key, ← String.toList_inj] using heq
    rw [inet_ntop_inj hsrc]
  rw [tuple_keys, List.toFinset_card_of_nodup hinj]
  simp [scan]

/-- **From `2^31` distinct keys on, `unique_flow_count` is not their number.** -/
theorem end_to_end_not_exact :
    ¬ ∀ (net : LocalNet) (jackson : Jackson) (zone : Zone) (clock : Nat → Int64)
        (packets : List PktStatsT) (cuts : List (List PktStatsT)), cuts.flatten = packets →
        (∀ p ∈ packets, p.key.protocol = IPPROTO_TCP ∨ p.key.protocol = IPPROTO_UDP) →
        (∀ window ∈ cuts, NoOverflow net window) →
        ∃ flows, parse_all jackson zone clock (messages net cuts) = some flows
          ∧ ∀ (start : Option LocalDateTime) (calls : List (Flow × LocalDateTime)),
              calls.map Prod.fst = flows →
                Exact net packets (addFlows (AggregatedFlow.fresh start) calls) := by
  intro hclaim
  -- the number of packets stays a variable until the last line
  have hmany : ∀ n : Nat, n = 2 ^ 31 → False := by
    intro n hn
    have hproto : ∀ window ∈ [scan n], ∀ p ∈ window,
        p.key.protocol = IPPROTO_TCP ∨ p.key.protocol = IPPROTO_UDP := by
      intro window hwindow p hp
      rw [List.mem_singleton.mp hwindow] at hp
      obtain ⟨i, -, rfl⟩ := List.mem_map.mp hp
      exact Or.inr rfl
    have hfits : ∀ window ∈ [scan n], NoOverflow ⟨0, 0⟩ window := by
      intro window hwindow
      rw [List.mem_singleton.mp hwindow]
      exact scan_noOverflow _ (by omega)
    have hflat : [scan n].flatten = scan n := by simp
    obtain ⟨flows, hparse, hexact⟩ := hclaim ⟨0, 0⟩ .reference (fun _ => noon) (fun _ => 0)
      (scan n) [scan n] hflat (hproto _ (List.mem_singleton.mpr rfl)) hfits
    rw [parse_all_eq hproto hfits, Option.some.injEq] at hparse
    have hcalls : (flows.map (fun flow => (flow, noon))).map Prod.fst = flows := by
      simp [List.map_map, Function.comp_def]
    have hcount := (hexact none _ hcalls).unique_flow_count
    rw [(isAggregate_addFlows none _).unique_flow_count, hcalls, ← hparse,
      keysOf_received_all hproto, hflat, scan_tuple_keys (by omega), hn] at hcount
    exact absurd hcount (by decide)
  exact hmany _ rfl

end KafKatch.Pipeline
