/-
  KafKatch.Sniffer.Flow — the sniffer's flow records and flow table (`stats.h`, `flow.h`,
  `flow.c`).

  Addresses and ports are kept in network byte order, exactly as the C structs hold them.
  Machine integers have the widths of the C declarations.  `double` values are read as exact
  rationals.  A uthash table is the list of its nodes in insertion order, the order in which
  `HASH_ITER` visits them; `NULL` is the empty list, and a node pointer returned by
  `HASH_FIND` is the node's position.
-/
import Mathlib.Data.Rat.Defs
import Mathlib.Algebra.Order.Field.Rat

namespace KafKatch.Sniffer

/-! ## §1. Packets and keys (`stats.h`). -/

/-- `struct timeval`: seconds and microseconds, both C `long`s. -/
structure Timeval where
  tv_sec : Int64
  tv_usec : Int64
  deriving Repr, DecidableEq

/-- `flow_key_t`: the 5-tuple of a flow, in network byte order. -/
structure FlowKeyT where
  src_ip : UInt32
  dst_ip : UInt32
  src_port : UInt16
  dst_port : UInt16
  protocol : UInt8
  deriving Repr, DecidableEq

/-- `pkt_stats_t`: what `pkt_handler` extracts from one packet.  `payload_size` is a C `int`. -/
structure PktStatsT where
  key : FlowKeyT
  payload_size : Int32
  timestamp : Timeval
  tcp_flags : UInt8
  deriving Repr, DecidableEq

def IPPROTO_TCP : UInt8 := 6
def IPPROTO_UDP : UInt8 := 17

def TH_FIN : UInt8 := 0x01
def TH_SYN : UInt8 := 0x02
def TH_RST : UInt8 := 0x04
def TH_ACK : UInt8 := 0x10

/-! ## §2. Flows (`flow.h`). -/

/-- `flow_direction_t`. -/
inductive FlowDirectionT where
  | DIR_OUTBOUND
  | DIR_INBOUND
  | DIR_LATERAL
  | DIR_UNKNOWN
  deriving Repr, DecidableEq

open FlowDirectionT

/-- `flow_t` without its uthash handle. -/
structure FlowT where
  key : FlowKeyT
  direction : FlowDirectionT
  packet_count : UInt32
  byte_count : UInt32
  min_packet_size : UInt16
  max_packet_size : UInt16
  start_time : Timeval
  last_seen : Timeval
  total_iat_usec : ℚ
  tcp_syn_count : UInt32
  tcp_fin_count : UInt32
  tcp_rst_count : UInt32
  tcp_ack_count : UInt32
  deriving Repr, DecidableEq

/-- The local network of `sniffer_context` (`net_ip`, `net_mask`). -/
structure LocalNet where
  net_ip : UInt32
  net_mask : UInt32
  deriving Repr, DecidableEq

/-! ## §3. Updating one flow (`flow.c`). -/

/-- `flow_create`: `calloc` zeroes every field (the zero direction is `DIR_OUTBOUND`). -/
def flow_create (key : FlowKeyT) : FlowT where
  key := key
  direction := DIR_OUTBOUND
  packet_count := 0
  byte_count := 0
  min_packet_size := 0
  max_packet_size := 0
  start_time := ⟨0, 0⟩
  last_seen := ⟨0, 0⟩
  total_iat_usec := 0
  tcp_syn_count := 0
  tcp_fin_count := 0
  tcp_rst_count := 0
  tcp_ack_count := 0

/-- The inter-arrival time in microseconds: the `long` differences of seconds and of
microseconds, combined in `double`. -/
def delta_usec (timestamp last_seen : Timeval) : ℚ :=
  ((timestamp.tv_sec.toInt - last_seen.tv_sec.toInt : Int) : ℚ) * 1000000
    + ((timestamp.tv_usec.toInt - last_seen.tv_usec.toInt : Int) : ℚ)

/-- The branch `packet_count == 0` of `flow_update_stats`. -/
def first_packet (flow : FlowT) (stats : PktStatsT) : FlowT :=
  { flow with
    start_time := stats.timestamp
    min_packet_size := UInt16.ofInt stats.payload_size.toInt
    max_packet_size := UInt16.ofInt stats.payload_size.toInt
    total_iat_usec := 0 }

/-- The other branch: extremes and inter-arrival time. -/
def next_packet (flow : FlowT) (stats : PktStatsT) : FlowT :=
  { flow with
    min_packet_size :=
      if stats.payload_size.toInt < flow.min_packet_size.toNat then
        UInt16.ofInt stats.payload_size.toInt
      else flow.min_packet_size
    max_packet_size :=
      if (flow.max_packet_size.toNat : Int) < stats.payload_size.toInt then
        UInt16.ofInt stats.payload_size.toInt
      else flow.max_packet_size
    total_iat_usec := flow.total_iat_usec + delta_usec stats.timestamp flow.last_seen }

/-- One guarded increment: `if (tcp_flags & mask) count++`. -/
def count_flag (tcp_flags mask : UInt8) (count : UInt32) : UInt32 :=
  if tcp_flags &&& mask ≠ 0 then count + 1 else count

/-- The TCP flag counters, only for `IPPROTO_TCP`. -/
def count_tcp_flags (flow : FlowT) (stats : PktStatsT) : FlowT :=
  if stats.key.protocol = IPPROTO_TCP then
    { flow with
      tcp_syn_count := count_flag stats.tcp_flags TH_SYN flow.tcp_syn_count
      tcp_fin_count := count_flag stats.tcp_flags TH_FIN flow.tcp_fin_count
      tcp_rst_count := count_flag stats.tcp_flags TH_RST flow.tcp_rst_count
      tcp_ack_count := count_flag stats.tcp_flags TH_ACK flow.tcp_ack_count }
  else flow

/-- `flow_update_stats`. -/
def flow_update_stats (flow : FlowT) (stats : PktStatsT) : FlowT :=
  let flow := if flow.packet_count = 0 then first_packet flow stats else next_packet flow stats
  -- in both branches, and only after the inter-arrival time was taken from `last_seen`
  let flow :=
    { flow with
      last_seen := stats.timestamp
      packet_count := flow.packet_count + 1
      byte_count := flow.byte_count + UInt32.ofInt stats.payload_size.toInt }
  count_tcp_flags flow stats

/-! ## §4. The flow table. -/

/-- The direction `flow_process_packet` gives to a new flow. -/
def infer_direction (net : LocalNet) (key : FlowKeyT) : FlowDirectionT :=
  -- `src_is_local` and `dst_is_local` are read only with a mask
  if net.net_mask ≠ 0 then
    let src_is_local := key.src_ip &&& net.net_mask = net.net_ip
    let dst_is_local := key.dst_ip &&& net.net_mask = net.net_ip
    if src_is_local ∧ ¬ dst_is_local then DIR_OUTBOUND
    else if ¬ src_is_local ∧ dst_is_local then DIR_INBOUND
    else if src_is_local ∧ dst_is_local then DIR_LATERAL
    else DIR_UNKNOWN
  else DIR_UNKNOWN

/-- `HASH_FIND`: the node whose key bytes equal `key`.  `pkt_handler` zeroes the whole
`pkt_stats_t`, so the padding of the two compared keys is equal too. -/
def HASH_FIND (table : List FlowT) (key : FlowKeyT) : Option Nat :=
  table.findIdx? (fun flow => decide (flow.key = key))

/-- `HASH_ADD`: append a node. -/
def HASH_ADD (table : List FlowT) (flow : FlowT) : List FlowT := table ++ [flow]

/-- `flow_process_packet` on the table `*table_ptr`. -/
def flow_process_packet (net : LocalNet) (table : List FlowT) (stats : PktStatsT) :
    List FlowT :=
  match HASH_FIND table stats.key with
  | some flow_entry => table.modify flow_entry (fun flow => flow_update_stats flow stats)
  | none =>
      -- a miss: the new node sits at the end of the table
      let flow := { flow_create stats.key with direction := infer_direction net stats.key }
      (HASH_ADD table flow).modify table.length (fun flow => flow_update_stats flow stats)

/-- The table of a whole window of packets, starting from `NULL`. -/
def flow_table (net : LocalNet) (window : List PktStatsT) : List FlowT :=
  window.foldl (flow_process_packet net) []

/-! ## §5. `flow_update_stats`, field by field. -/

section Fields

variable (flow : FlowT) (stats : PktStatsT)

/-- The guarded counter of one flag mask, under the protocol test. -/
def flag_count (stats : PktStatsT) (mask : UInt8) (count : UInt32) : UInt32 :=
  if stats.key.protocol = IPPROTO_TCP then count_flag stats.tcp_flags mask count else count

/-- The whole update as one record. -/
theorem flow_update_stats_eq :
    flow_update_stats flow stats =
      { key := flow.key
        direction := flow.direction
        packet_count := flow.packet_count + 1
        byte_count := flow.byte_count + UInt32.ofInt stats.payload_size.toInt
        min_packet_size :=
          if flow.packet_count = 0 then (first_packet flow stats).min_packet_size
          else (next_packet flow stats).min_packet_size
        max_packet_size :=
          if flow.packet_count = 0 then (first_packet flow stats).max_packet_size
          else (next_packet flow stats).max_packet_size
        start_time := if flow.packet_count = 0 then stats.timestamp else flow.start_time
        last_seen := stats.timestamp
        total_iat_usec :=
          if flow.packet_count = 0 then 0
          else flow.total_iat_usec + delta_usec stats.timestamp flow.last_seen
        tcp_syn_count := flag_count stats TH_SYN flow.tcp_syn_count
        tcp_fin_count := flag_count stats TH_FIN flow.tcp_fin_count
        tcp_rst_count := flag_count stats TH_RST flow.tcp_rst_count
        tcp_ack_count := flag_count stats TH_ACK flow.tcp_ack_count } := by
  by_cases h : flow.packet_count = 0 <;> by_cases ht : stats.key.protocol = IPPROTO_TCP <;>
    simp [flow_update_stats, count_tcp_flags, flag_count, first_packet, next_packet, h, ht]

@[simp] theorem flow_update_stats_key : (flow_update_stats flow stats).key = flow.key := by
  rw [flow_update_stats_eq]

@[simp] theorem flow_update_stats_direction :
    (flow_update_stats flow stats).direction = flow.direction := by
  rw [flow_update_stats_eq]

@[simp] theorem flow_update_stats_packet_count :
    (flow_update_stats flow stats).packet_count = flow.packet_count + 1 := by
  rw [flow_update_stats_eq]

@[simp] theorem flow_update_stats_byte_count :
    (flow_update_stats flow stats).byte_count
      = flow.byte_count + UInt32.ofInt stats.payload_size.toInt := by
  rw [flow_update_stats_eq]

@[simp] theorem flow_update_stats_last_seen :
    (flow_update_stats flow stats).last_seen = stats.timestamp := by
  rw [flow_update_stats_eq]

@[simp] theorem flow_update_stats_start_time :
    (flow_update_stats flow stats).start_time
      = if flow.packet_count = 0 then stats.timestamp else flow.start_time := by
  rw [flow_update_stats_eq]

@[simp] theorem flow_update_stats_total_iat_usec :
    (flow_update_stats flow stats).total_iat_usec
      = if flow.packet_count = 0 then 0
        else flow.total_iat_usec + delta_usec stats.timestamp flow.last_seen := by
  rw [flow_update_stats_eq]

end Fields

end KafKatch.Sniffer
