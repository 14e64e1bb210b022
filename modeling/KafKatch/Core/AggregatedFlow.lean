/-
  KafKatch.Core.AggregatedFlow — the window aggregate and `addFlow` (`AggregatedFlow.java`).

  `addFlow` reads the clock, so the instant is an argument.  `flowKeys` is a set; nothing here
  depends on the iteration order of the `HashSet`.
-/
import KafKatch.Core.Flow
import Mathlib.Algebra.BigOperators.Group.List.Basic
import Mathlib.Algebra.Ring.Int.Defs
import Mathlib.Data.Finset.Card
import Mathlib.Data.List.Induction

namespace KafKatch.Core

open KafKatch.Lib FlowDirection

/-- `AggregatedFlow`; a null timestamp is `none`. -/
structure AggregatedFlow where
  timestamp_start : Option LocalDateTime
  timestamp_end : Option LocalDateTime
  bytes_inbound : Int64
  bytes_outbound : Int64
  packets_inbound : Int64
  packets_outbound : Int64
  unique_flow_count : Int32
  flowKeys : Finset String
  tcp_syn_total : Int64
  tcp_ack_total : Int64
  tcp_fin_total : Int64
  tcp_rst_total : Int64
  deriving DecidableEq

namespace AggregatedFlow

/-- The no-argument constructor (`start = none`) and `new AggregatedFlow(start)`. -/
def fresh (start : Option LocalDateTime) : AggregatedFlow where
  timestamp_start := start
  timestamp_end := none
  bytes_inbound := 0
  bytes_outbound := 0
  packets_inbound := 0
  packets_outbound := 0
  unique_flow_count := 0
  flowKeys := ∅
  tcp_syn_total := 0
  tcp_ack_total := 0
  tcp_fin_total := 0
  tcp_rst_total := 0

/-- `getAveragePacketSize`: `0` for no packets, else the quotient of the 64-bit sums. -/
def averagePacketSize (agg : AggregatedFlow) : ℚ :=
  if agg.packets_inbound + agg.packets_outbound = 0 then 0
  else ((agg.bytes_inbound + agg.bytes_outbound).toInt : ℚ)
    / ((agg.packets_inbound + agg.packets_outbound).toInt : ℚ)

end AggregatedFlow

/-! ## §1. `addFlow`. -/

/-- The key `addFlow` builds for a flow: five values, one after the other. -/
def addFlow_key (flow : Flow) : String :=
  flow.src_ip ++ decimal flow.src_port ++ flow.dst_ip ++ decimal flow.dst_port
    ++ flow.protocol.name

/-- The volume, by direction: neither for `LATERAL` nor for `UNKNOWN`. -/
def addVolume (agg : AggregatedFlow) (flow : Flow) : AggregatedFlow :=
  if flow.dir = INBOUND then
    { agg with
      bytes_inbound := agg.bytes_inbound + flow.byte_count.toInt64
      packets_inbound := agg.packets_inbound + flow.packet_count.toInt64 }
  else if flow.dir = OUTBOUND then
    { agg with
      bytes_outbound := agg.bytes_outbound + flow.byte_count.toInt64
      packets_outbound := agg.packets_outbound + flow.packet_count.toInt64 }
  else agg

def addFlags (agg : AggregatedFlow) (flow : Flow) : AggregatedFlow :=
  { agg with
    tcp_syn_total := agg.tcp_syn_total + flow.tcp_syn_count.toInt64
    tcp_ack_total := agg.tcp_ack_total + flow.tcp_ack_count.toInt64
    tcp_fin_total := agg.tcp_fin_total + flow.tcp_fin_count.toInt64
    tcp_rst_total := agg.tcp_rst_total + flow.tcp_rst_count.toInt64 }

/-- `if (flowKeys.add(key)) unique_flow_count++`. -/
def addKey (agg : AggregatedFlow) (key : String) : AggregatedFlow :=
  if key ∈ agg.flowKeys then agg
  else
    { agg with
      flowKeys := insert key agg.flowKeys
      unique_flow_count := agg.unique_flow_count + 1 }

/-- `addFlow`. -/
def addFlow (agg : AggregatedFlow) (flow : Flow) (now : LocalDateTime) : AggregatedFlow :=
  { addKey (addFlags (addVolume agg flow) flow) (addFlow_key flow) with
    timestamp_end := some now }

/-- A sequence of `addFlow` calls. -/
def addFlows (agg : AggregatedFlow) (calls : List (Flow × LocalDateTime)) : AggregatedFlow :=
  calls.foldl (fun agg call => addFlow agg call.1 call.2) agg

/-! ## §2. The fields after one call. -/

section Fields

variable (agg : AggregatedFlow) (flow : Flow) (now : LocalDateTime)

/-- `x` if the flow has the given direction. -/
def whenDir (dir : FlowDirection) (flow : Flow) (x : Int32) : Int :=
  if flow.dir = dir then x.toInt else 0

/-- The whole call as one record. -/
theorem addFlow_eq :
    addFlow agg flow now =
      { timestamp_start := agg.timestamp_start
        timestamp_end := some now
        bytes_inbound := agg.bytes_inbound + Int64.ofInt (whenDir INBOUND flow flow.byte_count)
        bytes_outbound :=
          agg.bytes_outbound + Int64.ofInt (whenDir OUTBOUND flow flow.byte_count)
        packets_inbound :=
          agg.packets_inbound + Int64.ofInt (whenDir INBOUND flow flow.packet_count)
        packets_outbound :=
          agg.packets_outbound + Int64.ofInt (whenDir OUTBOUND flow flow.packet_count)
        unique_flow_count :=
          if addFlow_key flow ∈ agg.flowKeys then agg.unique_flow_count
          else agg.unique_flow_count + 1
        flowKeys := insert (addFlow_key flow) agg.flowKeys
        tcp_syn_total := agg.tcp_syn_total + Int64.ofInt flow.tcp_syn_count.toInt
        tcp_ack_total := agg.tcp_ack_total + Int64.ofInt flow.tcp_ack_count.toInt
        tcp_fin_total := agg.tcp_fin_total + Int64.ofInt flow.tcp_fin_count.toInt
        tcp_rst_total := agg.tcp_rst_total + Int64.ofInt flow.tcp_rst_count.toInt } := by
  -- three directions to tell apart, and whether the key is new
  by_cases hin : flow.dir = INBOUND
  · by_cases hkey : addFlow_key flow ∈ agg.flowKeys <;>
      simp [addFlow, addKey, addFlags, addVolume, whenDir, hin, hkey]
  · by_cases hout : flow.dir = OUTBOUND <;> by_cases hkey : addFlow_key flow ∈ agg.flowKeys <;>
      simp [addFlow, addKey, addFlags, addVolume, whenDir, hin, hout, hkey]

end Fields

/-- The aggregate without its two timestamps. -/
def untimed (agg : AggregatedFlow) : AggregatedFlow :=
  { agg with timestamp_start := none, timestamp_end := none }

/-- `addFlow` reads no timestamp. -/
theorem untimed_addFlow (agg : AggregatedFlow) (flow : Flow) (now : LocalDateTime) :
    untimed (addFlow agg flow now) = untimed (addFlow (untimed agg) flow now) := by
  rw [addFlow_eq, addFlow_eq]
  rfl

/-! ## §3. What an aggregate says about its flows. -/

/-- The flow's own `x`, summed over a list, in 64-bit arithmetic. -/
def total (x : Flow → Int) (flows : List Flow) : Int64 := Int64.ofInt (flows.map x).sum

/-- A running sum is the total, one flow later too. -/
theorem total_concat (x : Flow → Int) {flows : List Flow} {sum : Int64}
    (h : sum = total x flows) (flow : Flow) :
    sum + Int64.ofInt (x flow) = total x (flows ++ [flow]) := by
  rw [h]
  simp [total, Int64.ofInt_add]

/-- The set of `addFlow` keys of a list of flows. -/
def keysOf (flows : List Flow) : Finset String := (flows.map addFlow_key).toFinset

theorem keysOf_concat (flows : List Flow) (flow : Flow) :
    keysOf (flows ++ [flow]) = insert (addFlow_key flow) (keysOf flows) := by
  ext key
  simp [keysOf]

/-- `agg` is the exact aggregate of `flows`, timestamps aside. -/
structure IsAggregate (agg : AggregatedFlow) (flows : List Flow) : Prop where
  bytes_inbound : agg.bytes_inbound = total (fun f => whenDir INBOUND f f.byte_count) flows
  bytes_outbound : agg.bytes_outbound = total (fun f => whenDir OUTBOUND f f.byte_count) flows
  packets_inbound : agg.packets_inbound = total (fun f => whenDir INBOUND f f.packet_count) flows
  packets_outbound :
    agg.packets_outbound = total (fun f => whenDir OUTBOUND f f.packet_count) flows
  flowKeys : agg.flowKeys = keysOf flows
  unique_flow_count : agg.unique_flow_count = Int32.ofNat (keysOf flows).card
  tcp_syn_total : agg.tcp_syn_total = total (fun f => f.tcp_syn_count.toInt) flows
  tcp_ack_total : agg.tcp_ack_total = total (fun f => f.tcp_ack_count.toInt) flows
  tcp_fin_total : agg.tcp_fin_total = total (fun f => f.tcp_fin_count.toInt) flows
  tcp_rst_total : agg.tcp_rst_total = total (fun f => f.tcp_rst_count.toInt) flows

theorem isAggregate_fresh (start : Option LocalDateTime) :
    IsAggregate (AggregatedFlow.fresh start) [] := by
  constructor <;> rfl

/-- **One more flow.** -/
theorem isAggregate_addFlow {agg : AggregatedFlow} {flows : List Flow}
    (h : IsAggregate agg flows) (flow : Flow) (now : LocalDateTime) :
    IsAggregate (addFlow agg flow now) (flows ++ [flow]) := by
  -- the counter moves exactly when the set grows
  have hcount : (if addFlow_key flow ∈ agg.flowKeys then agg.unique_flow_count
      else agg.unique_flow_count + 1) = Int32.ofNat (keysOf (flows ++ [flow])).card := by
    rw [h.flowKeys, h.unique_flow_count, keysOf_concat]
    by_cases hkey : addFlow_key flow ∈ keysOf flows
    · simp [hkey]
    · rw [if_neg hkey, Finset.card_insert_of_notMem hkey, Int32.ofNat_add]
      rfl
  rw [addFlow_eq]
  exact
    { bytes_inbound := total_concat _ h.bytes_inbound flow
      bytes_outbound := total_concat _ h.bytes_outbound flow
      packets_inbound := total_concat _ h.packets_inbound flow
      packets_outbound := total_concat _ h.packets_outbound flow
      flowKeys := by rw [h.flowKeys, keysOf_concat]
      unique_flow_count := hcount
      tcp_syn_total := total_concat _ h.tcp_syn_total flow
      tcp_ack_total := total_concat _ h.tcp_ack_total flow
      tcp_fin_total := total_concat _ h.tcp_fin_total flow
      tcp_rst_total := total_concat _ h.tcp_rst_total flow }

/-- **A fresh aggregate after any calls is the aggregate of their flows.** -/
theorem isAggregate_addFlows (start : Option LocalDateTime)
    (calls : List (Flow × LocalDateTime)) :
    IsAggregate (addFlows (AggregatedFlow.fresh start) calls) (calls.map Prod.fst) := by
  induction calls using List.reverseRecOn with
  | nil => exact isAggregate_fresh start
  | append_singleton calls call ih =>
      rw [addFlows, List.foldl_concat, List.map_append]
      exact isAggregate_addFlow ih call.1 call.2

end KafKatch.Core
