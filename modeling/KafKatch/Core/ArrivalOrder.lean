/-
  KafKatch.Core.ArrivalOrder
  ──────────────────────────
  **THE WINDOW AGGREGATE IN CLOSED FORM.**

  The input topic has several partitions, so the flows of a window arrive in any order.
  `closedForm` says what their aggregate is without folding: sums over the flows of a direction,
  sums over all flows, and the set of their keys.  None of these looks at the order
  (`closedForm_perm`), so neither does `addFlow`, up to `timestamp_end`
  (`arrival_order_irrelevant`).  The counter next to the set is an `int`: it is the size of the
  set as long as that fits.
-/
import KafKatch.Core.ConnectionKey

namespace KafKatch.Core

open KafKatch.Lib FlowDirection

/-! ## §1. Sums and keys without an order. -/

/-- The flows of one direction. -/
def ofDir (dir : FlowDirection) (flows : List Flow) : List Flow :=
  flows.filter (fun f => decide (f.dir = dir))

/-- Counting `0` for the flows of other directions is leaving them out. -/
theorem total_whenDir (dir : FlowDirection) (x : Flow → Int32) (flows : List Flow) :
    total (fun f => whenDir dir f (x f)) flows = total (fun f => (x f).toInt) (ofDir dir flows) := by
  have hsum : (flows.map (fun f => whenDir dir f (x f))).sum
      = ((ofDir dir flows).map (fun f => (x f).toInt)).sum := by
    induction flows with
    | nil => rfl
    | cons f flows ih =>
        have hcons : ofDir dir (f :: flows)
            = if f.dir = dir then f :: ofDir dir flows else ofDir dir flows := by
          simp [ofDir, List.filter_cons]
        rw [List.map_cons, List.sum_cons, ih, hcons, whenDir]
        by_cases h : f.dir = dir <;> simp [h]
  unfold total
  rw [hsum]

theorem total_perm (x : Flow → Int) {flows flows' : List Flow} (h : flows.Perm flows') :
    total x flows = total x flows' := by
  unfold total
  rw [(h.map x).sum_eq]

theorem keysOf_perm {flows flows' : List Flow} (h : flows.Perm flows') :
    keysOf flows = keysOf flows' :=
  List.toFinset_eq_of_perm _ _ (h.map addFlow_key)

/-! ## §2. The closed form. -/

/-- The aggregate of some flows, before any `timestamp_end` is set. -/
def closedForm (start : Option LocalDateTime) (flows : List Flow) : AggregatedFlow where
  timestamp_start := start
  timestamp_end := none
  bytes_inbound := total (fun f => f.byte_count.toInt) (ofDir INBOUND flows)
  bytes_outbound := total (fun f => f.byte_count.toInt) (ofDir OUTBOUND flows)
  packets_inbound := total (fun f => f.packet_count.toInt) (ofDir INBOUND flows)
  packets_outbound := total (fun f => f.packet_count.toInt) (ofDir OUTBOUND flows)
  unique_flow_count := Int32.ofNat (keysOf flows).card
  flowKeys := keysOf flows
  tcp_syn_total := total (fun f => f.tcp_syn_count.toInt) flows
  tcp_ack_total := total (fun f => f.tcp_ack_count.toInt) flows
  tcp_fin_total := total (fun f => f.tcp_fin_count.toInt) flows
  tcp_rst_total := total (fun f => f.tcp_rst_count.toInt) flows

/-- The aggregate without its `timestamp_end`. -/
def unended (agg : AggregatedFlow) : AggregatedFlow := { agg with timestamp_end := none }

/-- **The closed form does not look at the order.** -/
theorem closedForm_perm (start : Option LocalDateTime) {flows flows' : List Flow}
    (h : flows.Perm flows') : closedForm start flows = closedForm start flows' := by
  have hin : (ofDir INBOUND flows).Perm (ofDir INBOUND flows') := h.filter _
  have hout : (ofDir OUTBOUND flows).Perm (ofDir OUTBOUND flows') := h.filter _
  unfold closedForm
  rw [keysOf_perm h, total_perm _ hin, total_perm _ hin, total_perm _ hout, total_perm _ hout,
    total_perm _ h, total_perm _ h, total_perm _ h, total_perm _ h]

/-- No call touches the start. -/
theorem addFlows_timestamp_start (agg : AggregatedFlow) (calls : List (Flow × LocalDateTime)) :
    (addFlows agg calls).timestamp_start = agg.timestamp_start := by
  induction calls using List.reverseRecOn with
  | nil => rfl
  | append_singleton calls call ih =>
      rw [addFlows, List.foldl_concat, ← addFlows, addFlow_eq]
      exact ih

/-- **A fresh aggregate after any calls is the closed form of their flows.** -/
theorem unended_addFlows (start : Option LocalDateTime) (calls : List (Flow × LocalDateTime)) :
    unended (addFlows (AggregatedFlow.fresh start) calls)
      = closedForm start (calls.map Prod.fst) := by
  have h := isAggregate_addFlows start calls
  have hstart := addFlows_timestamp_start (AggregatedFlow.fresh start) calls
  unfold unended closedForm
  rw [hstart, h.bytes_inbound, h.bytes_outbound, h.packets_inbound, h.packets_outbound,
    h.unique_flow_count, h.flowKeys, h.tcp_syn_total, h.tcp_ack_total, h.tcp_fin_total,
    h.tcp_rst_total, total_whenDir, total_whenDir, total_whenDir, total_whenDir]
  rfl

/-- The set holds the keys of `flows`, and the counter is its size in 32-bit arithmetic. -/
structure CountsKeys (agg : AggregatedFlow) (flows : List Flow) : Prop where
  flowKeys : agg.flowKeys = keysOf flows
  unique_flow_count : agg.unique_flow_count = Int32.ofNat agg.flowKeys.card
  exact_count : agg.flowKeys.card < 2 ^ 31 → agg.unique_flow_count.toInt = agg.flowKeys.card

/-- **In every state of the fold the counter is the size of the set.** -/
theorem countsKeys_addFlows (start : Option LocalDateTime)
    (calls : List (Flow × LocalDateTime)) :
    CountsKeys (addFlows (AggregatedFlow.fresh start) calls) (calls.map Prod.fst) := by
  have h := isAggregate_addFlows start calls
  have hcount : (addFlows (AggregatedFlow.fresh start) calls).unique_flow_count
      = Int32.ofNat (addFlows (AggregatedFlow.fresh start) calls).flowKeys.card := by
    rw [h.unique_flow_count, h.flowKeys]
  refine ⟨h.flowKeys, hcount, ?_⟩
  intro hfits
  rw [hcount, Int32.toInt_ofNat_of_lt hfits]

/-! ## §3. The order of arrival. -/

/-- **The order of arrival does not matter**: two sequences of calls with the same flows in any
two orders give the same aggregate up to `timestamp_end`, the closed form of these flows, and in
every state on the way the counter is the size of the set of keys seen so far. -/
theorem arrival_order_irrelevant (start : Option LocalDateTime)
    (calls calls' : List (Flow × LocalDateTime))
    (h : (calls.map Prod.fst).Perm (calls'.map Prod.fst)) :
    unended (addFlows (AggregatedFlow.fresh start) calls)
        = unended (addFlows (AggregatedFlow.fresh start) calls')
      ∧ unended (addFlows (AggregatedFlow.fresh start) calls)
        = closedForm start (calls.map Prod.fst)
      ∧ ∀ before, before <+: calls →
          CountsKeys (addFlows (AggregatedFlow.fresh start) before) (before.map Prod.fst) := by
  refine ⟨?_, unended_addFlows start calls, fun before _ => countsKeys_addFlows start before⟩
  rw [unended_addFlows, unended_addFlows, closedForm_perm start h]

theorem arrival_order_irrelevant_merged :
    unended (addFlows (AggregatedFlow.fresh none) merged_calls)
        = unended (addFlows (AggregatedFlow.fresh none) merged_calls.reverse)
      ∧ unended (addFlows (AggregatedFlow.fresh none) merged_calls)
        = closedForm none (merged_calls.map Prod.fst)
      ∧ ∀ before, before <+: merged_calls →
          CountsKeys (addFlows (AggregatedFlow.fresh none) before) (before.map Prod.fst) :=
  arrival_order_irrelevant none merged_calls merged_calls.reverse
    ((List.reverse_perm merged_calls).symm.map Prod.fst)

/-! ## §4. The counter is a machine integer. -/

/-- One probe from each of the first `n` addresses. -/
def swept (n : Nat) : List (Flow × LocalDateTime) :=
  (List.range n).map (fun i => (probe (String.ofList (dotted i)) "10.0.0.1" 12 noon, noon))

theorem swept_keys {n : Nat} (hn : n ≤ 2 ^ 32) :
    (keysOf ((swept n).map Prod.fst)).card = n := by
  have hnodup : (((swept n).map Prod.fst).map addFlow_key).Nodup := by
    rw [swept, List.map_map, List.map_map]
    refine List.Nodup.map_on ?_ List.nodup_range
    intro i hi j hj hkey
    rw [List.mem_range] at hi hj
    refine dotted_inj (by omega) (by omega) ?_
    simpa [addFlow_key, probe, Flow.parsed, ← String.toList_inj] using hkey
  rw [keysOf, List.toFinset_card_of_nodup hnodup]
  simp [swept]

/-- **From `2^31` keys on, the counter is not the size of the set.** -/
theorem count_not_size :
    ¬ ∀ (start : Option LocalDateTime) (calls : List (Flow × LocalDateTime)),
        (addFlows (AggregatedFlow.fresh start) calls).unique_flow_count.toInt
          = (addFlows (AggregatedFlow.fresh start) calls).flowKeys.card := by
  intro hclaim
  -- the number of calls stays a variable until the last line
  have hmany : ∀ n : Nat, n = 2 ^ 31 → False := by
    intro n hn
    have hcount := hclaim none (swept n)
    have h := isAggregate_addFlows none (swept n)
    rw [h.unique_flow_count, h.flowKeys, swept_keys (by omega), hn] at hcount
    exact absurd hcount (by decide)
  exact hmany _ rfl

end KafKatch.Core
