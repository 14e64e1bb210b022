/-
  KafKatch.Core.PublicJson
  ────────────────────────
  **WHAT THE OUTPUT TOPIC REVEALS ABOUT THE CONNECTIONS OF A WINDOW.**

  `toJsonString` writes without a view, and without a view the restriction of `flowKeys` is off.
  So the published document is the published fields and, next to them, the keys of the flows
  (`publicDocument`); two windows that agree on the published fields have the same text exactly
  when their key sets are enumerated alike (`public_json_eq_iff`).

  The two windows live in two hash sets, each with an iteration order of its own.
-/
import KafKatch.Core.AggregatedFlowParser
import KafKatch.Core.ConnectionKey

namespace KafKatch.Core

open KafKatch.Lib

/-! ## §1. The published document. -/

/-- The iteration order of a `HashSet`. -/
structure Enumeration where
  list : Finset String → List String
  toFinset_list : ∀ s, (list s).toFinset = s

/-- The same mapper on the sets of another run. -/
def ObjectMapper.enumerating (mapper : ObjectMapper) (order : Enumeration) : ObjectMapper :=
  { mapper with
    iteration := order.list
    iteration_toFinset := order.toFinset_list }

/-- The fields meant for the output topic: all but `flowKeys`. -/
def published (agg : AggregatedFlow) : AggregatedFlow := { agg with flowKeys := ∅ }

/-- A timestamp in a document. -/
def dateJson (t : Option LocalDateTime) : Json :=
  (t.map (fun t => Json.str (String.ofList t.format))).getD .null

/-- The published fields with a list of keys among them. -/
def publicDocument (mapper : ObjectMapper) (agg : AggregatedFlow) (keys : List String) : Json :=
  .obj
    [("timestamp_start", dateJson agg.timestamp_start),
     ("timestamp_end", dateJson agg.timestamp_end),
     ("bytes_inbound", .num (.ofInt agg.bytes_inbound.toInt)),
     ("bytes_outbound", .num (.ofInt agg.bytes_outbound.toInt)),
     ("packets_inbound", .num (.ofInt agg.packets_inbound.toInt)),
     ("packets_outbound", .num (.ofInt agg.packets_outbound.toInt)),
     ("unique_flow_count", .num (.ofInt agg.unique_flow_count.toInt)),
     ("flowKeys", .arr (keys.map .str)),
     ("tcp_syn_total", .num (.ofInt agg.tcp_syn_total.toInt)),
     ("tcp_ack_total", .num (.ofInt agg.tcp_ack_total.toInt)),
     ("tcp_fin_total", .num (.ofInt agg.tcp_fin_total.toInt)),
     ("tcp_rst_total", .num (.ofInt agg.tcp_rst_total.toInt)),
     ("averagePacketSize", .num (mapper.doubleToken agg.averagePacketSize))]

section Document

variable (mapper : ObjectMapper)

/-- **Without a view the keys are written.** -/
theorem toTree_public (agg : AggregatedFlow) :
    toTree (aggregate_properties mapper) none agg
      = publicDocument mapper (published agg) (mapper.iteration agg.flowKeys) := rfl

theorem publicDocument_inj (agg : AggregatedFlow) {keys keys' : List String} :
    publicDocument mapper agg keys = publicDocument mapper agg keys' ↔ keys = keys' := by
  constructor
  · intro h
    unfold publicDocument at h
    simp only [Json.obj.injEq, List.cons.injEq, Prod.mk.injEq, Json.arr.injEq, true_and,
      and_true] at h
    exact List.map_injective_iff.mpr (fun _ _ hstr => Json.str.inj hstr) h
  · intro h
    rw [h]

/-- Texts are equal when the documents are. -/
theorem toJsonString_eq_iff (order : Enumeration) (agg agg' : AggregatedFlow) :
    toJsonString mapper agg = toJsonString (mapper.enumerating order) agg'
      ↔ toTree (aggregate_properties mapper) none agg
          = toTree (aggregate_properties (mapper.enumerating order)) none agg' := by
  constructor
  · intro h
    have hread := congrArg mapper.readText h
    have hleft := readText_aggregate mapper none agg
    have hright := readText_aggregate (mapper.enumerating order) none agg'
    unfold toJsonString at hread
    rw [hleft] at hread
    exact Option.some.inj (hread.trans hright)
  · intro h
    unfold toJsonString
    rw [h]
    rfl

/-- Two aggregates with the same published fields have the same text exactly when their keys are
enumerated alike. -/
theorem toJsonString_eq_iff_keys (order : Enumeration) {agg agg' : AggregatedFlow}
    (hagree : published agg = published agg') :
    toJsonString mapper agg = toJsonString (mapper.enumerating order) agg'
      ↔ mapper.iteration agg.flowKeys = order.list agg'.flowKeys := by
  have hdoc : toTree (aggregate_properties (mapper.enumerating order)) none agg'
      = publicDocument mapper (published agg') (order.list agg'.flowKeys) := rfl
  rw [toJsonString_eq_iff, toTree_public, hdoc, hagree, publicDocument_inj]

end Document

/-! ## §2. Two windows. -/

section Windows

variable (mapper : ObjectMapper) (order : Enumeration)

/-- **Two windows that agree on the published fields have the same public text exactly when the
keys of their flows are the same and come in the same order.** -/
theorem public_json_eq_iff (start start' : Option LocalDateTime)
    (calls calls' : List (Flow × LocalDateTime))
    (hagree : published (addFlows (AggregatedFlow.fresh start) calls)
      = published (addFlows (AggregatedFlow.fresh start') calls')) :
    toJsonString mapper (addFlows (AggregatedFlow.fresh start) calls)
        = toJsonString (mapper.enumerating order) (addFlows (AggregatedFlow.fresh start') calls')
      ↔ keysOf (calls.map Prod.fst) = keysOf (calls'.map Prod.fst)
        ∧ mapper.iteration (keysOf (calls.map Prod.fst))
            = order.list (keysOf (calls.map Prod.fst)) := by
  rw [toJsonString_eq_iff_keys mapper order hagree, (isAggregate_addFlows start calls).flowKeys,
    (isAggregate_addFlows start' calls').flowKeys]
  constructor
  · intro h
    have hset := congrArg List.toFinset h
    rw [mapper.iteration_toFinset, order.toFinset_list] at hset
    exact ⟨hset, by rw [h, hset]⟩
  · rintro ⟨hkeys, hsame⟩
    rw [hsame, hkeys]

/-- One connection of a host to a web server. -/
def host_calls (src_ip : String) : List (Flow × LocalDateTime) :=
  [(probe src_ip "8.8.8.8" 40000 noon, noon)]

/-- Sets in reverse alphabetical order. -/
def descending : Enumeration where
  list s := (ObjectMapper.reference.iteration s).reverse
  toFinset_list s := by rw [List.toFinset_reverse, ObjectMapper.reference.iteration_toFinset]

theorem published_host_calls :
    published (addFlows (AggregatedFlow.fresh none) (host_calls "10.0.0.1"))
      = published (addFlows (AggregatedFlow.fresh none) (host_calls "10.0.0.2")) := by
  decide +kernel

theorem public_json_eq_iff_hosts :
    toJsonString .reference (addFlows (AggregatedFlow.fresh none) (host_calls "10.0.0.1"))
        = toJsonString (ObjectMapper.reference.enumerating descending)
            (addFlows (AggregatedFlow.fresh none) (host_calls "10.0.0.2"))
      ↔ keysOf ((host_calls "10.0.0.1").map Prod.fst) = keysOf ((host_calls "10.0.0.2").map Prod.fst)
        ∧ ObjectMapper.reference.iteration (keysOf ((host_calls "10.0.0.1").map Prod.fst))
            = descending.list (keysOf ((host_calls "10.0.0.1").map Prod.fst)) :=
  public_json_eq_iff .reference descending none none (host_calls "10.0.0.1")
    (host_calls "10.0.0.2") published_host_calls

/-- **The address of a host can be told from the public text.** -/
theorem public_json_reveals :
    toJsonString .reference (addFlows (AggregatedFlow.fresh none) (host_calls "10.0.0.1"))
        ≠ toJsonString .reference (addFlows (AggregatedFlow.fresh none) (host_calls "10.0.0.2"))
      ∧ ¬ ∀ (mapper : ObjectMapper) (start start' : Option LocalDateTime)
          (calls calls' : List (Flow × LocalDateTime)),
          published (addFlows (AggregatedFlow.fresh start) calls)
              = published (addFlows (AggregatedFlow.fresh start') calls') →
            toJsonString mapper (addFlows (AggregatedFlow.fresh start) calls)
              = toJsonString mapper (addFlows (AggregatedFlow.fresh start') calls') := by
  have hne :
      toJsonString .reference (addFlows (AggregatedFlow.fresh none) (host_calls "10.0.0.1"))
        ≠ toJsonString .reference (addFlows (AggregatedFlow.fresh none) (host_calls "10.0.0.2")) := by
    intro h
    have hkeys := (toJsonString_eq_iff_keys .reference
      ⟨ObjectMapper.reference.iteration, ObjectMapper.reference.iteration_toFinset⟩
      published_host_calls).mp h
    have hset := congrArg List.toFinset hkeys
    rw [ObjectMapper.reference.iteration_toFinset, ObjectMapper.reference.iteration_toFinset] at hset
    exact absurd hset (by decide)
  exact ⟨hne, fun hall => hne (hall .reference none none _ _ published_host_calls)⟩

end Windows

end KafKatch.Core
