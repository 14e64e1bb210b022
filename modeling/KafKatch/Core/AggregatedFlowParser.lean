/-
  KafKatch.Core.AggregatedFlowParser
  ──────────────────────────────────
  **THE AGGREGATE IN THE STATE STORE** (`AggregatedFlowParser.java`).

  Every field of `AggregatedFlow` is a property under its own name; the average packet size is
  one with a getter only, and `flowKeys` is restricted to the internal view.  With that view
  active all of them are written, and what is read back is the aggregate with its timestamps cut
  to milliseconds (`round_trip`).  So the store may write and read the aggregate between any two
  events (`round_trips_transparent`).
-/
import KafKatch.Core.AggregatedFlow
import KafKatch.Lib.DataBinding
import KafKatch.Lib.Run
import Mathlib.Data.Finset.Sort
import Mathlib.Data.String.Basic
import Mathlib.Data.Rat.Floor

namespace KafKatch.Core

open KafKatch.Lib

/-! ## §1. The mapper. -/

/-- The object mapper: the text of a document, the token of a `double`, the iteration order of a
`HashSet`, and the conversion of each field type.  A `LocalDateTime` has the pattern of its
annotation. -/
structure ObjectMapper where
  writeText : Json → String
  readText : String → Option Json
  doubleToken : ℚ → JsonNumber
  iteration : Finset String → List String
  readLong : Json → Option Int64
  readInt : Json → Option Int32
  readLocalDateTime : Json → Option (Option LocalDateTime)
  readStringSet : Json → Option (Finset String)
  readText_writeText : ∀ v, v.distinctNames = true → readText (writeText v) = some v
  iteration_toFinset : ∀ s, (iteration s).toFinset = s
  readLong_token : ∀ x : Int64, readLong (.num (.ofInt x.toInt)) = some x
  readInt_token : ∀ x : Int32, readInt (.num (.ofInt x.toInt)) = some x
  readLocalDateTime_null : readLocalDateTime .null = some none
  readLocalDateTime_text :
    ∀ t : LocalDateTime,
      readLocalDateTime (.str (String.ofList t.format)) = some (some t.toMillis)
  readStringSet_array : ∀ xs : List String, readStringSet (.arr (xs.map .str)) = some xs.toFinset

/-- The decimal digits of `q` after the point, at least one and at most seventeen. -/
def fractionDigits (q : ℚ) : List (Fin 10) :=
  let digits := (List.range 17).map (fun i => lastDigit ⌊|q| * 10 ^ (i + 1)⌋.toNat)
  digits.take 1 ++ ((digits.drop 1).reverse.dropWhile (fun d => d.val == 0)).reverse

/-- The text of a text node. -/
def textOf : Json → Option String
  | .str s => some s
  | _ => none

theorem ofInt_intValue (i : Int) : (JsonNumber.ofInt i).intValue = i := by
  unfold JsonNumber.intValue JsonNumber.ofInt
  by_cases h : i < 0
  · simp only [h, decide_true, if_true]
    omega
  · simp only [h, decide_false, Bool.false_eq_true, if_false]
    omega

/-- A mapper over the verified parser, with sets in alphabetical order. -/
def ObjectMapper.reference : ObjectMapper where
  writeText v := String.ofList v.text
  readText s := Json.parse s.toList
  doubleToken q := ⟨decide (q < 0), ⌊|q|⌋.toNat, fractionDigits q, none⟩
  iteration s := s.sort (· ≤ ·)
  readLong
    | .num n =>
        if n.isInteger ∧ -2 ^ 63 ≤ n.intValue ∧ n.intValue < 2 ^ 63 then
          some (Int64.ofInt n.intValue)
        else none
    | _ => none
  readInt
    | .num n =>
        if n.isInteger ∧ -2 ^ 31 ≤ n.intValue ∧ n.intValue < 2 ^ 31 then
          some (Int32.ofInt n.intValue)
        else none
    | _ => none
  readLocalDateTime
    | .null => some none
    | .str s => (LocalDateTime.parse s.toList).map some
    | _ => none
  readStringSet
    | .arr vs =>
        (vs.mapM textOf).map List.toFinset
    | _ => none
  readText_writeText v _ := by rw [String.toList_ofList, Json.parse_text]
  iteration_toFinset s := Finset.sort_toFinset s _
  readLong_token x := by
    have := x.le_toInt
    have := x.toInt_lt
    simp only [ofInt_intValue]
    rw [if_pos ⟨rfl, by omega, by omega⟩, Int64.ofInt_toInt]
  readInt_token x := by
    have := x.le_toInt
    have := x.toInt_lt
    simp only [ofInt_intValue]
    rw [if_pos ⟨rfl, by omega, by omega⟩, Int32.ofInt_toInt]
  readLocalDateTime_null := rfl
  readLocalDateTime_text t := by
    simp only [String.toList_ofList, LocalDateTime.parse_format, Option.map_some]
  readStringSet_array xs := by
    have htexts : (xs.map Json.str).mapM textOf = some xs := by
      induction xs with
      | nil => rfl
      | cons x xs ih =>
          rw [List.map_cons, List.mapM_cons, ih]
          rfl
    exact congrArg (Option.map List.toFinset) htexts

/-! ## §2. The properties of `AggregatedFlow`. -/

/-- `AggregatedFlow.InternalView`, the only view. -/
inductive View where
  | InternalView
  deriving Repr, DecidableEq

section Parser

variable (mapper : ObjectMapper)

/-- A field of type `long`. -/
def longField (name : String) (get : AggregatedFlow → Int64)
    (set : AggregatedFlow → Int64 → AggregatedFlow) : Property View AggregatedFlow where
  name := name
  view := none
  write agg := .num (.ofInt (get agg).toInt)
  read := some (fun v agg => (mapper.readLong v).map (set agg))

/-- A field of type `LocalDateTime`, which may be null. -/
def dateField (name : String) (get : AggregatedFlow → Option LocalDateTime)
    (set : AggregatedFlow → Option LocalDateTime → AggregatedFlow) :
    Property View AggregatedFlow where
  name := name
  view := none
  write agg := ((get agg).map (fun t => Json.str (String.ofList t.format))).getD .null
  read := some (fun v agg => (mapper.readLocalDateTime v).map (set agg))

def unique_flow_count_field : Property View AggregatedFlow where
  name := "unique_flow_count"
  view := none
  write agg := .num (.ofInt agg.unique_flow_count.toInt)
  read := some (fun v agg =>
    (mapper.readInt v).map (fun n => { agg with unique_flow_count := n }))

/-- Annotated `@JsonView(InternalView.class)`. -/
def flowKeys_field : Property View AggregatedFlow where
  name := "flowKeys"
  view := some .InternalView
  write agg := .arr ((mapper.iteration agg.flowKeys).map .str)
  read := some (fun v agg =>
    (mapper.readStringSet v).map (fun keys => { agg with flowKeys := keys }))

/-- `getAveragePacketSize` has no field behind it. -/
def averagePacketSize_getter : Property View AggregatedFlow where
  name := "averagePacketSize"
  view := none
  write agg := .num (mapper.doubleToken agg.averagePacketSize)
  read := none

/-- The fields in declaration order, then the getter. -/
def aggregate_properties : List (Property View AggregatedFlow) :=
  [dateField mapper "timestamp_start" (·.timestamp_start)
      (fun agg t => { agg with timestamp_start := t }),
   dateField mapper "timestamp_end" (·.timestamp_end)
      (fun agg t => { agg with timestamp_end := t }),
   longField mapper "bytes_inbound" (·.bytes_inbound)
      (fun agg n => { agg with bytes_inbound := n }),
   longField mapper "bytes_outbound" (·.bytes_outbound)
      (fun agg n => { agg with bytes_outbound := n }),
   longField mapper "packets_inbound" (·.packets_inbound)
      (fun agg n => { agg with packets_inbound := n }),
   longField mapper "packets_outbound" (·.packets_outbound)
      (fun agg n => { agg with packets_outbound := n }),
   unique_flow_count_field mapper,
   flowKeys_field mapper,
   longField mapper "tcp_syn_total" (·.tcp_syn_total)
      (fun agg n => { agg with tcp_syn_total := n }),
   longField mapper "tcp_ack_total" (·.tcp_ack_total)
      (fun agg n => { agg with tcp_ack_total := n }),
   longField mapper "tcp_fin_total" (·.tcp_fin_total)
      (fun agg n => { agg with tcp_fin_total := n }),
   longField mapper "tcp_rst_total" (·.tcp_rst_total)
      (fun agg n => { agg with tcp_rst_total := n }),
   averagePacketSize_getter mapper]

/-- `toJsonString`: the text published to the output topic. -/
def toJsonString (agg : AggregatedFlow) : String :=
  mapper.writeText (toTree (aggregate_properties mapper) none agg)

/-- `fromJsonString`; `none` is an exception. -/
def fromJsonString (json : String) : Option AggregatedFlow :=
  (mapper.readText json).bind
    (fromTree (aggregate_properties mapper) none (AggregatedFlow.fresh none))

/-- `toInternalJsonString`. -/
def toInternalJsonString (agg : AggregatedFlow) : String :=
  mapper.writeText (toTree (aggregate_properties mapper) (some .InternalView) agg)

/-- `fromInternalJsonString`; `none` is an exception. -/
def fromInternalJsonString (json : String) : Option AggregatedFlow :=
  (mapper.readText json).bind
    (fromTree (aggregate_properties mapper) (some .InternalView) (AggregatedFlow.fresh none))

/-! ## §3. One round trip. -/

/-- The aggregate with its timestamps cut to milliseconds. -/
def clipped (agg : AggregatedFlow) : AggregatedFlow :=
  { agg with
    timestamp_start := agg.timestamp_start.map LocalDateTime.toMillis
    timestamp_end := agg.timestamp_end.map LocalDateTime.toMillis }

@[simp] theorem clipped_clipped (agg : AggregatedFlow) : clipped (clipped agg) = clipped agg := by
  unfold clipped
  simp [Option.map_map, Function.comp_def]

theorem aggregate_names_nodup : ((aggregate_properties mapper).map Property.name).Nodup := by
  show ["timestamp_start", "timestamp_end", "bytes_inbound", "bytes_outbound", "packets_inbound",
    "packets_outbound", "unique_flow_count", "flowKeys", "tcp_syn_total", "tcp_ack_total",
    "tcp_fin_total", "tcp_rst_total", "averagePacketSize"].Nodup
  decide

/-- Nothing is left out, with the internal view active or with none. -/
theorem aggregate_included (active : Option View) :
    (aggregate_properties mapper).filter (Property.included active)
      = aggregate_properties mapper := by
  cases active with
  | none => rfl
  | some view =>
      cases view
      rfl

/-- Every value written is a scalar or an array of texts. -/
theorem aggregate_values_distinctNames (agg : AggregatedFlow) :
    ∀ p ∈ aggregate_properties mapper, (p.write agg).distinctNames = true := by
  have hstrings : ∀ xs : List String, Json.distinctNamesElems (xs.map .str) = true := by
    intro xs
    induction xs with
    | nil => rfl
    | cons x xs ih =>
        rw [List.map_cons, Json.distinctNamesElems, ih]
        rfl
  have hdate : ∀ t : Option LocalDateTime,
      ((t.map (fun t => Json.str (String.ofList t.format))).getD .null).distinctNames = true := by
    intro t
    cases t <;> rfl
  simp only [aggregate_properties, List.forall_mem_cons, List.not_mem_nil, false_imp_iff,
    implies_true, and_true]
  exact ⟨hdate _, hdate _, rfl, rfl, rfl, rfl, rfl, hstrings _, rfl, rfl, rfl, rfl, rfl⟩

/-- The text of an aggregate is read back as its document. -/
theorem readText_aggregate (active : Option View) (agg : AggregatedFlow) :
    mapper.readText (mapper.writeText (toTree (aggregate_properties mapper) active agg))
      = some (toTree (aggregate_properties mapper) active agg) :=
  mapper.readText_writeText _ (toTree_distinctNames (aggregate_names_nodup mapper) agg
    (aggregate_values_distinctNames mapper agg))

variable {mapper}

theorem longField_restore (name : String) (get : AggregatedFlow → Int64)
    (set : AggregatedFlow → Int64 → AggregatedFlow) (agg b : AggregatedFlow) :
    (longField mapper name get set).restore agg b = some (set b (get agg)) := by
  show (mapper.readLong (.num (.ofInt (get agg).toInt))).map (set b) = _
  rw [mapper.readLong_token, Option.map_some]

theorem dateField_restore (name : String) (get : AggregatedFlow → Option LocalDateTime)
    (set : AggregatedFlow → Option LocalDateTime → AggregatedFlow) (agg b : AggregatedFlow) :
    (dateField mapper name get set).restore agg b
      = some (set b ((get agg).map LocalDateTime.toMillis)) := by
  show (mapper.readLocalDateTime (((get agg).map
    (fun t => Json.str (String.ofList t.format))).getD .null)).map (set b) = _
  cases get agg with
  | none =>
      show (mapper.readLocalDateTime .null).map (set b) = _
      rw [mapper.readLocalDateTime_null]
      rfl
  | some t =>
      show (mapper.readLocalDateTime (.str (String.ofList t.format))).map (set b) = _
      rw [mapper.readLocalDateTime_text]
      rfl

theorem unique_flow_count_restore (agg b : AggregatedFlow) :
    (unique_flow_count_field mapper).restore agg b
      = some { b with unique_flow_count := agg.unique_flow_count } := by
  show (mapper.readInt (.num (.ofInt agg.unique_flow_count.toInt))).map _ = _
  rw [mapper.readInt_token, Option.map_some]

theorem flowKeys_restore (agg b : AggregatedFlow) :
    (flowKeys_field mapper).restore agg b = some { b with flowKeys := agg.flowKeys } := by
  show (mapper.readStringSet (.arr ((mapper.iteration agg.flowKeys).map .str))).map _ = _
  rw [mapper.readStringSet_array, mapper.iteration_toFinset, Option.map_some]

theorem averagePacketSize_restore (agg b : AggregatedFlow) :
    (averagePacketSize_getter mapper).restore agg b = some b := rfl

/-- **One write and read cuts the timestamps to milliseconds and keeps everything else**, in
either view. -/
theorem read_write (active : Option View) (agg : AggregatedFlow) :
    (mapper.readText (mapper.writeText (toTree (aggregate_properties mapper) active agg))).bind
        (fromTree (aggregate_properties mapper) active (AggregatedFlow.fresh none))
      = some (clipped agg) := by
  -- reading starts from `new AggregatedFlow()`, and every field of it is overwritten
  rw [readText_aggregate, Option.bind_some, fromTree_toTree (aggregate_names_nodup mapper),
    aggregate_included]
  unfold aggregate_properties
  simp only [List.foldlM_cons, List.foldlM_nil, longField_restore, dateField_restore,
    unique_flow_count_restore, flowKeys_restore, averagePacketSize_restore,
    Option.bind_eq_bind, Option.bind_some]
  rfl

theorem round_trip (agg : AggregatedFlow) :
    fromInternalJsonString mapper (toInternalJsonString mapper agg) = some (clipped agg) :=
  read_write (some .InternalView) agg

/-- The published text is no poorer: with no view active, the keys are written as well. -/
theorem public_round_trip (agg : AggregatedFlow) :
    fromJsonString mapper (toJsonString mapper agg) = some (clipped agg) :=
  read_write none agg

/-! ## §4. Runs over the store. -/

/-- What happens to the stored aggregate: an event, or a write and a read. -/
inductive StoreOp where
  | addFlow (flow : Flow) (now : LocalDateTime)
  | roundTrip

variable (mapper) in
/-- One operation; `none` if the stored text cannot be read. -/
def storeStep (agg : AggregatedFlow) : StoreOp → Option AggregatedFlow
  | .addFlow flow now => some (addFlow agg flow now)
  | .roundTrip => fromInternalJsonString mapper (toInternalJsonString mapper agg)

/-- The `addFlow` calls among the operations. -/
def storeCalls (ops : List StoreOp) : List (Flow × LocalDateTime) :=
  ops.flatMap (fun op =>
    match op with
    | .addFlow flow now => [(flow, now)]
    | .roundTrip => [])

/-- `stored` is `direct`, except that its start may have been cut to milliseconds. -/
structure SameAggregate (stored direct : AggregatedFlow) : Prop where
  totals : untimed stored = untimed direct
  timestamp_start : stored.timestamp_start = direct.timestamp_start
    ∨ stored.timestamp_start = direct.timestamp_start.map LocalDateTime.toMillis

theorem sameAggregate_addFlow {stored direct : AggregatedFlow} (h : SameAggregate stored direct)
    (flow : Flow) (now : LocalDateTime) :
    SameAggregate (addFlow stored flow now) (addFlow direct flow now) where
  totals := by rw [untimed_addFlow, h.totals, ← untimed_addFlow]
  timestamp_start := by
    rw [addFlow_eq, addFlow_eq]
    exact h.timestamp_start

theorem sameAggregate_clipped {stored direct : AggregatedFlow}
    (h : SameAggregate stored direct) : SameAggregate (clipped stored) direct where
  totals := h.totals
  timestamp_start := by
    have hcut : (clipped stored).timestamp_start
        = stored.timestamp_start.map LocalDateTime.toMillis := rfl
    have htwice : LocalDateTime.toMillis ∘ LocalDateTime.toMillis = LocalDateTime.toMillis :=
      funext LocalDateTime.toMillis_toMillis
    rw [hcut]
    rcases h.timestamp_start with h | h
    · exact Or.inr (by rw [h])
    · exact Or.inr (by rw [h, Option.map_map, htwice])

/-- **The store is transparent**: wherever the aggregate is written and read between the events,
nothing fails, the result has the totals, the keys and the count of the run without a store, its
start is at most cut to milliseconds, and a second round trip after any first changes nothing. -/
theorem round_trips_transparent (mapper : ObjectMapper) (agg : AggregatedFlow)
    (ops : List StoreOp) :
    (∃ stored, run (storeStep mapper) agg ops = some stored
      ∧ SameAggregate stored (addFlows agg (storeCalls ops)))
      ∧ ∀ any : AggregatedFlow, ∃ once,
          fromInternalJsonString mapper (toInternalJsonString mapper any) = some once
            ∧ fromInternalJsonString mapper (toInternalJsonString mapper once) = some once := by
  constructor
  · refine run_exists (fun ops stored => SameAggregate stored (addFlows agg (storeCalls ops)))
      ⟨rfl, Or.inl rfl⟩ ?_ ops
    -- on the last operation, with the direct run next to the stored one
    intro ops stored op h
    unfold storeCalls at h ⊢
    rw [List.flatMap_append, addFlows, List.foldl_append]
    cases op with
    | addFlow flow now => exact ⟨_, rfl, sameAggregate_addFlow h flow now⟩
    | roundTrip => exact ⟨_, round_trip stored, sameAggregate_clipped h⟩
  · intro any
    exact ⟨clipped any, round_trip any, by rw [round_trip, clipped_clipped]⟩

end Parser

end KafKatch.Core
