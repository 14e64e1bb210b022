/-
  KafKatch.Core.App
  ─────────────────
  **THE AGGREGATION SERVICE (`App.java`): FROM RAW MICROFLOWS TO ONE RECORD PER WINDOW.**

  A message that cannot be read is skipped.  The flow of any other message goes through the
  repartition topic to the one key there is, and is added to the aggregate of its ten-second
  window; between any two flows the aggregate may be in the state store, as text.  When its
  window closes, its public text goes to the output topic.

  Kafka Streams is a parameter (`TumblingAggregation`), and so are Jackson and the JVM's decoding
  of UTF-8.  What is published are the windows of the flows that arrived in time, each once and
  in order, and each text reads back as the aggregate that a fold without any topic or store
  gives, its timestamps cut to milliseconds (`published_windows`).

  The messages are in the order in which their flows reach the repartition topic.
-/
import KafKatch.Core.ArrivalOrder
import KafKatch.Core.FlowSerde
import KafKatch.Lib.Tumbling

namespace KafKatch.Core

open KafKatch.Lib

namespace App

/-! ## §1. The stages. -/

/-- A record of `network-microflows-raw`: its timestamp and value, and what the clock shows when
it is read, when it opens a window, and when it is added to one. -/
structure RawMessage where
  timestamp : Nat
  value : Option String
  currentTimeMillis : Int64
  opened : LocalDateTime
  added : LocalDateTime

/-- A flow on its way into a window, null or not. -/
structure Arrival where
  flow : Option Flow
  opened : LocalDateTime
  added : LocalDateTime

/-- What the service takes from outside.  `asDouble` gives a `double`, and UTF-8 is decoded as it
was encoded: a `String` here has no unpaired surrogates, which `getBytes` writes as `?`. -/
structure Libraries where
  jackson : Jackson
  zone : Zone
  flowMapper : TimeMapper
  aggregateMapper : ObjectMapper
  newString : ByteArray → String
  streams : TumblingAggregation Arrival AggregatedFlow
  asDouble_decimal : ∀ v, IsDecimal (jackson.asDouble v)
  newString_toUTF8 : ∀ s : String, newString s.toUTF8 = s

/-- The libraries over the verified parser, on a host whose clock stands at noon. -/
def Libraries.reference : Libraries where
  jackson := .reference
  zone _ := noon
  flowMapper := .reference
  aggregateMapper := .reference
  newString data := (String.fromUTF8? data).getD ""
  streams := .reference
  asDouble_decimal v := by
    cases v with
    | num n => exact isDecimal_value n
    | null => exact isDecimal_intCast 0
    | bool b => exact isDecimal_intCast 0
    | str s => exact isDecimal_intCast 0
    | arr elems => exact isDecimal_intCast 0
    | obj fields => exact isDecimal_intCast 0
  newString_toUTF8 s := by rw [Json.fromUTF8_toUTF8, Option.getD_some]

/-- `Duration.ofSeconds(windowSize)`, in milliseconds. -/
def windowMillis : Nat := 10 * 1000

section Topology

variable (libs : Libraries)

/-- `mapValues`: null for whatever cannot be read, a null value among it. -/
def parse (message : RawMessage) : Option Flow :=
  message.value.bind (fun json => readJson libs.jackson libs.zone json message.currentTimeMillis)

/-- A flow through the repartition topic, by way of `flowSerde`; `none` stops the thread.  A flow
with a null in it has no counterpart here, and none is written. -/
def repartition (flow : Flow) : Option (Option Flow) :=
  match FlowDeserializer_deserialize libs.flowMapper
      (FlowSerializer_serialize libs.flowMapper (some (FlowBean.of flow))) with
  | .ok none => some none
  | .ok (some bean) => bean.flow?.map some
  | .error _ => none

/-- `mapValues`, the filter behind it, and `groupBy`. -/
def arrivals (messages : List RawMessage) : Option (List (Nat × Arrival)) :=
  (messages.filterMap (fun message => (parse libs message).map (fun flow => (message, flow)))).mapM
    (fun read => (repartition libs read.2).map (fun flow =>
      (read.1.timestamp, ⟨flow, read.1.opened, read.1.added⟩)))

/-- `aggSerializer`. -/
def aggSerializer (data : Option AggregatedFlow) : Option ByteArray :=
  data.map (fun agg => (toInternalJsonString libs.aggregateMapper agg).toUTF8)

/-- `aggDeserializer`: null for whatever cannot be read. -/
def aggDeserializer (data : Option ByteArray) : Option AggregatedFlow :=
  data.bind (fun data => fromInternalJsonString libs.aggregateMapper (libs.newString data))

/-- The two lambdas of `aggregate`, and its store. -/
def aggregation : Aggregation Arrival AggregatedFlow where
  initializer arrival := AggregatedFlow.fresh (some arrival.opened)
  aggregator aggregate arrival :=
    match arrival.flow with
    | none => aggregate
    | some flow => addFlow aggregate flow arrival.added
  roundTrip aggregate := aggDeserializer libs (aggSerializer libs (some aggregate))

/-- The topology: the records of `network-microflows-aggregated`, or `none` if the thread stops on
the way. -/
def topology (messages : List RawMessage) : Option (List (String × String)) :=
  (arrivals libs messages).map (fun records =>
    (libs.streams.results (aggregation libs) windowMillis records).map (fun result =>
      ("global-key", toJsonString libs.aggregateMapper result.2)))

/-! ## §2. What the service is for. -/

/-- A readable message, by its timestamp: the flow and the two instants. -/
def readable (messages : List RawMessage) : List (Nat × Flow × RawMessage) :=
  messages.filterMap (fun message =>
    (parse libs message).map (fun flow => (message.timestamp, flow, message)))

/-- The windows to publish. -/
def windows (messages : List RawMessage) : List Nat :=
  closedWindows windowMillis (readable libs messages)

/-- The flows of a window, in the order of arrival. -/
def flowsIn (messages : List RawMessage) (start : Nat) : List (Flow × RawMessage) :=
  valuesIn windowMillis (readable libs messages) start

/-- The flows in windows that have not been closed. -/
def pendingFlows (messages : List RawMessage) : List (Flow × RawMessage) :=
  pending windowMillis (readable libs messages)

/-- The flows that Kafka Streams drops. -/
def lateFlows (messages : List RawMessage) : List (Flow × RawMessage) :=
  late windowMillis (readable libs messages)

/-- The aggregate of some flows, opened by the first of them. -/
def windowAggregate : List (Flow × RawMessage) → AggregatedFlow
  | [] => AggregatedFlow.fresh none
  | read :: reads =>
      addFlows (AggregatedFlow.fresh (some read.2.opened))
        ((read :: reads).map (fun read => (read.1, read.2.added)))

/-! ## §3. One stage after the other. -/

variable {libs}

/-- A flow that was read has a mean that can be written. -/
theorem parse_decimal {message : RawMessage} {flow : Flow} (h : parse libs message = some flow) :
    IsDecimal flow.mean_iat_us := by
  obtain ⟨json, -, hread⟩ := Option.bind_eq_some_iff.mp h
  have hmean : ∀ flow, readJson libs.jackson libs.zone json message.currentTimeMillis = some flow →
      ∃ v, flow.mean_iat_us = libs.jackson.asDouble v := by
    unfold readJson
    -- every line may throw; the mean is what one of them reads
    repeat
      refine forall_bind ?_
      intro _
    intro flow h
    rw [← Option.some.inj h]
    exact ⟨_, rfl⟩
  obtain ⟨v, hv⟩ := hmean flow hread
  rw [hv]
  exact libs.asDouble_decimal v

/-- The repartition topic changes nothing. -/
theorem repartition_eq {flow : Flow} (h : IsDecimal flow.mean_iat_us) :
    repartition libs flow = some (some flow) := by
  unfold repartition
  rw [deserialize_serialize libs.flowMapper (FlowBean.of flow) h]
  dsimp only
  rw [FlowBean.flow?_of, Option.map_some]

/-- What arrives for a readable message. -/
def arrival (read : Flow × RawMessage) : Arrival := ⟨some read.1, read.2.opened, read.2.added⟩

/-- **What arrives are the flows that can be read**, and nothing stops the thread. -/
theorem arrivals_eq (messages : List RawMessage) :
    arrivals libs messages
      = some ((readable libs messages).map (fun read => (read.1, arrival read.2))) := by
  unfold arrivals readable
  induction messages with
  | nil => rfl
  | cons message messages ih =>
      cases h : parse libs message with
      | none =>
          rw [List.filterMap_cons_none (by rw [h]; rfl), List.filterMap_cons_none (by rw [h]; rfl)]
          exact ih
      | some flow =>
          rw [List.filterMap_cons_some (b := (message, flow)) (by rw [h]; rfl),
            List.filterMap_cons_some (b := (message.timestamp, flow, message)) (by rw [h]; rfl),
            List.mapM_cons, ih, repartition_eq (parse_decimal h)]
          rfl

/-- The store cuts the timestamps to milliseconds and keeps the rest, `flowKeys` included. -/
theorem roundTrip_eq (agg : AggregatedFlow) :
    (aggregation libs).roundTrip agg = some (clipped agg) := by
  show fromInternalJsonString libs.aggregateMapper
    (libs.newString (toInternalJsonString libs.aggregateMapper agg).toUTF8) = _
  rw [libs.newString_toUTF8]
  exact round_trip agg

/-- `addFlow` reads no timestamp, and overwrites the end. -/
theorem clipped_addFlow {agg agg' : AggregatedFlow} (h : clipped agg = clipped agg') (flow : Flow)
    (now : LocalDateTime) : clipped (addFlow agg flow now) = clipped (addFlow agg' flow now) := by
  unfold clipped at h
  rw [AggregatedFlow.mk.injEq] at h
  obtain ⟨hstart, -, hin, hout, hpin, hpout, hcount, hkeys, hsyn, hack, hfin, hrst⟩ := h
  rw [addFlow_eq, addFlow_eq]
  unfold clipped
  dsimp only
  rw [hstart, hin, hout, hpin, hpout, hcount, hkeys, hsyn, hack, hfin, hrst]

/-- The direct fold of what arrives is the aggregate of the flows. -/
theorem direct_arrivals {reads : List (Flow × RawMessage)} {d : AggregatedFlow}
    (h : (aggregation libs).direct (reads.map arrival) = some d) : d = windowAggregate reads := by
  cases reads with
  | nil => cases h
  | cons read reads =>
      rw [List.map_cons, Aggregation.direct, Option.some.injEq, List.foldl_map] at h
      rw [← h]
      unfold windowAggregate addFlows
      dsimp only
      rw [List.map_cons, List.foldl_cons, List.foldl_map]
      rfl

/-- **However often the aggregate of a window goes through the store, it is that of its flows**,
up to the milliseconds. -/
theorem folded_arrivals {reads : List (Flow × RawMessage)} {agg : AggregatedFlow}
    (h : Folded (aggregation libs) (reads.map arrival) agg) :
    clipped agg = clipped (windowAggregate reads) := by
  have hnext : ∀ (b d : AggregatedFlow) (v : Arrival), clipped b = clipped d →
      clipped ((aggregation libs).aggregator b v)
        = clipped ((aggregation libs).aggregator d v) := by
    rintro b d ⟨flow, opened, added⟩ hsame
    cases flow with
    | none => exact hsame
    | some flow => exact clipped_addFlow hsame flow added
  have hstored : ∀ b b' d : AggregatedFlow, clipped b = clipped d →
      (aggregation libs).roundTrip b = some b' → clipped b' = clipped d := by
    intro b b' d hsame hb
    rw [roundTrip_eq, Option.some.injEq] at hb
    rw [← hb, clipped_clipped, hsame]
  obtain ⟨d, hd, hsame⟩ := h.induct_direct (fun b d => clipped b = clipped d) (fun _ => rfl)
    hnext hstored
  rw [hsame, direct_arrivals hd]

/-! ## §4. The output topic. -/

variable (libs)

/-- What is in a record of the output topic, for the flows of its window. -/
def Publishes (reads : List (Flow × RawMessage)) (record : String × String) : Prop :=
  record.1 = "global-key"
    ∧ fromJsonString libs.aggregateMapper record.2 = some (clipped (windowAggregate reads))

/-- **The topology never stops, and publishes each closed window once**, in order, as the aggregate
of the flows that arrived in time. -/
theorem topology_publishes (messages : List RawMessage) :
    ∃ output, topology libs messages = some output
      ∧ List.Forall₂ (fun start record => Publishes libs (flowsIn libs messages start) record)
          (windows libs messages) output := by
  have hfinal := libs.streams.final (aggregation libs) windowMillis
    ((readable libs messages).map (fun read => (read.1, arrival read.2))) (by decide)
    (fun b => by rw [roundTrip_eq]; rfl)
  unfold FinalResults at hfinal
  rw [closedWindows_map] at hfinal
  refine ⟨_, by unfold topology; rw [arrivals_eq, Option.map_some], ?_⟩
  rw [List.forall₂_map_right_iff]
  refine hfinal.imp ?_
  rintro start result ⟨-, hfolded⟩
  rw [valuesIn_map] at hfolded
  refine ⟨rfl, ?_⟩
  dsimp only
  rw [public_round_trip, folded_arrivals hfolded]
  rfl

/-- The record of a window: the one key there is, and a text that reads back as the exact aggregate
of the window's flows, from the moment the first opened it to the moment the last was added. -/
structure PublishedWindow (reads : List (Flow × RawMessage)) (record : String × String) : Prop where
  key : record.1 = "global-key"
  value : ∃ agg, fromJsonString libs.aggregateMapper record.2 = some agg
    ∧ IsAggregate agg (reads.map Prod.fst)
    ∧ agg.timestamp_start = reads.head?.map (fun read => read.2.opened.toMillis)
    ∧ agg.timestamp_end = reads.getLast?.map (fun read => read.2.added.toMillis)

/-- The end is the instant of the last call. -/
theorem addFlows_timestamp_end (agg : AggregatedFlow) (calls : List (Flow × LocalDateTime))
    (call : Flow × LocalDateTime) :
    (addFlows agg (calls ++ [call])).timestamp_end = some call.2 := by
  rw [addFlows, List.foldl_concat, addFlow_eq]

/-- The store and the text cost the aggregate nothing but the digits after the millisecond. -/
theorem isAggregate_windowAggregate (reads : List (Flow × RawMessage)) :
    IsAggregate (clipped (windowAggregate reads)) (reads.map Prod.fst) := by
  cases reads with
  | nil => exact { isAggregate_fresh none with }
  | cons read reads =>
      have hcalls := isAggregate_addFlows (some read.2.opened)
        ((read :: reads).map (fun read => (read.1, read.2.added)))
      rw [List.map_map] at hcalls
      exact { hcalls with }

theorem publishedWindow {reads : List (Flow × RawMessage)} {record : String × String}
    (hne : reads ≠ []) (h : Publishes libs reads record) : PublishedWindow libs reads record := by
  refine ⟨h.1, _, h.2, isAggregate_windowAggregate reads, ?_, ?_⟩
  · cases reads with
    | nil => exact absurd rfl hne
    | cons read reads =>
        show ((addFlows (AggregatedFlow.fresh (some read.2.opened)) _).timestamp_start).map
          LocalDateTime.toMillis = _
        rw [addFlows_timestamp_start]
        rfl
  · obtain ⟨before, last, rfl⟩ := (List.eq_nil_or_concat' reads).resolve_left hne
    have hend : (windowAggregate (before ++ [last])).timestamp_end = some last.2.added := by
      cases before with
      | nil => exact addFlows_timestamp_end _ [] _
      | cons read before =>
          show (addFlows (AggregatedFlow.fresh (some read.2.opened))
            ((read :: (before ++ [last])).map
              (fun read => (read.1, read.2.added)))).timestamp_end = _
          rw [← List.cons_append, List.map_append]
          exact addFlows_timestamp_end _ _ _
    show (windowAggregate (before ++ [last])).timestamp_end.map LocalDateTime.toMillis = _
    rw [hend, List.getLast?_concat]
    rfl

theorem readable_filter (messages : List RawMessage) :
    readable libs (messages.filter (fun message => (parse libs message).isSome))
      = readable libs messages := by
  unfold readable
  rw [List.filterMap_filter]
  congr 1
  funext message
  cases parse libs message <;> rfl

/-- A message that cannot be read leaves no trace. -/
theorem topology_filter (messages : List RawMessage) :
    topology libs (messages.filter (fun message => (parse libs message).isSome))
      = topology libs messages := by
  unfold topology
  rw [arrivals_eq, arrivals_eq, readable_filter]

/-- **One record for each window.**  Whatever the messages, the thread does not stop; the output
topic holds one record for each closed window that accepted a flow, in the order of the windows,
with the exact aggregate of its flows; and it would be the same without the messages that cannot
be read. -/
theorem published_windows (messages : List RawMessage) :
    ∃ output, topology libs messages = some output
      ∧ topology libs (messages.filter (fun message => (parse libs message).isSome)) = some output
      ∧ List.Forall₂
          (fun start record => PublishedWindow libs (flowsIn libs messages start) record)
          (windows libs messages) output := by
  obtain ⟨output, houtput, hrecords⟩ := topology_publishes libs messages
  refine ⟨output, houtput, by rw [topology_filter, houtput], ?_⟩
  rw [List.forall₂_iff_get] at hrecords ⊢
  refine ⟨hrecords.1, ?_⟩
  intro i hi hi'
  exact publishedWindow libs (valuesIn_ne_nil (List.get_mem _ _)) (hrecords.2 i hi hi')

end Topology

end App

end KafKatch.Core
