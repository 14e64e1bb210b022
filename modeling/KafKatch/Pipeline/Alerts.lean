/-
  KafKatch.Pipeline.Alerts
  ────────────────────────
  **FROM RAW MICROFLOWS TO POPUPS** (`OutputWatcher.java`, `WarningSerializer.java`,
  `WarningDeserializer.java`).

  The watcher reads the aggregates that the aggregation service publishes, gives each to the
  detector over its stores of bytes, and writes every warning it returns to `network-warnings`;
  the alert viewer reads them there.  Nothing gets lost on the way: a warning is read back as it
  was written (`deserialize_warning`), the watcher writes what the detector says about the
  aggregates it can read (`watch_run`), and the popups are the warnings about the closed windows,
  in order, each with the type of its severity (`popups_of_windows`).

  All records of a topic are in one partition: the aggregation service uses one key.
-/
import KafKatch.AlertViewer.App
import KafKatch.Core.App
import KafKatch.Notification.Detection
import KafKatch.Notification.LimitAlerts
import KafKatch.Notification.RollingStore

namespace KafKatch.Pipeline

open KafKatch.Lib KafKatch.Lib.Property KafKatch.Core KafKatch.Notification

/-! ## §1. Warnings as bytes. -/

section WarningSerde

variable (mapper : PlainMapper)

/-- The fields of `Warning`, each with a getter and a setter. -/
def warning_properties : List (Property Empty AlertViewer.Warning) :=
  [.ofField "severidade" (nullable .str) mapper.readString (·.severidade)
      (fun warning s => { warning with severidade := s }),
   .ofField "descricao" (nullable .str) mapper.readString (·.descricao)
      (fun warning s => { warning with descricao := s })]

/-- `WarningSerializer.serialize`; null stays null. -/
def WarningSerializer_serialize (data : Option AlertViewer.Warning) : Option ByteArray :=
  data.map (fun warning => mapper.writeBytes (toTree (warning_properties mapper) none warning))

/-- `objectMapper.readValue(data, Warning.class)`, starting from `new Warning()`; the document
`null` is null. -/
def readWarning (data : List UInt8) : Except String (Option AlertViewer.Warning) :=
  match mapper.readBytes ⟨data.toArray⟩ with
  | none => .error "JsonParseException"
  | some .null => .ok none
  | some v =>
      match fromKnownTree (warning_properties mapper) none ⟨none, none⟩ v with
      | some warning => .ok (some warning)
      | none => .error "JsonMappingException"

/-- The viewer with the same mapper. -/
def viewer (toast : List AlertViewer.Event → AlertViewer.ToastType → String → Option String →
      Except String Unit)
    (pollMessage : String → String) : AlertViewer.Env where
  readValue := readWarning mapper
  toast := toast
  pollMessage := pollMessage

theorem warning_values_distinctNames (warning : AlertViewer.Warning) :
    ∀ p ∈ warning_properties mapper, (p.write warning).distinctNames = true := by
  have hstring : ∀ s, (nullable Json.str s).distinctNames = true :=
    nullable_distinctNames (fun _ => rfl)
  simp only [warning_properties, List.forall_mem_cons, List.not_mem_nil, false_imp_iff,
    implies_true, and_true]
  exact ⟨hstring _, hstring _⟩

/-- **A warning is read back as it was written.** -/
theorem deserialize_warning
    (toast : List AlertViewer.Event → AlertViewer.ToastType → String → Option String →
      Except String Unit)
    (pollMessage : String → String) (warning : AlertViewer.Warning) :
    AlertViewer.deserialize (viewer mapper toast pollMessage)
        ((WarningSerializer_serialize mapper (some warning)).map (fun data => data.data.toList))
      = .ok (some warning) := by
  have hnames : ((warning_properties mapper).map Property.name).Nodup := by
    show ["severidade", "descricao"].Nodup
    decide
  have htree : fromKnownTree (warning_properties mapper) none ⟨none, none⟩
      (toTree (warning_properties mapper) none warning) = some warning := by
    rw [fromKnownTree_toTree, fromTree_toTree hnames]
    have hall : (warning_properties mapper).filter (Property.included none)
        = warning_properties mapper := rfl
    rw [hall]
    unfold warning_properties
    simp only [List.foldlM_cons, List.foldlM_nil,
      restore_ofField (read_nullable mapper.readString_null mapper.readString_text),
      Option.bind_eq_bind, Option.bind_some]
    rfl
  have hread : readWarning mapper
      (mapper.writeBytes (toTree (warning_properties mapper) none warning)).data.toList
        = .ok (some warning) := by
    unfold readWarning
    rw [Array.toArray_toList, mapper.readBytes_writeBytes _ (toTree_distinctNames hnames warning
      (warning_values_distinctNames mapper warning))]
    dsimp only [toTree] at htree ⊢
    rw [htree]
  unfold AlertViewer.deserialize WarningSerializer_serialize
  rw [Option.map_some, Option.map_some]
  dsimp only [viewer]
  rw [hread]

end WarningSerde

/-! ## §2. The watcher. -/

/-- A record of `network-microflows-aggregated`, and which store accesses throw while it is
processed. -/
structure Input where
  key : Option String
  value : Option String
  faults : Faults

/-- The stores, and the records written to `network-warnings`. -/
structure WatcherState where
  stores : ByteStores
  warnings : List (Option String × Option ByteArray)

/-- A warning of the detector: no field of it is null. -/
def wire (warning : Warning) : AlertViewer.Warning :=
  ⟨some warning.severidade, some warning.descricao⟩

section Watcher

variable (aggregateMapper : ObjectMapper) (mapper : PlainMapper)
  (cfg : AnomalyDetectorTransformer)

/-- `mapValues`: null for whatever cannot be read, a null value among it. -/
def parseAggregate (value : Option String) : Option AggregatedFlow :=
  value.bind (fromJsonString aggregateMapper)

/-- One record through the topology; `none` stops the thread. -/
def watchStep (s : WatcherState) (input : Input) : Option WatcherState :=
  match parseAggregate aggregateMapper input.value with
  | none => some s
  | some value =>
      let after := (bytes_transform mapper cfg input.faults input.key (some value)).runOn s.stores
      match after.1 with
      | .error _ => none
      | .ok list =>
          some
            { stores := after.2
              warnings := s.warnings ++ list.map (fun warning =>
                (input.key, WarningSerializer_serialize mapper (some (wire warning)))) }

/-- The topology, from empty stores. -/
def watch (inputs : List Input) : Option WatcherState :=
  run (watchStep aggregateMapper mapper cfg) ⟨fun _ _ => none, []⟩ inputs

/-- The steps of the detector: the inputs that can be read. -/
def stepsOf (inputs : List Input) : List Step :=
  inputs.filterMap (fun input =>
    (parseAggregate aggregateMapper input.value).map (fun value =>
      ⟨⟨input.key, some value⟩, input.faults⟩))

/-- The warnings of the detector for one record after others. -/
def returnedList (past : List Step) (s : Step) : List Warning :=
  match returnedAfter cfg past s with
  | .ok list => list
  | .error _ => []

/-- What the detector says in a run that goes on after `past`, record by record. -/
def said : List Step → List Step → List (Option String × Warning)
  | _, [] => []
  | past, s :: rest =>
      (returnedList cfg past s).map (fun warning => (s.record.key, warning))
        ++ said (past ++ [s]) rest

theorem said_concat (past steps : List Step) (s : Step) :
    said cfg past (steps ++ [s])
      = said cfg past steps
        ++ (returnedList cfg (past ++ steps) s).map (fun warning => (s.record.key, warning)) := by
  induction steps generalizing past with
  | nil =>
      rw [List.nil_append, said, said, said, List.append_nil, List.append_nil, List.nil_append]
  | cons step steps ih =>
      rw [List.cons_append, said, said, ih, List.append_assoc, List.append_assoc,
        List.singleton_append]

/-- **The watcher writes what the detector says about the aggregates that can be read**, whatever
its stores throw, and its thread never stops. -/
theorem watch_run (inputs : List Input) :
    watch aggregateMapper mapper cfg inputs = some
      { stores := bytesAfter mapper cfg (stepsOf aggregateMapper inputs)
        warnings := (said cfg [] (stepsOf aggregateMapper inputs)).map (fun warning =>
          (warning.1, WarningSerializer_serialize mapper (some (wire warning.2)))) } := by
  unfold watch
  induction inputs using List.reverseRecOn with
  | nil => rfl
  | append_singleton inputs input ih =>
      rw [run_concat, ih, Option.bind_some]
      unfold watchStep stepsOf
      rw [List.filterMap_append]
      cases hvalue : parseAggregate aggregateMapper input.value with
      | none =>
          rw [List.filterMap_cons_none (by rw [hvalue]; rfl), List.filterMap_nil, List.append_nil]
      | some value =>
          rw [List.filterMap_cons_some (b := ⟨⟨input.key, some value⟩, input.faults⟩)
            (by rw [hvalue]; rfl), List.filterMap_nil, ← stepsOf]
          -- the detector over bytes returns, and returns what it returns over objects
          have hreturned := bytesReturned_eq mapper cfg (stepsOf aggregateMapper inputs)
            ⟨⟨input.key, some value⟩, input.faults⟩
          have hok := returnedAfter_eq cfg (stepsOf aggregateMapper inputs)
            ⟨⟨input.key, some value⟩, input.faults⟩
          unfold bytesReturned at hreturned
          dsimp only at hreturned ⊢
          rw [hreturned, hok]
          dsimp only
          rw [said_concat, List.nil_append]
          unfold returnedList bytesAfter
          simp only [hok, List.foldl_concat, List.map_append, List.map_map]
          rfl

end Watcher

/-! ## §3. The popups. -/

/-- A popup: its type, its title and its text. -/
abbrev Popup := AlertViewer.ToastType × String × Option String

/-- The popups among the events of the viewer. -/
def popups (events : List AlertViewer.Event) : List Popup :=
  events.filterMap fun
    | .toast warning type titulo => some (type, titulo, warning.descricao)
    | _ => none

/-- The popup of a warning. -/
def popupOf (warning : AlertViewer.Warning) : Popup :=
  ((AlertViewer.Notifier.toastTypeFor warning.severidade).2,
    "Alerta de rede [" ++ AlertViewer.concat warning.severidade ++ "]", warning.descricao)

/-- From the first poll on, the popups are those of the records that can be decoded. -/
theorem popups_polled (env : AlertViewer.Env) (log : List (Option (List UInt8))) (k : Nat) :
    popups (AlertViewer.App.polled env log (k + 1))
      = (decodable (AlertViewer.deserialize env) log).flatMap
          (fun value => value.toList.map popupOf) :=
  AlertViewer.popupsBy_succ env (fun warning type titulo => (type, titulo, warning.descricao)) log k

/-! ## §4. All stages together. -/

/-- What the detector is expected to say about some records that come after `past`. -/
def warned (cfg : AnomalyDetectorTransformer) : List Record → List Record → List Warning
  | _, [] => []
  | past, r :: rest => expected cfg past r ++ warned cfg (past ++ [r]) rest

section Warned

variable {cfg : AnomalyDetectorTransformer}

/-- In a run in which nothing throws the detector says what is expected. -/
theorem returnedList_steps (hsize : 0 ≤ cfg.windowSize.toInt) (past : List Record) (r : Record) :
    returnedList cfg (steps past) ⟨r, noFaults⟩ = expected cfg past r := by
  unfold returnedList
  rw [returnedAfter_steps hsize]

theorem said_steps (hsize : 0 ≤ cfg.windowSize.toInt) (past records : List Record) :
    (said cfg (steps past) (steps records)).map Prod.snd = warned cfg past records := by
  induction records generalizing past with
  | nil => rfl
  | cons r records ih =>
      have hpast : steps past ++ [⟨r, noFaults⟩] = steps (past ++ [r]) := by
        unfold steps
        rw [List.map_append]
        rfl
      show (said cfg (steps past) (⟨r, noFaults⟩ :: steps records)).map Prod.snd = _
      rw [said, warned, List.map_append, List.map_map, hpast, ih, returnedList_steps hsize]
      congr 1
      exact List.map_id _

/-- The severities the viewer knows, with their types; none of them makes it complain. -/
def knownSeverities : List (String × List AlertViewer.Event × AlertViewer.ToastType) :=
  [("alta", [], .ERROR), ("media", [], .WARNING), ("regular", [], .INFO)]

/-- What `toastTypeFor` says about a severity. -/
def typed (severidade : String) : String × List AlertViewer.Event × AlertViewer.ToastType :=
  (severidade, AlertViewer.Notifier.toastTypeFor (some severidade))

theorem warningAgainst_known {window : List Int64} {current : Int64} {label : String}
    {warning : Warning} (h : warningAgainst cfg window current label = some warning) :
    typed warning.severidade ∈ knownSeverities := by
  have halta : typed "alta" ∈ knownSeverities := by decide +kernel
  have hmedia : typed "media" ∈ knownSeverities := by decide +kernel
  have hregular : typed "regular" ∈ knownSeverities := by decide +kernel
  obtain ⟨-, severity, hmem, -, rfl⟩ := warningAgainst_some h
  simp only [severities, List.mem_cons, List.not_mem_nil, or_false] at hmem
  rcases hmem with rfl | rfl | rfl
  · exact halta
  · exact hmedia
  · exact hregular

/-- **The viewer knows every severity the detector uses.** -/
theorem warned_known (past records : List Record) :
    ∀ warning ∈ warned cfg past records, typed warning.severidade ∈ knownSeverities := by
  induction records generalizing past with
  | nil => exact fun _ h => absurd h List.not_mem_nil
  | cons r records ih =>
      intro warning h
      rcases List.mem_append.mp h with h | h
      · obtain ⟨m, -, hm⟩ := List.mem_filterMap.mp h
        obtain ⟨value, -, hwarning⟩ := Option.bind_eq_some_iff.mp hm
        exact warningAgainst_known hwarning
      · exact ih _ warning h

end Warned

section AllStages

variable (libs : App.Libraries) (mapper : PlainMapper)

/-- The closed windows, as the watcher reads them. -/
def windowRecords (messages : List App.RawMessage) : List Record :=
  (App.windows libs messages).map (fun start =>
    ⟨some "global-key", some (clipped (App.windowAggregate (App.flowsIn libs messages start)))⟩)

/-- A published record, read by a watcher whose stores do not fail. -/
def inputOf (record : String × String) : Input := ⟨some record.1, some record.2, noFaults⟩

/-- What the watcher reads are the closed windows. -/
theorem stepsOf_published {messages : List App.RawMessage} {output : List (String × String)}
    (h : List.Forall₂ (fun start record =>
      App.Publishes libs (App.flowsIn libs messages start) record)
        (App.windows libs messages) output) :
    stepsOf libs.aggregateMapper (output.map inputOf) = steps (windowRecords libs messages) := by
  unfold windowRecords
  generalize App.windows libs messages = starts at h
  induction h with
  | nil => rfl
  | @cons start record starts records hrecord _ ih =>
      obtain ⟨hkey, hread⟩ := hrecord
      have hparse : parseAggregate libs.aggregateMapper (inputOf record).value
          = some (clipped (App.windowAggregate (App.flowsIn libs messages start))) := hread
      unfold stepsOf at ih ⊢
      rw [List.map_cons, List.filterMap_cons_some
        (b := ⟨⟨(inputOf record).key, some (clipped (App.windowAggregate
          (App.flowsIn libs messages start)))⟩, (inputOf record).faults⟩) (by rw [hparse]; rfl), ih]
      rw [← hkey]
      rfl

/-- What the viewer decodes of a topic that the watcher wrote. -/
theorem decodable_warnings
    (toast : List AlertViewer.Event → AlertViewer.ToastType → String → Option String →
      Except String Unit)
    (pollMessage : String → String) (warnings : List (Option String × Warning)) :
    decodable (AlertViewer.deserialize (viewer mapper toast pollMessage))
        ((warnings.map (fun warning =>
            (warning.1, WarningSerializer_serialize mapper (some (wire warning.2))))).map
          (fun record => record.2.map (fun data => data.data.toList)))
      = (warnings.map Prod.snd).map (fun warning => some (wire warning)) := by
  induction warnings with
  | nil => rfl
  | cons warning warnings ih =>
      rw [List.map_cons, List.map_cons, List.map_cons, List.map_cons,
        decodable_cons_ok (deserialize_warning mapper toast pollMessage (wire warning.2)), ih]

section Screen

variable (toast : List AlertViewer.Event → AlertViewer.ToastType → String → Option String →
    Except String Unit)
  (pollMessage : String → String)

/-- What the viewer shows of the topic that the watcher leaves behind. -/
def shown (state : WatcherState) (k : Nat) : List Popup :=
  popups (AlertViewer.App.polled (viewer mapper toast pollMessage)
    (state.warnings.map (fun record => record.2.map (fun data => data.data.toList))) (k + 1))

/-- From the first poll on, the viewer shows what the detector says. -/
theorem shown_watch (cfg : AnomalyDetectorTransformer) (inputs : List Input) :
    ∃ state, watch libs.aggregateMapper mapper cfg inputs = some state
      ∧ ∀ k, shown mapper toast pollMessage state k
          = (said cfg [] (stepsOf libs.aggregateMapper inputs)).map
              (fun warning => popupOf (wire warning.2)) := by
  refine ⟨_, watch_run libs.aggregateMapper mapper cfg inputs, ?_⟩
  intro k
  unfold shown
  rw [popups_polled, decodable_warnings, List.flatMap_map, List.flatMap_map, List.map_eq_flatMap]
  rfl

/-- **Every warning reaches the screen, and nothing else does.**  Whatever the records of the topic
and whatever the stores of the watcher throw, its thread does not stop, and from its first poll on
the viewer has raised one popup for each warning the detector returned, in order.  Records that
cannot be read leave no trace. -/
theorem warnings_shown (cfg : AnomalyDetectorTransformer) (inputs : List Input) :
    ∃ state, watch libs.aggregateMapper mapper cfg inputs = some state
      ∧ watch libs.aggregateMapper mapper cfg (inputs.filter (fun input =>
          (parseAggregate libs.aggregateMapper input.value).isSome)) = some state
      ∧ ∀ k, shown mapper toast pollMessage state k
          = (said cfg [] (stepsOf libs.aggregateMapper inputs)).map
              (fun warning => popupOf (wire warning.2)) := by
  obtain ⟨state, hwatch, hshown⟩ := shown_watch libs mapper toast pollMessage cfg inputs
  have hread : stepsOf libs.aggregateMapper (inputs.filter (fun input =>
      (parseAggregate libs.aggregateMapper input.value).isSome))
        = stepsOf libs.aggregateMapper inputs := by
    unfold stepsOf
    rw [List.filterMap_filter]
    congr 1
    funext input
    cases parseAggregate libs.aggregateMapper input.value <;> rfl
  refine ⟨state, hwatch, ?_, hshown⟩
  rw [watch_run, hread, ← watch_run, hwatch]

/-- **The popups are the warnings about the closed windows.**  Whatever the raw messages, neither
service stops, and from its first poll on the viewer has raised one popup for every warning that
the detector is expected to give for the closed windows, in their order, each with the title, the
text and the type of its severity. -/
theorem popups_of_windows (messages : List App.RawMessage) (k : Nat) :
    ∃ output state,
      App.topology libs messages = some output
      ∧ watch libs.aggregateMapper mapper watcher (output.map inputOf) = some state
      ∧ shown mapper toast pollMessage state k
        = (warned watcher [] (windowRecords libs messages)).map
            (fun warning => popupOf (wire warning))
      ∧ ∀ warning ∈ warned watcher [] (windowRecords libs messages),
          typed warning.severidade ∈ knownSeverities := by
  obtain ⟨output, houtput, hrecords⟩ := App.topology_publishes libs messages
  obtain ⟨state, hwatch, hshown⟩ :=
    shown_watch libs mapper toast pollMessage watcher (output.map inputOf)
  refine ⟨output, state, houtput, hwatch, ?_, warned_known [] _⟩
  have hsteps : stepsOf libs.aggregateMapper (output.map inputOf)
      = steps (windowRecords libs messages) := stepsOf_published libs hrecords
  have hsaid : (said watcher [] (steps (windowRecords libs messages))).map Prod.snd
      = warned watcher [] (windowRecords libs messages) :=
    said_steps (by decide) [] (windowRecords libs messages)
  rw [hshown, hsteps, ← hsaid, List.map_map]
  rfl

end Screen

/-! ## §5. The popups of the older application. -/

section Limits

open KafKatch.Notification.App

/-- The aggregates of the closed windows, as they are read back. -/
def windowAggregates (messages : List App.RawMessage) : List AggregatedFlow :=
  (App.windows libs messages).map (fun start =>
    clipped (App.windowAggregate (App.flowsIn libs messages start)))

/-- The application reads the closed windows, and no null. -/
theorem values_published {messages : List App.RawMessage} {starts : List Nat}
    {records : List (String × String)}
    (h : List.Forall₂ (fun start record =>
      App.Publishes libs (App.flowsIn libs messages start) record) starts records) :
    (records.map (fun record => some record.2)).filterMap (readAggregate libs.aggregateMapper)
      = (starts.map (fun start =>
          clipped (App.windowAggregate (App.flowsIn libs messages start)))).map some := by
  induction h with
  | nil => rfl
  | @cons start record starts records hrecord _ ih =>
      rw [List.map_cons, List.map_cons, List.map_cons,
        List.filterMap_cons_some (readAggregate_of_fromJsonString hrecord.2), ih]

/-- **The limits are checked against the closed windows.**  Whatever the raw messages, wherever in
the topic the application subscribed and however its polls cut it, the popups raised are those of
the windows from there on whose exact aggregates exceed a limit, in order, and the notifier
describes the last sixty of them. -/
theorem limit_alerts_of_windows (throws : Nat → Toast → Bool) (messages : List App.RawMessage) :
    ∃ output, App.topology libs messages = some output
      ∧ ∀ (position : Nat) (polls : List (List (Option String))),
          polls.flatten = (output.drop position).map (fun record => some record.2) →
            (main libs.aggregateMapper throws polls).toasts
                = start.toasts
                  ++ worth throws 0 (((windowAggregates libs messages).drop position).map some)
              ∧ Follows (main libs.aggregateMapper throws polls).notifier.notifier 60
                  ((windowAggregates libs messages).drop position) := by
  obtain ⟨output, houtput, hrecords⟩ := App.topology_publishes libs messages
  refine ⟨output, houtput, ?_⟩
  intro position polls hpolls
  have hvalues : values libs.aggregateMapper polls
      = ((windowAggregates libs messages).drop position).map some := by
    unfold values windowAggregates
    rw [hpolls, values_published libs (List.forall₂_drop position hrecords), List.map_drop]
  have hnull : none ∉ values libs.aggregateMapper polls := by
    rw [hvalues]
    intro hmem
    obtain ⟨_, _, hnone⟩ := List.mem_map.mp hmem
    cases hnone
  have hsome : (values libs.aggregateMapper polls).reduceOption
      = (windowAggregates libs messages).drop position := by
    rw [hvalues, List.reduceOption, List.filterMap_map]
    exact List.filterMap_some
  obtain ⟨hfollows, htoasts⟩ := follows_foldl throws hnull
  rw [main_eq, htoasts, ← hvalues]
  rw [hsome] at hfollows
  exact ⟨rfl, hfollows⟩

end Limits

end AllStages

end KafKatch.Pipeline
