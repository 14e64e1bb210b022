/-
  KafKatch.Notification.RollingStore
  ──────────────────────────────────
  **THE DETECTOR OVER STORES OF BYTES** (`RollingStatsSerializer.java`,
  `RollingStatsDeserializer.java`, `addRollingStore` in `OutputWatcher.java`).

  The stores of the detector hold bytes: a `get` deserializes a new object, a `put` serializes the
  one it is given, and a deserializer that throws throws inside the `get`.  The detector over them
  refines the one over objects, whatever else throws (`refines_transform`), so every run returns
  the same warnings and leaves the same windows behind (`byte_stores_transparent`).
-/
import KafKatch.Core.FlowSerde
import KafKatch.Lib.DataRefinement
import KafKatch.Notification.Isolation

namespace KafKatch.Notification

open KafKatch.Core KafKatch.Lib KafKatch.Lib.Property

/-! ## §1. The serde of `RollingStats`. -/

/-- `new ObjectMapper()`: the bytes of a document, and the conversion of each field type. -/
structure PlainMapper where
  writeBytes : Json → ByteArray
  readBytes : ByteArray → Option Json
  readString : Json → Option (Option String)
  readInt : Json → Option Int32
  readLong : Json → Option Int64
  readLongList : Json → Option (List Int64)
  readBytes_writeBytes : ∀ v, v.distinctNames = true → readBytes (writeBytes v) = some v
  readString_null : readString .null = some none
  readString_text : ∀ s : String, readString (.str s) = some (some s)
  readInt_token : ∀ x : Int32, readInt (.num (.ofInt x.toInt)) = some x
  readLong_token : ∀ x : Int64, readLong (.num (.ofInt x.toInt)) = some x
  readLongList_array :
    ∀ xs : List Int64, readLongList (.arr (xs.map (fun x => .num (.ofInt x.toInt)))) = some xs

/-- The `long` of an integer token in range. -/
def longOf : Json → Option Int64
  | .num n =>
      if n.isInteger ∧ -2 ^ 63 ≤ n.intValue ∧ n.intValue < 2 ^ 63 then
        some (Int64.ofInt n.intValue)
      else none
  | _ => none

theorem longOf_token (x : Int64) : longOf (.num (.ofInt x.toInt)) = some x := by
  have := x.le_toInt
  have := x.toInt_lt
  unfold longOf
  simp only [ofInt_intValue]
  rw [if_pos ⟨rfl, by omega, by omega⟩, Int64.ofInt_toInt]

/-- The `long` values of an array. -/
def longsOf : Json → Option (List Int64)
  | .arr vs => vs.mapM longOf
  | _ => none

theorem longsOf_array (xs : List Int64) :
    longsOf (.arr (xs.map (fun x => .num (.ofInt x.toInt)))) = some xs := by
  show (xs.map (fun x : Int64 => Json.num (.ofInt x.toInt))).mapM longOf = some xs
  induction xs with
  | nil => rfl
  | cons x xs ih =>
      rw [List.map_cons, List.mapM_cons, longOf_token, ih]
      rfl

/-- The mapper of `TimeMapper.reference`, with its `long` values. -/
def PlainMapper.reference : PlainMapper where
  writeBytes := TimeMapper.reference.writeBytes
  readBytes := TimeMapper.reference.readBytes
  readString := TimeMapper.reference.readString
  readInt := intOf
  readLong := longOf
  readLongList := longsOf
  readBytes_writeBytes := TimeMapper.reference.readBytes_writeBytes
  readString_null := TimeMapper.reference.readString_null
  readString_text := TimeMapper.reference.readString_text
  readInt_token := intOf_token
  readLong_token := longOf_token
  readLongList_array := longsOf_array

section Serde

variable (mapper : PlainMapper)

/-- The fields of `RollingStats`, each with a getter and a setter. -/
def rolling_properties : List (Property Empty RollingStats) :=
  [.ofField "values" (fun xs : List Int64 => .arr (xs.map (fun x => .num (.ofInt x.toInt))))
      mapper.readLongList (·.values) (fun stats values => { stats with values := values }),
   .ofField "maxSize" (fun x : Int32 => .num (.ofInt x.toInt)) mapper.readInt (·.maxSize)
      (fun stats maxSize => { stats with maxSize := maxSize }),
   .ofField "sum" (fun x : Int64 => .num (.ofInt x.toInt)) mapper.readLong (·.sum)
      (fun stats sum => { stats with sum := sum })]

/-- `RollingStatsSerializer.serialize`; null stays null. -/
def RollingStatsSerializer_serialize (data : Option RollingStats) : Option ByteArray :=
  data.map (fun stats => mapper.writeBytes (toTree (rolling_properties mapper) none stats))

/-- `RollingStatsDeserializer.deserialize`: null stays null, and every exception of the mapper
becomes one.  Reading starts from `new RollingStats()`. -/
def RollingStatsDeserializer_deserialize (data : Option ByteArray) :
    Except String (Option RollingStats) :=
  match data with
  | none => .ok none
  | some data =>
      match (mapper.readBytes data).bind
          (fromKnownTree (rolling_properties mapper) none (RollingStats.new 0)) with
      | some stats => .ok (some stats)
      | none => .error "Erro ao desserializar RollingStats"

theorem rolling_names_nodup : ((rolling_properties mapper).map Property.name).Nodup := by
  show ["values", "maxSize", "sum"].Nodup
  decide

theorem rolling_values_distinctNames (stats : RollingStats) :
    ∀ p ∈ rolling_properties mapper, (p.write stats).distinctNames = true := by
  have hlongs : ∀ xs : List Int64,
      Json.distinctNamesElems (xs.map (fun x => .num (.ofInt x.toInt))) = true := by
    intro xs
    induction xs with
    | nil => rfl
    | cons x xs ih =>
        rw [List.map_cons, Json.distinctNamesElems, ih]
        rfl
  simp only [rolling_properties, List.forall_mem_cons, List.not_mem_nil, false_imp_iff,
    implies_true, and_true]
  exact ⟨hlongs _, rfl, rfl⟩

/-- **A window is read back from the store as it was written**, `null` as `null`. -/
theorem rolling_round_trip (data : Option RollingStats) :
    RollingStatsDeserializer_deserialize mapper (RollingStatsSerializer_serialize mapper data)
      = .ok data := by
  cases data with
  | none => rfl
  | some stats =>
      have hread : (mapper.readBytes (mapper.writeBytes
          (toTree (rolling_properties mapper) none stats))).bind
            (fromKnownTree (rolling_properties mapper) none (RollingStats.new 0))
          = some stats := by
        rw [mapper.readBytes_writeBytes _ (toTree_distinctNames (rolling_names_nodup mapper) stats
            (rolling_values_distinctNames mapper stats)),
          Option.bind_some, fromKnownTree_toTree, fromTree_toTree (rolling_names_nodup mapper)]
        have hall : (rolling_properties mapper).filter (Property.included none)
            = rolling_properties mapper := rfl
        rw [hall]
        unfold rolling_properties
        simp only [List.foldlM_cons, List.foldlM_nil, restore_ofField mapper.readLongList_array,
          restore_ofField mapper.readInt_token, restore_ofField mapper.readLong_token,
          Option.bind_eq_bind, Option.bind_some]
        rfl
      unfold RollingStatsDeserializer_deserialize RollingStatsSerializer_serialize
      rw [Option.map_some]
      dsimp only
      rw [hread]

/-! ## §2. Stores of bytes. -/

/-- `Stores.inMemoryKeyValueStore`; a missing key is null. -/
abbrev ByteStore := String → Option ByteArray

/-- What a `get` hands out: the exception of the deserializer is its own. -/
def handOut (r : Except String (Option RollingStats)) : StoreM ByteStore (Option RollingStats) :=
  match r with
  | .ok stats => return stats
  | .error _ => throw .get

/-- `store.get`, by way of the deserializer. -/
def bytes_get (fault : StoreFault) (key : String) : StoreM ByteStore (Option RollingStats) := do
  if fault.get then throw .get
  let store ← get
  handOut (RollingStatsDeserializer_deserialize mapper (store key))

/-- `store.put`, by way of the serializer. -/
def bytes_put (fault : StoreFault) (key : String) (stats : RollingStats) :
    StoreM ByteStore Unit := do
  if fault.put then throw .put
  modify (fun store =>
    Function.update store key (RollingStatsSerializer_serialize mapper (some stats)))

/-- `check`, on whatever store. -/
def checkWith {σ : Type} (get : String → StoreM σ (Option RollingStats))
    (put : String → RollingStats → StoreM σ Unit) (cfg : AnomalyDetectorTransformer)
    (storeKey : String) (current : Int64) (label : String) : StoreM σ (List Warning) := do
  let found ← get storeKey
  let stats := found.getD (RollingStats.new cfg.windowSize)
  let result := evaluate cfg stats current label
  match stats.add current with
  | none => throw .removeFirst
  | some stats =>
      put storeKey stats
      return result

theorem check_eq (cfg : AnomalyDetectorTransformer) (fault : StoreFault) (storeKey : String)
    (current : Int64) (label : String) :
    check cfg fault storeKey current label
      = checkWith (store_get fault) (store_put fault) cfg storeKey current label := rfl

/-- `transform`, on whatever stores, given its three guarded checks. -/
def transformWith {σ : Type} (attempt : Metric → String → Int64 → String → StoreM σ (List Warning))
    (key : Option String) (value : Option AggregatedFlow) : StoreM σ (List Warning) := do
  match value with
  | none => return []
  | some value =>
      let storeKey := key.getD "global"
      let inbound ← attempt .inbound storeKey value.bytes_inbound "bytes recebidos"
      let outbound ← attempt .outbound storeKey value.bytes_outbound "bytes enviados"
      let flows ← attempt .flows storeKey value.unique_flow_count.toInt64 "conexões únicas"
      return inbound ++ outbound ++ flows

theorem transform_eq (cfg : AnomalyDetectorTransformer) (faults : Faults) (key : Option String)
    (value : Option AggregatedFlow) :
    transform cfg faults key value
      = transformWith (fun m storeKey current label =>
          attempt m (check cfg (m.fault faults) storeKey current label)) key value := by
  cases value <;> rfl

/-- The three stores. -/
abbrev ByteStores := Metric → ByteStore

/-- An action on the store of one metric. -/
def onByteStore {α : Type} (m : Metric) (x : StoreM ByteStore α) : StoreM ByteStores α :=
  ExceptT.mk (fun stores =>
    ((x.runOn (stores m)).1, Function.update stores m (x.runOn (stores m)).2))

/-- `transform` over stores of bytes. -/
def bytes_transform (cfg : AnomalyDetectorTransformer) (faults : Faults) :
    Option String → Option AggregatedFlow → StoreM ByteStores (List Warning) :=
  transformWith (fun m storeKey current label =>
    tryCatch (onByteStore m (checkWith (bytes_get mapper (m.fault faults))
      (bytes_put mapper (m.fault faults)) cfg storeKey current label)) (fun _ => return []))

/-! ## §3. The bytes stand for the objects. -/

/-- The bytes of a store of objects. -/
def encoded (store : KeyValueStore) : ByteStore :=
  fun key => RollingStatsSerializer_serialize mapper (store key)

/-- The bytes of the three stores. -/
def Encoded (bytes : ByteStores) (stores : Stores) : Prop :=
  ∀ m : Metric, bytes m = encoded mapper (m.store stores)

theorem refines_get (fault : StoreFault) (key : String) :
    Refines (fun bytes store => bytes = encoded mapper store) (bytes_get mapper fault key)
      (store_get fault key) := by
  rintro bytes store rfl
  unfold bytes_get store_get
  cases fault.get with
  | true => exact ⟨rfl, rfl⟩
  | false =>
      -- what is read is what the object was written as
      have hread : RollingStatsDeserializer_deserialize mapper (encoded mapper store key)
          = .ok (store key) := rolling_round_trip mapper (store key)
      show (outcome (handOut (RollingStatsDeserializer_deserialize mapper
          (encoded mapper store key))) (encoded mapper store)).1 = .ok (store key)
        ∧ (outcome (handOut (RollingStatsDeserializer_deserialize mapper
          (encoded mapper store key))) (encoded mapper store)).2 = encoded mapper store
      rw [hread]
      exact ⟨rfl, rfl⟩

theorem encoded_update (store : KeyValueStore) (key : String) (stats : RollingStats) :
    encoded mapper (Function.update store key (some stats))
      = Function.update (encoded mapper store) key
          (RollingStatsSerializer_serialize mapper (some stats)) := by
  funext other
  unfold encoded
  by_cases h : other = key
  · rw [h, Function.update_self, Function.update_self]
  · rw [Function.update_of_ne h, Function.update_of_ne h]

theorem refines_put (fault : StoreFault) (key : String) (stats : RollingStats) :
    Refines (fun bytes store => bytes = encoded mapper store) (bytes_put mapper fault key stats)
      (store_put fault key stats) := by
  rintro bytes store rfl
  unfold bytes_put store_put
  cases fault.put with
  | true => exact ⟨rfl, rfl⟩
  | false => exact ⟨rfl, (encoded_update mapper store key stats).symm⟩

/-- **`check` over bytes refines `check` over objects**, line by line. -/
theorem refines_check (cfg : AnomalyDetectorTransformer) (fault : StoreFault) (storeKey : String)
    (current : Int64) (label : String) :
    Refines (fun bytes store => bytes = encoded mapper store)
      (checkWith (bytes_get mapper fault) (bytes_put mapper fault) cfg storeKey current label)
      (check cfg fault storeKey current label) := by
  rw [check_eq]
  unfold checkWith
  refine (refines_get mapper fault storeKey).bind ?_
  intro found
  dsimp only
  cases (found.getD (RollingStats.new cfg.windowSize)).add current with
  | none => exact .throw _
  | some stats => exact (refines_put mapper fault storeKey stats).bind fun _ => .pure _

/-- A guarded check touches the store of its metric only. -/
theorem refines_attempt (m : Metric) {x : StoreM ByteStore (List Warning)}
    {y : StoreM KeyValueStore (List Warning)}
    (h : Refines (fun bytes store => bytes = encoded mapper store) x y) :
    Refines (Encoded mapper) (tryCatch (onByteStore m x) (fun _ => return [])) (attempt m y) := by
  have hpart : ∀ (bytes : ByteStores) (stores : Stores), Encoded mapper bytes stores →
      bytes m = encoded mapper (m.store stores) := fun _ _ hencoded => hencoded m
  have hput : ∀ (bytes : ByteStores) (stores : Stores) (b : ByteStore) (s : KeyValueStore),
      Encoded mapper bytes stores → b = encoded mapper s →
        Encoded mapper (Function.update bytes m b) (m.setStore s stores) := by
    rintro bytes stores b s hencoded rfl other
    by_cases hm : other = m
    · subst hm
      rw [Function.update_self]
      cases other <;> rfl
    · rw [Function.update_of_ne hm, hencoded other]
      cases other <;> cases m <;> first | exact absurd rfl hm | rfl
  exact (h.zoom hpart hput).tryCatch fun _ => .pure _

/-- **`transform` over bytes refines `transform` over objects.** -/
theorem refines_transform (cfg : AnomalyDetectorTransformer) (faults : Faults)
    (key : Option String) (value : Option AggregatedFlow) :
    Refines (Encoded mapper) (bytes_transform mapper cfg faults key value)
      (transform cfg faults key value) := by
  rw [transform_eq]
  unfold bytes_transform transformWith
  cases value with
  | none => exact .pure _
  | some value =>
      refine (refines_attempt mapper .inbound (refines_check mapper cfg _ _ _ _)).bind ?_
      intro inbound
      refine (refines_attempt mapper .outbound (refines_check mapper cfg _ _ _ _)).bind ?_
      intro outbound
      refine (refines_attempt mapper .flows (refines_check mapper cfg _ _ _ _)).bind ?_
      intro flows
      exact .pure _

/-! ## §4. Runs. -/

/-- The stores after a run, empty at its start. -/
def bytesAfter (cfg : AnomalyDetectorTransformer) (steps : List Step) : ByteStores :=
  steps.foldl
    (fun stores s =>
      ((bytes_transform mapper cfg s.faults s.record.key s.record.value).runOn stores).2)
    (fun _ _ => none)

/-- What `transform` returns for a record after a run. -/
def bytesReturned (cfg : AnomalyDetectorTransformer) (past : List Step) (s : Step) :
    Except StoreException (List Warning) :=
  ((bytes_transform mapper cfg s.faults s.record.key s.record.value).runOn
    (bytesAfter mapper cfg past)).1

/-- After any run the bytes are those of the objects. -/
theorem encoded_after (cfg : AnomalyDetectorTransformer) (steps : List Step) :
    Encoded mapper (bytesAfter mapper cfg steps) (storesAfter cfg steps) := by
  induction steps using List.reverseRecOn with
  | nil =>
      intro m
      cases m <;> rfl
  | append_singleton steps s ih =>
      unfold bytesAfter storesAfter
      rw [List.foldl_concat, List.foldl_concat]
      exact (refines_transform mapper cfg s.faults s.record.key s.record.value _ _ ih).2

theorem bytesReturned_eq (cfg : AnomalyDetectorTransformer) (past : List Step) (s : Step) :
    bytesReturned mapper cfg past s = returnedAfter cfg past s :=
  (refines_transform mapper cfg s.faults s.record.key s.record.value _ _
    (encoded_after mapper cfg past)).1

/-- **Stores of bytes are as good as stores of objects.**  Over every run, whatever the accesses
to the stores throw, the detector returns the warnings it returns over objects and never throws,
and every window that it left in a store is read back as the window of the object. -/
theorem byte_stores_transparent (cfg : AnomalyDetectorTransformer) (past : List Step) (s : Step) :
    bytesReturned mapper cfg past s = returnedAfter cfg past s
      ∧ (∃ warnings, bytesReturned mapper cfg past s = .ok warnings)
      ∧ ∀ (m : Metric) (key : String),
          RollingStatsDeserializer_deserialize mapper (bytesAfter mapper cfg past m key)
            = .ok (m.store (storesAfter cfg past) key) := by
  refine ⟨bytesReturned_eq mapper cfg past s, ?_, ?_⟩
  · rw [bytesReturned_eq, returnedAfter_eq]
    exact ⟨_, rfl⟩
  · intro m key
    rw [encoded_after mapper cfg past m]
    exact rolling_round_trip mapper _

end Serde

end KafKatch.Notification
