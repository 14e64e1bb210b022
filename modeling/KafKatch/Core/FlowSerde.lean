/-
  KafKatch.Core.FlowSerde
  ───────────────────────
  **A FLOW IN THE REPARTITION TOPIC (`FlowSerializer.java`, `FlowDeserializer.java`).**

  `FlowBean` is `Flow` as Jackson fills it: any reference may be null.  Its mapper writes a date
  as an array of numbers without its trailing zeros, and refuses a document with an unknown name.

  What is written is read back, nulls and nanoseconds included (`deserialize_serialize`).
-/
import KafKatch.Core.AggregatedFlowParser
import KafKatch.Core.FlowParser
import KafKatch.Lib.Decimal

namespace KafKatch.Core

open KafKatch.Lib KafKatch.Lib.Property

/-! ## §1. Dates as arrays. -/

/-- Year to minute; then the seconds, unless nothing but zeros is left; then the nanoseconds,
unless they are 0. -/
def timestampFields (t : LocalDateTime) : List Nat :=
  [t.fields.year, t.fields.month, t.fields.day, t.fields.hour, t.fields.minute]
    ++ if 0 < t.fields.second ∨ 0 < t.fields.nano then
        t.fields.second :: if 0 < t.fields.nano then [t.fields.nano] else []
      else []

/-- A date as Jackson writes it with the Java time module: an array of numbers. -/
def timestampArray (t : LocalDateTime) : Json :=
  .arr ((timestampFields t).map (fun n => .num (.ofNat n)))

/-- `LocalDateTime.of`; `none` is the `DateTimeException`. -/
def LocalDateTime_of (fields : DateTimeFields) : Option LocalDateTime :=
  if h : fields.Valid then some ⟨fields, h⟩ else none

/-- The date of five, six or seven numbers. -/
def timestampOf : List Nat → Option LocalDateTime
  | [year, month, day, hour, minute] => LocalDateTime_of ⟨year, month, day, hour, minute, 0, 0⟩
  | [year, month, day, hour, minute, second] =>
      LocalDateTime_of ⟨year, month, day, hour, minute, second, 0⟩
  | [year, month, day, hour, minute, second, nano] =>
      LocalDateTime_of ⟨year, month, day, hour, minute, second, nano⟩
  | _ => none

/-- **The numbers that are left out are those that are 0.** -/
theorem timestampOf_timestampFields (t : LocalDateTime) :
    timestampOf (timestampFields t) = some t := by
  obtain ⟨⟨year, month, day, hour, minute, second, nano⟩, hvalid⟩ := t
  unfold timestampFields
  dsimp only
  rcases Nat.eq_zero_or_pos nano with rfl | hnano
  · rcases Nat.eq_zero_or_pos second with rfl | hsecond
    · rw [if_neg (by omega)]
      exact dif_pos hvalid
    · rw [if_pos (Or.inl hsecond), if_neg (by omega)]
      exact dif_pos hvalid
  · rw [if_pos (Or.inr hnano), if_pos hnano]
    exact dif_pos hvalid

/-! ## §2. The mapper. -/

/-- `new ObjectMapper().registerModule(new JavaTimeModule())`: the bytes of a document, the token
of a `double`, and the conversion of each field type.  An enumeration is written by name. -/
structure TimeMapper where
  writeBytes : Json → ByteArray
  readBytes : ByteArray → Option Json
  doubleToken : ℚ → JsonNumber
  readString : Json → Option (Option String)
  readInt : Json → Option Int32
  readDouble : Json → Option ℚ
  readProtocol : Json → Option (Option FlowProtocol)
  readDirection : Json → Option (Option FlowDirection)
  readLocalDateTime : Json → Option (Option LocalDateTime)
  readBytes_writeBytes : ∀ v, v.distinctNames = true → readBytes (writeBytes v) = some v
  readString_null : readString .null = some none
  readString_text : ∀ s : String, readString (.str s) = some (some s)
  readInt_token : ∀ x : Int32, readInt (.num (.ofInt x.toInt)) = some x
  readDouble_token : ∀ q : ℚ, IsDecimal q → readDouble (.num (doubleToken q)) = some q
  readProtocol_null : readProtocol .null = some none
  readProtocol_name : ∀ p : FlowProtocol, readProtocol (.str p.name) = some (some p)
  readDirection_null : readDirection .null = some none
  readDirection_name : ∀ d : FlowDirection, readDirection (.str d.name) = some (some d)
  readLocalDateTime_null : readLocalDateTime .null = some none
  readLocalDateTime_array :
    ∀ t : LocalDateTime, readLocalDateTime (timestampArray t) = some (some t)

/-- The value of a natural number token. -/
def naturalOf : Json → Option Nat
  | .num n => if n.isInteger && !n.neg then some n.int else none
  | _ => none

/-- Natural numbers are read back from their tokens. -/
theorem mapM_naturalOf (ns : List Nat) :
    (ns.map (fun n => Json.num (.ofNat n))).mapM naturalOf = some ns := by
  induction ns with
  | nil => rfl
  | cons n ns ih =>
      rw [List.map_cons, List.mapM_cons, ih]
      rfl

/-- The `int` of an integer token in range. -/
def intOf : Json → Option Int32
  | .num n =>
      if n.isInteger ∧ -2 ^ 31 ≤ n.intValue ∧ n.intValue < 2 ^ 31 then
        some (Int32.ofInt n.intValue)
      else none
  | _ => none

/-- So is every `int`. -/
theorem intOf_token (x : Int32) : intOf (.num (.ofInt x.toInt)) = some x := by
  have := x.le_toInt
  have := x.toInt_lt
  unfold intOf
  simp only [ofInt_intValue]
  rw [if_pos ⟨rfl, by omega, by omega⟩, Int32.ofInt_toInt]

/-- A mapper over the verified parser, in UTF-8. -/
def TimeMapper.reference : TimeMapper where
  writeBytes := Json.bytes
  readBytes := Json.parseBytes
  doubleToken := decimalToken
  readString
    | .null => some none
    | .str s => some (some s)
    | _ => none
  readInt := intOf
  readDouble
    | .num n => some n.value
    | _ => none
  readProtocol
    | .null => some none
    | .str s => (FlowProtocol.valueOf s).map some
    | _ => none
  readDirection
    | .null => some none
    | .str s => (FlowDirection.valueOf s).map some
    | _ => none
  readLocalDateTime
    | .null => some none
    | .arr [] => some none
    | .arr vs => ((vs.mapM naturalOf).bind timestampOf).map some
    | _ => none
  readBytes_writeBytes v _ := Json.parseBytes_bytes v
  readString_null := rfl
  readString_text _ := rfl
  readInt_token := intOf_token
  readDouble_token q h := congrArg some (value_decimalToken h)
  readProtocol_null := rfl
  readProtocol_name p := congrArg (Option.map some) (FlowProtocol.valueOf_name p)
  readDirection_null := rfl
  readDirection_name d := congrArg (Option.map some) (FlowDirection.valueOf_name d)
  readLocalDateTime_null := rfl
  readLocalDateTime_array t := by
    have hread : ((((timestampFields t).map (fun n => Json.num (.ofNat n))).mapM naturalOf).bind
        timestampOf).map some = some (some t) := by
      rw [mapM_naturalOf, Option.bind_some, timestampOf_timestampFields, Option.map_some]
    exact hread

/-! ## §3. The properties of `Flow`. -/

/-- `Flow` with its nulls. -/
structure FlowBean where
  flow_key : Option String
  src_ip : Option String
  dst_ip : Option String
  src_port : Int32
  dst_port : Int32
  protocol : Option FlowProtocol
  dir : Option FlowDirection
  packet_count : Int32
  byte_count : Int32
  min_packet_size : Int32
  max_packet_size : Int32
  timestamp : Option LocalDateTime
  mean_iat_us : ℚ
  tcp_syn_count : Int32
  tcp_fin_count : Int32
  tcp_rst_count : Int32
  tcp_ack_count : Int32
  deriving DecidableEq

namespace FlowBean

/-- `new Flow()`. -/
def new : FlowBean where
  flow_key := none
  src_ip := none
  dst_ip := none
  src_port := 0
  dst_port := 0
  protocol := none
  dir := none
  packet_count := 0
  byte_count := 0
  min_packet_size := 0
  max_packet_size := 0
  timestamp := none
  mean_iat_us := 0
  tcp_syn_count := 0
  tcp_fin_count := 0
  tcp_rst_count := 0
  tcp_ack_count := 0

/-- A flow without nulls. -/
def of (flow : Flow) : FlowBean where
  flow_key := some flow.flow_key
  src_ip := some flow.src_ip
  dst_ip := some flow.dst_ip
  src_port := flow.src_port
  dst_port := flow.dst_port
  protocol := some flow.protocol
  dir := some flow.dir
  packet_count := flow.packet_count
  byte_count := flow.byte_count
  min_packet_size := flow.min_packet_size
  max_packet_size := flow.max_packet_size
  timestamp := some flow.timestamp
  mean_iat_us := flow.mean_iat_us
  tcp_syn_count := flow.tcp_syn_count
  tcp_fin_count := flow.tcp_fin_count
  tcp_rst_count := flow.tcp_rst_count
  tcp_ack_count := flow.tcp_ack_count

/-- The flow, if no reference of it is null. -/
def flow? (bean : FlowBean) : Option Flow := do
  return {
    flow_key := ← bean.flow_key
    src_ip := ← bean.src_ip
    dst_ip := ← bean.dst_ip
    src_port := bean.src_port
    dst_port := bean.dst_port
    protocol := ← bean.protocol
    dir := ← bean.dir
    packet_count := bean.packet_count
    byte_count := bean.byte_count
    min_packet_size := bean.min_packet_size
    max_packet_size := bean.max_packet_size
    timestamp := ← bean.timestamp
    mean_iat_us := bean.mean_iat_us
    tcp_syn_count := bean.tcp_syn_count
    tcp_fin_count := bean.tcp_fin_count
    tcp_rst_count := bean.tcp_rst_count
    tcp_ack_count := bean.tcp_ack_count }

@[simp] theorem flow?_of (flow : Flow) : (of flow).flow? = some flow := rfl

end FlowBean

section Serde

variable (mapper : TimeMapper)

/-- A field of type `String`. -/
def stringField (name : String) (get : FlowBean → Option String)
    (set : FlowBean → Option String → FlowBean) : Property Empty FlowBean :=
  .ofField name (nullable .str) mapper.readString get set

/-- A field of type `int`. -/
def intField (name : String) (get : FlowBean → Int32) (set : FlowBean → Int32 → FlowBean) :
    Property Empty FlowBean :=
  .ofField name (fun x => .num (.ofInt x.toInt)) mapper.readInt get set

def protocol_field : Property Empty FlowBean :=
  .ofField "protocol" (nullable (fun p => .str p.name)) mapper.readProtocol (·.protocol)
    (fun bean p => { bean with protocol := p })

def dir_field : Property Empty FlowBean :=
  .ofField "dir" (nullable (fun d => .str d.name)) mapper.readDirection (·.dir)
    (fun bean d => { bean with dir := d })

def timestamp_field : Property Empty FlowBean :=
  .ofField "timestamp" (nullable timestampArray) mapper.readLocalDateTime (·.timestamp)
    (fun bean t => { bean with timestamp := t })

def mean_iat_us_field : Property Empty FlowBean :=
  .ofField "mean_iat_us" (fun q => .num (mapper.doubleToken q)) mapper.readDouble
    (·.mean_iat_us) (fun bean q => { bean with mean_iat_us := q })

/-- The fields in declaration order, each with a getter and a setter. -/
def flow_properties : List (Property Empty FlowBean) :=
  [stringField mapper "flow_key" (·.flow_key) (fun bean s => { bean with flow_key := s }),
   stringField mapper "src_ip" (·.src_ip) (fun bean s => { bean with src_ip := s }),
   stringField mapper "dst_ip" (·.dst_ip) (fun bean s => { bean with dst_ip := s }),
   intField mapper "src_port" (·.src_port) (fun bean n => { bean with src_port := n }),
   intField mapper "dst_port" (·.dst_port) (fun bean n => { bean with dst_port := n }),
   protocol_field mapper,
   dir_field mapper,
   intField mapper "packet_count" (·.packet_count) (fun bean n => { bean with packet_count := n }),
   intField mapper "byte_count" (·.byte_count) (fun bean n => { bean with byte_count := n }),
   intField mapper "min_packet_size" (·.min_packet_size)
      (fun bean n => { bean with min_packet_size := n }),
   intField mapper "max_packet_size" (·.max_packet_size)
      (fun bean n => { bean with max_packet_size := n }),
   timestamp_field mapper,
   mean_iat_us_field mapper,
   intField mapper "tcp_syn_count" (·.tcp_syn_count)
      (fun bean n => { bean with tcp_syn_count := n }),
   intField mapper "tcp_fin_count" (·.tcp_fin_count)
      (fun bean n => { bean with tcp_fin_count := n }),
   intField mapper "tcp_rst_count" (·.tcp_rst_count)
      (fun bean n => { bean with tcp_rst_count := n }),
   intField mapper "tcp_ack_count" (·.tcp_ack_count)
      (fun bean n => { bean with tcp_ack_count := n })]

/-- `FlowSerializer.serialize`; null stays null. -/
def FlowSerializer_serialize (data : Option FlowBean) : Option ByteArray :=
  data.map (fun bean => mapper.writeBytes (toTree (flow_properties mapper) none bean))

/-- `FlowDeserializer.deserialize`: null stays null, and every exception of the mapper becomes
one. -/
def FlowDeserializer_deserialize (data : Option ByteArray) : Except String (Option FlowBean) :=
  match data with
  | none => .ok none
  | some data =>
      match (mapper.readBytes data).bind
          (fromKnownTree (flow_properties mapper) none FlowBean.new) with
      | some bean => .ok (some bean)
      | none => .error "Erro ao desserializar Flow"

/-! ## §4. The round trip. -/

/-- No two properties of a flow have one name. -/
theorem flow_names_nodup : ((flow_properties mapper).map Property.name).Nodup := by
  show ["flow_key", "src_ip", "dst_ip", "src_port", "dst_port", "protocol", "dir",
    "packet_count", "byte_count", "min_packet_size", "max_packet_size", "timestamp",
    "mean_iat_us", "tcp_syn_count", "tcp_fin_count", "tcp_rst_count", "tcp_ack_count"].Nodup
  decide

/-- An array of numbers has no names to repeat. -/
theorem timestampArray_distinctNames (t : LocalDateTime) :
    (timestampArray t).distinctNames = true := by
  have helems : ∀ ns : List Nat,
      Json.distinctNamesElems (ns.map (fun n => .num (.ofNat n))) = true := by
    intro ns
    induction ns with
    | nil => rfl
    | cons n ns ih =>
        rw [List.map_cons, Json.distinctNamesElems, ih]
        rfl
  exact helems _

/-- No property of a flow is written as an object with a repeated name. -/
theorem flow_values_distinctNames (bean : FlowBean) :
    ∀ p ∈ flow_properties mapper, (p.write bean).distinctNames = true := by
  have hstring : ∀ s, (nullable Json.str s).distinctNames = true :=
    nullable_distinctNames (fun _ => rfl)
  simp only [flow_properties, List.forall_mem_cons, List.not_mem_nil, false_imp_iff,
    implies_true, and_true]
  exact ⟨hstring _, hstring _, hstring _, rfl, rfl, nullable_distinctNames (fun _ => rfl) _,
    nullable_distinctNames (fun _ => rfl) _, rfl, rfl, rfl, rfl,
    nullable_distinctNames timestampArray_distinctNames _, rfl, rfl, rfl, rfl, rfl⟩

variable {mapper}

/-- A string, null or not, is set to what was written. -/
theorem stringField_restore (name : String) (get : FlowBean → Option String)
    (set : FlowBean → Option String → FlowBean) (bean b : FlowBean) :
    (stringField mapper name get set).restore bean b = some (set b (get bean)) :=
  restore_ofField (read_nullable mapper.readString_null mapper.readString_text) name get set bean b

/-- An `int` is set to what was written. -/
theorem intField_restore (name : String) (get : FlowBean → Int32)
    (set : FlowBean → Int32 → FlowBean) (bean b : FlowBean) :
    (intField mapper name get set).restore bean b = some (set b (get bean)) :=
  restore_ofField mapper.readInt_token name get set bean b

theorem protocol_restore (bean b : FlowBean) :
    (protocol_field mapper).restore bean b = some { b with protocol := bean.protocol } :=
  restore_ofField (read_nullable mapper.readProtocol_null mapper.readProtocol_name) _ _ _ bean b

theorem dir_restore (bean b : FlowBean) :
    (dir_field mapper).restore bean b = some { b with dir := bean.dir } :=
  restore_ofField (read_nullable mapper.readDirection_null mapper.readDirection_name) _ _ _ bean b

theorem timestamp_restore (bean b : FlowBean) :
    (timestamp_field mapper).restore bean b = some { b with timestamp := bean.timestamp } :=
  restore_ofField (read_nullable mapper.readLocalDateTime_null mapper.readLocalDateTime_array)
    _ _ _ bean b

/-- A decimal mean is set to what was written. -/
theorem mean_iat_us_restore {bean : FlowBean} (h : IsDecimal bean.mean_iat_us) (b : FlowBean) :
    (mean_iat_us_field mapper).restore bean b
      = some { b with mean_iat_us := bean.mean_iat_us } := by
  show (mapper.readDouble (.num (mapper.doubleToken bean.mean_iat_us))).map _ = _
  rw [mapper.readDouble_token _ h, Option.map_some]

variable (mapper)

/-- **The flow survives the repartition topic**: whatever is null in it and however precise its
date, what is written is read back. -/
theorem deserialize_serialize (bean : FlowBean) (h : IsDecimal bean.mean_iat_us) :
    FlowDeserializer_deserialize mapper (FlowSerializer_serialize mapper (some bean))
      = .ok (some bean) := by
  -- reading starts from `new Flow()`, and every field of it is overwritten
  have hread : (mapper.readBytes (mapper.writeBytes
      (toTree (flow_properties mapper) none bean))).bind
        (fromKnownTree (flow_properties mapper) none FlowBean.new) = some bean := by
    rw [mapper.readBytes_writeBytes _ (toTree_distinctNames (flow_names_nodup mapper) bean
        (flow_values_distinctNames mapper bean)),
      Option.bind_some, fromKnownTree_toTree, fromTree_toTree (flow_names_nodup mapper)]
    have hall : (flow_properties mapper).filter (Property.included none)
        = flow_properties mapper := rfl
    rw [hall]
    unfold flow_properties
    simp only [List.foldlM_cons, List.foldlM_nil, stringField_restore, intField_restore,
      protocol_restore, dir_restore, timestamp_restore, mean_iat_us_restore h,
      Option.bind_eq_bind, Option.bind_some]
    rfl
  unfold FlowDeserializer_deserialize FlowSerializer_serialize
  rw [Option.map_some]
  dsimp only
  rw [hread]

/-- **The serde loses nothing**: null or a flow with any of its references null is read back as it
was written, and two flows have the same bytes only if they are the same. -/
theorem flow_serde_lossless (data : Option FlowBean)
    (h : ∀ bean ∈ data, IsDecimal bean.mean_iat_us) :
    FlowDeserializer_deserialize mapper (FlowSerializer_serialize mapper data) = .ok data
      ∧ ∀ other : Option FlowBean, (∀ bean ∈ other, IsDecimal bean.mean_iat_us) →
          (FlowSerializer_serialize mapper other = FlowSerializer_serialize mapper data
            ↔ other = data) := by
  have hread : ∀ data : Option FlowBean, (∀ bean ∈ data, IsDecimal bean.mean_iat_us) →
      FlowDeserializer_deserialize mapper (FlowSerializer_serialize mapper data) = .ok data := by
    intro data h
    cases data with
    | none => rfl
    | some bean => exact deserialize_serialize mapper bean (h bean rfl)
  refine ⟨hread data h, ?_⟩
  intro other hother
  constructor
  · intro hbytes
    have hsame := hread other hother
    rw [hbytes, hread data h, Except.ok.injEq] at hsame
    exact hsame.symm
  · intro hsame
    rw [hsame]

/-- A flow read at a full second, with a mean of 12.5 µs and no flow key. -/
def keyless : FlowBean :=
  { FlowBean.new with
    src_ip := some "10.0.0.2"
    protocol := some .UDP
    timestamp := some ⟨⟨2026, 1, 1, 12, 0, 7, 0⟩, by decide⟩
    mean_iat_us := 25 / 2 }

theorem flow_serde_lossless_keyless :
    FlowDeserializer_deserialize .reference (FlowSerializer_serialize .reference (some keyless))
        = .ok (some keyless)
      ∧ ∀ other : Option FlowBean, (∀ bean ∈ other, IsDecimal bean.mean_iat_us) →
          (FlowSerializer_serialize .reference other
              = FlowSerializer_serialize .reference (some keyless)
            ↔ other = some keyless) :=
  flow_serde_lossless .reference (some keyless) (by
    rintro bean ⟨⟩
    exact ⟨1, 125, by norm_num [keyless]⟩)

end Serde

end KafKatch.Core
