/-
  KafKatch.Pipeline.Microflow
  ───────────────────────────
  **THE MICROFLOW MESSAGE ACROSS THE LANGUAGE BOUNDARY.**

  The sniffer's format string writes the compact text of a JSON document
  (`microflow_text_eq`), always well inside its buffer (`microflow_text_length`), so
  `FlowParser.readJson` reads exactly the fields that were written (`readJson_payload`).  The
  counters are written as C `unsigned`s and read as Java `int`s: they survive exactly below
  `2^31` (`message_faithful_iff`).
-/
import KafKatch.Core.FlowParser
import KafKatch.Sniffer.KafkaClient
import Mathlib.Tactic.Linarith
import Mathlib.Tactic.NormNum

namespace KafKatch.Pipeline

open KafKatch.Lib KafKatch.Sniffer KafKatch.Core

/-! ## §1. The document behind the format string. -/

/-- The token `%.1f` writes. -/
def fmt_1f_token (q : ℚ) : JsonNumber :=
  ⟨decide (q < 0), tenths q / 10, [lastDigit (tenths q)], none⟩

/-- The document of one flow. -/
def microflow_json (flow : FlowT) : Json :=
  .obj
    [("src_ip", .str (inet_ntop flow.key.src_ip)),
     ("src_port", .num (.ofNat (ntohs flow.key.src_port).toNat)),
     ("dst_ip", .str (inet_ntop flow.key.dst_ip)),
     ("dst_port", .num (.ofNat (ntohs flow.key.dst_port).toNat)),
     ("protocol", .str (proto_str flow.key.protocol)),
     ("dir", .str (dir_to_str flow.direction)),
     ("packets", .num (.ofNat flow.packet_count.toNat)),
     ("bytes", .num (.ofNat flow.byte_count.toNat)),
     ("min_size", .num (.ofNat flow.min_packet_size.toNat)),
     ("max_size", .num (.ofNat flow.max_packet_size.toNat)),
     ("mean_iat_us", .num (fmt_1f_token (mean_iat flow))),
     ("tcp", .obj
       [("syn", .num (.ofNat flow.tcp_syn_count.toNat)),
        ("ack", .num (.ofNat flow.tcp_ack_count.toNat)),
        ("fin", .num (.ofNat flow.tcp_fin_count.toNat)),
        ("rst", .num (.ofNat flow.tcp_rst_count.toNat))])]

/-- A character that a string literal holds as it is. -/
def plain (c : Char) : Bool := decide (c ≠ '\"' ∧ c ≠ '\\' ∧ ¬ c.toNat < 0x20)

/-- A plain string is written between quotes. -/
theorem stringText_plain {s : String} (h : s.toList.all plain = true) :
    stringText s = '\"' :: (s.toList ++ ['\"']) := by
  have hflat : ∀ cs : List Char, cs.all plain = true → cs.flatMap escapeChar = cs := by
    intro cs
    induction cs with
    | nil => intro _; rfl
    | cons c cs ih =>
        intro hc
        simp only [List.all_cons, Bool.and_eq_true, plain, decide_eq_true_eq] at hc
        obtain ⟨⟨hquote, hback, hctrl⟩, hrest⟩ := hc
        rw [List.flatMap_cons, ih hrest]
        simp [escapeChar, hquote, hback, hctrl]
  rw [stringText, hflat _ h]

/-- Digits are plain. -/
theorem plain_toDigits (n : Nat) : (Nat.toDigits 10 n).all plain = true := by
  have hplain : ∀ c : Char, c.isDigit = true → plain c = true := by
    intro c hc
    have hrange : 48 ≤ c.toNat ∧ c.toNat ≤ 57 := by
      simpa [Char.isDigit, UInt32.le_iff_toNat_le] using hc
    simp only [plain, decide_eq_true_eq]
    refine ⟨?_, ?_, by omega⟩
    · rintro rfl
      exact absurd hrange.1 (by decide)
    · rintro rfl
      exact absurd hrange.2 (by decide)
  rw [List.all_eq_true]
  exact fun c hc => hplain c (toDigits_isDigit n c hc)

/-- A dotted quad is plain. -/
theorem plain_inet_ntop (addr : UInt32) : (inet_ntop addr).toList.all plain = true := by
  have hdot : plain '.' = true := by decide
  simp only [inet_ntop, String.toList_append, Nat.toList_repr, List.all_append,
    plain_toDigits, String.reduceToList, List.all_cons, List.all_nil, hdot, Bool.and_self]

/-- So are the names of the protocols. -/
theorem plain_proto_str (protocol : UInt8) : (proto_str protocol).toList.all plain = true := by
  unfold proto_str
  split
  · decide
  · split <;> decide

/-- So are the names of the directions. -/
theorem plain_dir_to_str (dir : FlowDirectionT) : (dir_to_str dir).toList.all plain = true := by
  cases dir <;> decide

/-- `%.1f` writes its token. -/
theorem fmt_1f_eq (q : ℚ) : (fmt_1f q).toList = numberText (fmt_1f_token q) := by
  have hdigit : Nat.toDigits 10 (tenths q % 10) = [Nat.digitChar (tenths q % 10)] :=
    Nat.toDigits_of_lt_base (Nat.mod_lt _ (by omega))
  by_cases hq : q < 0
  · simp [fmt_1f, fmt_1f_token, numberText, fracText, expText, lastDigit, hq, hdigit]
  · simp [fmt_1f, fmt_1f_token, numberText, fracText, expText, lastDigit, hq, hdigit]

/-- `%u` writes the token of its number. -/
theorem numberText_ofNat (n : Nat) : numberText (.ofNat n) = Nat.toDigits 10 n := by
  simp [numberText, JsonNumber.ofNat, fracText, expText]

set_option maxRecDepth 4000 in
/-- **The format string writes the compact text of the document.** -/
theorem microflow_text_eq (flow : FlowT) :
    (microflow_text flow).toList = (microflow_json flow).text := by
  unfold microflow_text microflow_json
  simp only [String.toList_append, Nat.toList_repr, fmt_1f_eq, List.append_assoc]
  simp only [Json.text, Json.fieldsText, numberText_ofNat, stringText_plain (plain_inet_ntop _),
    stringText_plain (plain_proto_str _), stringText_plain (plain_dir_to_str _)]
  -- the field names are plain too
  simp (disch := decide) only [stringText_plain]
  simp only [List.append_assoc, List.cons_append, List.nil_append]
  simp only [String.reduceToList, List.cons_append, List.nil_append]

/-! ## §2. The message fits its buffer. -/

/-- A number below `10 ^ k` has at most `k` digits. -/
theorem toDigits_length_le {n k : Nat} (hk : 0 < k) (h : n < 10 ^ k) :
    (Nat.toDigits 10 n).length ≤ k :=
  (Nat.length_toDigits_le_iff (by omega) hk).mpr h

/-- A dotted quad fits the 16 bytes of its buffer. -/
theorem inet_ntop_length (addr : UInt32) : (inet_ntop addr).toList.length ≤ 15 := by
  -- four octets of at most three digits, and three dots
  have hoctet : ∀ i, (Nat.toDigits 10 (octet addr i)).length ≤ 3 := by
    intro i
    apply toDigits_length_le (by omega)
    have : octet addr i < 256 := Nat.mod_lt _ (by omega)
    omega
  have h0 := hoctet 0
  have h1 := hoctet 1
  have h2 := hoctet 2
  have h3 := hoctet 3
  simp only [inet_ntop, String.toList_append, Nat.toList_repr, List.length_append,
    String.reduceToList, List.length_cons, List.length_nil]
  omega

/-- `%.1f` prints the magnitude within a twentieth. -/
theorem tenths_near (q : ℚ) : |(tenths q : ℚ) / 10 - abs q| ≤ 1 / 20 := by
  have hnonneg : 0 ≤ |q| * 10 := by positivity
  have hcast : (tenths q : ℚ) = (roundEven (|q| * 10) : ℚ) := by
    rw [tenths, ← Int.cast_natCast, Int.toNat_of_nonneg (roundEven_nonneg hnonneg)]
  have hnear := roundEven_near (|q| * 10)
  rw [hcast]
  rw [abs_le] at hnear ⊢
  constructor <;> linarith [hnear.1, hnear.2]

/-- The integer part of a bounded magnitude is bounded. -/
theorem tenths_lt {q : ℚ} (h : |q| ≤ 10 ^ 30) : tenths q / 10 < 10 ^ 31 := by
  have hnear := (abs_le.mp (tenths_near q)).2
  have hlt : (tenths q : ℚ) < ((10 ^ 32 : Nat) : ℚ) := by
    push_cast
    linarith
  have hnat : tenths q < 10 ^ 32 := by exact_mod_cast hlt
  omega

/-- So is the length of what `%.1f` writes. -/
theorem fmt_1f_length {q : ℚ} (h : |q| ≤ 10 ^ 30) : (fmt_1f q).toList.length ≤ 34 := by
  -- a sign, the integer part, the point and one digit
  have hint : (Nat.toDigits 10 (tenths q / 10)).length ≤ 31 :=
    toDigits_length_le (by omega) (tenths_lt h)
  have hfrac : (Nat.toDigits 10 (tenths q % 10)).length ≤ 1 :=
    toDigits_length_le (by omega) (by omega)
  by_cases hq : q < 0
  · simp only [fmt_1f, hq, if_true, String.toList_append, Nat.toList_repr, List.length_append,
      String.reduceToList, List.length_cons, List.length_nil]
    omega
  · simp only [fmt_1f, hq, if_false, String.toList_append, Nat.toList_repr, List.length_append,
      String.reduceToList, List.length_cons, List.length_nil]
    omega

/-- **Every message is shorter than its buffer.** -/
theorem microflow_text_length {flow : FlowT} (h : |mean_iat flow| ≤ 10 ^ 30) :
    (microflow_text flow).toList.length < 1024 := by
  have h16 : ∀ x : UInt16, (Nat.toDigits 10 x.toNat).length ≤ 5 := by
    intro x
    have := x.toNat_lt
    exact toDigits_length_le (by omega) (by omega)
  have h32 : ∀ x : UInt32, (Nat.toDigits 10 x.toNat).length ≤ 10 := by
    intro x
    have := x.toNat_lt
    exact toDigits_length_le (by omega) (by omega)
  have hproto : (proto_str flow.key.protocol).toList.length ≤ 5 := by
    unfold proto_str
    split
    · decide
    · split <;> decide
  have hdir : (dir_to_str flow.direction).toList.length ≤ 8 := by
    cases flow.direction <;> decide
  have hsrc := inet_ntop_length flow.key.src_ip
  have hdst := inet_ntop_length flow.key.dst_ip
  have hsport := h16 (ntohs flow.key.src_port)
  have hdport := h16 (ntohs flow.key.dst_port)
  have hpackets := h32 flow.packet_count
  have hbytes := h32 flow.byte_count
  have hmin := h16 flow.min_packet_size
  have hmax := h16 flow.max_packet_size
  have hmean := fmt_1f_length h
  have hsyn := h32 flow.tcp_syn_count
  have hack := h32 flow.tcp_ack_count
  have hfin := h32 flow.tcp_fin_count
  have hrst := h32 flow.tcp_rst_count
  unfold microflow_text
  simp only [String.toList_append, Nat.toList_repr, List.length_append, String.reduceToList,
    List.length_cons, List.length_nil]
  omega

/-- So `snprintf` cuts nothing off. -/
theorem json_payload_eq {flow : FlowT} (h : |mean_iat flow| ≤ 10 ^ 30) :
    json_payload flow = microflow_text flow := by
  have hlen := microflow_text_length h
  rw [json_payload, snprintf, List.take_of_length_le (by omega), String.ofList_toList]

/-! ## §3. What `readJson` returns. -/

/-- A JSON parser accepts the document: its names differ, and it is short. -/
theorem readable_microflow {flow : FlowT} (h : |mean_iat flow| ≤ 10 ^ 30) :
    Readable (microflow_json flow) := by
  constructor
  · simp [microflow_json, Json.distinctNames, Json.distinctNamesFields]
  · rw [← microflow_text_eq]
    exact microflow_text_length h

/-- `dir_to_str` and `FlowDirection.name` agree. -/
def received_dir : FlowDirectionT → FlowDirection
  | .DIR_OUTBOUND => .OUTBOUND
  | .DIR_INBOUND => .INBOUND
  | .DIR_LATERAL => .LATERAL
  | .DIR_UNKNOWN => .UNKNOWN

/-- `FlowDirection.valueOf` knows what `dir_to_str` writes. -/
theorem valueOf_dir_to_str (dir : FlowDirectionT) :
    FlowDirection.valueOf (dir_to_str dir) = some (received_dir dir) := by
  cases dir <;> decide

/-- The narrowing of a C `unsigned` to a Java `int`. -/
def narrowed (n : Nat) : Int32 := Int32.ofInt n

/-- The flow the service holds after reading a message. -/
def received (flow : FlowT) (protocol : FlowProtocol) (timestamp : LocalDateTime) : Flow :=
  Flow.parsed (inet_ntop flow.key.src_ip) (inet_ntop flow.key.dst_ip)
    (narrowed (ntohs flow.key.src_port).toNat) (narrowed (ntohs flow.key.dst_port).toNat)
    protocol (received_dir flow.direction)
    (narrowed flow.packet_count.toNat) (narrowed flow.byte_count.toNat)
    (narrowed flow.min_packet_size.toNat) (narrowed flow.max_packet_size.toNat)
    timestamp (fmt_1f_token (mean_iat flow)).value
    (narrowed flow.tcp_syn_count.toNat) (narrowed flow.tcp_fin_count.toNat)
    (narrowed flow.tcp_rst_count.toNat) (narrowed flow.tcp_ack_count.toNat)

/-- **`readJson` reads back exactly what was written**, unless the protocol has no name on the
other side. -/
theorem readJson_payload (jackson : Jackson) (zone : Zone) (kafka_timestamp : Int64)
    {flow : FlowT} (h : |mean_iat flow| ≤ 10 ^ 30) :
    readJson jackson zone (json_payload flow) kafka_timestamp
      = (FlowProtocol.valueOf (proto_str flow.key.protocol)).map
          (fun protocol => received flow protocol (zone kafka_timestamp)) := by
  have htree : jackson.readTree (json_payload flow) = some (microflow_json flow) := by
    rw [json_payload_eq h, ← @String.ofList_toList (microflow_text flow), microflow_text_eq]
    exact jackson.readTree_text _ (readable_microflow h)
  have hint : ∀ n : Nat, jackson.asInt (.num (.ofNat n)) = narrowed n :=
    fun n => jackson.asInt_num (.ofNat n) rfl
  have hsrc_ip : (microflow_json flow).get "src_ip" = some (.str (inet_ntop flow.key.src_ip)) :=
    rfl
  have hdst_ip : (microflow_json flow).get "dst_ip" = some (.str (inet_ntop flow.key.dst_ip)) :=
    rfl
  have hsrc_port : (microflow_json flow).get "src_port"
      = some (.num (.ofNat (ntohs flow.key.src_port).toNat)) := rfl
  have hdst_port : (microflow_json flow).get "dst_port"
      = some (.num (.ofNat (ntohs flow.key.dst_port).toNat)) := rfl
  have hprotocol : (microflow_json flow).get "protocol"
      = some (.str (proto_str flow.key.protocol)) := rfl
  have hdir : (microflow_json flow).get "dir" = some (.str (dir_to_str flow.direction)) := rfl
  have hpackets : (microflow_json flow).get "packets"
      = some (.num (.ofNat flow.packet_count.toNat)) := rfl
  have hbytes : (microflow_json flow).get "bytes"
      = some (.num (.ofNat flow.byte_count.toNat)) := rfl
  have hmin : (microflow_json flow).get "min_size"
      = some (.num (.ofNat flow.min_packet_size.toNat)) := rfl
  have hmax : (microflow_json flow).get "max_size"
      = some (.num (.ofNat flow.max_packet_size.toNat)) := rfl
  have hmean : (microflow_json flow).get "mean_iat_us"
      = some (.num (fmt_1f_token (mean_iat flow))) := rfl
  obtain ⟨tcp, htcp, hsyn, hfin, hrst, hack⟩ : ∃ tcp, (microflow_json flow).get "tcp" = some tcp
      ∧ tcp.get "syn" = some (.num (.ofNat flow.tcp_syn_count.toNat))
      ∧ tcp.get "fin" = some (.num (.ofNat flow.tcp_fin_count.toNat))
      ∧ tcp.get "rst" = some (.num (.ofNat flow.tcp_rst_count.toNat))
      ∧ tcp.get "ack" = some (.num (.ofNat flow.tcp_ack_count.toNat)) :=
    ⟨_, rfl, rfl, rfl, rfl, rfl⟩
  have hproto : FlowProtocol.valueOf (jackson.asText (.str (proto_str flow.key.protocol)))
      = FlowProtocol.valueOf (proto_str flow.key.protocol) := by rw [jackson.asText_str]
  have hdirection : FlowDirection.valueOf (jackson.asText (.str (dir_to_str flow.direction)))
      = some (received_dir flow.direction) := by rw [jackson.asText_str, valueOf_dir_to_str]
  rw [readJson, bind_of_eq_some htree, bind_of_eq_some hsrc_ip, bind_of_eq_some hdst_ip,
    bind_of_eq_some hsrc_port, bind_of_eq_some hdst_port, bind_of_eq_some hprotocol, hproto]
  -- `valueOf` is the only call that can throw on a message of the sniffer
  cases FlowProtocol.valueOf (proto_str flow.key.protocol) with
  | none => rfl
  | some protocol =>
      rw [bind_of_eq_some rfl, bind_of_eq_some hdir, bind_of_eq_some hdirection,
        bind_of_eq_some hpackets, bind_of_eq_some hbytes, bind_of_eq_some hmin,
        bind_of_eq_some hmax, bind_of_eq_some hmean, bind_of_eq_some htcp, bind_of_eq_some hsyn,
        bind_of_eq_some hfin, bind_of_eq_some hrst, bind_of_eq_some hack]
      simp only [hint, jackson.asText_str, jackson.asDouble_num]
      rfl

/-! ## §4. Which values survive. -/

/-- `parsed` carries the values of `flow`: counters as numbers, the mean rounded to tenths. -/
structure Carries (flow : FlowT) (parsed : Flow) : Prop where
  src_ip : parsed.src_ip = inet_ntop flow.key.src_ip
  dst_ip : parsed.dst_ip = inet_ntop flow.key.dst_ip
  src_port : parsed.src_port.toInt = (ntohs flow.key.src_port).toNat
  dst_port : parsed.dst_port.toInt = (ntohs flow.key.dst_port).toNat
  protocol : parsed.protocol.name = proto_str flow.key.protocol
  dir : parsed.dir.name = dir_to_str flow.direction
  packet_count : parsed.packet_count.toInt = flow.packet_count.toNat
  byte_count : parsed.byte_count.toInt = flow.byte_count.toNat
  min_packet_size : parsed.min_packet_size.toInt = flow.min_packet_size.toNat
  max_packet_size : parsed.max_packet_size.toInt = flow.max_packet_size.toNat
  mean_iat_us : (∃ n : Int, parsed.mean_iat_us = n / 10)
    ∧ |parsed.mean_iat_us - mean_iat flow| ≤ 1 / 20
  tcp_syn_count : parsed.tcp_syn_count.toInt = flow.tcp_syn_count.toNat
  tcp_ack_count : parsed.tcp_ack_count.toInt = flow.tcp_ack_count.toNat
  tcp_fin_count : parsed.tcp_fin_count.toInt = flow.tcp_fin_count.toNat
  tcp_rst_count : parsed.tcp_rst_count.toInt = flow.tcp_rst_count.toNat

/-- All 32-bit counters are below `2^31`. -/
structure FitsInt (flow : FlowT) : Prop where
  packet_count : flow.packet_count.toNat < 2 ^ 31
  byte_count : flow.byte_count.toNat < 2 ^ 31
  tcp_syn_count : flow.tcp_syn_count.toNat < 2 ^ 31
  tcp_ack_count : flow.tcp_ack_count.toNat < 2 ^ 31
  tcp_fin_count : flow.tcp_fin_count.toNat < 2 ^ 31
  tcp_rst_count : flow.tcp_rst_count.toNat < 2 ^ 31

/-- Below `2^31` narrowing changes nothing. -/
theorem narrowed_toInt {n : Nat} (h : n < 2 ^ 31) : (narrowed n).toInt = n :=
  Int32.toInt_ofInt_of_le (by omega) (by omega)

/-- A counter keeps its value exactly if it is below `2^31`. -/
theorem narrowed_toInt_iff {n : Nat} : (narrowed n).toInt = n ↔ n < 2 ^ 31 := by
  constructor
  · intro h
    have := (narrowed n).toInt_lt
    omega
  · exact narrowed_toInt

/-- The value of the token `%.1f` writes. -/
theorem fmt_1f_token_value (q : ℚ) :
    (fmt_1f_token q).value = if q < 0 then -((tenths q : ℚ) / 10) else (tenths q : ℚ) / 10 := by
  have hsplit : (tenths q : ℚ) = (tenths q / 10 : Nat) * 10 + (tenths q % 10 : Nat) := by
    exact_mod_cast (Nat.div_add_mod' (tenths q) 10).symm
  have hmantissa : (fmt_1f_token q).mantissa = (tenths q : ℚ) / 10 := by
    rw [hsplit]
    simp only [fmt_1f_token, JsonNumber.mantissa, JsonNumber.fracValue, lastDigit]
    ring
  simp only [JsonNumber.value, hmantissa]
  by_cases hq : q < 0 <;> simp [fmt_1f_token, hq]

/-- The token of `%.1f` is a number of tenths within a twentieth. -/
theorem fmt_1f_token_near (q : ℚ) :
    (∃ n : Int, (fmt_1f_token q).value = n / 10) ∧ |(fmt_1f_token q).value - q| ≤ 1 / 20 := by
  have hnear := tenths_near q
  rw [fmt_1f_token_value]
  by_cases hq : q < 0
  · rw [abs_of_neg hq] at hnear
    simp only [if_pos hq]
    refine ⟨⟨-tenths q, by push_cast; ring⟩, ?_⟩
    rw [abs_le] at hnear ⊢
    constructor <;> linarith [hnear.1, hnear.2]
  · rw [abs_of_nonneg (not_lt.mp hq)] at hnear
    simp only [if_neg hq]
    exact ⟨⟨tenths q, by push_cast; rfl⟩, hnear⟩

/-- `FlowProtocol.valueOf` knows what `proto_str` writes for TCP and UDP. -/
theorem proto_str_name {protocol : UInt8}
    (h : protocol = IPPROTO_TCP ∨ protocol = IPPROTO_UDP) :
    ∃ p : FlowProtocol, p.name = proto_str protocol
      ∧ FlowProtocol.valueOf (proto_str protocol) = some p := by
  rcases h with rfl | rfl
  · exact ⟨.TCP, by decide, by decide⟩
  · exact ⟨.UDP, by decide, by decide⟩

/-- A received flow carries its values if and only if the counters fit. -/
theorem carries_received_iff {flow : FlowT} {protocol : FlowProtocol}
    (hproto : protocol.name = proto_str flow.key.protocol) (timestamp : LocalDateTime) :
    Carries flow (received flow protocol timestamp) ↔ FitsInt flow := by
  have h16 : ∀ x : UInt16, (narrowed x.toNat).toInt = x.toNat := by
    intro x
    have := x.toNat_lt
    exact narrowed_toInt (by omega)
  constructor
  · intro h
    exact
      { packet_count := narrowed_toInt_iff.mp h.packet_count
        byte_count := narrowed_toInt_iff.mp h.byte_count
        tcp_syn_count := narrowed_toInt_iff.mp h.tcp_syn_count
        tcp_ack_count := narrowed_toInt_iff.mp h.tcp_ack_count
        tcp_fin_count := narrowed_toInt_iff.mp h.tcp_fin_count
        tcp_rst_count := narrowed_toInt_iff.mp h.tcp_rst_count }
  · intro h
    exact
      { src_ip := rfl
        dst_ip := rfl
        src_port := h16 _
        dst_port := h16 _
        protocol := hproto
        dir := by
          show (received_dir flow.direction).name = _
          cases flow.direction <;> rfl
        packet_count := narrowed_toInt h.packet_count
        byte_count := narrowed_toInt h.byte_count
        min_packet_size := h16 _
        max_packet_size := h16 _
        mean_iat_us := fmt_1f_token_near _
        tcp_syn_count := narrowed_toInt h.tcp_syn_count
        tcp_ack_count := narrowed_toInt h.tcp_ack_count
        tcp_fin_count := narrowed_toInt h.tcp_fin_count
        tcp_rst_count := narrowed_toInt h.tcp_rst_count }

section Message

variable (jackson : Jackson) (zone : Zone) (kafka_timestamp : Int64)

/-- The message of `flow` is whole, is accepted, and is read as a flow with its values. -/
def Faithful (flow : FlowT) : Prop :=
  json_payload flow = microflow_text flow
    ∧ ∃ parsed, readJson jackson zone (json_payload flow) kafka_timestamp = some parsed
        ∧ Carries flow parsed

/-- **A TCP or UDP flow survives the language boundary if and only if its counters are below
`2^31`.** -/
theorem message_faithful_iff {flow : FlowT}
    (hproto : flow.key.protocol = IPPROTO_TCP ∨ flow.key.protocol = IPPROTO_UDP)
    (hmean : |mean_iat flow| < 2 ^ 53) :
    Faithful jackson zone kafka_timestamp flow ↔ FitsInt flow := by
  have hbound : |mean_iat flow| ≤ 10 ^ 30 := hmean.le.trans (by norm_num)
  obtain ⟨protocol, hname, hvalue⟩ := proto_str_name hproto
  have hread := readJson_payload jackson zone kafka_timestamp hbound
  rw [hvalue, Option.map_some] at hread
  rw [← carries_received_iff hname (zone kafka_timestamp)]
  constructor
  · rintro ⟨-, parsed, hparsed, hcarries⟩
    rw [hread, Option.some.injEq] at hparsed
    exact hparsed ▸ hcarries
  · intro hcarries
    exact ⟨json_payload_eq hbound, _, hread, hcarries⟩

end Message

/-- Two million packets in a window, three billion bytes in all. -/
def heavy_flow : FlowT where
  key := ⟨0x0100000a, 0x08080808, 0x3930, 0xbb01, IPPROTO_TCP⟩
  direction := .DIR_OUTBOUND
  packet_count := 2000001
  byte_count := 3000000000
  min_packet_size := 1500
  max_packet_size := 1500
  start_time := ⟨10, 0⟩
  last_seen := ⟨11, 0⟩
  total_iat_usec := 1000000
  tcp_syn_count := 0
  tcp_fin_count := 0
  tcp_rst_count := 0
  tcp_ack_count := 2000001

/-- A time of day for messages that need one. -/
def noon : LocalDateTime := ⟨⟨2026, 6, 1, 12, 0, 0, 0⟩, by decide⟩

/-- Its mean inter-arrival time is half a microsecond. -/
theorem mean_iat_heavy_flow : mean_iat heavy_flow = 1 / 2 := by
  have hcount : heavy_flow.packet_count > 1 := by decide
  have hdiv : (heavy_flow.packet_count - 1).toNat = 2000000 := by decide
  rw [mean_iat, if_pos hcount, hdiv]
  norm_num [heavy_flow]

theorem message_faithful_iff_heavy :
    Faithful .reference (fun _ => noon) 0 heavy_flow ↔ FitsInt heavy_flow :=
  message_faithful_iff .reference (fun _ => noon) 0 (Or.inl rfl)
    (by rw [mean_iat_heavy_flow]; norm_num [abs_of_pos])

/-- **A byte count from `2^31` on is read as a negative one.** -/
theorem message_not_faithful :
    ¬ ∀ (jackson : Jackson) (zone : Zone) (kafka_timestamp : Int64) (flow : FlowT),
        flow.key.protocol = IPPROTO_TCP ∨ flow.key.protocol = IPPROTO_UDP →
          1 ≤ flow.packet_count → |mean_iat flow| < 2 ^ 53 →
            Faithful jackson zone kafka_timestamp flow := by
  intro hclaim
  obtain ⟨-, parsed, hparsed, hcarries⟩ := hclaim .reference (fun _ => noon) 0 heavy_flow
    (Or.inl rfl) (by decide) (by rw [mean_iat_heavy_flow]; norm_num [abs_of_pos])
  have hread := readJson_payload .reference (fun _ => noon) 0
    (show |mean_iat heavy_flow| ≤ 10 ^ 30 by rw [mean_iat_heavy_flow]; norm_num [abs_of_pos])
  rw [hparsed, show FlowProtocol.valueOf (proto_str heavy_flow.key.protocol) = some .TCP from
    by decide, Option.map_some, Option.some.injEq] at hread
  have hbytes := hcarries.byte_count
  rw [hread] at hbytes
  exact absurd hbytes (by decide)

end KafKatch.Pipeline
