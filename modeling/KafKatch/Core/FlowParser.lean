/-
  KafKatch.Core.FlowParser — reading a microflow message (`FlowParser.java`).

  The JSON library is a parameter: `Jackson` is its tree model together with what the service
  relies on.  `Jackson.reference` is an instance built on the verified parser of
  `KafKatch.Lib.Json`.
-/
import KafKatch.Core.Flow
import KafKatch.Lib.Json

namespace KafKatch.Core

open KafKatch.Lib

/-! ## §1. The tree model. -/

/-- A document without repeated names that is no longer than a message, and so within all of
Jackson's limits on nesting and on the length of names, strings and numbers. -/
def Readable (v : Json) : Prop := v.distinctNames = true ∧ v.text.length < 1024

/-- Jackson's tree model: `readTree` (`none` when it throws) reads compact JSON, `asInt` of an
integer node narrows its value to 32 bits whatever its range, `asText` of a text node is the
text, and `asDouble` of a number its value. -/
structure Jackson where
  readTree : String → Option Json
  asInt : Json → Int32
  asText : Json → String
  asDouble : Json → ℚ
  readTree_text : ∀ v, Readable v → readTree (String.ofList v.text) = some v
  asInt_num : ∀ n : JsonNumber, n.isInteger = true → asInt (.num n) = Int32.ofInt n.intValue
  asText_str : ∀ s, asText (.str s) = s
  asDouble_num : ∀ n : JsonNumber, asDouble (.num n) = n.value

/-- The tree model of the verified parser. -/
def Jackson.reference : Jackson where
  readTree s := Json.parse s.toList
  asInt
    | .num n => if n.isInteger then Int32.ofInt n.intValue else 0
    | _ => 0
  asText
    | .str s => s
    | _ => ""
  asDouble
    | .num n => n.value
    | _ => 0
  readTree_text v _ := by rw [String.toList_ofList, Json.parse_text]
  asInt_num n hn := by simp only [hn, if_true]
  asText_str _ := rfl
  asDouble_num _ := rfl

/-! ## §2. `readJson`. -/

/-- The zone of the host: `LocalDateTime.ofInstant` of an epoch millisecond. -/
abbrev Zone := Int64 → LocalDateTime

/-- `FlowParser.readJson`; `none` is an exception. -/
def readJson (jackson : Jackson) (zone : Zone) (json : String) (kafka_timestamp : Int64) :
    Option Flow := do
  let root ← jackson.readTree json
  let src_ip := jackson.asText (← root.get "src_ip")
  let dst_ip := jackson.asText (← root.get "dst_ip")
  let src_port := jackson.asInt (← root.get "src_port")
  let dst_port := jackson.asInt (← root.get "dst_port")
  let protocol ← FlowProtocol.valueOf (jackson.asText (← root.get "protocol"))
  let dir ← FlowDirection.valueOf (jackson.asText (← root.get "dir"))
  let packets := jackson.asInt (← root.get "packets")
  let bytes := jackson.asInt (← root.get "bytes")
  let min_size := jackson.asInt (← root.get "min_size")
  let max_size := jackson.asInt (← root.get "max_size")
  -- the time of reading, not one from the message
  let timestamp := zone kafka_timestamp
  let mean_iat_us := jackson.asDouble (← root.get "mean_iat_us")
  let tcp ← root.get "tcp"
  let tcp_syn_count := jackson.asInt (← tcp.get "syn")
  let tcp_fin_count := jackson.asInt (← tcp.get "fin")
  let tcp_rst_count := jackson.asInt (← tcp.get "rst")
  let tcp_ack_count := jackson.asInt (← tcp.get "ack")
  return Flow.parsed src_ip dst_ip src_port dst_port protocol dir packets bytes min_size
    max_size timestamp mean_iat_us tcp_syn_count tcp_fin_count tcp_rst_count tcp_ack_count

end KafKatch.Core
