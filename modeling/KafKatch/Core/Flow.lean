/-
  KafKatch.Core.Flow — the domain objects of the aggregation service (`Flow.java`,
  `FlowProtocol.java`, `FlowDirection.java`).

  A Java `int` is an `Int32`, a `long` an `Int64`, a `double` an exact rational.
-/
import KafKatch.Lib.Calendar
import Mathlib.Data.Rat.Defs

namespace KafKatch.Core

open KafKatch.Lib

/-- `FlowProtocol`. -/
inductive FlowProtocol where
  | TCP
  | UDP
  deriving Repr, DecidableEq

/-- `FlowDirection`. -/
inductive FlowDirection where
  | INBOUND
  | OUTBOUND
  | LATERAL
  | UNKNOWN
  deriving Repr, DecidableEq

def FlowProtocol.name : FlowProtocol → String
  | .TCP => "TCP"
  | .UDP => "UDP"

def FlowDirection.name : FlowDirection → String
  | .INBOUND => "INBOUND"
  | .OUTBOUND => "OUTBOUND"
  | .LATERAL => "LATERAL"
  | .UNKNOWN => "UNKNOWN"

/-- `valueOf`; `none` is the `IllegalArgumentException`. -/
def FlowProtocol.valueOf (s : String) : Option FlowProtocol :=
  [FlowProtocol.TCP, .UDP].find? (fun p => decide (p.name = s))

def FlowDirection.valueOf (s : String) : Option FlowDirection :=
  [FlowDirection.INBOUND, .OUTBOUND, .LATERAL, .UNKNOWN].find? (fun d => decide (d.name = s))

@[simp] theorem FlowProtocol.valueOf_name (p : FlowProtocol) : valueOf p.name = some p := by
  cases p <;> decide

@[simp] theorem FlowDirection.valueOf_name (d : FlowDirection) : valueOf d.name = some d := by
  cases d <;> decide

/-- A Java `int` in a string concatenation. -/
def decimal (i : Int32) : String := toString i.toInt

/-- `Flow`. -/
structure Flow where
  flow_key : String
  src_ip : String
  dst_ip : String
  src_port : Int32
  dst_port : Int32
  protocol : FlowProtocol
  dir : FlowDirection
  packet_count : Int32
  byte_count : Int32
  min_packet_size : Int32
  max_packet_size : Int32
  timestamp : LocalDateTime
  mean_iat_us : ℚ
  tcp_syn_count : Int32
  tcp_fin_count : Int32
  tcp_rst_count : Int32
  tcp_ack_count : Int32
  deriving DecidableEq

/-- The flow key the parser's constructor builds: `src:port-dst:port-PROTOCOL`. -/
def parsed_flow_key (src_ip dst_ip : String) (src_port dst_port : Int32)
    (protocol : FlowProtocol) : String :=
  src_ip ++ ":" ++ decimal src_port ++ "-" ++ dst_ip ++ ":" ++ decimal dst_port ++ "-"
    ++ protocol.name

/-- The constructor for the parser, with its sixteen positional arguments. -/
def Flow.parsed (src_ip dst_ip : String) (src_port dst_port : Int32) (protocol : FlowProtocol)
    (dir : FlowDirection) (packet_count byte_count min_packet_size max_packet_size : Int32)
    (timestamp : LocalDateTime) (mean_iat_us : ℚ)
    (tcp_syn_count tcp_fin_count tcp_rst_count tcp_ack_count : Int32) : Flow where
  flow_key := parsed_flow_key src_ip dst_ip src_port dst_port protocol
  src_ip := src_ip
  dst_ip := dst_ip
  src_port := src_port
  dst_port := dst_port
  protocol := protocol
  dir := dir
  packet_count := packet_count
  byte_count := byte_count
  min_packet_size := min_packet_size
  max_packet_size := max_packet_size
  timestamp := timestamp
  mean_iat_us := mean_iat_us
  tcp_syn_count := tcp_syn_count
  tcp_fin_count := tcp_fin_count
  tcp_rst_count := tcp_rst_count
  tcp_ack_count := tcp_ack_count

/-- The flow is one that the constructor for the parser builds, from whatever arguments. -/
def Flow.BuiltByParser (flow : Flow) : Prop :=
  flow = Flow.parsed flow.src_ip flow.dst_ip flow.src_port flow.dst_port flow.protocol flow.dir
    flow.packet_count flow.byte_count flow.min_packet_size flow.max_packet_size flow.timestamp
    flow.mean_iat_us flow.tcp_syn_count flow.tcp_fin_count flow.tcp_rst_count flow.tcp_ack_count

theorem Flow.builtByParser_parsed (src_ip dst_ip : String) (src_port dst_port : Int32)
    (protocol : FlowProtocol) (dir : FlowDirection)
    (packet_count byte_count min_packet_size max_packet_size : Int32)
    (timestamp : LocalDateTime) (mean_iat_us : ℚ)
    (tcp_syn_count tcp_fin_count tcp_rst_count tcp_ack_count : Int32) :
    (Flow.parsed src_ip dst_ip src_port dst_port protocol dir packet_count byte_count
      min_packet_size max_packet_size timestamp mean_iat_us tcp_syn_count tcp_fin_count
      tcp_rst_count tcp_ack_count).BuiltByParser := rfl

/-- Its key is the one the constructor derives. -/
theorem Flow.BuiltByParser.flow_key_eq {flow : Flow} (h : flow.BuiltByParser) :
    flow.flow_key = parsed_flow_key flow.src_ip flow.dst_ip flow.src_port flow.dst_port
      flow.protocol := congrArg Flow.flow_key h

/-- The connection a flow belongs to. -/
def Flow.connection (flow : Flow) : String × Int32 × String × Int32 × FlowProtocol :=
  (flow.src_ip, flow.src_port, flow.dst_ip, flow.dst_port, flow.protocol)

end KafKatch.Core
