/-
  KafKatch.Sniffer.KafkaClient — what `kafka_client_send_flows` writes for one flow
  (`kafka_client.c`).

  The host is little-endian: a `uint32_t` kept in network byte order has the first byte of the
  wire as its lowest byte, so `inet_ntop` prints the octets from the lowest up and `ntohs`
  swaps.  A `double` is an exact rational, and `%.1f` rounds it to tenths, ties to even.
-/
import KafKatch.Lib.Rounding
import KafKatch.Sniffer.Flow

namespace KafKatch.Sniffer

open KafKatch.Lib FlowDirectionT

/-! ## §1. libc renderings. -/

/-- The `i`-th byte in memory of a `uint32_t`. -/
def octet (addr : UInt32) (i : Nat) : Nat := addr.toNat / 256 ^ i % 256

/-- `inet_ntop(AF_INET, &addr, …)`. -/
def inet_ntop (addr : UInt32) : String :=
  (octet addr 0).repr ++ "." ++ (octet addr 1).repr ++ "." ++ (octet addr 2).repr ++ "."
    ++ (octet addr 3).repr

/-- `ntohs`. -/
def ntohs (x : UInt16) : UInt16 := UInt16.ofNat (x.toNat % 256 * 256 + x.toNat / 256)

/-- The magnitude of `q` in tenths, as `%.1f` rounds it. -/
def tenths (q : ℚ) : Nat := (roundEven (|q| * 10)).toNat

/-- `%.1f`. -/
def fmt_1f (q : ℚ) : String :=
  (if q < 0 then "-" else "") ++ (tenths q / 10).repr ++ "." ++ (tenths q % 10).repr

/-- `snprintf(buf, size, …)`: at most `size - 1` characters are kept. -/
def snprintf (size : Nat) (s : String) : String := String.ofList (s.toList.take (size - 1))

/-! ## §2. The microflow message. -/

/-- `dir_to_str`. -/
def dir_to_str : FlowDirectionT → String
  | DIR_OUTBOUND => "OUTBOUND"
  | DIR_INBOUND => "INBOUND"
  | DIR_LATERAL => "LATERAL"
  | DIR_UNKNOWN => "UNKNOWN"

/-- The exported mean inter-arrival time. -/
def mean_iat (flow : FlowT) : ℚ :=
  if flow.packet_count > 1 then
    flow.total_iat_usec / ((flow.packet_count - 1).toNat : ℚ)
  else 0

/-- `proto_str`. -/
def proto_str (protocol : UInt8) : String :=
  if protocol = IPPROTO_TCP then "TCP"
  else if protocol = IPPROTO_UDP then "UDP"
  else "OTHER"

/-- The text of the format string, before `snprintf` cuts it. -/
def microflow_text (flow : FlowT) : String :=
  "\x7b\"src_ip\":\"" ++ inet_ntop flow.key.src_ip
    ++ "\",\"src_port\":" ++ (ntohs flow.key.src_port).toNat.repr
    ++ ",\"dst_ip\":\"" ++ inet_ntop flow.key.dst_ip
    ++ "\",\"dst_port\":" ++ (ntohs flow.key.dst_port).toNat.repr
    ++ ",\"protocol\":\"" ++ proto_str flow.key.protocol
    ++ "\",\"dir\":\"" ++ dir_to_str flow.direction
    ++ "\",\"packets\":" ++ flow.packet_count.toNat.repr
    ++ ",\"bytes\":" ++ flow.byte_count.toNat.repr
    ++ ",\"min_size\":" ++ flow.min_packet_size.toNat.repr
    ++ ",\"max_size\":" ++ flow.max_packet_size.toNat.repr
    ++ ",\"mean_iat_us\":" ++ fmt_1f (mean_iat flow)
    ++ ",\"tcp\":\x7b\"syn\":" ++ flow.tcp_syn_count.toNat.repr
    ++ ",\"ack\":" ++ flow.tcp_ack_count.toNat.repr
    ++ ",\"fin\":" ++ flow.tcp_fin_count.toNat.repr
    ++ ",\"rst\":" ++ flow.tcp_rst_count.toNat.repr ++ "\x7d\x7d"

/-- `json_payload`: the message handed to `rd_kafka_producev` for one flow. -/
def json_payload (flow : FlowT) : String := snprintf 1024 (microflow_text flow)

/-- `kafka_client_send_flows` on a whole table: `HASH_ITER` hands over one message per node,
in table order, and deletes the node. -/
def kafka_client_send_flows (table : List FlowT) : List String := table.map json_payload

end KafKatch.Sniffer
