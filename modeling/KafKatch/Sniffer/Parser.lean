/-
  KafKatch.Sniffer.Parser — `pkt_handler` on the captured bytes (`parser.c`).

  The capture buffer is a list of bytes; a header pointer is an offset into it, and reading a
  field at or beyond the end of the buffer fails.  Header fields are loaded in host order
  (little-endian), so a field that travels in network order is swapped by `ntohs`.  The
  bit-fields of `struct ip` and `struct tcphdr` put the first-declared one in the low nibble.
-/
import KafKatch.Sniffer.FlowTable

namespace KafKatch.Sniffer

/-! ## §1. Reading the capture buffer. -/

/-- `struct pcap_pkthdr`: when the packet was captured and how many of its bytes. -/
structure PcapPkthdr where
  ts : Timeval
  caplen : UInt32
  deriving Repr, DecidableEq

/-- A read at an index that was not captured. -/
structure OutOfBounds where
  index : Nat
  deriving Repr, DecidableEq

def read_u8 (bytes : List UInt8) (i : Nat) : Except OutOfBounds UInt8 :=
  match bytes[i]? with
  | some b => .ok b
  | none => .error ⟨i⟩

/-- The little-endian value of two bytes in memory. -/
def le16 (b0 b1 : UInt8) : UInt16 := UInt16.ofNat (b0.toNat + 256 * b1.toNat)

/-- The little-endian value of four bytes in memory. -/
def le32 (b0 b1 b2 b3 : UInt8) : UInt32 :=
  UInt32.ofNat (b0.toNat + 256 * (b1.toNat + 256 * (b2.toNat + 256 * b3.toNat)))

def read_u16 (bytes : List UInt8) (i : Nat) : Except OutOfBounds UInt16 := do
  let b0 ← read_u8 bytes i
  let b1 ← read_u8 bytes (i + 1)
  return le16 b0 b1

def read_u32 (bytes : List UInt8) (i : Nat) : Except OutOfBounds UInt32 := do
  let b0 ← read_u8 bytes i
  let b1 ← read_u8 bytes (i + 1)
  let b2 ← read_u8 bytes (i + 2)
  let b3 ← read_u8 bytes (i + 3)
  return le32 b0 b1 b2 b3

/-! ## §2. The three layers. -/

def ETHERTYPE_IP : UInt16 := 0x0800
def ETHERTYPE_VLAN : UInt16 := 0x8100

/-- `sizeof` of the four header structs. -/
def sizeof_ether_header : Nat := 14
def sizeof_ip : Nat := 20
def sizeof_tcphdr : Nat := 20
def sizeof_udphdr : Nat := 8

/-- The link layer: the offset of the network header, and the EtherType. -/
def parse_ether (bytes : List UInt8) : Except OutOfBounds (Nat × UInt16) := do
  let ether_type ← read_u16 bytes 12
  let offset := sizeof_ether_header
  -- no length is checked before these two reads
  if ntohs ether_type = ETHERTYPE_VLAN then
    let offset := offset + 4
    let ether_type ← read_u16 bytes (offset - 2)
    return (offset, ntohs ether_type)
  else
    return (offset, ntohs ether_type)

/-- What is taken from the transport header. -/
structure TransportFields where
  src_port : UInt16
  dst_port : UInt16
  tcp_flags : UInt8
  payload_size : Int32
  deriving Repr, DecidableEq

/-- The transport layer, at `bytes + offset + ip_hdrlen`; `none` is an early `return`. -/
def parse_transport (h : PcapPkthdr) (bytes : List UInt8) (offset ip_hdrlen : Nat)
    (ip_tot_len : UInt16) (protocol : UInt8) : Except OutOfBounds (Option TransportFields) := do
  -- `ip_hdrlen` is whatever the header says, down to zero
  let hdr := offset + ip_hdrlen
  if protocol = IPPROTO_TCP then
    if h.caplen.toNat < hdr + sizeof_tcphdr then return none
    let th_sport ← read_u16 bytes hdr
    let th_dport ← read_u16 bytes (hdr + 2)
    let th_flags ← read_u8 bytes (hdr + 13)
    let th_off ← read_u8 bytes (hdr + 12)
    let tcp_hdrlen := th_off.toNat / 16 * 4
    return some ⟨th_sport, th_dport, th_flags,
      Int32.ofInt ((ip_tot_len.toNat : Int) - ip_hdrlen - tcp_hdrlen)⟩
  else if protocol = IPPROTO_UDP then
    if h.caplen.toNat < hdr + sizeof_udphdr then return none
    let uh_sport ← read_u16 bytes hdr
    let uh_dport ← read_u16 bytes (hdr + 2)
    return some ⟨uh_sport, uh_dport, 0, Int32.ofInt ((ip_tot_len.toNat : Int) - ip_hdrlen - 8)⟩
  else
    return none

/-- `pkt_handler` up to its critical section: the packet it records, if any. -/
def pkt_parse (h : PcapPkthdr) (bytes : List UInt8) : Except OutOfBounds (Option PktStatsT) := do
  let (offset, ether_type) ← parse_ether bytes
  if ether_type ≠ ETHERTYPE_IP then return none
  if h.caplen.toNat < offset + sizeof_ip then return none
  -- version and header length share one byte
  let ip_v ← read_u8 bytes offset
  if ip_v.toNat / 16 ≠ 4 then return none
  let ip_hl ← read_u8 bytes offset
  let ip_hdrlen := ip_hl.toNat % 16 * 4
  let ip_len ← read_u16 bytes (offset + 2)
  let ip_tot_len := ntohs ip_len
  let protocol ← read_u8 bytes (offset + 9)
  let src_ip ← read_u32 bytes (offset + 12)
  let dst_ip ← read_u32 bytes (offset + 16)
  match ← parse_transport h bytes offset ip_hdrlen ip_tot_len protocol with
  | none => return none
  | some t =>
      -- a total length shorter than the headers counts as no payload
      let payload_size := if t.payload_size < 0 then 0 else t.payload_size
      return some ⟨⟨src_ip, dst_ip, t.src_port, t.dst_port, protocol⟩, payload_size, h.ts,
        t.tcp_flags⟩

/-- `pkt_handler` on the active table. -/
def pkt_handler (net : LocalNet) (table : List FlowT) (h : PcapPkthdr) (bytes : List UInt8) :
    Except OutOfBounds (List FlowT) := do
  match ← pkt_parse h bytes with
  | none => return table
  | some stats => return flow_process_packet net table stats

end KafKatch.Sniffer
