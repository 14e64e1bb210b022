/-
  KafKatch.Sniffer.Frame
  ──────────────────────
  **WELL-FORMED FRAMES, AND THAT DECODING THEM UNDOES THE ENCODING.**

  `Frame` is a datagram as its sender means it, with all values in host order; its fields
  carry the bounds that make it well formed.  `Frame.wire` writes it out, headers and padding
  included.  All headers that `pkt_handler` reads lie within the first 98 bytes
  (`headers_length_le`), so a snapshot of 128 bytes, or of the whole frame, contains them, and
  the packet recorded from it is the frame's own (`pkt_parse_capture`).  It is also genuine
  (`genuine_frame`): what the checks should have refused is never a well-formed frame.
-/
import KafKatch.Sniffer.Guards

namespace KafKatch.Sniffer

/-! ## §1. Network byte order. -/

/-- The bytes of a 16-bit value on the wire. -/
def be16 (x : UInt16) : List UInt8 :=
  [UInt8.ofNat (x.toNat / 256), UInt8.ofNat (x.toNat % 256)]

/-- The bytes of a 32-bit value on the wire. -/
def be32 (x : UInt32) : List UInt8 :=
  [UInt8.ofNat (x.toNat / 256 ^ 3), UInt8.ofNat (x.toNat / 256 ^ 2 % 256),
    UInt8.ofNat (x.toNat / 256 % 256), UInt8.ofNat (x.toNat % 256)]

/-- `htons`: the value a host finds in memory for a 16-bit value on the wire. -/
def htons (x : UInt16) : UInt16 := UInt16.ofNat (x.toNat / 256 + 256 * (x.toNat % 256))

/-- `htonl`. -/
def htonl (x : UInt32) : UInt32 :=
  UInt32.ofNat (x.toNat / 256 ^ 3 + 256 * (x.toNat / 256 ^ 2 % 256
    + 256 * (x.toNat / 256 % 256 + 256 * (x.toNat % 256))))

theorem toNat_byte {n : Nat} (h : n < 256) : (UInt8.ofNat n).toNat = n := by
  rw [UInt8.toNat_ofNat', Nat.mod_eq_of_lt h]

theorem le16_be16 (x : UInt16) :
    le16 (UInt8.ofNat (x.toNat / 256)) (UInt8.ofNat (x.toNat % 256)) = htons x := by
  have hx := x.toNat_lt
  rw [le16, toNat_byte (by omega), toNat_byte (by omega), htons]

theorem le32_be32 (x : UInt32) :
    le32 (UInt8.ofNat (x.toNat / 256 ^ 3)) (UInt8.ofNat (x.toNat / 256 ^ 2 % 256))
      (UInt8.ofNat (x.toNat / 256 % 256)) (UInt8.ofNat (x.toNat % 256)) = htonl x := by
  have hx := x.toNat_lt
  rw [le32, toNat_byte (by omega), toNat_byte (by omega), toNat_byte (by omega),
    toNat_byte (by omega), htonl]

@[simp] theorem ntohs_htons (x : UInt16) : ntohs (htons x) = x := by
  have hx := x.toNat_lt
  have hswap : x.toNat / 256 + 256 * (x.toNat % 256) < 2 ^ 16 := by omega
  have hlow : (x.toNat / 256 + 256 * (x.toNat % 256)) % 256 = x.toNat / 256 := by omega
  have hhigh : (x.toNat / 256 + 256 * (x.toNat % 256)) / 256 = x.toNat % 256 := by omega
  apply UInt16.toNat_inj.mp
  simp only [ntohs, htons, UInt16.toNat_ofNat']
  rw [Nat.mod_eq_of_lt hswap, hlow, hhigh]
  omega

/-! ## §2. Frames. -/

/-- The options of a header: whole 32-bit words, at most ten. -/
structure Options where
  bytes : List UInt8
  words : Nat
  length_eq : bytes.length = 4 * words
  words_le : words ≤ 10

/-- A TCP header.  `reserved` is the low nibble next to the data offset. -/
structure TcpHeader where
  sport : UInt16
  dport : UInt16
  seq : UInt32
  ack : UInt32
  reserved : Fin 16
  flags : UInt8
  win : UInt16
  sum : UInt16
  urp : UInt16
  options : Options

/-- A UDP header. -/
structure UdpHeader where
  sport : UInt16
  dport : UInt16
  ulen : UInt16
  sum : UInt16

inductive Transport where
  | tcp (hdr : TcpHeader)
  | udp (hdr : UdpHeader)

namespace Transport

def protocol : Transport → UInt8
  | tcp _ => IPPROTO_TCP
  | udp _ => IPPROTO_UDP

def sport : Transport → UInt16
  | tcp hdr => hdr.sport
  | udp hdr => hdr.sport

def dport : Transport → UInt16
  | tcp hdr => hdr.dport
  | udp hdr => hdr.dport

/-- The TCP flag byte; UDP has none. -/
def flags : Transport → UInt8
  | tcp hdr => hdr.flags
  | udp _ => 0

/-- The part of the header that has no options. -/
def fixed : Transport → List UInt8
  | tcp hdr =>
      be16 hdr.sport ++ be16 hdr.dport ++ be32 hdr.seq ++ be32 hdr.ack
        ++ [UInt8.ofNat ((5 + hdr.options.words) * 16 + hdr.reserved), hdr.flags]
        ++ be16 hdr.win ++ be16 hdr.sum ++ be16 hdr.urp
  | udp hdr => be16 hdr.sport ++ be16 hdr.dport ++ be16 hdr.ulen ++ be16 hdr.sum

def options : Transport → List UInt8
  | tcp hdr => hdr.options.bytes
  | udp _ => []

/-- The length of the whole header. -/
def length (t : Transport) : Nat := t.fixed.length + t.options.length

end Transport

/-- An Ethernet II frame, optionally tagged, that carries an unfragmented or first-fragment
IPv4 datagram with TCP or UDP.  The total length is the exact one, and `padding` is what the
link layer adds after it. -/
structure Frame where
  dst_mac : Vector UInt8 6
  src_mac : Vector UInt8 6
  vlan_tci : Option UInt16
  tos : UInt8
  id : UInt16
  frag : UInt16
  ttl : UInt8
  sum : UInt16
  src : UInt32
  dst : UInt32
  options : Options
  transport : Transport
  payload : List UInt8
  padding : List UInt8
  frag_offset : frag.toNat % 8192 = 0
  total_le : 20 + options.bytes.length + transport.length + payload.length ≤ 65535

namespace Frame

variable (f : Frame)

/-- The IP total length. -/
def total : Nat := 20 + f.options.bytes.length + f.transport.length + f.payload.length

def ether : List UInt8 :=
  f.dst_mac.toList ++ f.src_mac.toList
    ++ (match f.vlan_tci with
        | none => be16 ETHERTYPE_IP
        | some tci => be16 ETHERTYPE_VLAN ++ be16 tci ++ be16 ETHERTYPE_IP)

/-- The IPv4 header without its options. -/
def ip : List UInt8 :=
  [UInt8.ofNat (4 * 16 + (5 + f.options.words)), f.tos] ++ be16 (UInt16.ofNat f.total)
    ++ be16 f.id ++ be16 f.frag ++ [f.ttl, f.transport.protocol] ++ be16 f.sum
    ++ be32 f.src ++ be32 f.dst

/-- Everything `pkt_handler` looks at. -/
def headers : List UInt8 := f.ether ++ f.ip ++ f.options.bytes ++ f.transport.fixed

/-- The frame on the wire. -/
def wire : List UInt8 := f.headers ++ (f.transport.options ++ f.payload ++ f.padding)

/-- The packet the frame is. -/
def packet (ts : Timeval) : PktStatsT where
  key := ⟨htonl f.src, htonl f.dst, htons f.transport.sport, htons f.transport.dport,
    f.transport.protocol⟩
  payload_size := Int32.ofNat f.payload.length
  timestamp := ts
  tcp_flags := f.transport.flags

/-- Where the network header is. -/
def offset : Nat := if f.vlan_tci.isSome then 18 else 14

theorem ether_length : f.ether.length = f.offset := by
  unfold ether offset
  cases f.vlan_tci <;> simp [be16]

theorem headers_length :
    f.headers.length = f.offset + 20 + 4 * f.options.words + f.transport.fixed.length := by
  simp [headers, ether_length, ip, be16, be32, f.options.length_eq]
  omega

/-- **The headers fit a snapshot of 128 bytes.** -/
theorem headers_length_le : f.headers.length ≤ 98 := by
  have hoff : f.offset ≤ 18 := by
    unfold offset
    split <;> omega
  have hfixed : f.transport.fixed.length ≤ 20 := by
    cases f.transport <;> simp [Transport.fixed, be16, be32]
  have := f.options.words_le
  rw [headers_length]
  omega

end Frame

/-! ## §3. Each layer is read back. -/

section Layers

variable (f : Frame) (rest : List UInt8)

/-- From the EtherType on. -/
theorem drop_ether_type :
    (f.headers ++ rest).drop 12
      = (match f.vlan_tci with
          | none => be16 ETHERTYPE_IP
          | some tci => be16 ETHERTYPE_VLAN ++ be16 tci ++ be16 ETHERTYPE_IP)
        ++ (f.ip ++ f.options.bytes ++ f.transport.fixed ++ rest) := by
  have hmacs : (f.dst_mac.toList ++ f.src_mac.toList).length = 12 := by simp
  rw [Frame.headers, Frame.ether]
  simp only [List.append_assoc]
  rw [← List.append_assoc, List.drop_left' hmacs]

/-- From the network header on. -/
theorem drop_offset :
    (f.headers ++ rest).drop f.offset
      = f.ip ++ (f.options.bytes ++ f.transport.fixed ++ rest) := by
  rw [Frame.headers]
  simp only [List.append_assoc]
  exact List.drop_left' f.ether_length

/-- From the transport header on. -/
theorem drop_transport :
    (f.headers ++ rest).drop (f.offset + (20 + 4 * f.options.words))
      = f.transport.fixed ++ rest := by
  rw [← List.drop_drop, drop_offset]
  have hlen : (f.ip ++ f.options.bytes).length = 20 + 4 * f.options.words := by
    simp [Frame.ip, be16, be32, f.options.length_eq]
    omega
  rw [List.append_assoc, ← List.append_assoc f.ip]
  exact List.drop_left' hlen

theorem tagged_frame : Tagged (f.headers ++ rest) ↔ f.vlan_tci.isSome := by
  have hdrop := drop_ether_type f rest
  cases hv : f.vlan_tci with
  | none =>
      rw [hv] at hdrop
      have hfirst : byteAt (f.headers ++ rest) 12 = 0x08 := byteAt_drop hdrop 0 rfl
      constructor
      · rintro ⟨htag, -⟩
        rw [hfirst] at htag
        exact absurd htag (by decide)
      · intro hsome
        cases hsome
  | some tci =>
      rw [hv] at hdrop
      exact iff_of_true ⟨byteAt_drop hdrop 0 rfl, byteAt_drop hdrop 1 rfl⟩ rfl

/-- The tag, if any, pushes the network header back. -/
theorem network_offset_frame : network_offset (f.headers ++ rest) = f.offset := by
  unfold network_offset Frame.offset
  by_cases ht : Tagged (f.headers ++ rest)
  · rw [if_pos ht, if_pos ((tagged_frame f rest).mp ht)]
  · rw [if_neg ht, if_neg (mt (tagged_frame f rest).mpr ht)]

theorem ether_type_frame : ether_type_of (f.headers ++ rest) = ETHERTYPE_IP := by
  have hdrop := drop_ether_type f rest
  unfold ether_type_of
  rw [network_offset_frame, Frame.offset]
  cases hv : f.vlan_tci with
  | none =>
      rw [hv] at hdrop
      have hfirst : byteAt (f.headers ++ rest) 12 = 0x08 := byteAt_drop hdrop 0 rfl
      have hsecond : byteAt (f.headers ++ rest) 13 = 0x00 := byteAt_drop hdrop 1 rfl
      show ntohs (le16 (byteAt (f.headers ++ rest) 12) (byteAt (f.headers ++ rest) 13)) = _
      rw [hfirst, hsecond]
      rfl
  | some tci =>
      rw [hv] at hdrop
      have hfirst : byteAt (f.headers ++ rest) 16 = 0x08 := byteAt_drop hdrop 4 rfl
      have hsecond : byteAt (f.headers ++ rest) 17 = 0x00 := byteAt_drop hdrop 5 rfl
      show ntohs (le16 (byteAt (f.headers ++ rest) 16) (byteAt (f.headers ++ rest) 17)) = _
      rw [hfirst, hsecond]
      rfl

/-- A byte of the network header. -/
theorem byteAt_ip (k : Nat) {b : UInt8}
    (hb : (f.ip ++ (f.options.bytes ++ f.transport.fixed ++ rest))[k]? = some b) :
    byteAt (f.headers ++ rest) (network_offset (f.headers ++ rest) + k) = b := by
  rw [network_offset_frame]
  exact byteAt_drop (drop_offset f rest) k hb

/-- Version and header length share the first byte. -/
theorem ip_first_byte : byteAt (f.headers ++ rest) (network_offset (f.headers ++ rest))
    = UInt8.ofNat (4 * 16 + (5 + f.options.words)) :=
  byteAt_ip f rest 0 rfl

theorem ip_v_frame : ip_v (f.headers ++ rest) = 4 := by
  have := f.options.words_le
  rw [ip_v, ip_first_byte, toNat_byte (by omega)]
  omega

theorem ip_hl_frame : ip_hl (f.headers ++ rest) = 5 + f.options.words := by
  have := f.options.words_le
  rw [ip_hl, ip_first_byte, toNat_byte (by omega)]
  omega

theorem total_toNat : (UInt16.ofNat f.total).toNat = f.total :=
  Nat.mod_eq_of_lt (Nat.lt_succ_of_le f.total_le)

theorem ip_len_frame : ip_len (f.headers ++ rest) = UInt16.ofNat f.total := by
  unfold ip_len
  rw [byteAt_ip f rest 2 rfl, byteAt_ip f rest 3 rfl, le16_be16, ntohs_htons]

theorem ip_p_frame : ip_p (f.headers ++ rest) = f.transport.protocol :=
  byteAt_ip f rest 9 rfl

theorem transport_offset_frame :
    transport_offset (f.headers ++ rest) = f.offset + (20 + 4 * f.options.words) := by
  unfold transport_offset
  rw [network_offset_frame, ip_hl_frame]
  omega

/-- A byte of the transport header. -/
theorem byteAt_transport (k : Nat) {b : UInt8}
    (hb : (f.transport.fixed ++ rest)[k]? = some b) :
    byteAt (f.headers ++ rest) (transport_offset (f.headers ++ rest) + k) = b := by
  rw [transport_offset_frame]
  exact byteAt_drop (drop_transport f rest) k hb

theorem fixed_length :
    f.transport.fixed.length = match f.transport with | .tcp _ => 20 | .udp _ => 8 := by
  cases f.transport <;> simp [Transport.fixed, be16, be32]

theorem transport_hdrlen_frame : transport_hdrlen (f.headers ++ rest) = f.transport.length := by
  have hfixed := fixed_length f
  unfold transport_hdrlen Transport.length
  rw [ip_p_frame]
  cases ht : f.transport with
  | tcp hdr =>
      rw [ht] at hfixed
      dsimp only at hfixed
      -- the data offset is the high nibble; the reserved bits below it drop out
      have hbyte : byteAt (f.headers ++ rest) (transport_offset (f.headers ++ rest) + 12)
          = UInt8.ofNat ((5 + hdr.options.words) * 16 + hdr.reserved) := by
        refine byteAt_transport f rest 12 ?_
        rw [ht]
        rfl
      have := hdr.reserved.isLt
      have := hdr.options.words_le
      show th_off (f.headers ++ rest) * 4 = _
      rw [th_off, hbyte, toNat_byte (by omega), hfixed, Transport.options, hdr.options.length_eq]
      omega
  | udp hdr =>
      rw [ht] at hfixed
      show 8 = _
      rw [hfixed]
      rfl

/-- The payload size is computed from the total length, so the padding does not count. -/
theorem raw_payload_frame : raw_payload (f.headers ++ rest) = Int32.ofNat f.payload.length := by
  have hpayload : (f.total : Int) - ((5 + f.options.words) * 4 : Nat) - f.transport.length
      = f.payload.length := by
    simp only [Frame.total, f.options.length_eq]
    push_cast
    omega
  unfold raw_payload
  rw [ip_len_frame, ip_hl_frame, transport_hdrlen_frame, total_toNat, hpayload]
  rfl

/-- The headers of a frame pass every check. -/
theorem admitted_frame (h : PcapPkthdr) (hcap : f.headers.length ≤ h.caplen.toNat) :
    Admitted (f.headers ++ rest) h := by
  rw [f.headers_length, fixed_length] at hcap
  refine
    { ether_type := ether_type_frame f rest
      ip_captured := ?_
      version := ip_v_frame f rest
      transport := ?_ }
  · rw [network_offset_frame]
    unfold sizeof_ip
    omega
  · unfold TransportCaptured sizeof_tcphdr sizeof_udphdr
    rw [ip_p_frame, transport_offset_frame]
    cases ht : f.transport with
    | tcp hdr =>
        rw [ht] at hcap
        exact .inl ⟨rfl, by dsimp only at hcap; omega⟩
    | udp hdr =>
        rw [ht] at hcap
        exact .inr ⟨rfl, by dsimp only at hcap; omega⟩

/-- A well-formed frame carries the transport header it is taken to carry. -/
theorem genuine_frame : Genuine (f.headers ++ rest) where
  ether_type := ether_type_frame f rest
  version := ip_v_frame f rest
  header_length := by
    rw [ip_hl_frame]
    omega
  first_fragment := by
    have hfrag := f.frag.toNat_lt
    unfold ip_off
    rw [byteAt_ip f rest 6 rfl, byteAt_ip f rest 7 rfl, toNat_byte (by omega),
      toNat_byte (by omega), Nat.mul_comm, Nat.div_add_mod]
    exact f.frag_offset
  data_offset := by
    intro htcp
    have hlen := transport_hdrlen_frame f rest
    have hfixed := fixed_length f
    unfold transport_hdrlen Transport.length at hlen
    rw [if_pos htcp] at hlen
    rw [ip_p_frame] at htcp
    cases ht : f.transport with
    | tcp hdr =>
        rw [ht] at hlen hfixed
        dsimp only at hfixed
        omega
    | udp hdr =>
        rw [ht] at htcp
        exact absurd htcp (by decide : ¬ IPPROTO_UDP = IPPROTO_TCP)

theorem transport_fields_frame :
    transport_fields (f.headers ++ rest)
      = ⟨htons f.transport.sport, htons f.transport.dport, f.transport.flags,
          Int32.ofNat f.payload.length⟩ := by
  have hbyte := fun k b => byteAt_transport f rest k (b := b)
  have hport : byteAt (f.headers ++ rest) (transport_offset (f.headers ++ rest))
      = byteAt (f.headers ++ rest) (transport_offset (f.headers ++ rest) + 0) := rfl
  unfold transport_fields
  rw [raw_payload_frame, ip_p_frame, hport]
  cases ht : f.transport with
  | tcp hdr =>
      rw [ht] at hbyte
      rw [hbyte 0 _ rfl, hbyte 1 _ rfl, hbyte 2 _ rfl, hbyte 3 _ rfl, hbyte 13 _ rfl, le16_be16,
        le16_be16]
      rfl
  | udp hdr =>
      rw [ht] at hbyte
      rw [hbyte 0 _ rfl, hbyte 1 _ rfl, hbyte 2 _ rfl, hbyte 3 _ rfl, le16_be16, le16_be16]
      rfl

/-- **A frame's packet is read off its headers, whatever follows them.** -/
theorem pkt_parse_headers (h : PcapPkthdr) (hcap : f.headers.length ≤ h.caplen.toNat)
    (hlen : h.caplen.toNat ≤ (f.headers ++ rest).length) :
    pkt_parse h (f.headers ++ rest) = .ok (some (f.packet h.ts)) := by
  have hpay : ¬ Int32.ofNat f.payload.length < 0 := by
    have := f.total_le
    rw [Int32.lt_iff_toInt_lt, Int32.toInt_ofNat_of_lt (by omega), Int32.toInt_zero]
    omega
  rw [pkt_parse_of_admitted hlen (admitted_frame f rest h hcap)]
  unfold packetRecorded packetOf Frame.packet
  rw [transport_fields_frame, ip_p_frame, byteAt_ip f rest 12 rfl, byteAt_ip f rest 13 rfl,
    byteAt_ip f rest 14 rfl, byteAt_ip f rest 15 rfl, byteAt_ip f rest 16 rfl,
    byteAt_ip f rest 17 rfl, byteAt_ip f rest 18 rfl, byteAt_ip f rest 19 rfl, le32_be32, le32_be32]
  dsimp only
  rw [if_neg hpay]

end Layers

/-! ## §4. Captures. -/

section Captures

/-- `main.c`'s snapshot length. -/
def CAPLEN : Nat := 128

variable (f : Frame)

/-- A snapshot that is as long as asked for contains the headers. -/
theorem capture_eq {n : Nat} (hn : min f.wire.length CAPLEN ≤ n) :
    ∃ rest, f.wire.take n = f.headers ++ rest ∧ f.headers.length ≤ n := by
  have hle : f.headers.length ≤ n := by
    have hwire : f.headers.length ≤ f.wire.length := by simp [Frame.wire]
    have := f.headers_length_le
    unfold CAPLEN at hn
    omega
  refine ⟨(f.transport.options ++ f.payload ++ f.padding).take (n - f.headers.length), ?_, hle⟩
  rw [Frame.wire, List.take_append, List.take_of_length_le hle]

/-- **Decoding a capture of a well-formed frame gives the frame's packet**, and that packet is
what `pkt_handler` records. -/
theorem pkt_parse_capture (net : LocalNet) (table : List FlowT) (ts : Timeval) (caplen : UInt32)
    (hlong : min f.wire.length CAPLEN ≤ caplen.toNat) (hshort : caplen.toNat ≤ f.wire.length) :
    pkt_parse ⟨ts, caplen⟩ (f.wire.take caplen.toNat) = .ok (some (f.packet ts))
      ∧ pkt_handler net table ⟨ts, caplen⟩ (f.wire.take caplen.toNat)
          = .ok (flow_process_packet net table (f.packet ts))
      ∧ (f.wire.take caplen.toNat).length = caplen.toNat
      ∧ (f.packet ts).payload_size.toInt = f.payload.length := by
  obtain ⟨rest, hcapture, hle⟩ := capture_eq f hlong
  have hlen := List.length_take_of_le hshort
  have hparse : pkt_parse ⟨ts, caplen⟩ (f.wire.take caplen.toNat) = .ok (some (f.packet ts)) := by
    rw [hcapture] at hlen ⊢
    exact pkt_parse_headers f rest ⟨ts, caplen⟩ hle hlen.ge
  refine ⟨hparse, ?_, hlen, ?_⟩
  · rw [pkt_handler_eq, hparse]
    rfl
  · have := f.total_le
    exact Int32.toInt_ofNat_of_lt (by omega)

/-- A tagged TCP segment with IP and TCP options, longer than the snapshot. -/
def long_segment : Frame where
  dst_mac := #v[0, 0x1b, 0x21, 0x3c, 0x9d, 0xf8]
  src_mac := #v[0, 0x1b, 0x21, 0x0a, 0x11, 0x02]
  vlan_tci := some 0x6064
  tos := 0
  id := 0x1c46
  frag := 0x4000
  ttl := 64
  sum := 0xb1e6
  src := 0x0a000001
  dst := 0x08080808
  options := ⟨[0x94, 4, 0, 0], 1, rfl, by decide⟩
  transport := .tcp ⟨443, 51812, 7, 9, 0, TH_ACK, 1024, 0, 0, ⟨[1, 1, 1, 0], 1, rfl, by decide⟩⟩
  payload := List.replicate 100 0x61
  padding := []
  frag_offset := rfl
  total_le := by decide

theorem pkt_parse_capture_long :
    pkt_parse ⟨⟨0, 0⟩, 128⟩ (long_segment.wire.take (128 : UInt32).toNat)
        = .ok (some (long_segment.packet ⟨0, 0⟩))
      ∧ pkt_handler ⟨0, 0⟩ [] ⟨⟨0, 0⟩, 128⟩ (long_segment.wire.take (128 : UInt32).toNat)
          = .ok (flow_process_packet ⟨0, 0⟩ [] (long_segment.packet ⟨0, 0⟩))
      ∧ (long_segment.wire.take (128 : UInt32).toNat).length = (128 : UInt32).toNat
      ∧ (long_segment.packet ⟨0, 0⟩).payload_size.toInt = long_segment.payload.length :=
  pkt_parse_capture long_segment ⟨0, 0⟩ [] ⟨0, 0⟩ 128 (by decide +kernel) (by decide +kernel)

end Captures

end KafKatch.Sniffer
