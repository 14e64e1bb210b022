/-
  KafKatch.Sniffer.Guards
  ───────────────────────
  **WHAT THE LENGTH CHECKS OF `pkt_handler` COVER, AND WHAT THEY LET THROUGH.**

  The three `caplen` checks stand in front of the IPv4 header and of each transport header;
  no check stands in front of the EtherType.  So a read can fail in `parse_ether` only, and
  the frames on which it does are those shorter than a link-layer header
  (`pkt_handler_in_bounds_iff`).  Past the checks everything is decided by a few octets, and
  `pkt_parse` has a closed form (`pkt_parse_of_admitted`, `pkt_parse_of_not_admitted`).
-/
import KafKatch.Sniffer.Parser

namespace KafKatch.Sniffer

/-! ## §1. Reads inside the buffer succeed, reads outside fail. -/

/-- The `i`-th captured byte; what it is beyond the capture does not matter. -/
def byteAt (bytes : List UInt8) (i : Nat) : UInt8 := bytes.getD i 0

section Reads

variable {bytes : List UInt8} {i : Nat}

/-- A field of a header is found in the bytes from the header on. -/
theorem byteAt_drop {hdr : List UInt8} {off : Nat} (h : bytes.drop off = hdr) (k : Nat) {b : UInt8}
    (hb : hdr[k]? = some b) : byteAt bytes (off + k) = b := by
  unfold byteAt
  rw [List.getD_eq_getElem?_getD, ← List.getElem?_drop, h, hb]
  rfl

theorem read_u8_of_lt (h : i < bytes.length) : read_u8 bytes i = .ok (byteAt bytes i) := by
  unfold read_u8 byteAt
  rw [List.getD_eq_getElem?_getD, List.getElem?_eq_getElem h]
  rfl

theorem read_u8_of_le (h : bytes.length ≤ i) : read_u8 bytes i = .error ⟨i⟩ := by
  unfold read_u8
  rw [List.getElem?_eq_none h]

theorem read_u16_of_lt (h : i + 1 < bytes.length) :
    read_u16 bytes i = .ok (le16 (byteAt bytes i) (byteAt bytes (i + 1))) := by
  unfold read_u16
  rw [read_u8_of_lt (by omega), read_u8_of_lt h]
  rfl

/-- A two-byte read fails at the first of its bytes that was not captured. -/
theorem read_u16_of_le (h : bytes.length ≤ i + 1) :
    read_u16 bytes i = .error ⟨max i bytes.length⟩ := by
  unfold read_u16
  by_cases hi : i < bytes.length
  · have hlast : max i bytes.length = i + 1 := by omega
    rw [read_u8_of_lt hi, read_u8_of_le h, hlast]
    rfl
  · have hfirst : max i bytes.length = i := by omega
    rw [read_u8_of_le (by omega), hfirst]
    rfl

theorem read_u32_of_lt (h : i + 3 < bytes.length) :
    read_u32 bytes i = .ok (le32 (byteAt bytes i) (byteAt bytes (i + 1)) (byteAt bytes (i + 2))
      (byteAt bytes (i + 3))) := by
  unfold read_u32
  rw [read_u8_of_lt (by omega), read_u8_of_lt (by omega), read_u8_of_lt (by omega),
    read_u8_of_lt h]
  rfl

end Reads

/-- Two bytes in network order, after the swap. -/
theorem toNat_ntohs_le16 (b0 b1 : UInt8) :
    (ntohs (le16 b0 b1)).toNat = b0.toNat * 256 + b1.toNat := by
  have h0 := b0.toNat_lt
  have h1 := b1.toNat_lt
  have hload : (le16 b0 b1).toNat = b0.toNat + 256 * b1.toNat := by
    rw [le16, UInt16.toNat_ofNat', Nat.mod_eq_of_lt (by omega)]
  rw [ntohs, hload, UInt16.toNat_ofNat', Nat.mod_eq_of_lt (by omega)]
  omega

/-- A 16-bit field holds a value when its two bytes do. -/
theorem ntohs_le16_eq_iff (b0 b1 c0 c1 : UInt8) :
    ntohs (le16 b0 b1) = ntohs (le16 c0 c1) ↔ b0 = c0 ∧ b1 = c1 := by
  constructor
  · intro h
    have hn := congrArg UInt16.toNat h
    rw [toNat_ntohs_le16, toNat_ntohs_le16] at hn
    have := b1.toNat_lt
    have := c1.toNat_lt
    exact ⟨UInt8.toNat_inj.mp (by omega), UInt8.toNat_inj.mp (by omega)⟩
  · rintro ⟨rfl, rfl⟩
    rfl

/-! ## §2. The link layer. -/

section Ether

variable (bytes : List UInt8)

/-- The EtherType field announces an 802.1Q tag. -/
def Tagged : Prop := byteAt bytes 12 = 0x81 ∧ byteAt bytes 13 = 0x00

instance : Decidable (Tagged bytes) := inferInstanceAs (Decidable (_ ∧ _))

/-- Where the network header starts. -/
def network_offset : Nat := if Tagged bytes then 18 else 14

/-- The EtherType, behind the tag if there is one. -/
def ether_type_of : UInt16 :=
  ntohs (le16 (byteAt bytes (network_offset bytes - 2)) (byteAt bytes (network_offset bytes - 1)))

/-- The link-layer header, tag included, was captured. -/
def EtherCaptured : Prop := 14 ≤ bytes.length ∧ (Tagged bytes → 18 ≤ bytes.length)

instance : Decidable (EtherCaptured bytes) := inferInstanceAs (Decidable (_ ∧ _))

variable {bytes}

theorem tagged_iff : ntohs (le16 (byteAt bytes 12) (byteAt bytes 13)) = ETHERTYPE_VLAN
    ↔ Tagged bytes := by
  have hvlan : ETHERTYPE_VLAN = ntohs (le16 0x81 0x00) := by decide
  rw [hvlan, ntohs_le16_eq_iff]
  rfl

theorem parse_ether_of_captured (h : EtherCaptured bytes) :
    parse_ether bytes = .ok (network_offset bytes, ether_type_of bytes) := by
  obtain ⟨hlen, htag⟩ := h
  unfold parse_ether ether_type_of network_offset
  rw [read_u16_of_lt (by omega)]
  by_cases ht : Tagged bytes
  · have hlong := htag ht
    have hinner : read_u16 bytes 16 = .ok (le16 (byteAt bytes 16) (byteAt bytes 17)) :=
      read_u16_of_lt (by omega)
    simp only [bind, Except.bind, if_pos (tagged_iff.mpr ht), if_pos ht, sizeof_ether_header,
      hinner]
    rfl
  · simp only [bind, Except.bind, if_neg (mt tagged_iff.mp ht), if_neg ht]
    rfl

/-- A header that was cut off fails at the first missing byte of the EtherType, or else of the
inner one. -/
theorem parse_ether_of_not_captured (h : ¬ EtherCaptured bytes) :
    parse_ether bytes = .error ⟨max (if 14 ≤ bytes.length then 16 else 12) bytes.length⟩ := by
  unfold parse_ether
  by_cases hlen : 14 ≤ bytes.length
  · have ht : Tagged bytes := by
      by_contra ht
      exact h ⟨hlen, fun htag => absurd htag ht⟩
    have hshort : bytes.length < 18 := by
      by_contra hshort
      exact h ⟨hlen, fun _ => by omega⟩
    have hinner : read_u16 bytes 16 = .error ⟨max 16 bytes.length⟩ := read_u16_of_le (by omega)
    rw [read_u16_of_lt (by omega), if_pos hlen]
    simp only [bind, Except.bind, if_pos (tagged_iff.mpr ht), sizeof_ether_header, hinner]
  · rw [read_u16_of_le (by omega), if_neg hlen]
    rfl

end Ether

/-! ## §3. The packet behind the checks. -/

section Headers

variable (bytes : List UInt8)

/-- The IPv4 version nibble. -/
def ip_v : Nat := (byteAt bytes (network_offset bytes)).toNat / 16

/-- The IPv4 header length, in words. -/
def ip_hl : Nat := (byteAt bytes (network_offset bytes)).toNat % 16

/-- The IPv4 total length. -/
def ip_len : UInt16 :=
  ntohs (le16 (byteAt bytes (network_offset bytes + 2)) (byteAt bytes (network_offset bytes + 3)))

/-- The IPv4 protocol. -/
def ip_p : UInt8 := byteAt bytes (network_offset bytes + 9)

/-- Where the transport header starts, by the header length. -/
def transport_offset : Nat := network_offset bytes + ip_hl bytes * 4

/-- The TCP data offset, in words. -/
def th_off : Nat := (byteAt bytes (transport_offset bytes + 12)).toNat / 16

/-- The transport header's length as `pkt_handler` takes it. -/
def transport_hdrlen : Nat := if ip_p bytes = IPPROTO_TCP then th_off bytes * 4 else 8

/-- The payload size before the clamp. -/
def raw_payload : Int32 :=
  Int32.ofInt ((ip_len bytes).toNat - (ip_hl bytes * 4 : Nat) - (transport_hdrlen bytes : Nat))

/-- What is read from the transport header. -/
def transport_fields : TransportFields where
  src_port := le16 (byteAt bytes (transport_offset bytes)) (byteAt bytes (transport_offset bytes + 1))
  dst_port :=
    le16 (byteAt bytes (transport_offset bytes + 2)) (byteAt bytes (transport_offset bytes + 3))
  tcp_flags :=
    if ip_p bytes = IPPROTO_TCP then byteAt bytes (transport_offset bytes + 13) else 0
  payload_size := raw_payload bytes

/-- The packet `pkt_handler` makes of the network header and of `t`. -/
def packetOf (h : PcapPkthdr) (t : TransportFields) : PktStatsT where
  key :=
    ⟨le32 (byteAt bytes (network_offset bytes + 12)) (byteAt bytes (network_offset bytes + 13))
        (byteAt bytes (network_offset bytes + 14)) (byteAt bytes (network_offset bytes + 15)),
      le32 (byteAt bytes (network_offset bytes + 16)) (byteAt bytes (network_offset bytes + 17))
        (byteAt bytes (network_offset bytes + 18)) (byteAt bytes (network_offset bytes + 19)),
      t.src_port, t.dst_port, ip_p bytes⟩
  payload_size := if t.payload_size < 0 then 0 else t.payload_size
  timestamp := h.ts
  tcp_flags := t.tcp_flags

/-- The packet `pkt_handler` makes of a frame that passes its checks. -/
def packetRecorded (h : PcapPkthdr) : PktStatsT := packetOf bytes h (transport_fields bytes)

/-- The fixed part of the transport header was captured. -/
def TransportCaptured (h : PcapPkthdr) : Prop :=
  (ip_p bytes = IPPROTO_TCP ∧ transport_offset bytes + sizeof_tcphdr ≤ h.caplen.toNat)
    ∨ (ip_p bytes = IPPROTO_UDP ∧ transport_offset bytes + sizeof_udphdr ≤ h.caplen.toNat)

/-- What the checks of `pkt_handler` ask of a frame. -/
structure Admitted (h : PcapPkthdr) : Prop where
  ether_type : ether_type_of bytes = ETHERTYPE_IP
  ip_captured : network_offset bytes + sizeof_ip ≤ h.caplen.toNat
  version : ip_v bytes = 4
  transport : TransportCaptured bytes h

variable {bytes} {h : PcapPkthdr}

theorem parse_transport_of_captured (hcap : h.caplen.toNat ≤ bytes.length)
    (ht : TransportCaptured bytes h) :
    parse_transport h bytes (network_offset bytes) (ip_hl bytes * 4) (ip_len bytes) (ip_p bytes)
      = .ok (some (transport_fields bytes)) := by
  unfold parse_transport
  rw [← transport_offset]
  rcases ht with ⟨hp, hle⟩ | ⟨hp, hle⟩
  · have hguard : ¬ h.caplen.toNat < transport_offset bytes + sizeof_tcphdr := by omega
    unfold sizeof_tcphdr at hle
    simp only [if_pos hp, if_neg hguard, bind, Except.bind]
    rw [read_u16_of_lt (by omega), read_u16_of_lt (by omega), read_u8_of_lt (by omega),
      read_u8_of_lt (by omega)]
    simp only [transport_fields, raw_payload, transport_hdrlen, th_off, if_pos hp]
    rfl
  · have hguard : ¬ h.caplen.toNat < transport_offset bytes + sizeof_udphdr := by omega
    have hne : ¬ ip_p bytes = IPPROTO_TCP := by
      rw [hp]
      decide
    unfold sizeof_udphdr at hle
    simp only [if_neg hne, if_pos hp, if_neg hguard, bind, Except.bind]
    rw [read_u16_of_lt (by omega), read_u16_of_lt (by omega)]
    simp only [transport_fields, raw_payload, transport_hdrlen, if_neg hne]
    rfl

theorem parse_transport_of_not_captured (ht : ¬ TransportCaptured bytes h) :
    parse_transport h bytes (network_offset bytes) (ip_hl bytes * 4) (ip_len bytes) (ip_p bytes)
      = .ok none := by
  unfold parse_transport
  rw [← transport_offset]
  by_cases htcp : ip_p bytes = IPPROTO_TCP
  · have hguard : h.caplen.toNat < transport_offset bytes + sizeof_tcphdr := by
      by_contra hle
      exact ht (.inl ⟨htcp, by omega⟩)
    simp only [if_pos htcp, if_pos hguard]
    rfl
  · by_cases hudp : ip_p bytes = IPPROTO_UDP
    · have hguard : h.caplen.toNat < transport_offset bytes + sizeof_udphdr := by
        by_contra hle
        exact ht (.inr ⟨hudp, by omega⟩)
      simp only [if_neg htcp, if_pos hudp, if_pos hguard]
      rfl
    · simp only [if_neg htcp, if_neg hudp]
      rfl

/-- `pkt_parse` of a frame with a captured IPv4 header is decided by the transport layer. -/
theorem pkt_parse_of_version (hcap : h.caplen.toNat ≤ bytes.length)
    (hether : ether_type_of bytes = ETHERTYPE_IP)
    (hip : network_offset bytes + sizeof_ip ≤ h.caplen.toNat) (hv : ip_v bytes = 4) :
    pkt_parse h bytes
      = (parse_transport h bytes (network_offset bytes) (ip_hl bytes * 4) (ip_len bytes)
          (ip_p bytes)).map (Option.map (packetOf bytes h)) := by
  have hcaptured : EtherCaptured bytes := by
    unfold sizeof_ip network_offset at hip
    refine ⟨by split at hip <;> omega, fun htag => ?_⟩
    rw [if_pos htag] at hip
    omega
  have hguard : ¬ h.caplen.toNat < network_offset bytes + sizeof_ip := by omega
  unfold sizeof_ip at hip
  unfold pkt_parse
  rw [parse_ether_of_captured hcaptured]
  simp only [bind, Except.bind, hether, ne_eq, not_true_eq_false, if_false, if_neg hguard]
  rw [read_u8_of_lt (by omega)]
  have hversion : ¬ ¬ (byteAt bytes (network_offset bytes)).toNat / 16 = 4 := not_not.mpr hv
  simp only [if_neg hversion, pure, Except.pure]
  rw [read_u16_of_lt (by omega), read_u8_of_lt (by omega), read_u32_of_lt (by omega),
    read_u32_of_lt (by omega)]
  dsimp only
  unfold ip_hl ip_len ip_p
  cases parse_transport h bytes (network_offset bytes)
      ((byteAt bytes (network_offset bytes)).toNat % 16 * 4)
      (ntohs (le16 (byteAt bytes (network_offset bytes + 2))
        (byteAt bytes (network_offset bytes + 2 + 1))))
      (byteAt bytes (network_offset bytes + 9)) with
  | error e => rfl
  | ok t => cases t <;> rfl

/-- **A frame that passes the checks is recorded.** -/
theorem pkt_parse_of_admitted (hcap : h.caplen.toNat ≤ bytes.length) (ha : Admitted bytes h) :
    pkt_parse h bytes = .ok (some (packetRecorded bytes h)) := by
  rw [pkt_parse_of_version hcap ha.ether_type ha.ip_captured ha.version,
    parse_transport_of_captured hcap ha.transport]
  rfl

/-- **Any other frame is skipped**, once its link-layer header could be read. -/
theorem pkt_parse_of_not_admitted (hcap : h.caplen.toNat ≤ bytes.length)
    (hcaptured : EtherCaptured bytes) (ha : ¬ Admitted bytes h) :
    pkt_parse h bytes = .ok none := by
  by_cases hether : ether_type_of bytes = ETHERTYPE_IP
  · by_cases hip : network_offset bytes + sizeof_ip ≤ h.caplen.toNat
    · by_cases hv : ip_v bytes = 4
      · have ht : ¬ TransportCaptured bytes h := fun ht => ha ⟨hether, hip, hv, ht⟩
        rw [pkt_parse_of_version hcap hether hip hv, parse_transport_of_not_captured ht]
        rfl
      · have hguard : ¬ h.caplen.toNat < network_offset bytes + sizeof_ip := by omega
        unfold sizeof_ip at hip
        unfold pkt_parse
        rw [parse_ether_of_captured hcaptured]
        simp only [bind, Except.bind, hether, ne_eq, not_true_eq_false, if_false, if_neg hguard]
        rw [read_u8_of_lt (by omega)]
        exact if_pos hv
    · unfold pkt_parse
      rw [parse_ether_of_captured hcaptured]
      have hguard : h.caplen.toNat < network_offset bytes + sizeof_ip := by omega
      simp only [bind, Except.bind, hether, ne_eq, not_true_eq_false, if_false, if_pos hguard]
      rfl
  · unfold pkt_parse
    rw [parse_ether_of_captured hcaptured]
    simp only [bind, Except.bind, ne_eq, if_pos hether]
    rfl

/-- A frame whose link-layer header was cut off fails there. -/
theorem pkt_parse_of_not_captured (hn : ¬ EtherCaptured bytes) :
    pkt_parse h bytes = .error ⟨max (if 14 ≤ bytes.length then 16 else 12) bytes.length⟩ := by
  unfold pkt_parse
  rw [parse_ether_of_not_captured hn]
  rfl

/-- **The packet recorded, if any.** -/
theorem pkt_parse_some_iff (hcap : h.caplen.toNat ≤ bytes.length) (stats : PktStatsT) :
    pkt_parse h bytes = .ok (some stats) ↔ Admitted bytes h ∧ stats = packetRecorded bytes h := by
  constructor
  · intro hs
    by_cases ha : Admitted bytes h
    · rw [pkt_parse_of_admitted hcap ha] at hs
      injection hs with hs
      exact ⟨ha, (Option.some.inj hs).symm⟩
    · exfalso
      by_cases hc : EtherCaptured bytes
      · rw [pkt_parse_of_not_admitted hcap hc ha] at hs
        cases hs
      · rw [pkt_parse_of_not_captured hc] at hs
        cases hs
  · rintro ⟨ha, rfl⟩
    exact pkt_parse_of_admitted hcap ha

end Headers

/-! ## §4. Which reads stay inside the capture. -/

section Bounds

variable (net : LocalNet) (table : List FlowT) (h : PcapPkthdr) (bytes : List UInt8)

/-- `pkt_handler` is `pkt_parse`, and then at most one table update. -/
theorem pkt_handler_eq :
    pkt_handler net table h bytes
      = (pkt_parse h bytes).map fun r => r.elim table (flow_process_packet net table) := by
  unfold pkt_handler
  cases pkt_parse h bytes with
  | error e => rfl
  | ok r => cases r <;> rfl

/-- **A read that fails is a read of an EtherType**: behind the link-layer header every read
has its check. -/
theorem pkt_handler_error (hcap : h.caplen.toNat = bytes.length) {e : OutOfBounds}
    (he : pkt_handler net table h bytes = .error e) :
    ¬ EtherCaptured bytes ∧ e.index ∈ [12, 13, 16, 17] := by
  rw [pkt_handler_eq] at he
  by_cases hc : EtherCaptured bytes
  · exfalso
    by_cases ha : Admitted bytes h
    · rw [pkt_parse_of_admitted hcap.le ha] at he
      cases he
    · rw [pkt_parse_of_not_admitted hcap.le hc ha] at he
      cases he
  · rw [pkt_parse_of_not_captured hc] at he
    injection he with he
    have hshort : bytes.length < 18 := by
      by_contra hlong
      exact hc ⟨by omega, fun _ => by omega⟩
    refine ⟨hc, ?_⟩
    rw [← he]
    simp only [List.mem_cons, List.not_mem_nil, or_false]
    split <;> omega

/-- **No read leaves the capture exactly when the EtherType lies inside it, and behind a tag the
inner EtherType too.** -/
theorem pkt_handler_in_bounds_iff (hcap : h.caplen.toNat = bytes.length) :
    (∃ table', pkt_handler net table h bytes = .ok table')
      ↔ 14 ≤ h.caplen.toNat
        ∧ (byteAt bytes 12 = 0x81 ∧ byteAt bytes 13 = 0x00 → 18 ≤ h.caplen.toNat) := by
  rw [hcap]
  show _ ↔ EtherCaptured bytes
  constructor
  · rintro ⟨table', hok⟩
    by_contra hc
    rw [pkt_handler_eq, pkt_parse_of_not_captured hc] at hok
    cases hok
  · intro hc
    cases hp : pkt_handler net table h bytes with
    | ok table' => exact ⟨table', rfl⟩
    | error e => exact absurd hc (pkt_handler_error net table h bytes hcap hp).1

theorem pkt_handler_in_bounds_iff_runt :
    (∃ table', pkt_handler ⟨0, 0⟩ [] ⟨⟨0, 0⟩, 16⟩ (List.replicate 16 0) = .ok table')
      ↔ 14 ≤ (16 : UInt32).toNat
        ∧ (byteAt (List.replicate 16 0) 12 = 0x81 ∧ byteAt (List.replicate 16 0) 13 = 0x00
          → 18 ≤ (16 : UInt32).toNat) :=
  pkt_handler_in_bounds_iff ⟨0, 0⟩ [] ⟨⟨0, 0⟩, 16⟩ (List.replicate 16 0) rfl

/-- The EtherType of an empty capture, and the inner one of a capture that ends behind the tag,
are read past the end. -/
theorem ether_type_unchecked :
    pkt_handler ⟨0, 0⟩ [] ⟨⟨0, 0⟩, 0⟩ [] = .error ⟨12⟩
      ∧ pkt_handler ⟨0, 0⟩ [] ⟨⟨0, 0⟩, 16⟩ (List.replicate 12 0 ++ [0x81, 0x00, 0x00, 0x05])
          = .error ⟨16⟩
      ∧ ¬ ∀ (net : LocalNet) (table : List FlowT) (h : PcapPkthdr) (bytes : List UInt8),
          h.caplen.toNat = bytes.length →
            ∃ table', pkt_handler net table h bytes = .ok table' := by
  refine ⟨rfl, rfl, fun hall => ?_⟩
  obtain ⟨table', hok⟩ := hall ⟨0, 0⟩ [] ⟨⟨0, 0⟩, 0⟩ [] rfl
  cases hok

end Bounds

/-! ## §5. Frames that carry no transport header. -/

section Genuine

variable (bytes : List UInt8)

/-- The flags and the offset of the fragment, as one field. -/
def ip_off : Nat :=
  (byteAt bytes (network_offset bytes + 6)).toNat * 256
    + (byteAt bytes (network_offset bytes + 7)).toNat

/-- The frame is an IPv4 datagram or its first fragment, and each header is at least as long as
its fixed part. -/
structure Genuine : Prop where
  ether_type : ether_type_of bytes = ETHERTYPE_IP
  version : ip_v bytes = 4
  header_length : 5 ≤ ip_hl bytes
  first_fragment : ip_off bytes % 8192 = 0
  data_offset : ip_p bytes = IPPROTO_TCP → 5 ≤ th_off bytes

/-- A packet whose ports and flags are those of the frame's transport header, where the three
headers follow one another. -/
structure FromHeaders (stats : PktStatsT) : Prop where
  genuine : Genuine bytes
  src_port : stats.key.src_port
    = le16 (byteAt bytes (transport_offset bytes)) (byteAt bytes (transport_offset bytes + 1))
  dst_port : stats.key.dst_port
    = le16 (byteAt bytes (transport_offset bytes + 2)) (byteAt bytes (transport_offset bytes + 3))
  tcp_flags : stats.tcp_flags
    = if ip_p bytes = IPPROTO_TCP then byteAt bytes (transport_offset bytes + 13) else 0
  ip_fits : network_offset bytes + sizeof_ip ≤ transport_offset bytes
  transport_fits :
    (if ip_p bytes = IPPROTO_TCP then sizeof_tcphdr else sizeof_udphdr) ≤ transport_hdrlen bytes

/-- Only a genuine transport header becomes a packet, and any other frame leaves every table as
it is. -/
def OnlyGenuine (h : PcapPkthdr) : Prop :=
  (∀ stats, pkt_parse h bytes = .ok (some stats) → FromHeaders bytes stats)
    ∧ (¬ Genuine bytes → ∀ net table table', pkt_handler net table h bytes = .ok table' →
        table' = table)

variable {bytes} {h : PcapPkthdr}

theorem fromHeaders_packetRecorded (hg : Genuine bytes) : FromHeaders bytes (packetRecorded bytes h) where
  genuine := hg
  src_port := rfl
  dst_port := rfl
  tcp_flags := rfl
  ip_fits := by
    have := hg.header_length
    unfold transport_offset sizeof_ip
    omega
  transport_fits := by
    unfold transport_hdrlen
    by_cases hp : ip_p bytes = IPPROTO_TCP
    · have := hg.data_offset hp
      rw [if_pos hp, if_pos hp]
      unfold sizeof_tcphdr
      omega
    · rw [if_neg hp, if_neg hp]
      exact Nat.le_refl 8

/-- **Only genuine headers become flows, except on the frames that pass the checks with a header
length below 5, as a later fragment, or with a TCP data offset below 5.** -/
theorem onlyGenuine_iff (hcap : h.caplen.toNat ≤ bytes.length) :
    OnlyGenuine bytes h
      ↔ ¬ (Admitted bytes h
          ∧ (ip_hl bytes < 5 ∨ ip_off bytes % 8192 ≠ 0
            ∨ (ip_p bytes = IPPROTO_TCP ∧ th_off bytes < 5))) := by
  constructor
  · rintro ⟨hfrom, -⟩ ⟨ha, hflaw⟩
    have hg := (hfrom _ (pkt_parse_of_admitted hcap ha)).genuine
    rcases hflaw with hihl | hfrag | ⟨htcp, hoff⟩
    · exact absurd hg.header_length (by omega)
    · exact hfrag hg.first_fragment
    · exact absurd (hg.data_offset htcp) (by omega)
  · intro hflaw
    have hfrom : ∀ stats, pkt_parse h bytes = .ok (some stats) → FromHeaders bytes stats := by
      intro stats hs
      obtain ⟨ha, rfl⟩ := (pkt_parse_some_iff hcap stats).mp hs
      apply fromHeaders_packetRecorded
      have hsound : ¬ (ip_hl bytes < 5 ∨ ip_off bytes % 8192 ≠ 0
          ∨ (ip_p bytes = IPPROTO_TCP ∧ th_off bytes < 5)) := fun hbad => hflaw ⟨ha, hbad⟩
      push Not at hsound
      exact ⟨ha.ether_type, ha.version, hsound.1, hsound.2.1, hsound.2.2⟩
    refine ⟨hfrom, fun hg net table table' hok => ?_⟩
    rw [pkt_handler_eq] at hok
    cases hp : pkt_parse h bytes with
    | error e =>
        rw [hp] at hok
        cases hok
    | ok r =>
        rw [hp] at hok
        cases r with
        | none =>
            injection hok with hok
            exact hok.symm
        | some stats => exact absurd (hfrom stats hp).genuine hg

/-- A captured TCP or UDP frame without options: version and header length, the high byte of the
fragment field, the protocol, and the byte of the data offset. -/
def bare_frame (vhl frag_hi proto doff : UInt8) : List UInt8 :=
  [0, 0x1b, 0x21, 0x3c, 0x9d, 0xf8, 0, 0x1b, 0x21, 0x0a, 0x11, 0x02, 0x08, 0x00]
    ++ [vhl, 0, 0, 40, 0x1c, 0x46, frag_hi, 0, 64, proto, 0, 0, 10, 0, 0, 1, 10, 0, 0, 2]
    ++ [0x01, 0xbb, 0xca, 0x64, 0, 0, 0, 7, 0, 0, 0, 9, doff, 0x02, 4, 0, 0, 0, 0, 0]

theorem onlyGenuine_iff_syn :
    OnlyGenuine (bare_frame 0x45 0 6 0x50) ⟨⟨0, 0⟩, 54⟩
      ↔ ¬ (Admitted (bare_frame 0x45 0 6 0x50) ⟨⟨0, 0⟩, 54⟩
          ∧ (ip_hl (bare_frame 0x45 0 6 0x50) < 5 ∨ ip_off (bare_frame 0x45 0 6 0x50) % 8192 ≠ 0
            ∨ (ip_p (bare_frame 0x45 0 6 0x50) = IPPROTO_TCP
              ∧ th_off (bare_frame 0x45 0 6 0x50) < 5))) :=
  onlyGenuine_iff (by decide)

/-- A header length of 0 makes ports of the first bytes of the IP header, a later fragment makes
them of its payload, and a data offset of 0 counts the TCP header as payload: none of the three
frames is genuine, and each changes the table. -/
theorem forged_headers_recorded :
    (∀ bytes ∈ [bare_frame 0x40 0 6 0x50, bare_frame 0x45 1 17 0x50, bare_frame 0x45 0 6 0x00],
      ¬ Genuine bytes ∧ pkt_handler ⟨0, 0⟩ [] ⟨⟨0, 0⟩, 54⟩ bytes ≠ .ok [])
      ∧ ¬ ∀ (h : PcapPkthdr) (bytes : List UInt8), h.caplen.toNat ≤ bytes.length →
          OnlyGenuine bytes h := by
  have hforged : ∀ bytes ∈
      [bare_frame 0x40 0 6 0x50, bare_frame 0x45 1 17 0x50, bare_frame 0x45 0 6 0x00],
      ¬ Genuine bytes ∧ pkt_handler ⟨0, 0⟩ [] ⟨⟨0, 0⟩, 54⟩ bytes ≠ .ok [] := by
    intro bytes hbytes
    simp only [List.mem_cons, List.not_mem_nil, or_false] at hbytes
    rcases hbytes with rfl | rfl | rfl
    · exact ⟨fun hg => absurd hg.header_length (by decide), by decide +kernel⟩
    · exact ⟨fun hg => absurd hg.first_fragment (by decide), by decide +kernel⟩
    · exact ⟨fun hg => absurd (hg.data_offset rfl) (by decide), by decide +kernel⟩
  refine ⟨hforged, fun hall => ?_⟩
  have hnone := (hall ⟨⟨0, 0⟩, 54⟩ (bare_frame 0x45 1 17 0x50) (by decide)).2
    (fun hg => absurd hg.first_fragment (by decide)) ⟨0, 0⟩ []
  have hsome : pkt_handler ⟨0, 0⟩ [] ⟨⟨0, 0⟩, 54⟩ (bare_frame 0x45 1 17 0x50)
      = .ok (flow_process_packet ⟨0, 0⟩ [] (packetRecorded (bare_frame 0x45 1 17 0x50) ⟨⟨0, 0⟩, 54⟩)) := by
    rfl
  have hgrown := hnone _ hsome
  rw [flow_process_packet] at hgrown
  cases hgrown

end Genuine

end KafKatch.Sniffer
