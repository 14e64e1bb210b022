/-
  KafKatch.Core.ConnectionKey
  ───────────────────────────
  **WHICH CONNECTIONS `addFlow` CAN TELL APART.**

  The key `addFlow` builds has no separators: only the dots of the two addresses and the
  letters of the protocol delimit anything in it.  The last octet of the source, the source
  port and the first octet of the destination run together, and so do the last octet of the
  destination and its port.  Two flows over IPv4 have equal keys exactly when they agree on
  every piece between two dots (`addFlow_key_eq_iff`), which different connections can do; the
  key of the parser's constructor has separators and tells all of them apart, over any addresses
  without colons and any ports (`parsed_flow_key_eq_iff`).
-/
import KafKatch.Core.AggregatedFlow
import KafKatch.Lib.Numeral

namespace KafKatch.Core

open KafKatch.Lib

/-! ## §1. Addresses and ports as text. -/

/-- A run of decimal digits. -/
def Digits (cs : List Char) : Prop := cs ≠ [] ∧ ∀ c ∈ cs, c.isDigit = true

/-- A dotted-quad address: four runs of digits. -/
structure DottedQuad where
  o1 : List Char
  o2 : List Char
  o3 : List Char
  o4 : List Char
  digits : Digits o1 ∧ Digits o2 ∧ Digits o3 ∧ Digits o4

def DottedQuad.text (q : DottedQuad) : List Char := ['.'].intercalate [q.o1, q.o2, q.o3, q.o4]

/-- The digits of a port. -/
def portText (port : Int32) : List Char := (decimal port).toList

/-- A port number. -/
def IsPort (port : Int32) : Prop := 0 ≤ port.toInt ∧ port.toInt ≤ 65535

instance (port : Int32) : Decidable (IsPort port) := inferInstanceAs (Decidable (_ ∧ _))

/-- A flow between two IPv4 endpoints. -/
structure OverIPv4 (flow : Flow) : Prop where
  src : ∃ q : DottedQuad, flow.src_ip.toList = q.text
  dst : ∃ q : DottedQuad, flow.dst_ip.toList = q.text
  src_port : IsPort flow.src_port
  dst_port : IsPort flow.dst_port

theorem portText_eq_numeral (port : Int32) : portText port = numeral port.toInt := rfl

theorem portText_eq {port : Int32} (h : IsPort port) :
    portText port = Nat.toDigits 10 port.toInt.toNat := by
  rw [portText_eq_numeral, numeral_eq, if_pos h.1]

theorem portText_digits {port : Int32} (h : IsPort port) : Digits (portText port) := by
  rw [portText_eq h]
  exact ⟨Nat.toDigits_ne_nil, fun c hc => Nat.isDigit_of_mem_toDigits (by omega) (by omega) hc⟩

theorem Digits.not_mem {cs : List Char} (h : Digits cs) {c : Char} (hc : c.isDigit = false) :
    c ∉ cs := by
  intro hmem
  rw [h.2 c hmem] at hc
  exact absurd hc (by simp)

/-! ## §2. When two keys are equal. -/

/-- The pieces of `addFlow`'s key between the dots. -/
def keyPieces (src dst : DottedQuad) (flow : Flow) : List (List Char) :=
  [src.o1, src.o2, src.o3, src.o4 ++ portText flow.src_port ++ dst.o1, dst.o2, dst.o3,
    dst.o4 ++ portText flow.dst_port ++ flow.protocol.name.toList]

/-- Two flows whose endpoints spell the same digits between any two dots, with the same
protocol. -/
def Confusable (f g : Flow) : Prop :=
  ∃ fs fd gs gd : DottedQuad,
    f.src_ip.toList = fs.text ∧ f.dst_ip.toList = fd.text
      ∧ g.src_ip.toList = gs.text ∧ g.dst_ip.toList = gd.text
      ∧ fs.o1 = gs.o1 ∧ fs.o2 = gs.o2 ∧ fs.o3 = gs.o3
      ∧ fs.o4 ++ portText f.src_port ++ fd.o1 = gs.o4 ++ portText g.src_port ++ gd.o1
      ∧ fd.o2 = gd.o2 ∧ fd.o3 = gd.o3
      ∧ fd.o4 ++ portText f.dst_port = gd.o4 ++ portText g.dst_port
      ∧ f.protocol = g.protocol

theorem addFlow_key_pieces {flow : Flow} {src dst : DottedQuad}
    (hsrc : flow.src_ip.toList = src.text) (hdst : flow.dst_ip.toList = dst.text) :
    (addFlow_key flow).toList = ['.'].intercalate (keyPieces src dst flow) := by
  simp [addFlow_key, hsrc, hdst, DottedQuad.text, keyPieces, portText, List.intercalate]

theorem dot_notMem_keyPieces (src dst : DottedQuad) {flow : Flow} (h : OverIPv4 flow) :
    ∀ piece ∈ keyPieces src dst flow, '.' ∉ piece := by
  obtain ⟨hs1, hs2, hs3, hs4⟩ := src.digits
  obtain ⟨hd1, hd2, hd3, hd4⟩ := dst.digits
  have hsp := portText_digits h.src_port
  have hdp := portText_digits h.dst_port
  have hdot : ('.' : Char).isDigit = false := by decide
  have hname : '.' ∉ flow.protocol.name.toList := by cases flow.protocol <;> decide
  intro piece hpiece
  simp only [keyPieces, List.mem_cons, List.not_mem_nil, or_false] at hpiece
  rcases hpiece with rfl | rfl | rfl | rfl | rfl | rfl | rfl
  · exact hs1.not_mem hdot
  · exact hs2.not_mem hdot
  · exact hs3.not_mem hdot
  · simp [hs4.not_mem hdot, hsp.not_mem hdot, hd1.not_mem hdot]
  · exact hd2.not_mem hdot
  · exact hd3.not_mem hdot
  · simp [hd4.not_mem hdot, hdp.not_mem hdot, hname]

/-- The last piece ends in the protocol's name, always three letters. -/
theorem append_name_inj {xs ys : List Char} {p q : FlowProtocol}
    (h : xs ++ p.name.toList = ys ++ q.name.toList) : xs = ys ∧ p = q := by
  have hlen : p.name.toList.length = q.name.toList.length := by cases p <;> cases q <;> rfl
  obtain ⟨hxs, hname⟩ := List.append_inj' h hlen
  refine ⟨hxs, ?_⟩
  cases p <;> cases q <;> first | rfl | exact absurd hname (by decide)

/-- **Two keys of `addFlow` are equal exactly for confusable flows.** -/
theorem addFlow_key_eq_iff {f g : Flow} (hf : OverIPv4 f) (hg : OverIPv4 g) :
    addFlow_key f = addFlow_key g ↔ Confusable f g := by
  constructor
  · intro h
    obtain ⟨fs, hfs⟩ := hf.src
    obtain ⟨fd, hfd⟩ := hf.dst
    obtain ⟨gs, hgs⟩ := hg.src
    obtain ⟨gd, hgd⟩ := hg.dst
    -- no piece contains a dot, so the key determines its pieces
    have htext := congrArg String.toList h
    rw [addFlow_key_pieces hfs hfd, addFlow_key_pieces hgs hgd] at htext
    have hpieces := intercalate_inj (dot_notMem_keyPieces fs fd hf)
      (dot_notMem_keyPieces gs gd hg) (by simp [keyPieces]) (by simp [keyPieces]) htext
    simp only [keyPieces, List.cons.injEq, and_true] at hpieces
    obtain ⟨h1, h2, h3, h4, h5, h6, h7⟩ := hpieces
    obtain ⟨h7, hproto⟩ := append_name_inj h7
    exact ⟨fs, fd, gs, gd, hfs, hfd, hgs, hgd, h1, h2, h3, h4, h5, h6, h7, hproto⟩
  · rintro ⟨fs, fd, gs, gd, hfs, hfd, hgs, hgd, h1, h2, h3, h4, h5, h6, h7, hproto⟩
    apply String.toList_inj.mp
    rw [addFlow_key_pieces hfs hfd, addFlow_key_pieces hgs hgd]
    simp only [keyPieces, h1, h2, h3, h4, h5, h6, h7, hproto]

/-! ## §3. The parser's key tells all connections apart. -/

/-- `address:port`. -/
def endpointText (ip : String) (port : Int32) : List Char :=
  [':'].intercalate [ip.toList, portText port]

/-- **An endpoint is read off the front of a text.**  The address ends at the first colon, the
port at the dash behind its digits, even if a minus sign stands in front of them. -/
theorem endpointText_append_inj {ip ip' : String} {port port' : Int32} (hip : ':' ∉ ip.toList)
    (hip' : ':' ∉ ip'.toList) {rest rest' : List Char}
    (h : endpointText ip port ++ '-' :: rest = endpointText ip' port' ++ '-' :: rest') :
    ip = ip' ∧ port = port' ∧ rest = rest' := by
  have htext : ∀ (ip : String) (port : Int32) (rest : List Char),
      endpointText ip port ++ '-' :: rest
        = ip.toList ++ ':' :: (numeral port.toInt ++ '-' :: rest) := by
    intro ip port rest
    simp [endpointText, portText_eq_numeral, List.intercalate]
  rw [htext, htext] at h
  obtain ⟨haddress, hbehind⟩ := append_sep_inj hip hip' h
  have hdash : ('-' : Char).isDigit = false := by decide
  obtain ⟨hport, hrest⟩ := numeral_append_inj hdash hbehind
  exact ⟨String.toList_inj.mp haddress, Int32.toInt_inj.mp hport, hrest⟩

/-- Neither address contains a colon. -/
structure ColonFree (flow : Flow) : Prop where
  src : ':' ∉ flow.src_ip.toList
  dst : ':' ∉ flow.dst_ip.toList

/-- Two keys of the constructor are equal exactly for the same connection. -/
theorem parsed_flow_key_eq_iff {f g : Flow} (hf : ColonFree f) (hg : ColonFree g) :
    parsed_flow_key f.src_ip f.dst_ip f.src_port f.dst_port f.protocol
        = parsed_flow_key g.src_ip g.dst_ip g.src_port g.dst_port g.protocol
      ↔ f.connection = g.connection := by
  have htext : ∀ flow : Flow, (parsed_flow_key flow.src_ip flow.dst_ip flow.src_port
      flow.dst_port flow.protocol).toList
        = endpointText flow.src_ip flow.src_port
          ++ '-' :: (endpointText flow.dst_ip flow.dst_port
            ++ '-' :: flow.protocol.name.toList) := by
    intro flow
    simp [parsed_flow_key, endpointText, portText, List.intercalate]
  constructor
  · intro h
    -- endpoint by endpoint, and what is left is the protocol's name
    have hlists := congrArg String.toList h
    rw [htext f, htext g] at hlists
    obtain ⟨hsrc_ip, hsrc_port, hbehind⟩ := endpointText_append_inj hf.src hg.src hlists
    obtain ⟨hdst_ip, hdst_port, hname⟩ := endpointText_append_inj hf.dst hg.dst hbehind
    have hprotocol : f.protocol = g.protocol :=
      (append_name_inj (congrArg (List.append []) hname)).2
    simp only [Flow.connection, hsrc_ip, hsrc_port, hdst_ip, hdst_port, hprotocol]
  · intro h
    simp only [Flow.connection, Prod.mk.injEq] at h
    obtain ⟨h1, h2, h3, h4, h5⟩ := h
    rw [h1, h2, h3, h4, h5]

/-- An address with colons can pass for another address and port. -/
example : parsed_flow_key "a:1-b" "c" 2 3 .TCP = parsed_flow_key "a" "b:2-c" 1 3 .TCP := by
  decide

/-- A dotted quad holds digits and dots only. -/
theorem not_mem_text {q : DottedQuad} {c : Char} (hc : c.isDigit = false) (hdot : c ≠ '.') :
    c ∉ q.text := by
  obtain ⟨h1, h2, h3, h4⟩ := q.digits
  simp [DottedQuad.text, List.intercalate, hdot, h1.not_mem hc, h2.not_mem hc, h3.not_mem hc,
    h4.not_mem hc]

/-- Dotted quads have no colons. -/
theorem OverIPv4.colonFree {flow : Flow} (h : OverIPv4 flow) : ColonFree flow := by
  have hcolon : (':' : Char).isDigit = false := by decide
  obtain ⟨src, hsrc⟩ := h.src
  obtain ⟨dst, hdst⟩ := h.dst
  constructor
  · rw [hsrc]
    exact not_mem_text hcolon (by decide)
  · rw [hdst]
    exact not_mem_text hcolon (by decide)

/-- Over IPv4 the key of the constructor tells all connections apart. -/
theorem flow_key_eq_iff {f g : Flow} (hf : OverIPv4 f) (hg : OverIPv4 g) :
    parsed_flow_key f.src_ip f.dst_ip f.src_port f.dst_port f.protocol
        = parsed_flow_key g.src_ip g.dst_ip g.src_port g.dst_port g.protocol
      ↔ f.connection = g.connection :=
  parsed_flow_key_eq_iff hf.colonFree hg.colonFree

/-- One packet to port 80 over TCP. -/
def probe (src_ip dst_ip : String) (src_port : Int32) (timestamp : LocalDateTime) : Flow :=
  Flow.parsed src_ip dst_ip src_port 80 .TCP .OUTBOUND 1 0 0 0 timestamp 0 1 0 0 0

/-- The instant of the probes. -/
def noon : LocalDateTime := ⟨⟨2026, 1, 1, 12, 0, 0, 0⟩, by decide⟩

/-- **The key of a flow identifies its connection**, for addresses without colons and any ports,
negative ones too. -/
theorem flow_key_identifies {f g : Flow} (hf : f.BuiltByParser) (hg : g.BuiltByParser)
    (hfa : ColonFree f) (hga : ColonFree g) :
    f.flow_key = g.flow_key
      ↔ f.src_ip = g.src_ip ∧ f.src_port = g.src_port ∧ f.dst_ip = g.dst_ip
        ∧ f.dst_port = g.dst_port ∧ f.protocol = g.protocol := by
  rw [hf.flow_key_eq, hg.flow_key_eq, parsed_flow_key_eq_iff hfa hga]
  simp only [Flow.connection, Prod.mk.injEq]

theorem flow_key_identifies_negative :
    (probe "10.0.0.1" "10.0.0.2" (-1) noon).flow_key = (probe "10.0.0.1" "10.0.0.2" 1 noon).flow_key
      ↔ (probe "10.0.0.1" "10.0.0.2" (-1) noon).src_ip = (probe "10.0.0.1" "10.0.0.2" 1 noon).src_ip
        ∧ (probe "10.0.0.1" "10.0.0.2" (-1) noon).src_port
          = (probe "10.0.0.1" "10.0.0.2" 1 noon).src_port
        ∧ (probe "10.0.0.1" "10.0.0.2" (-1) noon).dst_ip
          = (probe "10.0.0.1" "10.0.0.2" 1 noon).dst_ip
        ∧ (probe "10.0.0.1" "10.0.0.2" (-1) noon).dst_port
          = (probe "10.0.0.1" "10.0.0.2" 1 noon).dst_port
        ∧ (probe "10.0.0.1" "10.0.0.2" (-1) noon).protocol
          = (probe "10.0.0.1" "10.0.0.2" 1 noon).protocol :=
  flow_key_identifies (Flow.builtByParser_parsed _ _ _ _ _ _ _ _ _ _ _ _ _ _ _ _)
    (Flow.builtByParser_parsed _ _ _ _ _ _ _ _ _ _ _ _ _ _ _ _) ⟨by decide, by decide⟩
    ⟨by decide, by decide⟩

/-! ## §4. The count of distinct connections. -/

/-- The number of distinct connections among the flows. -/
def distinctConnections (flows : List Flow) : Nat := (flows.map Flow.connection).toFinset.card

/-- No two different connections among the flows are confusable. -/
def Separable (flows : List Flow) : Prop :=
  ∀ f ∈ flows, ∀ g ∈ flows, Confusable f g → f.connection = g.connection

/-- `addFlow`'s key as a function of the connection. -/
def connectionKey (c : String × Int32 × String × Int32 × FlowProtocol) : String :=
  c.1 ++ decimal c.2.1 ++ c.2.2.1 ++ decimal c.2.2.2.1 ++ c.2.2.2.2.name

theorem addFlow_key_connection (flow : Flow) :
    addFlow_key flow = connectionKey flow.connection := by
  simp only [addFlow_key, connectionKey, Flow.connection]

theorem keysOf_eq_image (flows : List Flow) :
    keysOf flows = (flows.map Flow.connection).toFinset.image connectionKey := by
  ext key
  simp [keysOf, addFlow_key_connection]

theorem card_keysOf_eq_iff {flows : List Flow} (h : ∀ f ∈ flows, OverIPv4 f) :
    (keysOf flows).card = distinctConnections flows ↔ Separable flows := by
  rw [keysOf_eq_image, distinctConnections, Finset.card_image_iff]
  constructor
  · intro hinj f hf g hg hconf
    exact hinj (by simpa using ⟨f, hf, rfl⟩) (by simpa using ⟨g, hg, rfl⟩)
      ((addFlow_key_eq_iff (h f hf) (h g hg)).mpr hconf)
  · intro hsep c hc d hd hkey
    obtain ⟨f, hf, rfl⟩ : ∃ f ∈ flows, f.connection = c := by simpa using hc
    obtain ⟨g, hg, rfl⟩ : ∃ g ∈ flows, g.connection = d := by simpa using hd
    exact hsep f hf g hg ((addFlow_key_eq_iff (h f hf) (h g hg)).mp hkey)

/-- A counter that wraps at `2^31` agrees with a number it does not exceed only below. -/
theorem toInt_ofNat_eq_iff {m n : Nat} (hmn : m ≤ n) :
    (Int32.ofNat m).toInt = n ↔ n < 2 ^ 31 ∧ m = n := by
  constructor
  · intro h
    have hlt := (Int32.ofNat m).toInt_lt
    have hn : n < 2 ^ 31 := by omega
    rw [Int32.toInt_ofNat_of_lt (Nat.lt_of_le_of_lt hmn hn)] at h
    exact ⟨hn, by exact_mod_cast h⟩
  · rintro ⟨hn, rfl⟩
    exact Int32.toInt_ofNat_of_lt hn

/-- **`unique_flow_count` is the number of distinct connections exactly when that number fits
an `int` and no two of the connections are confusable**; and of two flows, the key tells the
connections apart exactly when they are not.  The key of the parser's constructor always does. -/
theorem unique_flow_count_eq_iff (start : Option LocalDateTime)
    (calls : List (Flow × LocalDateTime)) (h : ∀ call ∈ calls, OverIPv4 call.1) :
    ((addFlows (AggregatedFlow.fresh start) calls).unique_flow_count.toInt
          = distinctConnections (calls.map Prod.fst)
        ↔ distinctConnections (calls.map Prod.fst) < 2 ^ 31 ∧ Separable (calls.map Prod.fst))
      ∧ (∀ f ∈ calls.map Prod.fst, ∀ g ∈ calls.map Prod.fst,
          (addFlow_key f = addFlow_key g ↔ f.connection = g.connection)
            ↔ (Confusable f g → f.connection = g.connection))
      ∧ (∀ f ∈ calls.map Prod.fst, ∀ g ∈ calls.map Prod.fst,
          parsed_flow_key f.src_ip f.dst_ip f.src_port f.dst_port f.protocol
              = parsed_flow_key g.src_ip g.dst_ip g.src_port g.dst_port g.protocol
            ↔ f.connection = g.connection) := by
  have hflows : ∀ f ∈ calls.map Prod.fst, OverIPv4 f := by
    intro f hf
    obtain ⟨call, hcall, rfl⟩ := List.mem_map.mp hf
    exact h call hcall
  refine ⟨?_, ?_, fun f hf g hg => flow_key_eq_iff (hflows f hf) (hflows g hg)⟩
  -- merging keys can only lower the count
  · have hle : (keysOf (calls.map Prod.fst)).card ≤ distinctConnections (calls.map Prod.fst) := by
      rw [keysOf_eq_image]
      exact Finset.card_image_le
    rw [(isAggregate_addFlows start calls).unique_flow_count, toInt_ofNat_eq_iff hle,
      card_keysOf_eq_iff hflows]
  · intro f hf g hg
    have hconn : f.connection = g.connection → addFlow_key f = addFlow_key g := by
      intro hc
      rw [addFlow_key_connection, addFlow_key_connection, hc]
    rw [addFlow_key_eq_iff (hflows f hf) (hflows g hg)]
    constructor
    · exact fun hiff => hiff.mp
    · intro himp
      exact ⟨himp, fun hc => (addFlow_key_eq_iff (hflows f hf) (hflows g hg)).mp (hconn hc)⟩

/-- `1.1.1.1:12` to `3.4.5.6`, then `1.1.1.1:1` to `23.4.5.6`. -/
def merged_calls : List (Flow × LocalDateTime) :=
  let noon : LocalDateTime := ⟨⟨2026, 1, 1, 12, 0, 0, 0⟩, by decide⟩
  [(probe "1.1.1.1" "3.4.5.6" 12 noon, noon), (probe "1.1.1.1" "23.4.5.6" 1 noon, noon)]

theorem merged_calls_overIPv4 : ∀ call ∈ merged_calls, OverIPv4 call.1 := by
  intro call hcall
  simp only [merged_calls, List.mem_cons, List.not_mem_nil, or_false] at hcall
  rcases hcall with rfl | rfl
  · exact
      { src := ⟨⟨['1'], ['1'], ['1'], ['1'], by simp [Digits]⟩, by decide⟩
        dst := ⟨⟨['3'], ['4'], ['5'], ['6'], by simp [Digits]⟩, by decide⟩
        src_port := by decide
        dst_port := by decide }
  · exact
      { src := ⟨⟨['1'], ['1'], ['1'], ['1'], by simp [Digits]⟩, by decide⟩
        dst := ⟨⟨['2', '3'], ['4'], ['5'], ['6'], by simp [Digits]⟩, by decide⟩
        src_port := by decide
        dst_port := by decide }

theorem unique_flow_count_eq_iff_merged :
    ((addFlows (AggregatedFlow.fresh none) merged_calls).unique_flow_count.toInt
          = distinctConnections (merged_calls.map Prod.fst)
        ↔ distinctConnections (merged_calls.map Prod.fst) < 2 ^ 31
            ∧ Separable (merged_calls.map Prod.fst))
      ∧ (∀ f ∈ merged_calls.map Prod.fst, ∀ g ∈ merged_calls.map Prod.fst,
          (addFlow_key f = addFlow_key g ↔ f.connection = g.connection)
            ↔ (Confusable f g → f.connection = g.connection))
      ∧ (∀ f ∈ merged_calls.map Prod.fst, ∀ g ∈ merged_calls.map Prod.fst,
          parsed_flow_key f.src_ip f.dst_ip f.src_port f.dst_port f.protocol
              = parsed_flow_key g.src_ip g.dst_ip g.src_port g.dst_port g.protocol
            ↔ f.connection = g.connection) :=
  unique_flow_count_eq_iff none merged_calls merged_calls_overIPv4

/-- **Two connections are counted as one.** -/
theorem unique_flow_count_merges :
    ¬ ∀ (start : Option LocalDateTime) (calls : List (Flow × LocalDateTime)),
        (∀ call ∈ calls, OverIPv4 call.1) →
          (addFlows (AggregatedFlow.fresh start) calls).unique_flow_count.toInt
            = distinctConnections (calls.map Prod.fst) := by
  intro hclaim
  have hcount := hclaim none merged_calls merged_calls_overIPv4
  have hone : (addFlows (AggregatedFlow.fresh none) merged_calls).unique_flow_count.toInt = 1 := by
    decide
  have htwo : distinctConnections (merged_calls.map Prod.fst) = 2 := by decide
  rw [hone, htwo] at hcount
  exact absurd hcount (by decide)

end KafKatch.Core
