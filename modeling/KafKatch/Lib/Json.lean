/-
  KafKatch.Lib.Json
  ─────────────────
  **JSON DOCUMENTS, THEIR COMPACT TEXT, AND A PARSER THAT INVERTS IT.**

  A document is kept as written: a number is its token (sign, integer digits,
  fraction digits, exponent), not a rounded machine value, and an object is
  the list of its fields in order.  `Json.text` is the compact rendering,
  `Json.parse` a recursive-descent parser of the whole grammar (white space,
  escapes, fractions, exponents), and

      parse (text v) = some v                                   (`parse_text`)
-/
import Mathlib.Data.Rat.Defs
import Mathlib.Algebra.Order.Field.Rat
import Mathlib.Data.Fintype.Basic
import Mathlib.Tactic.FinCases

namespace KafKatch.Lib

/-! ## §1. Documents. -/

/-- The last decimal digit of a number. -/
def lastDigit (n : Nat) : Fin 10 := ⟨n % 10, Nat.mod_lt n (by omega)⟩

/-- A JSON number token: `frac = []` means no fraction part, `exp = none` no exponent. -/
structure JsonNumber where
  neg : Bool
  int : Nat
  frac : List (Fin 10)
  exp : Option Int
  deriving Repr, DecidableEq

inductive Json where
  | null
  | bool (b : Bool)
  | num (n : JsonNumber)
  | str (s : String)
  | arr (elems : List Json)
  | obj (fields : List (String × Json))
  deriving Repr

namespace JsonNumber

/-- The token of a natural number. -/
def ofNat (n : Nat) : JsonNumber := ⟨false, n, [], none⟩

/-- The token of an integer. -/
def ofInt (i : Int) : JsonNumber := ⟨decide (i < 0), i.natAbs, [], none⟩

/-- The token has neither a fraction part nor an exponent. -/
def isInteger (n : JsonNumber) : Bool := n.frac.isEmpty && n.exp.isNone

/-- The fraction digits as a number: `0.d₁d₂…`. -/
def fracValue : List (Fin 10) → ℚ
  | [] => 0
  | d :: ds => ((d : Nat) + fracValue ds) / 10

/-- The magnitude, without sign and exponent. -/
def mantissa (n : JsonNumber) : ℚ := n.int + fracValue n.frac

/-- The exact value of the token. -/
def value (n : JsonNumber) : ℚ :=
  (if n.neg then -n.mantissa else n.mantissa) * (10 : ℚ) ^ (n.exp.getD 0)

/-- The integer an integer token denotes. -/
def intValue (n : JsonNumber) : Int := if n.neg then -(n.int : Int) else n.int

end JsonNumber

/-! ## §2. The compact text. -/

def hexChar (n : Nat) : Char := Nat.digitChar n

/-- One character inside a string literal. -/
def escapeChar (c : Char) : List Char :=
  if c = '\"' then ['\\', '\"']
  else if c = '\\' then ['\\', '\\']
  else if c.toNat < 0x20 then ['\\', 'u', '0', '0', hexChar (c.toNat / 16), hexChar (c.toNat % 16)]
  else [c]

/-- A string literal, quotes included. -/
def stringText (s : String) : List Char := '\"' :: (s.toList.flatMap escapeChar ++ ['\"'])

/-- The fraction part, with its point. -/
def fracText : List (Fin 10) → List Char
  | [] => []
  | d :: ds => '.' :: (d :: ds).map (fun d : Fin 10 => Nat.digitChar d)

/-- The exponent part, with its letter. -/
def expText : Option Int → List Char
  | none => []
  | some e => 'E' :: ((if e < 0 then ['-'] else []) ++ Nat.toDigits 10 e.natAbs)

/-- A number token. -/
def numberText (n : JsonNumber) : List Char :=
  (if n.neg then ['-'] else []) ++ Nat.toDigits 10 n.int ++ fracText n.frac ++ expText n.exp

namespace Json

mutual

/-- The compact text of a document. -/
def text : Json → List Char
  | null => ['n', 'u', 'l', 'l']
  | bool true => ['t', 'r', 'u', 'e']
  | bool false => ['f', 'a', 'l', 's', 'e']
  | num n => numberText n
  | str s => stringText s
  | arr [] => ['[', ']']
  | arr (v :: vs) => '[' :: (text v ++ elemsText vs)
  | obj [] => ['\x7b', '\x7d']
  | obj ((k, v) :: fs) => '\x7b' :: (stringText k ++ ':' :: (text v ++ fieldsText fs))

/-- The elements after the first, with the closing bracket. -/
def elemsText : List Json → List Char
  | [] => [']']
  | v :: vs => ',' :: (text v ++ elemsText vs)

/-- The fields after the first, with the closing brace. -/
def fieldsText : List (String × Json) → List Char
  | [] => ['\x7d']
  | (k, v) :: fs => ',' :: (stringText k ++ ':' :: (text v ++ fieldsText fs))

end

end Json

/-! ## §3. The parser. -/

def isJsonSpace (c : Char) : Bool := c == ' ' || c == '\n' || c == '\r' || c == '\t'

def skipSpace (cs : List Char) : List Char := cs.dropWhile isJsonSpace

/-- The value of a hexadecimal digit. -/
def hexValue (c : Char) : Option Nat :=
  if '0' ≤ c ∧ c ≤ '9' then some (c.toNat - '0'.toNat)
  else if 'a' ≤ c ∧ c ≤ 'f' then some (c.toNat - 'a'.toNat + 10)
  else if 'A' ≤ c ∧ c ≤ 'F' then some (c.toNat - 'A'.toNat + 10)
  else none

/-- The character of a four-digit escape (a surrogate half is refused). -/
def unicodeEscape (a b c d : Char) : Option Char := do
  let a ← hexValue a
  let b ← hexValue b
  let c ← hexValue c
  let d ← hexValue d
  let n := ((a * 16 + b) * 16 + c) * 16 + d
  if 0xd800 ≤ n ∧ n ≤ 0xdfff then none else some (Char.ofNat n)

/-- The body of a string literal, up to and including the closing quote. -/
def parseStringBody : List Char → Option (List Char × List Char)
  | '\"' :: r => some ([], r)
  | '\\' :: '\"' :: r => (parseStringBody r).map (fun p => ('\"' :: p.1, p.2))
  | '\\' :: '\\' :: r => (parseStringBody r).map (fun p => ('\\' :: p.1, p.2))
  | '\\' :: '/' :: r => (parseStringBody r).map (fun p => ('/' :: p.1, p.2))
  | '\\' :: 'b' :: r => (parseStringBody r).map (fun p => ('\x08' :: p.1, p.2))
  | '\\' :: 'f' :: r => (parseStringBody r).map (fun p => ('\x0c' :: p.1, p.2))
  | '\\' :: 'n' :: r => (parseStringBody r).map (fun p => ('\n' :: p.1, p.2))
  | '\\' :: 'r' :: r => (parseStringBody r).map (fun p => ('\r' :: p.1, p.2))
  | '\\' :: 't' :: r => (parseStringBody r).map (fun p => ('\t' :: p.1, p.2))
  | '\\' :: 'u' :: a :: b :: c :: d :: r =>
      match unicodeEscape a b c d with
      | some ch => (parseStringBody r).map (fun p => (ch :: p.1, p.2))
      | none => none
  | '\\' :: _ => none
  | c :: r =>
      if c.toNat < 0x20 then none else (parseStringBody r).map (fun p => (c :: p.1, p.2))
  | [] => none

/-- A string literal. -/
def parseString : List Char → Option (String × List Char)
  | '\"' :: r => (parseStringBody r).map (fun p => (String.ofList p.1, p.2))
  | _ => none

/-- A non-empty run of digits. -/
def parseDigits (cs : List Char) : Option (List Char × List Char) :=
  if (cs.takeWhile Char.isDigit).isEmpty then none
  else some (cs.takeWhile Char.isDigit, cs.dropWhile Char.isDigit)

/-- The integer part: no leading zero unless it is the only digit. -/
def parseInt (cs : List Char) : Option (Nat × List Char) :=
  match parseDigits cs with
  | some ('0' :: _ :: _, _) => none
  | some (ds, r) => some (Nat.ofDigitChars 10 ds 0, r)
  | none => none

def digitOf (c : Char) : Fin 10 := lastDigit (c.toNat - '0'.toNat)

/-- The optional fraction part. -/
def parseFrac : List Char → Option (List (Fin 10) × List Char)
  | '.' :: r => (parseDigits r).map (fun p => (p.1.map digitOf, p.2))
  | r => some ([], r)

/-- The exponent after its letter. -/
def parseExpBody : List Char → Option (Int × List Char)
  | '-' :: r => (parseDigits r).map (fun p => (-(Nat.ofDigitChars 10 p.1 0 : Int), p.2))
  | '+' :: r => (parseDigits r).map (fun p => ((Nat.ofDigitChars 10 p.1 0 : Int), p.2))
  | r => (parseDigits r).map (fun p => ((Nat.ofDigitChars 10 p.1 0 : Int), p.2))

/-- The optional exponent part. -/
def parseExp : List Char → Option (Option Int × List Char)
  | 'e' :: r => (parseExpBody r).map (fun p => (some p.1, p.2))
  | 'E' :: r => (parseExpBody r).map (fun p => (some p.1, p.2))
  | r => some (none, r)

/-- A number token after its sign. -/
def parseUnsigned (neg : Bool) (cs : List Char) : Option (JsonNumber × List Char) := do
  let (int, r) ← parseInt cs
  let (frac, r) ← parseFrac r
  let (exp, r) ← parseExp r
  some (⟨neg, int, frac, exp⟩, r)

/-- A number token. -/
def parseNumber : List Char → Option (JsonNumber × List Char)
  | '-' :: r => parseUnsigned true r
  | r => parseUnsigned false r

namespace Json

mutual

/-- One value; the fuel bounds the nesting and the number of elements. -/
def parseValue : Nat → List Char → Option (Json × List Char)
  | 0, _ => none
  | n + 1, cs =>
      match skipSpace cs with
      | 'n' :: 'u' :: 'l' :: 'l' :: r => some (null, r)
      | 't' :: 'r' :: 'u' :: 'e' :: r => some (bool true, r)
      | 'f' :: 'a' :: 'l' :: 's' :: 'e' :: r => some (bool false, r)
      | '\"' :: r => (parseStringBody r).map (fun p => (str (String.ofList p.1), p.2))
      | '[' :: r =>
          match skipSpace r with
          | ']' :: r => some (arr [], r)
          | r => (parseElems n r).map (fun p => (arr p.1, p.2))
      | '\x7b' :: r =>
          match skipSpace r with
          | '\x7d' :: r => some (obj [], r)
          | r => (parseFields n r).map (fun p => (obj p.1, p.2))
      | r => (parseNumber r).map (fun p => (num p.1, p.2))

/-- One or more elements, with the closing bracket. -/
def parseElems : Nat → List Char → Option (List Json × List Char)
  | 0, _ => none
  | n + 1, cs =>
      match parseValue n cs with
      | none => none
      | some (v, r) =>
          match skipSpace r with
          | ',' :: r => (parseElems n r).map (fun p => (v :: p.1, p.2))
          | ']' :: r => some ([v], r)
          | _ => none

/-- One or more fields, with the closing brace. -/
def parseFields : Nat → List Char → Option (List (String × Json) × List Char)
  | 0, _ => none
  | n + 1, cs =>
      match parseString (skipSpace cs) with
      | none => none
      | some (k, r) =>
          match skipSpace r with
          | ':' :: r =>
              match parseValue n r with
              | none => none
              | some (v, r) =>
                  match skipSpace r with
                  | ',' :: r => (parseFields n r).map (fun p => ((k, v) :: p.1, p.2))
                  | '\x7d' :: r => some ([(k, v)], r)
                  | _ => none
          | _ => none

end

/-- A whole document: one value with nothing but space after it. -/
def parse (cs : List Char) : Option Json :=
  match parseValue (cs.length + 1) cs with
  | some (v, r) => if skipSpace r = [] then some v else none
  | none => none

end Json

/-! ## §4. Numbers round-trip. -/

/-- The first character of `r`, if any, does not satisfy `p`. -/
def Stops (p : Char → Bool) (r : List Char) : Prop := ∀ c, r.head? = some c → p c = false

theorem stops_nil (p : Char → Bool) : Stops p [] := by
  intro c h
  simp at h

theorem stops_cons {p : Char → Bool} {c : Char} (r : List Char) (h : p c = false) :
    Stops p (c :: r) := by
  intro d hd
  simp only [List.head?_cons, Option.some.injEq] at hd
  rw [← hd, h]

theorem Stops.mono {p q : Char → Bool} {r : List Char} (h : Stops p r)
    (hqp : ∀ c, q c = true → p c = true) : Stops q r := by
  intro c hc
  have := h c hc
  cases hq : q c with
  | false => rfl
  | true => rw [hqp c hq] at this; exact absurd this (by simp)

theorem span_of_stops {p : Char → Bool} {ds r : List Char} (hds : ∀ c ∈ ds, p c = true)
    (hr : Stops p r) : (ds ++ r).takeWhile p = ds ∧ (ds ++ r).dropWhile p = r := by
  rw [List.takeWhile_append_of_pos hds, List.dropWhile_append_of_pos hds]
  cases r with
  | nil => simp
  | cons c r =>
      have hc : p c = false := hr c rfl
      simp [hc]

theorem parseDigits_append {ds r : List Char} (hne : ds ≠ [])
    (hds : ∀ c ∈ ds, c.isDigit = true) (hr : Stops Char.isDigit r) :
    parseDigits (ds ++ r) = some (ds, r) := by
  obtain ⟨htake, hdrop⟩ := span_of_stops hds hr
  unfold parseDigits
  rw [htake, hdrop, if_neg (by simpa using hne)]

theorem toDigits_isDigit (n : Nat) : ∀ c ∈ Nat.toDigits 10 n, c.isDigit = true :=
  fun _ hc => Nat.isDigit_of_mem_toDigits (by omega) (by omega) hc

/-- A text that begins with a rendered number begins with a digit. -/
theorem isDigit_of_toDigits_append {n : Nat} {r r' : List Char} {c : Char}
    (h : Nat.toDigits 10 n ++ r = c :: r') : c.isDigit = true := by
  cases hd : Nat.toDigits 10 n with
  | nil => exact absurd hd Nat.toDigits_ne_nil
  | cons d ds =>
      rw [hd, List.cons_append, List.cons.injEq] at h
      exact h.1 ▸ toDigits_isDigit n d (by simp [hd])

theorem head_toDigits_ne_zero (n : Nat) (hn : 0 < n) :
    (Nat.toDigits 10 n).head? ≠ some '0' := by
  induction n using Nat.strong_induction_on with
  | _ n ih =>
      by_cases h : n < 10
      · rw [Nat.toDigits_of_lt_base h]
        simp
        omega
      · rw [Nat.toDigits_of_base_le (by omega) (by omega)]
        have hrec := ih (n / 10) (by omega) (by omega)
        cases hd : Nat.toDigits 10 (n / 10) with
        | nil => exact absurd hd Nat.toDigits_ne_nil
        | cons c cs => simpa [hd] using hrec

theorem parseInt_toDigits (n : Nat) {r : List Char} (hr : Stops Char.isDigit r) :
    parseInt (Nat.toDigits 10 n ++ r) = some (n, r) := by
  unfold parseInt
  rw [parseDigits_append Nat.toDigits_ne_nil (toDigits_isDigit n) hr]
  have hval := Nat.ofDigitChars_toDigits (b := 10) (n := n) (by omega) (by omega)
  split
  next c cs _ heq =>
    -- a leading zero followed by more digits never occurs
    simp only [Option.some.injEq, Prod.mk.injEq] at heq
    rcases Nat.eq_zero_or_pos n with rfl | hn
    · simp at heq
    · exact absurd (by rw [heq.1]; rfl) (head_toDigits_ne_zero n hn)
  next heq =>
    simp only [Option.some.injEq, Prod.mk.injEq] at heq
    rw [← heq.1, ← heq.2, hval]
  next heq => simp at heq

theorem digitOf_digitChar (d : Fin 10) : digitOf (Nat.digitChar d) = d := by
  revert d
  decide

theorem digitChar_isDigit (d : Fin 10) : (Nat.digitChar d).isDigit = true := by
  revert d
  decide

/-- What cannot follow a number token. -/
def numberChar (c : Char) : Bool := c.isDigit || c == '.' || c == 'e' || c == 'E'

theorem parseFrac_text (ds : List (Fin 10)) {r : List Char} (hr : Stops Char.isDigit r)
    (hdot : Stops (· == '.') r) : parseFrac (fracText ds ++ r) = some (ds, r) := by
  cases ds with
  | nil =>
      cases r with
      | nil => rfl
      | cons c r =>
          have hc : c ≠ '.' := by simpa using hdot c rfl
          simp [fracText, parseFrac, hc]
  | cons d ds =>
      have hdigits : ∀ c ∈ (d :: ds).map (fun d : Fin 10 => Nat.digitChar d),
          c.isDigit = true := by
        intro c hc
        obtain ⟨e, _, rfl⟩ := List.mem_map.mp hc
        exact digitChar_isDigit e
      simp only [fracText, List.cons_append, parseFrac]
      rw [parseDigits_append (by simp) hdigits hr]
      simp [digitOf_digitChar, Function.comp_def]

theorem parseExp_text (e : Option Int) {r : List Char} (hr : Stops numberChar r) :
    parseExp (expText e ++ r) = some (e, r) := by
  have hdig : Stops Char.isDigit r := hr.mono (by intro c hc; simp [numberChar, hc])
  cases e with
  | none =>
      cases r with
      | nil => rfl
      | cons c r =>
          have hc := hr c rfl
          simp only [numberChar, Bool.or_eq_false_iff, beq_eq_false_iff_ne] at hc
          simp [expText, parseExp, hc.1.2, hc.2]
  | some e =>
      have hval := Nat.ofDigitChars_toDigits (b := 10) (n := e.natAbs) (by omega) (by omega)
      have hparse := parseDigits_append Nat.toDigits_ne_nil (toDigits_isDigit e.natAbs) hdig
      by_cases he : e < 0
      · simp only [expText, he, if_true, List.cons_append, List.nil_append, parseExp,
          parseExpBody, hparse, Option.map_some, hval]
        congr 3
        omega
      · have hbody : parseExpBody (Nat.toDigits 10 e.natAbs ++ r) = some (e, r) := by
          -- a digit is neither of the two signs
          unfold parseExpBody
          split
          next r' heq =>
            exact absurd (isDigit_of_toDigits_append heq) (by decide)
          next r' heq =>
            exact absurd (isDigit_of_toDigits_append heq) (by decide)
          next =>
            simp only [hparse, Option.map_some, hval]
            congr 2
            omega
        simp only [expText, he, if_false, List.nil_append, List.cons_append, parseExp, hbody,
          Option.map_some]

/-- **A number token is read back.** -/
theorem parseNumber_text (n : JsonNumber) {r : List Char} (hr : Stops numberChar r) :
    parseNumber (numberText n ++ r) = some (n, r) := by
  -- what follows the integer part, and what follows the fraction, starts with no digit
  have hexp : Stops (fun c => c.isDigit || c == '.') (expText n.exp ++ r) := by
    cases he : n.exp with
    | none =>
        simp only [expText, List.nil_append]
        exact hr.mono (by intro c hc; simp only [numberChar, hc, Bool.true_or])
    | some e => exact stops_cons _ (by decide)
  have hfrac : Stops Char.isDigit (fracText n.frac ++ (expText n.exp ++ r)) := by
    cases hf : n.frac with
    | nil =>
        simp only [fracText, List.nil_append]
        exact hexp.mono (by intro c hc; simp [hc])
    | cons d ds => exact stops_cons _ (by decide)
  have hunsigned : ∀ neg, parseUnsigned neg
      (Nat.toDigits 10 n.int ++ (fracText n.frac ++ (expText n.exp ++ r)))
        = some (⟨neg, n.int, n.frac, n.exp⟩, r) := by
    intro neg
    unfold parseUnsigned
    rw [parseInt_toDigits n.int hfrac]
    show (do let (frac, r') ← parseFrac (fracText n.frac ++ (expText n.exp ++ r))
             let (exp, r') ← parseExp r'
             some (JsonNumber.mk neg n.int frac exp, r')) = _
    rw [parseFrac_text n.frac (hexp.mono (by intro c hc; simp [hc]))
      (hexp.mono (by intro c hc; simp only [hc, Bool.or_true]))]
    show (do let (exp, r') ← parseExp (expText n.exp ++ r)
             some (JsonNumber.mk neg n.int n.frac exp, r')) = _
    rw [parseExp_text n.exp hr]
    rfl
  cases hneg : n.neg with
  | true =>
      simp only [numberText, hneg, if_true, List.cons_append, List.nil_append,
        List.append_assoc, parseNumber, hunsigned]
      rw [← hneg]
  | false =>
      simp only [numberText, hneg, Bool.false_eq_true, if_false, List.nil_append,
        List.append_assoc]
      -- without a sign the text starts with a digit
      unfold parseNumber
      split
      next r' heq => exact absurd (isDigit_of_toDigits_append heq) (by decide)
      next => rw [hunsigned, ← hneg]

/-! ## §5. String literals round-trip. -/

theorem hexValue_hexChar : ∀ n, n < 16 → hexValue (hexChar n) = some n := by
  decide

theorem unicodeEscape_control {c : Char} (h : c.toNat < 0x20) :
    unicodeEscape '0' '0' (hexChar (c.toNat / 16)) (hexChar (c.toNat % 16)) = some c := by
  have hzero : hexValue '0' = some 0 := by decide
  have hval : ((0 * 16 + 0) * 16 + c.toNat / 16) * 16 + c.toNat % 16 = c.toNat := by omega
  simp only [unicodeEscape, hzero, hexValue_hexChar _ (by omega : c.toNat / 16 < 16),
    hexValue_hexChar _ (by omega : c.toNat % 16 < 16), Option.bind_eq_bind, Option.bind_some,
    hval]
  rw [if_neg (by omega), Char.ofNat_toNat]

theorem parseStringBody_escapeChar (c : Char) (r : List Char) :
    parseStringBody (escapeChar c ++ r)
      = (parseStringBody r).map (fun p => (c :: p.1, p.2)) := by
  unfold escapeChar
  by_cases hq : c = '\"'
  · subst hq
    simp [parseStringBody]
  by_cases hb : c = '\\'
  · subst hb
    simp [parseStringBody]
  by_cases hc : c.toNat < 0x20
  · simp only [hq, hb, hc, if_true, if_false, List.cons_append, List.nil_append]
    rw [parseStringBody, unicodeEscape_control hc]
  · simp only [hq, hb, hc, if_false, List.cons_append, List.nil_append]
    rw [parseStringBody.eq_def]
    split <;> simp_all

theorem parseStringBody_text (s : List Char) (r : List Char) :
    parseStringBody (s.flatMap escapeChar ++ '\"' :: r) = some (s, r) := by
  induction s with
  | nil => simp [parseStringBody]
  | cons c s ih =>
      rw [List.flatMap_cons, List.append_assoc, parseStringBody_escapeChar, ih]
      rfl

theorem parseString_text (s : String) (r : List Char) :
    parseString (stringText s ++ r) = some (s, r) := by
  simp only [stringText, List.cons_append, List.append_assoc, List.nil_append, parseString,
    parseStringBody_text, Option.map_some, String.ofList_toList]

/-! ## §6. Documents round-trip. -/

namespace Json

/-- What a value can start with: no space and no closing bracket. -/
def startChar (c : Char) : Bool := !(isJsonSpace c || c == ']' || c == '\x7d')

theorem numberText_head (n : JsonNumber) :
    ∃ c cs, numberText n = c :: cs ∧ (c = '-' ∨ ∃ d : Fin 10, c = Nat.digitChar d) := by
  cases hneg : n.neg with
  | true => exact ⟨'-', _, by simp [numberText, hneg]; rfl, Or.inl rfl⟩
  | false =>
      cases hd : Nat.toDigits 10 n.int with
      | nil => exact absurd hd Nat.toDigits_ne_nil
      | cons c ds =>
          refine ⟨c, _, by simp [numberText, hneg, hd]; rfl, Or.inr ?_⟩
          have hc := toDigits_isDigit n.int c (by simp [hd])
          refine ⟨digitOf c, ?_⟩
          have hrange : 48 ≤ c.toNat ∧ c.toNat ≤ 57 := by
            simpa [Char.isDigit, UInt32.le_iff_toNat_le] using hc
          apply Char.toNat_inj.mp
          rw [Nat.toNat_digitChar_of_lt_ten (digitOf c).isLt]
          simp only [digitOf, lastDigit, Char.reduceToNat]
          omega

theorem text_head (v : Json) : ∃ c cs, text v = c :: cs ∧ startChar c = true := by
  match v with
  | null => exact ⟨_, _, rfl, by decide⟩
  | bool true => exact ⟨_, _, rfl, by decide⟩
  | bool false => exact ⟨_, _, rfl, by decide⟩
  | num n =>
      obtain ⟨c, cs, htext, hc⟩ := numberText_head n
      refine ⟨c, cs, htext, ?_⟩
      rcases hc with rfl | ⟨d, rfl⟩
      · decide
      · clear htext
        revert d
        decide
  | str s => exact ⟨_, _, rfl, by decide⟩
  | arr [] => exact ⟨_, _, rfl, by decide⟩
  | arr (_ :: _) => exact ⟨_, _, by rw [text], by decide⟩
  | obj [] => exact ⟨_, _, rfl, by decide⟩
  | obj ((_, _) :: _) => exact ⟨_, _, by rw [text], by decide⟩

theorem skipSpace_cons {c : Char} (cs : List Char) (h : isJsonSpace c = false) :
    skipSpace (c :: cs) = c :: cs := by
  simp [skipSpace, h]

theorem skipSpace_text (v : Json) (r : List Char) : skipSpace (text v ++ r) = text v ++ r := by
  obtain ⟨c, cs, htext, hc⟩ := text_head v
  have hspace : isJsonSpace c = false := by
    cases h : isJsonSpace c with
    | false => rfl
    | true => simp [startChar, h] at hc
  rw [htext, List.cons_append, skipSpace_cons _ hspace]

/-- A value never starts with a closing bracket. -/
theorem text_ne_close (v : Json) (r r' : List Char) :
    text v ++ r ≠ ']' :: r' ∧ text v ++ r ≠ '\x7d' :: r' := by
  obtain ⟨c, cs, htext, hc⟩ := text_head v
  rw [htext, List.cons_append]
  constructor
  · intro h
    rw [List.cons.injEq] at h
    rw [h.1] at hc
    exact absurd hc (by decide)
  · intro h
    rw [List.cons.injEq] at h
    rw [h.1] at hc
    exact absurd hc (by decide)

/-- A text that starts like a number is parsed as one. -/
theorem parseValue_number (n : Nat) {c : Char} (cs : List Char)
    (hc : c = '-' ∨ ∃ d : Fin 10, c = Nat.digitChar d) :
    parseValue (n + 1) (c :: cs) = (parseNumber (c :: cs)).map (fun p => (num p.1, p.2)) := by
  rcases hc with rfl | ⟨d, rfl⟩
  · rfl
  · fin_cases d <;> rfl

theorem elemsText_stops (vs : List Json) (r : List Char) :
    Stops numberChar (elemsText vs ++ r) := by
  cases vs with
  | nil => exact stops_cons _ (by decide)
  | cons v vs => rw [elemsText]; exact stops_cons _ (by decide)

theorem fieldsText_stops (fs : List (String × Json)) (r : List Char) :
    Stops numberChar (fieldsText fs ++ r) := by
  cases fs with
  | nil => exact stops_cons _ (by decide)
  | cons f fs => obtain ⟨k, v⟩ := f; rw [fieldsText]; exact stops_cons _ (by decide)

theorem elemsText_length_pos (vs : List Json) : 0 < (elemsText vs).length := by
  cases vs <;> simp [elemsText]

theorem fieldsText_length_pos (fs : List (String × Json)) : 0 < (fieldsText fs).length := by
  cases fs with
  | nil => simp [fieldsText]
  | cons f fs => obtain ⟨k, v⟩ := f; simp [fieldsText]

/-- With fuel `n`, a rendered value is read back. -/
def ReadsValues (n : Nat) : Prop :=
  ∀ (v : Json) (r : List Char), (text v).length ≤ n → Stops numberChar r →
    parseValue n (text v ++ r) = some (v, r)

/-- With fuel `n`, a rendered non-empty element list is read back. -/
def ReadsElems (n : Nat) : Prop :=
  ∀ (v : Json) (vs : List Json) (r : List Char), (text v).length + (elemsText vs).length ≤ n →
    parseElems n (text v ++ (elemsText vs ++ r)) = some (v :: vs, r)

/-- With fuel `n`, a rendered non-empty field list is read back. -/
def ReadsFields (n : Nat) : Prop :=
  ∀ (k : String) (v : Json) (fs : List (String × Json)) (r : List Char),
    (stringText k).length + (text v).length + (fieldsText fs).length ≤ n →
      parseFields n (stringText k ++ ':' :: (text v ++ (fieldsText fs ++ r)))
        = some ((k, v) :: fs, r)

section Fuel

variable {n : Nat}

/-- One more unit of fuel reads a value, by its constructor. -/
theorem readsValues_succ (ihElems : ReadsElems n) (ihFields : ReadsFields n) :
    ReadsValues (n + 1) := by
  intro v r hlen hr
  match v with
  | null => simp [text, parseValue, skipSpace, isJsonSpace]
  | bool true => simp [text, parseValue, skipSpace, isJsonSpace]
  | bool false => simp [text, parseValue, skipSpace, isJsonSpace]
  | str s =>
      simp only [text, stringText, List.cons_append, List.append_assoc, List.nil_append,
        parseValue]
      rw [skipSpace_cons _ (by decide)]
      simp only [parseStringBody_text, Option.map_some, String.ofList_toList]
  | num x =>
      obtain ⟨c, cs, htext, hc⟩ := numberText_head x
      have hread := parseNumber_text x hr
      simp only [text, htext, List.cons_append] at hread ⊢
      rw [parseValue_number n _ hc, hread]
      rfl
  | arr [] => simp [text, parseValue, skipSpace, isJsonSpace]
  | arr (w :: ws) =>
      simp only [text, List.length_cons, List.length_append] at hlen
      have hrec := ihElems w ws r (by omega)
      simp only [text, List.cons_append, List.append_assoc, parseValue]
      rw [skipSpace_cons _ (by decide)]
      simp only [skipSpace_text]
      split
      next heq => exact absurd heq (text_ne_close w _ _).1
      next => rw [hrec]; rfl
  | obj [] => simp [text, parseValue, skipSpace, isJsonSpace]
  | obj ((k, w) :: fs) =>
      simp only [text, List.length_cons, List.length_append] at hlen
      have hrec := ihFields k w fs r (by omega)
      simp only [text, List.cons_append, List.append_assoc, parseValue]
      rw [skipSpace_cons _ (by decide)]
      simp only [stringText, List.cons_append] at hrec ⊢
      rw [skipSpace_cons _ (by decide)]
      split
      next heq => exact absurd (List.cons.inj heq).1 (by decide)
      next => rw [hrec]; rfl

/-- An element, and the rest of the list behind its comma. -/
theorem readsElems_succ (ihValue : ReadsValues n) (ihElems : ReadsElems n) :
    ReadsElems (n + 1) := by
  intro v vs r hlen
  have hpos := elemsText_length_pos vs
  have hval := ihValue v (elemsText vs ++ r) (by omega) (elemsText_stops vs r)
  rw [parseElems, hval]
  cases vs with
  | nil => simp [elemsText, skipSpace, isJsonSpace]
  | cons w ws =>
      simp only [elemsText, List.length_cons, List.length_append] at hlen
      have hrec := ihElems w ws r (by omega)
      simp only [elemsText, List.cons_append, List.append_assoc]
      rw [skipSpace_cons _ (by decide)]
      simp only [hrec, Option.map_some]

/-- A name, its value, and the rest of the object behind its comma. -/
theorem readsFields_succ (ihValue : ReadsValues n) (ihFields : ReadsFields n) :
    ReadsFields (n + 1) := by
  intro k v fs r hlen
  have hpos := fieldsText_length_pos fs
  have hkey : 0 < (stringText k).length := by simp [stringText]
  have hval := ihValue v (fieldsText fs ++ r) (by omega) (fieldsText_stops fs r)
  have hskip : skipSpace (stringText k ++ ':' :: (text v ++ (fieldsText fs ++ r)))
      = stringText k ++ ':' :: (text v ++ (fieldsText fs ++ r)) := by
    rw [stringText, List.cons_append, skipSpace_cons _ (by decide)]
  rw [parseFields, hskip, parseString_text]
  simp only
  rw [skipSpace_cons _ (by decide)]
  simp only [hval]
  cases fs with
  | nil => simp [fieldsText, skipSpace, isJsonSpace]
  | cons f fs =>
      obtain ⟨k', w⟩ := f
      simp only [fieldsText, List.length_cons, List.length_append] at hlen
      have hrec := ihFields k' w fs r (by omega)
      simp only [fieldsText, List.cons_append, List.append_assoc]
      rw [skipSpace_cons _ (by decide)]
      simp only [hrec, Option.map_some]

end Fuel

/-- The three parsers together, by induction on the fuel. -/
theorem parse_core : ∀ n : Nat, ReadsValues n ∧ ReadsElems n ∧ ReadsFields n := by
  intro n
  induction n with
  | zero =>
      -- no rendered text is empty
      refine ⟨?_, ?_, ?_⟩
      · intro v r hlen _
        obtain ⟨c, cs, htext, _⟩ := text_head v
        simp [htext] at hlen
      · intro v vs r hlen
        have := elemsText_length_pos vs
        omega
      · intro k v fs r hlen
        have := fieldsText_length_pos fs
        omega
  | succ n ih =>
      obtain ⟨ihValue, ihElems, ihFields⟩ := ih
      exact ⟨readsValues_succ ihElems ihFields, readsElems_succ ihValue ihElems,
        readsFields_succ ihValue ihFields⟩

/-- **The parser inverts the compact text.** -/
theorem parse_text (v : Json) : parse (text v) = some v := by
  have hcore := (parse_core ((text v).length + 1)).1 v [] (by omega) (stops_nil _)
  rw [List.append_nil] at hcore
  simp [parse, hcore, skipSpace]

/-! ## §7. Access. -/

/-- The field of an object with the given name; `none` if there is none, or no object. -/
def get (v : Json) (name : String) : Option Json :=
  match v with
  | obj fields => fields.lookup name
  | _ => none

mutual

/-- No object of the document repeats a field name. -/
def distinctNames : Json → Bool
  | obj fields => decide (fields.map Prod.fst).Nodup && distinctNamesFields fields
  | arr elems => distinctNamesElems elems
  | _ => true

def distinctNamesElems : List Json → Bool
  | [] => true
  | v :: vs => distinctNames v && distinctNamesElems vs

def distinctNamesFields : List (String × Json) → Bool
  | [] => true
  | (_, v) :: fs => distinctNames v && distinctNamesFields fs

end

/-! ## §8. UTF-8. -/

theorem fromUTF8_toUTF8 (s : String) : String.fromUTF8? s.toUTF8 = some s :=
  dif_pos s.isValidUTF8

/-- The compact text in UTF-8. -/
def bytes (v : Json) : ByteArray := (String.ofList v.text).toUTF8

/-- The document of some bytes, if they are text and the text is one. -/
def parseBytes (data : ByteArray) : Option Json :=
  (String.fromUTF8? data).bind (fun s => parse s.toList)

theorem parseBytes_bytes (v : Json) : parseBytes v.bytes = some v := by
  unfold parseBytes bytes
  rw [fromUTF8_toUTF8, Option.bind_some, String.toList_ofList, parse_text]

end Json

end KafKatch.Lib
