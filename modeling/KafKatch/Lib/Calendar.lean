/-
  KafKatch.Lib.Calendar
  ─────────────────────
  **LOCAL DATE-TIMES AND THEIR MILLISECOND TEXT.**

  `LocalDateTime` is a valid date of the Gregorian calendar with a time of day in nanoseconds,
  in the years a four-digit field can hold.  Its text has the pattern

      yyyy-MM-dd'T'HH:mm:ss.SSS

  so writing loses everything below the millisecond, and reading it back gives the truncated
  date-time (`parse_format`).
-/
import KafKatch.Lib.Run
import Mathlib.Algebra.Group.Nat.Defs

namespace KafKatch.Lib

/-! ## §1. Valid date-times. -/

/-- The Gregorian rule. -/
def isLeapYear (year : Nat) : Bool := year % 4 == 0 && (year % 100 != 0 || year % 400 == 0)

/-- The days of a month. -/
def monthLength (year month : Nat) : Nat :=
  if month = 2 then (if isLeapYear year then 29 else 28)
  else if month = 4 ∨ month = 6 ∨ month = 9 ∨ month = 11 then 30
  else 31

/-- The fields of a date-time, valid or not. -/
structure DateTimeFields where
  year : Nat
  month : Nat
  day : Nat
  hour : Nat
  minute : Nat
  second : Nat
  nano : Nat
  deriving Repr, DecidableEq

/-- A day of the calendar and a time of day. -/
def DateTimeFields.Valid (f : DateTimeFields) : Prop :=
  1 ≤ f.year ∧ f.year < 10000 ∧ 1 ≤ f.month ∧ f.month ≤ 12
    ∧ 1 ≤ f.day ∧ f.day ≤ monthLength f.year f.month
    ∧ f.hour < 24 ∧ f.minute < 60 ∧ f.second < 60 ∧ f.nano < 1000000000

instance (f : DateTimeFields) : Decidable f.Valid := inferInstanceAs (Decidable (_ ∧ _))

/-- A valid date-time. -/
structure LocalDateTime where
  fields : DateTimeFields
  valid : fields.Valid
  deriving DecidableEq

/-- A date and time is its fields. -/
theorem LocalDateTime.ext_fields {t u : LocalDateTime} (h : t.fields = u.fields) : t = u := by
  cases t
  cases u
  simpa using h

/-- No month is longer than 31 days. -/
theorem monthLength_le (year month : Nat) : monthLength year month ≤ 31 := by
  unfold monthLength
  split
  · split <;> omega
  · split <;> omega

namespace LocalDateTime

/-- `truncatedTo(ChronoUnit.MILLIS)`. -/
def toMillis (t : LocalDateTime) : LocalDateTime where
  fields := { t.fields with nano := t.fields.nano / 1000000 * 1000000 }
  valid := by
    obtain ⟨h1, h2, h3, h4, h5, h6, h7, h8, h9, h10⟩ := t.valid
    exact ⟨h1, h2, h3, h4, h5, h6, h7, h8, h9, by dsimp only; omega⟩

/-- Cutting to milliseconds twice is cutting once. -/
@[simp] theorem toMillis_toMillis (t : LocalDateTime) : t.toMillis.toMillis = t.toMillis := by
  apply ext_fields
  simp [toMillis]

/-! ## §2. Fixed-width fields. -/

/-- The last `width` decimal digits of `n`. -/
def padded : Nat → Nat → List Char
  | 0, _ => []
  | width + 1, n => padded width (n / 10) ++ [Nat.digitChar (n % 10)]

/-- Read exactly `width` digits. -/
def readPadded (width : Nat) (cs : List Char) : Option (Nat × List Char) :=
  if (cs.take width).length = width ∧ (cs.take width).all Char.isDigit then
    some (Nat.ofDigitChars 10 (cs.take width) 0, cs.drop width)
  else none

/-- Read one given character. -/
def readChar (c : Char) : List Char → Option (List Char)
  | d :: cs => if d = c then some cs else none
  | [] => none

/-- As wide as asked for, whatever the number. -/
theorem padded_length (width n : Nat) : (padded width n).length = width := by
  induction width generalizing n with
  | zero => rfl
  | succ width ih => simp [padded, ih]

theorem digitChar_mod (n : Nat) :
    (Nat.digitChar (n % 10)).isDigit = true ∧ (Nat.digitChar (n % 10)).toNat - 48 = n % 10 := by
  have h : ∀ d, d < 10 → (Nat.digitChar d).isDigit = true ∧ (Nat.digitChar d).toNat - 48 = d := by
    decide
  exact h _ (Nat.mod_lt _ (by omega))

/-- All of it are digits. -/
theorem padded_isDigit (width n : Nat) : (padded width n).all Char.isDigit = true := by
  induction width generalizing n with
  | zero => rfl
  | succ width ih => simp [padded, ih, (digitChar_mod n).1]

/-- A number that fits the width is read back from its digits. -/
theorem ofDigitChars_padded (width n : Nat) (h : n < 10 ^ width) :
    Nat.ofDigitChars 10 (padded width n) 0 = n := by
  induction width generalizing n with
  | zero => simp at h; simp [padded, Nat.ofDigitChars, h]
  | succ width ih =>
      -- the last digit is `n % 10`, the digits before it are those of `n / 10`
      have hdiv : n / 10 < 10 ^ width := by
        rw [Nat.pow_succ] at h
        omega
      have hrec := ih (n / 10) hdiv
      simp only [padded, Nat.ofDigitChars, List.foldl_append] at hrec ⊢
      rw [hrec]
      have := (digitChar_mod n).2
      simp only [List.foldl_cons, List.foldl_nil, Char.reduceToNat]
      omega

/-- **Reading a field consumes exactly what writing it produced.** -/
theorem readPadded_padded (width n : Nat) (h : n < 10 ^ width) (rest : List Char) :
    readPadded width (padded width n ++ rest) = some (n, rest) := by
  have hlen := padded_length width n
  unfold readPadded
  rw [List.take_left' hlen, List.drop_left' hlen, ofDigitChars_padded width n h]
  simp [hlen, padded_isDigit]

/-! ## §3. The pattern. -/

/-- `yyyy-MM-dd'T'HH:mm:ss.SSS`. -/
def format (t : LocalDateTime) : List Char :=
  padded 4 t.fields.year ++ '-' :: (padded 2 t.fields.month ++ '-' :: (padded 2 t.fields.day
    ++ 'T' :: (padded 2 t.fields.hour ++ ':' :: (padded 2 t.fields.minute
    ++ ':' :: (padded 2 t.fields.second ++ '.' :: padded 3 (t.fields.nano / 1000000))))))

def parse (cs : List Char) : Option LocalDateTime := do
  let (year, cs) ← readPadded 4 cs
  let cs ← readChar '-' cs
  let (month, cs) ← readPadded 2 cs
  let cs ← readChar '-' cs
  let (day, cs) ← readPadded 2 cs
  let cs ← readChar 'T' cs
  let (hour, cs) ← readPadded 2 cs
  let cs ← readChar ':' cs
  let (minute, cs) ← readPadded 2 cs
  let cs ← readChar ':' cs
  let (second, cs) ← readPadded 2 cs
  let cs ← readChar '.' cs
  let (milli, cs) ← readPadded 3 cs
  let fields : DateTimeFields := ⟨year, month, day, hour, minute, second, milli * 1000000⟩
  if cs ≠ [] then none
  else if h : fields.Valid then some ⟨fields, h⟩
  else none

/-- **Reading the text back truncates to the millisecond.** -/
theorem parse_format (t : LocalDateTime) : parse (format t) = some t.toMillis := by
  obtain ⟨-, hyear, -, hmonth, -, hday, hhour, hminute, hsecond, hnano⟩ := t.valid
  have hlen := monthLength_le t.fields.year t.fields.month
  have hmilli := readPadded_padded 3 (t.fields.nano / 1000000) (by omega) []
  rw [List.append_nil] at hmilli
  have hchar : ∀ c cs, readChar c (c :: cs) = some cs := fun c cs => if_pos rfl
  have htwo : ∀ n rest, n < 60 → readPadded 2 (padded 2 n ++ rest) = some (n, rest) :=
    fun n rest hn => readPadded_padded 2 n (by omega) rest
  -- one line of `parse` after the other
  refine (bind_of_eq_some (readPadded_padded 4 t.fields.year (by omega) _)).trans ?_
  refine (bind_of_eq_some (hchar '-' _)).trans ?_
  refine (bind_of_eq_some (htwo t.fields.month _ (by omega))).trans ?_
  refine (bind_of_eq_some (hchar '-' _)).trans ?_
  refine (bind_of_eq_some (htwo t.fields.day _ (by omega))).trans ?_
  refine (bind_of_eq_some (hchar 'T' _)).trans ?_
  refine (bind_of_eq_some (htwo t.fields.hour _ (by omega))).trans ?_
  refine (bind_of_eq_some (hchar ':' _)).trans ?_
  refine (bind_of_eq_some (htwo t.fields.minute _ (by omega))).trans ?_
  refine (bind_of_eq_some (hchar ':' _)).trans ?_
  refine (bind_of_eq_some (htwo t.fields.second _ (by omega))).trans ?_
  refine (bind_of_eq_some (hchar '.' _)).trans ?_
  refine (bind_of_eq_some hmilli).trans ?_
  -- nothing is left over, and the fields are those of the truncated date-time
  exact (if_neg (not_not.mpr rfl)).trans (dif_pos t.toMillis.valid)

end LocalDateTime

end KafKatch.Lib
