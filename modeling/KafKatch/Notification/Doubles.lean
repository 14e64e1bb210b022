/-
  KafKatch.Notification.Doubles
  ─────────────────────────────
  **HOW FAR THE DOUBLES OF `check` ARE FROM THE NUMBERS THEY STAND FOR.**

  `check` casts a sum and a value to `double` and divides twice, which rounds four times.  The
  average has the sign of the mean (`doubleMean_pos_iff`), and neither it nor the ratio is off by
  more than a few parts in `2^53` (`close_doubleMean`, `close_ratioOf`), as long as the sum of the
  window fits a `long`.  The exponents of a `double` are not bounded in this model; those that
  occur are far from their limits (`operations_in_range`).
-/
import KafKatch.Notification.AnomalyDetector

namespace KafKatch.Notification

open KafKatch.Lib

/-! ## §1. Means. -/

/-- The mean of some samples. -/
def mean (window : List Int64) : ℚ :=
  (((window.map Int64.toInt).sum : Int) : ℚ) / window.length

/-- The mean as `check` computes it: the sum in 64-bit arithmetic, the quotient in doubles. -/
def doubleMean (window : List Int64) : ℚ :=
  toDouble (toDouble (sum64 window).toInt / window.length)

/-- With a sum that is in step, the average is the mean of the values. -/
theorem doubleAverage_eq {stats : RollingStats} (h : Consistent stats) (hlen : 3 ≤ stats.size) :
    stats.doubleAverage = doubleMean stats.values := by
  have hne : stats.values.isEmpty = false := by
    rw [List.isEmpty_eq_false_iff]
    intro hnil
    unfold RollingStats.size at hlen
    rw [hnil] at hlen
    exact absurd hlen (by decide)
  unfold RollingStats.doubleAverage doubleMean
  rw [hne, h]
  rfl

/-- Where the sum fits, it is rounded and divided as it is. -/
theorem doubleMean_eq {window : List Int64} (h : FitsLong window) :
    doubleMean window
      = toDouble (toDouble ((window.map Int64.toInt).sum : Int) / window.length) := by
  unfold doubleMean
  rw [toInt_sum64 h.1 h.2]

/-- Casts and operations keep the order of their exact results. -/
theorem toDouble_mono {x y : ℚ} (h : x ≤ y) : toDouble x ≤ toDouble y := roundTo_mono 52 h

/-- They keep the sign. -/
theorem toDouble_pos_iff {x : ℚ} : 0 < toDouble x ↔ 0 < x := roundTo_pos_iff

theorem toDouble_nonneg {x : ℚ} (h : 0 ≤ x) : 0 ≤ toDouble x := roundTo_nonneg h

/-- **The average has the sign of the mean.** -/
theorem doubleMean_pos_iff {window : List Int64} (h : FitsLong window) :
    0 < doubleMean window ↔ 0 < mean window := by
  rw [doubleMean_eq h, toDouble_pos_iff, mean]
  rcases Nat.eq_zero_or_pos window.length with hzero | hpos
  · rw [hzero, Nat.cast_zero, div_zero, div_zero]
  · have hcount : (0 : ℚ) < window.length := by exact_mod_cast hpos
    rw [div_pos_iff_of_pos_right hcount, div_pos_iff_of_pos_right hcount, toDouble_pos_iff]

/-- Against the same average, a larger value has no smaller ratio. -/
theorem ratioOf_mono {average : ℚ} (haverage : 0 ≤ average) {current current' : Int64}
    (h : current.toInt ≤ current'.toInt) : ratioOf current average ≤ ratioOf current' average := by
  unfold ratioOf
  apply toDouble_mono
  exact div_le_div_of_nonneg_right (toDouble_mono (by exact_mod_cast h)) haverage

/-- Against a smaller average, the same value has no smaller ratio. -/
theorem ratioOf_anti {current : Int64} (hcurrent : 0 ≤ current.toInt) {average average' : ℚ}
    (hpos : 0 < average) (h : average ≤ average') :
    ratioOf current average' ≤ ratioOf current average := by
  unfold ratioOf
  apply toDouble_mono
  exact div_le_div_of_nonneg_left (toDouble_nonneg (by exact_mod_cast hcurrent)) hpos h

/-! ## §2. Errors. -/

/-- They are off by at most one part in `2^53`. -/
theorem close_toDouble (x : ℚ) : Close (1 / 2 ^ 53) (toDouble x) x := close_roundTo 52 x

/-- Two roundings, one of the sum and one of the quotient. -/
theorem close_doubleMean {window : List Int64} (h : FitsLong window) :
    Close (3 / 2 ^ 53) (doubleMean window) (mean window) := by
  have hquotient := Close.div (e := 0) (by norm_num)
    (close_toDouble ((window.map Int64.toInt).sum : Int)) (close_refl (window.length : ℚ))
  have hmean := (close_toDouble (toDouble ((window.map Int64.toInt).sum : Int)
    / window.length)).comp (by norm_num) hquotient
  rw [doubleMean_eq h]
  exact hmean.mono (by norm_num)

/-- Two more, one of the value and one of the ratio. -/
theorem close_ratioOf {window : List Int64} (h : FitsLong window) (current : Int64) :
    Close (6 / 2 ^ 53) (ratioOf current (doubleMean window)) (current.toInt / mean window) := by
  have hquotient := Close.div (by norm_num) (close_toDouble current.toInt) (close_doubleMean h)
  have hratio := (close_toDouble (toDouble current.toInt / doubleMean window)).comp (by norm_num)
    hquotient
  exact hratio.mono (by norm_num)

/-! ## §3. Exponents. -/

/-- The exact results that the operations of `check` round, for a window of `n` samples. -/
def operations (sum current : Int64) (n : Nat) : List ℚ :=
  let average := toDouble (toDouble sum.toInt / n)
  let ratio := ratioOf current average
  [sum.toInt, toDouble sum.toInt / n, current.toInt, toDouble current.toInt / average,
    ratio - 1, toDouble (ratio - 1) * 100]

/-- A `long` is zero or of a magnitude from `1` to `2^63`. -/
theorem inBinades_toInt (x : Int64) : InBinades 0 63 (x.toInt : ℚ) := by
  have hlow := Int64.le_toInt x
  have hhigh := Int64.toInt_lt x
  exact inBinades_intCast (p := 63) (abs_le.mpr ⟨by omega, by omega⟩)

/-- **The count is a `double` as it is, and every result is zero or of a magnitude from `2^-63` to
`2^102`**: no operation overflows, and none loses bits at the other end. -/
theorem operations_in_range (sum current : Int64) {n : Nat} (hn : n < 2 ^ 31) :
    toDouble n = n ∧ ∀ x ∈ operations sum current n, InBinades (-63) 102 x := by
  have hexact : toDouble n = n := by
    exact_mod_cast roundTo_intCast (n := n) (p := 52) (by rw [Nat.abs_cast]; omega)
  have hsum := inBinades_toInt sum
  have hcurrent := inBinades_toInt current
  have hcount : InBinades 0 31 (n : ℚ) := by
    exact_mod_cast inBinades_intCast (n := n) (p := 31) (by rw [Nat.abs_cast]; omega)
  have hhundred : InBinades 0 7 (100 : ℚ) := by
    exact_mod_cast inBinades_intCast (n := 100) (p := 7) (by decide)
  -- each operation from the one before
  have hquotient := (hsum.roundTo (p := 52)).div hcount
  have hratio := (hcurrent.roundTo (p := 52)).div (hquotient.roundTo (p := 52))
  have hexcess := hratio.roundTo_sub_one (p := 52) (by norm_num)
  have hpercent := (hexcess.roundTo (p := 52)).mul hhundred
  unfold operations ratioOf toDouble
  simp only [List.forall_mem_cons, List.not_mem_nil, false_imp_iff, implies_true, and_true]
  exact ⟨hexact, hsum.mono (by norm_num) (by norm_num), hquotient.mono (by norm_num) (by norm_num),
    hcurrent.mono (by norm_num) (by norm_num), hratio.mono (by norm_num) (by norm_num),
    hexcess.mono (by norm_num) (by norm_num), hpercent.mono (by norm_num) (by norm_num)⟩

end KafKatch.Notification
