/-
  KafKatch.Lib.Rounding — rounding to a leading bit and `p` more, ties to even.

  A number is scaled so that `p` bits follow its leading one, rounded to an integer, and scaled
  back.  This is what binary floating-point arithmetic does to the exact result of an operation, as
  long as the exponent stays in the range of its format.

    • `roundTo_mono`: rounding keeps the order,
    • `roundTo_zpow`, `roundTo_intCast`: powers of two and small integers stay as they are,
    • `roundTo_near`: the error is at most one part in `2 ^ (p + 1)`.

  `Close` follows such errors from step to step and through quotients, `InBinades` the magnitudes,
  so that a computation can be seen to stay in the range of its format.
-/
import Mathlib.Algebra.Order.Field.Power
import Mathlib.Algebra.Order.Field.Rat
import Mathlib.Data.Int.Log
import Mathlib.Data.Rat.Floor
import Mathlib.Tactic.FieldSimp
import Mathlib.Tactic.Linarith
import Mathlib.Tactic.Positivity
import Mathlib.Tactic.Ring

namespace KafKatch.Lib

/-! ## §1. The nearest integer. -/

/-- The nearest integer, ties to even. -/
def roundEven (q : ℚ) : Int :=
  -- down, up, and on a tie to the even neighbour
  if q - ⌊q⌋ < 1 / 2 then ⌊q⌋
  else if 1 / 2 < q - ⌊q⌋ then ⌊q⌋ + 1
  else if ⌊q⌋ % 2 = 0 then ⌊q⌋
  else ⌊q⌋ + 1

/-- An integer is its own nearest. -/
theorem roundEven_intCast (n : Int) : roundEven n = n := by
  unfold roundEven
  rw [Int.floor_intCast, sub_self, if_pos (by norm_num)]

theorem roundEven_zero : roundEven 0 = 0 := roundEven_intCast 0

/-- One of the two neighbours. -/
theorem roundEven_cases (q : ℚ) : roundEven q = ⌊q⌋ ∨ roundEven q = ⌊q⌋ + 1 := by
  unfold roundEven
  split_ifs
  · exact Or.inl rfl
  · exact Or.inr rfl
  · exact Or.inl rfl
  · exact Or.inr rfl

/-- It is at most a half away. -/
theorem roundEven_near (q : ℚ) : |(roundEven q : ℚ) - q| ≤ 1 / 2 := by
  have hfloor := Int.floor_le q
  have hlt := Int.lt_floor_add_one q
  unfold roundEven
  split_ifs <;> rw [abs_le] <;> constructor <;> push_cast <;> linarith

/-- **Rounding keeps the order.** -/
theorem roundEven_mono {x y : ℚ} (h : x ≤ y) : roundEven x ≤ roundEven y := by
  rcases lt_or_eq_of_le (Int.floor_le_floor h) with hlt | heq
  · -- an integer lies between them
    have hx := roundEven_cases x
    have hy := roundEven_cases y
    omega
  · unfold roundEven
    rw [heq]
    split_ifs <;> first | omega | (exfalso; linarith)

/-- Rounding does not go below zero from above. -/
theorem roundEven_nonneg {q : ℚ} (h : 0 ≤ q) : 0 ≤ roundEven q := by
  have hround := roundEven_mono h
  rwa [roundEven_zero] at hround

/-- Ties to even treat both signs alike. -/
theorem roundEven_neg (q : ℚ) : roundEven (-q) = -roundEven q := by
  have hfloor := Int.floor_le q
  have hlt := Int.lt_floor_add_one q
  by_cases hint : q = ⌊q⌋
  · rw [hint, roundEven_intCast]
    exact_mod_cast roundEven_intCast (-⌊q⌋)
  · have hpos : (⌊q⌋ : ℚ) < q := lt_of_le_of_ne hfloor (Ne.symm hint)
    have hneg : ⌊-q⌋ = -⌊q⌋ - 1 := by
      rw [Int.floor_eq_iff]
      push_cast
      constructor <;> linarith
    unfold roundEven
    rw [hneg]
    push_cast
    split_ifs <;> first | omega | (exfalso; linarith)

/-! ## §2. Significands. -/

/-- The weight of the last bit kept. -/
def ulp (p : Nat) (x : ℚ) : ℚ := 2 ^ (Int.log 2 |x| - (p : Int))

/-- `x`, rounded to a leading bit and `p` more. -/
def roundTo (p : Nat) (x : ℚ) : ℚ := roundEven (x / ulp p x) * ulp p x

section RoundTo

variable {p : Nat} {x y : ℚ}

/-- The unit is positive. -/
theorem ulp_pos (p : Nat) (x : ℚ) : 0 < ulp p x := by
  unfold ulp
  positivity

/-- The unit does not depend on the sign. -/
theorem ulp_neg (p : Nat) (x : ℚ) : ulp p (-x) = ulp p x := by
  unfold ulp
  rw [abs_neg]

/-- Zero stays zero. -/
@[simp] theorem roundTo_zero (p : Nat) : roundTo p 0 = 0 := by
  unfold roundTo
  rw [zero_div, roundEven_zero, Int.cast_zero, zero_mul]

/-- Rounding treats both signs alike. -/
theorem roundTo_neg (p : Nat) (x : ℚ) : roundTo p (-x) = -roundTo p x := by
  unfold roundTo
  rw [ulp_neg, neg_div, roundEven_neg]
  push_cast
  ring

/-- The leading bit weighs at most the number. -/
theorem zpow_log_le (hx : 0 < x) : (2 : ℚ) ^ Int.log 2 |x| ≤ x := by
  rw [abs_of_pos hx]
  exact_mod_cast Int.zpow_log_le_self (b := 2) (by decide) hx

/-- The number is below the next power of two. -/
theorem lt_zpow_log_succ (hx : 0 < x) : x < (2 : ℚ) ^ (Int.log 2 |x| + 1) := by
  rw [abs_of_pos hx]
  exact_mod_cast Int.lt_zpow_succ_log_self (b := 2) (by decide) x

/-- A power of two in units of the last place. -/
theorem zpow_div_ulp (p : Nat) (x : ℚ) (k : Int) :
    (2 : ℚ) ^ k / ulp p x = 2 ^ (k - Int.log 2 |x| + p) := by
  unfold ulp
  rw [← zpow_sub₀ (by norm_num)]
  congr 1
  ring

/-- From a power of two that is not below the last bit kept, rounding does not go down. -/
theorem zpow_le_roundTo {k : Int} (hk : Int.log 2 |x| - p ≤ k) (h : (2 : ℚ) ^ k ≤ x) :
    (2 : ℚ) ^ k ≤ roundTo p x := by
  have hulp := ulp_pos p x
  obtain ⟨n, hn⟩ := Int.eq_ofNat_of_zero_le (a := k - Int.log 2 |x| + p) (by omega)
  have hscaled : (2 : ℚ) ^ k / ulp p x = (((2 : Int) ^ n : Int) : ℚ) := by
    rw [zpow_div_ulp, hn]
    push_cast
    rfl
  have hround := roundEven_mono ((div_le_div_iff_of_pos_right hulp).mpr h)
  rw [hscaled, roundEven_intCast] at hround
  calc (2 : ℚ) ^ k = (2 : ℚ) ^ k / ulp p x * ulp p x := (div_mul_cancel₀ _ hulp.ne').symm
    _ = (((2 : Int) ^ n : Int) : ℚ) * ulp p x := by rw [hscaled]
    _ ≤ roundTo p x := mul_le_mul_of_nonneg_right (by exact_mod_cast hround) hulp.le

/-- Up to a power of two that is not below the last bit kept, rounding does not go up. -/
theorem roundTo_le_zpow {k : Int} (hk : Int.log 2 |x| - p ≤ k) (h : x ≤ (2 : ℚ) ^ k) :
    roundTo p x ≤ (2 : ℚ) ^ k := by
  have hulp := ulp_pos p x
  obtain ⟨n, hn⟩ := Int.eq_ofNat_of_zero_le (a := k - Int.log 2 |x| + p) (by omega)
  have hscaled : (2 : ℚ) ^ k / ulp p x = (((2 : Int) ^ n : Int) : ℚ) := by
    rw [zpow_div_ulp, hn]
    push_cast
    rfl
  have hround := roundEven_mono ((div_le_div_iff_of_pos_right hulp).mpr h)
  rw [hscaled, roundEven_intCast] at hround
  calc roundTo p x ≤ (((2 : Int) ^ n : Int) : ℚ) * ulp p x :=
        mul_le_mul_of_nonneg_right (by exact_mod_cast hround) hulp.le
    _ = (2 : ℚ) ^ k / ulp p x * ulp p x := by rw [hscaled]
    _ = (2 : ℚ) ^ k := div_mul_cancel₀ _ hulp.ne'

/-- What is positive stays positive. -/
theorem roundTo_pos (hx : 0 < x) : 0 < roundTo p x := by
  have hlead : (2 : ℚ) ^ Int.log 2 |x| ≤ roundTo p x :=
    zpow_le_roundTo (by omega) (zpow_log_le hx)
  exact lt_of_lt_of_le (by positivity) hlead

/-- What is not negative stays so. -/
theorem roundTo_nonneg (hx : 0 ≤ x) : 0 ≤ roundTo p x := by
  rcases hx.eq_or_lt with rfl | hpos
  · rw [roundTo_zero]
  · exact (roundTo_pos hpos).le

/-- What is not positive stays so. -/
theorem roundTo_nonpos (hx : x ≤ 0) : roundTo p x ≤ 0 := by
  have hneg : 0 ≤ roundTo p (-x) := roundTo_nonneg (neg_nonneg.mpr hx)
  rw [roundTo_neg] at hneg
  exact neg_nonneg.mp hneg

/-- The magnitude is rounded as the number is. -/
theorem abs_roundTo (p : Nat) (x : ℚ) : |roundTo p x| = roundTo p |x| := by
  rcases le_or_gt 0 x with hx | hx
  · rw [abs_of_nonneg hx, abs_of_nonneg (roundTo_nonneg hx)]
  · rw [abs_of_neg hx, abs_of_nonpos (roundTo_nonpos hx.le), roundTo_neg]

/-- Rounding keeps the sign. -/
theorem roundTo_pos_iff : 0 < roundTo p x ↔ 0 < x := by
  constructor
  · intro h
    by_contra hx
    exact absurd (roundTo_nonpos (not_lt.mp hx)) (not_le.mpr h)
  · exact roundTo_pos

/-- Rounding keeps the order of positive numbers. -/
theorem roundTo_mono_of_pos (hx : 0 < x) (h : x ≤ y) : roundTo p x ≤ roundTo p y := by
  have hy : 0 < y := lt_of_lt_of_le hx h
  have hlog : Int.log 2 |x| ≤ Int.log 2 |y| := by
    rw [abs_of_pos hx, abs_of_pos hy]
    exact Int.log_mono_right hx h
  rcases hlog.eq_or_lt with heq | hlt
  · -- the same unit
    have hulp : ulp p y = ulp p x := by
      unfold ulp
      rw [heq]
    have hround := roundEven_mono ((div_le_div_iff_of_pos_right (ulp_pos p x)).mpr h)
    unfold roundTo
    rw [hulp]
    exact mul_le_mul_of_nonneg_right (by exact_mod_cast hround) (ulp_pos p x).le
  · -- a power of two lies between them
    calc roundTo p x
        ≤ 2 ^ (Int.log 2 |x| + 1) := roundTo_le_zpow (by omega) (lt_zpow_log_succ hx).le
      _ ≤ 2 ^ Int.log 2 |y| := zpow_le_zpow_right₀ (by norm_num) (by omega)
      _ ≤ roundTo p y := zpow_le_roundTo (by omega) (zpow_log_le hy)

/-- **Rounding keeps the order.** -/
theorem roundTo_mono (p : Nat) (h : x ≤ y) : roundTo p x ≤ roundTo p y := by
  rcases lt_or_ge 0 x with hx | hx
  · exact roundTo_mono_of_pos hx h
  · rcases lt_or_ge y 0 with hy | hy
    · have hneg : roundTo p (-y) ≤ roundTo p (-x) :=
        roundTo_mono_of_pos (neg_pos.mpr hy) (neg_le_neg h)
      rw [roundTo_neg, roundTo_neg] at hneg
      exact neg_le_neg_iff.mp hneg
    · exact (roundTo_nonpos hx).trans (roundTo_nonneg hy)

/-- **A number of at most `p + 1` bits stays as it is.** -/
theorem roundTo_of_bits {m k : Int} (hm : |m| < 2 ^ (p + 1)) :
    roundTo p (m * 2 ^ k) = m * 2 ^ k := by
  rcases eq_or_ne m 0 with rfl | hne
  · rw [Int.cast_zero, zero_mul, roundTo_zero]
  · set x : ℚ := m * 2 ^ k with hx
    have habs : |x| = (|m| : Int) * 2 ^ k := by
      rw [hx, abs_mul, abs_of_pos (show (0 : ℚ) < 2 ^ k by positivity)]
      push_cast
      rfl
    have hpos : 0 < |x| := by
      have : (0 : ℚ) < (|m| : Int) := by exact_mod_cast abs_pos.mpr hne
      rw [habs]
      positivity
    -- the leading bit is at most `p` places above the last one
    have hlog : Int.log 2 |x| < k + p + 1 := by
      rw [← Int.lt_zpow_iff_log_lt (by decide) hpos, habs]
      have hbits : ((|m| : Int) : ℚ) < 2 ^ ((p : Int) + 1) := by exact_mod_cast hm
      calc ((|m| : Int) : ℚ) * 2 ^ k < 2 ^ ((p : Int) + 1) * 2 ^ k :=
            mul_lt_mul_of_pos_right hbits (by positivity)
        _ = 2 ^ (k + p + 1) := by
            rw [← zpow_add₀ (by norm_num)]
            congr 1
            ring
        _ = ((2 : Nat) : ℚ) ^ (k + p + 1) := by norm_num
    obtain ⟨n, hn⟩ := Int.eq_ofNat_of_zero_le (a := k - Int.log 2 |x| + p) (by omega)
    have hscaled : x / ulp p x = ((m * 2 ^ n : Int) : ℚ) := by
      rw [hx, mul_div_assoc, ← hx, zpow_div_ulp, hn]
      push_cast
      rfl
    unfold roundTo
    rw [hscaled, roundEven_intCast, ← hscaled, div_mul_cancel₀ _ (ulp_pos p x).ne']

/-- A power of two stays as it is. -/
theorem roundTo_zpow (p : Nat) (k : Int) : roundTo p (2 ^ k) = 2 ^ k := by
  have hone : |(1 : Int)| < 2 ^ (p + 1) := by
    rw [abs_one]
    exact one_lt_pow₀ (by norm_num) (by omega)
  have h := roundTo_of_bits (k := k) hone
  rwa [Int.cast_one, one_mul] at h

/-- An integer of at most `p + 1` bits stays as it is. -/
theorem roundTo_intCast {n : Int} (h : |n| < 2 ^ (p + 1)) : roundTo p n = n := by
  have hbits := roundTo_of_bits (k := 0) h
  rwa [zpow_zero, mul_one] at hbits

/-- **The error is at most one part in `2 ^ (p + 1)`.** -/
theorem roundTo_near (p : Nat) (x : ℚ) : |roundTo p x - x| ≤ |x| / 2 ^ (p + 1) := by
  rcases eq_or_ne x 0 with rfl | hne
  · simp
  · have hulp := ulp_pos p x
    have hlead : (2 : ℚ) ^ Int.log 2 |x| ≤ |x| := by
      exact_mod_cast Int.zpow_log_le_self (b := 2) (by decide) (abs_pos.mpr hne)
    have hscaled : roundTo p x - x = (roundEven (x / ulp p x) - x / ulp p x) * ulp p x := by
      unfold roundTo
      rw [sub_mul, div_mul_cancel₀ _ hulp.ne']
    have hunit : 1 / 2 * ulp p x = 2 ^ Int.log 2 |x| / 2 ^ (p + 1) := by
      unfold ulp
      rw [zpow_sub₀ (by norm_num), zpow_natCast, pow_succ]
      field_simp
    calc |roundTo p x - x| = |(roundEven (x / ulp p x) : ℚ) - x / ulp p x| * ulp p x := by
          rw [hscaled, abs_mul, abs_of_pos hulp]
      _ ≤ 1 / 2 * ulp p x := mul_le_mul_of_nonneg_right (roundEven_near _) hulp.le
      _ = 2 ^ Int.log 2 |x| / 2 ^ (p + 1) := hunit
      _ ≤ |x| / 2 ^ (p + 1) := (div_le_div_iff_of_pos_right (by positivity)).mpr hlead

/-- From `2 ^ k` on, a rounded number has its last bit at `2 ^ (k - p)` or before. -/
theorem roundTo_grid {k : Int} (h : (2 : ℚ) ^ k ≤ |x|) :
    ∃ m : Int, roundTo p x = m * 2 ^ (k - (p : Int)) := by
  have hpos : 0 < |x| := lt_of_lt_of_le (by positivity) h
  have hlog : k ≤ Int.log 2 |x| := by
    rw [← Int.zpow_le_iff_le_log (by decide) hpos]
    exact_mod_cast h
  obtain ⟨n, hn⟩ := Int.eq_ofNat_of_zero_le (a := Int.log 2 |x| - k) (by omega)
  refine ⟨roundEven (x / ulp p x) * 2 ^ n, ?_⟩
  have hunit : ulp p x = 2 ^ n * 2 ^ (k - (p : Int)) := by
    unfold ulp
    rw [← zpow_natCast, ← zpow_add₀ (by norm_num)]
    congr 1
    omega
  unfold roundTo
  push_cast
  rw [mul_assoc, ← hunit]

end RoundTo

/-! ## §3. Relative errors. -/

/-- `x` is off from `y` by at most the part `e` of it. -/
def Close (e x y : ℚ) : Prop := |x - y| ≤ e * |y|

section Close

variable {d e x y x' y' : ℚ}

/-- A number is not off from itself. -/
theorem close_refl (x : ℚ) : Close 0 x x := by
  unfold Close
  rw [sub_self, abs_zero, zero_mul]

/-- What rounding is off by, as a part. -/
theorem close_roundTo (p : Nat) (x : ℚ) : Close (1 / 2 ^ (p + 1)) (roundTo p x) x := by
  unfold Close
  rw [one_div_mul_eq_div]
  exact roundTo_near p x

/-- A larger error is allowed as well. -/
theorem Close.mono (h : Close d x y) (hde : d ≤ e) : Close e x y :=
  h.trans (mul_le_mul_of_nonneg_right hde (abs_nonneg y))

/-- A number is not much larger than one it is close to. -/
theorem Close.abs_upper (h : Close e x y) : |x| ≤ (1 + e) * |y| := by
  unfold Close at h
  have htri := abs_sub_abs_le_abs_sub x y
  linarith

/-- Nor is it much smaller. -/
theorem Close.abs_lower (h : Close e x y) : (1 - e) * |y| ≤ |x| := by
  unfold Close at h
  have htri := abs_sub_abs_le_abs_sub y x
  rw [abs_sub_comm] at htri
  linarith

/-- Errors add up, and a little more. -/
theorem Close.comp {z : ℚ} (hd : 0 ≤ d) (hxy : Close d x y) (hyz : Close e y z) :
    Close (d + e + d * e) x z := by
  have hy := mul_le_mul_of_nonneg_left hyz.abs_upper hd
  unfold Close at *
  calc |x - z| ≤ |x - y| + |y - z| := abs_sub_le x y z
    _ ≤ d * |y| + e * |z| := add_le_add hxy hyz
    _ ≤ d * ((1 + e) * |z|) + e * |z| := by linarith
    _ = (d + e + d * e) * |z| := by ring

/-- The errors of both sides of a quotient add up. -/
theorem Close.div (he : e < 1) (hx : Close d x x') (hy : Close e y y') :
    Close ((d + e) / (1 - e)) (x / y) (x' / y') := by
  rcases eq_or_ne y' 0 with rfl | hne'
  · -- then `y` is zero as well
    have hzero : y = 0 := by
      unfold Close at hy
      rw [abs_zero, mul_zero, sub_zero] at hy
      exact abs_nonpos_iff.mp hy
    unfold Close
    rw [hzero]
    simp
  · have hypos' : 0 < |y'| := abs_pos.mpr hne'
    have hlow : 0 < (1 - e) * |y'| := mul_pos (by linarith) hypos'
    have hypos : 0 < |y| := lt_of_lt_of_le hlow hy.abs_lower
    have hne : y ≠ 0 := abs_pos.mp hypos
    have hsplit : x / y - x' / y' = ((x - x') * y' - x' * (y - y')) / (y * y') := by
      field_simp
      ring
    have hnum : |(x - x') * y' - x' * (y - y')| ≤ (d + e) * (|x'| * |y'|) := by
      calc |(x - x') * y' - x' * (y - y')| ≤ |(x - x') * y'| + |x' * (y - y')| := abs_sub _ _
        _ = |x - x'| * |y'| + |x'| * |y - y'| := by rw [abs_mul, abs_mul]
        _ ≤ d * |x'| * |y'| + |x'| * (e * |y'|) :=
            add_le_add (mul_le_mul_of_nonneg_right hx hypos'.le)
              (mul_le_mul_of_nonneg_left hy (abs_nonneg x'))
        _ = (d + e) * (|x'| * |y'|) := by ring
    have hnonneg : 0 ≤ (d + e) * (|x'| * |y'|) := (abs_nonneg _).trans hnum
    unfold Close
    rw [hsplit, abs_div, abs_mul, abs_div]
    calc |(x - x') * y' - x' * (y - y')| / (|y| * |y'|)
        ≤ (d + e) * (|x'| * |y'|) / (|y| * |y'|) :=
          (div_le_div_iff_of_pos_right (by positivity)).mpr hnum
      _ ≤ (d + e) * (|x'| * |y'|) / ((1 - e) * |y'| * |y'|) :=
          div_le_div_of_nonneg_left hnonneg (by positivity)
            (mul_le_mul_of_nonneg_right hy.abs_lower hypos'.le)
      _ = (d + e) / (1 - e) * (|x'| / |y'|) := by
          have : (1 - e) ≠ 0 := by linarith
          field_simp

/-- Bounds that are not as close to `y` as `x` is do not separate the two. -/
theorem Close.le_iff {t : ℚ} (h : Close d x y) (hde : d < e) (hfar : e * |y| ≤ |y - t|) :
    t ≤ x ↔ t ≤ y := by
  unfold Close at h
  rcases eq_or_ne y 0 with rfl | hne
  · rw [abs_zero, mul_zero, sub_zero] at h
    rw [abs_nonpos_iff.mp h]
  · have hstrict : |x - y| < |y - t| :=
      lt_of_le_of_lt h (lt_of_lt_of_le (mul_lt_mul_of_pos_right hde (abs_pos.mpr hne)) hfar)
    constructor
    · intro htx
      by_contra hty
      rw [abs_of_neg (sub_neg.mpr (not_le.mp hty))] at hstrict
      have := le_abs_self (x - y)
      linarith
    · intro hty
      rw [abs_of_nonneg (sub_nonneg.mpr hty)] at hstrict
      have := neg_abs_le (x - y)
      linarith

end Close

/-! ## §4. Magnitudes. -/

/-- Zero, or a magnitude from `2 ^ lo` to `2 ^ hi`. -/
def InBinades (lo hi : Int) (x : ℚ) : Prop := x = 0 ∨ (2 : ℚ) ^ lo ≤ |x| ∧ |x| ≤ 2 ^ hi

section InBinades

variable {lo hi lo' hi' : Int} {p : Nat} {x y : ℚ}

/-- A wider range holds the number as well. -/
theorem InBinades.mono (h : InBinades lo hi x) (hlo : lo' ≤ lo) (hhi : hi ≤ hi') :
    InBinades lo' hi' x := by
  rcases h with hzero | ⟨hlow, hhigh⟩
  · exact Or.inl hzero
  · exact Or.inr ⟨(zpow_le_zpow_right₀ (by norm_num) hlo).trans hlow,
      hhigh.trans (zpow_le_zpow_right₀ (by norm_num) hhi)⟩

/-- An integer that is not zero has a magnitude of at least one. -/
theorem inBinades_intCast {n : Int} (h : |n| ≤ 2 ^ p) : InBinades 0 p (n : ℚ) := by
  rcases eq_or_ne n 0 with rfl | hne
  · exact Or.inl Int.cast_zero
  · have hone : 1 ≤ |n| := Int.one_le_abs hne
    refine Or.inr ⟨?_, ?_⟩
    · rw [zpow_zero]
      exact_mod_cast hone
    · rw [zpow_natCast]
      exact_mod_cast h

/-- Rounding stays within powers of two. -/
theorem InBinades.roundTo (h : InBinades lo hi x) : InBinades lo hi (roundTo p x) := by
  rcases h with hzero | ⟨hlow, hhigh⟩
  · rw [hzero]
    exact Or.inl (roundTo_zero p)
  · have hl := roundTo_mono p hlow
    have hh := roundTo_mono p hhigh
    rw [roundTo_zpow, ← abs_roundTo] at hl hh
    exact Or.inr ⟨hl, hh⟩

/-- The exponents of factors add up. -/
theorem InBinades.mul (hx : InBinades lo hi x) (hy : InBinades lo' hi' y) :
    InBinades (lo + lo') (hi + hi') (x * y) := by
  rcases hx with rfl | ⟨hxlow, hxhigh⟩
  · exact Or.inl (zero_mul y)
  · rcases hy with rfl | ⟨hylow, hyhigh⟩
    · exact Or.inl (mul_zero x)
    · refine Or.inr ⟨?_, ?_⟩
      · rw [abs_mul, zpow_add₀ (by norm_num)]
        exact mul_le_mul hxlow hylow (by positivity) (abs_nonneg x)
      · rw [abs_mul, zpow_add₀ (by norm_num)]
        exact mul_le_mul hxhigh hyhigh (abs_nonneg y) (by positivity)

/-- An inverse has the opposite exponents. -/
theorem InBinades.inv (h : InBinades lo hi x) : InBinades (-hi) (-lo) x⁻¹ := by
  rcases h with rfl | ⟨hlow, hhigh⟩
  · exact Or.inl inv_zero
  · have hpos : 0 < |x| := lt_of_lt_of_le (by positivity) hlow
    refine Or.inr ⟨?_, ?_⟩
    · rw [abs_inv, zpow_neg]
      exact inv_anti₀ hpos hhigh
    · rw [abs_inv, zpow_neg]
      exact inv_anti₀ (by positivity) hlow

/-- The exponents of a quotient are differences. -/
theorem InBinades.div (hx : InBinades lo hi x) (hy : InBinades lo' hi' y) :
    InBinades (lo - hi') (hi - lo') (x / y) := by
  rw [div_eq_mul_inv]
  exact hx.mul hy.inv

/-- Near one, the distance to it is a multiple of the last bit. -/
theorem InBinades.roundTo_sub_one (hhi : 0 ≤ hi) (h : InBinades lo hi x) :
    InBinades (-1 - (p : Int)) (hi + 1) (Lib.roundTo p x - 1) := by
  have hone : (1 : ℚ) ≤ 2 ^ hi := one_le_zpow₀ (by norm_num) hhi
  have hup : |Lib.roundTo p x| ≤ 2 ^ hi := by
    rcases h.roundTo (p := p) with hzero | ⟨-, hhigh⟩
    · rw [hzero, abs_zero]
      exact zero_le_one.trans hone
    · exact hhigh
  have hhigh : |Lib.roundTo p x - 1| ≤ 2 ^ (hi + 1) := by
    have htri := abs_sub (Lib.roundTo p x) 1
    rw [abs_one] at htri
    rw [zpow_add_one₀ (by norm_num)]
    linarith
  rcases lt_or_ge |x| ((2 : ℚ) ^ (-1 : Int)) with hsmall | hlarge
  · -- half a unit away at least
    have hhalf := roundTo_mono p hsmall.le
    rw [roundTo_zpow, ← abs_roundTo] at hhalf
    have htri := abs_sub_abs_le_abs_sub 1 (Lib.roundTo p x)
    rw [abs_one, abs_sub_comm] at htri
    have hgap : (2 : ℚ) ^ (-1 - (p : Int)) ≤ 2 ^ (-1 : Int) :=
      zpow_le_zpow_right₀ (by norm_num) (by omega)
    norm_num at hhalf hgap ⊢
    exact Or.inr ⟨by linarith, hhigh⟩
  · obtain ⟨m, hm⟩ := roundTo_grid (p := p) hlarge
    have hunit : (1 : ℚ) = (2 ^ (p + 1) : Int) * 2 ^ (-1 - (p : Int)) := by
      have hexp : ((p + 1 : Nat) : Int) + (-1 - (p : Int)) = 0 := by omega
      rw [Int.cast_pow, Int.cast_ofNat, ← zpow_natCast, ← zpow_add₀ (by norm_num), hexp, zpow_zero]
    have hmultiple : Lib.roundTo p x - 1
        = ((m - 2 ^ (p + 1) : Int) : ℚ) * 2 ^ (-1 - (p : Int)) := by
      rw [hm, Int.cast_sub, sub_mul, ← hunit]
    rcases eq_or_ne (m - 2 ^ (p + 1)) 0 with hzero | hne
    · rw [hzero, Int.cast_zero, zero_mul] at hmultiple
      exact Or.inl hmultiple
    · refine Or.inr ⟨?_, hhigh⟩
      have habs : (1 : ℚ) ≤ |((m - 2 ^ (p + 1) : Int) : ℚ)| := by
        exact_mod_cast Int.one_le_abs hne
      rw [hmultiple, abs_mul, abs_of_pos (show (0 : ℚ) < 2 ^ (-1 - (p : Int)) by positivity)]
      exact le_mul_of_one_le_left (by positivity) habs

end InBinades

end KafKatch.Lib
