/-
  KafKatch.Lib.Decimal — exact decimal fractions and their JSON tokens.

  A rational with finitely many decimal places has the token that writes them all.  The places
  are found by trying: their number is at most the binary logarithm of the denominator
  (`dvd_pow_log2`).  The token has the value it was made from (`value_decimalToken`), and the
  value of every token is such a rational (`isDecimal_value`).
-/
import KafKatch.Lib.Json
import Mathlib.Data.Rat.Lemmas
import Mathlib.Algebra.Order.Ring.Abs
import Mathlib.Algebra.Order.Field.Rat
import Mathlib.Data.Nat.Log
import Mathlib.Tactic.Positivity
import Mathlib.Tactic.Ring

namespace KafKatch.Lib

/-! ## §1. Finitely many places. -/

/-- `q` has finitely many decimal places. -/
def IsDecimal (q : ℚ) : Prop := ∃ (k : Nat) (i : Int), q * 10 ^ k = i

/-- Integers are decimals. -/
theorem isDecimal_intCast (i : Int) : IsDecimal i := ⟨0, i, by simp⟩

/-- Sums of decimals are decimals. -/
theorem IsDecimal.add {p q : ℚ} (hp : IsDecimal p) (hq : IsDecimal q) : IsDecimal (p + q) := by
  obtain ⟨k, i, hi⟩ := hp
  obtain ⟨l, j, hj⟩ := hq
  refine ⟨k + l, i * 10 ^ l + j * 10 ^ k, ?_⟩
  push_cast
  rw [← hi, ← hj, pow_add]
  ring

/-- So are products. -/
theorem IsDecimal.mul {p q : ℚ} (hp : IsDecimal p) (hq : IsDecimal q) : IsDecimal (p * q) := by
  obtain ⟨k, i, hi⟩ := hp
  obtain ⟨l, j, hj⟩ := hq
  refine ⟨k + l, i * j, ?_⟩
  push_cast
  rw [← hi, ← hj, pow_add]
  ring

theorem isDecimal_inv_ten : IsDecimal ((10 : ℚ)⁻¹) := ⟨1, 1, by norm_num⟩

/-- Powers of ten are decimals, negative ones too. -/
theorem isDecimal_zpow (e : Int) : IsDecimal ((10 : ℚ) ^ e) := by
  cases e with
  | ofNat n => exact ⟨0, 10 ^ n, by simp⟩
  | negSucc n =>
      refine ⟨n + 1, 1, ?_⟩
      rw [zpow_negSucc]
      simp

/-- What stands behind the point is one. -/
theorem isDecimal_fracValue (ds : List (Fin 10)) : IsDecimal (JsonNumber.fracValue ds) := by
  induction ds with
  | nil => exact isDecimal_intCast 0
  | cons d ds ih =>
      show IsDecimal (((d : Nat) + JsonNumber.fracValue ds) / 10)
      rw [div_eq_mul_inv]
      exact ((isDecimal_intCast ((d : Nat) : Int)).add ih).mul isDecimal_inv_ten

/-- **The value of a token has finitely many places.** -/
theorem isDecimal_value (n : JsonNumber) : IsDecimal n.value := by
  have hmantissa : IsDecimal n.mantissa :=
    (isDecimal_intCast (n.int : Int)).add (isDecimal_fracValue n.frac)
  have hneg : IsDecimal (-n.mantissa) := by
    rw [← neg_one_mul]
    exact (isDecimal_intCast (-1)).mul hmantissa
  unfold JsonNumber.value
  cases n.neg with
  | true => exact hneg.mul (isDecimal_zpow _)
  | false => exact hmantissa.mul (isDecimal_zpow _)

/-! ## §2. How many places. -/

/-- Dividing out common factors with `b` takes at most `log2 d` rounds. -/
theorem dvd_pow_log2 {b k : Nat} : ∀ {d : Nat}, 0 < d → d ∣ b ^ k → d ∣ b ^ d.log2 := by
  intro d
  induction d using Nat.strong_induction_on with
  | _ d ih =>
      intro hpos hdvd
      by_cases hone : d.gcd b = 1
      · -- nothing in common with `b`, so nothing is left
        have hcoprime : d.Coprime (b ^ k) := Nat.Coprime.pow_right k hone
        rw [Nat.Coprime.eq_one_of_dvd hcoprime hdvd]
        exact one_dvd _
      · have hg : 0 < d.gcd b := Nat.gcd_pos_of_pos_left b hpos
        have hmul : d / d.gcd b * d.gcd b = d := Nat.div_mul_cancel (Nat.gcd_dvd_left d b)
        have hrest : 0 < d / d.gcd b := Nat.div_gcd_pos_of_pos_left b hpos
        have hhalf : 2 * (d / d.gcd b) ≤ d := by
          calc 2 * (d / d.gcd b) ≤ d.gcd b * (d / d.gcd b) :=
                Nat.mul_le_mul_right _ (by omega)
            _ = d := by rw [Nat.mul_comm]; exact hmul
        have hlog : (d / d.gcd b).log2 + 1 ≤ d.log2 := by
          rw [← Nat.log2_two_mul (by omega), Nat.log2_eq_log_two, Nat.log2_eq_log_two]
          exact Nat.log_mono_right hhalf
        have hrec := ih (d / d.gcd b) (by omega) hrest
          ((Nat.div_dvd_of_dvd (Nat.gcd_dvd_left d b)).trans hdvd)
        calc d = d / d.gcd b * d.gcd b := hmul.symm
          _ ∣ b ^ (d / d.gcd b).log2 * b := Nat.mul_dvd_mul hrec (Nat.gcd_dvd_right d b)
          _ = b ^ ((d / d.gcd b).log2 + 1) := (Nat.pow_succ ..).symm
          _ ∣ b ^ d.log2 := Nat.pow_dvd_pow b hlog

/-- The number of places to write, at least one. -/
def places (q : ℚ) : Nat :=
  ((List.range (q.den.log2 + 1)).find? (fun k => decide (q.den ∣ 10 ^ (k + 1)))).getD 0 + 1

/-- The denominator of a decimal divides a power of ten. -/
theorem den_dvd_of_isDecimal {q : ℚ} (h : IsDecimal q) : ∃ k, q.den ∣ 10 ^ k := by
  obtain ⟨k, i, hi⟩ := h
  refine ⟨k, ?_⟩
  have hq : q = ((i : Int) : ℚ) / ((10 ^ k : Int) : ℚ) := by
    rw [eq_div_iff (by positivity)]
    exact_mod_cast hi
  have hdvd := Rat.den_dvd i (10 ^ k)
  rw [Rat.divInt_eq_div, ← hq] at hdvd
  exact_mod_cast hdvd

/-- It divides the one with as many zeros as there are places. -/
theorem den_dvd_places {q : ℚ} (h : IsDecimal q) : q.den ∣ 10 ^ places q := by
  obtain ⟨k, hk⟩ := den_dvd_of_isDecimal h
  have hlog : q.den ∣ 10 ^ (q.den.log2 + 1) :=
    (dvd_pow_log2 q.den_pos hk).trans (Nat.pow_dvd_pow 10 (Nat.le_succ _))
  have hsome : ((List.range (q.den.log2 + 1)).find?
      (fun k => decide (q.den ∣ 10 ^ (k + 1)))).isSome := by
    rw [List.find?_isSome]
    exact ⟨q.den.log2, List.mem_range.mpr (Nat.lt_succ_self _), decide_eq_true hlog⟩
  obtain ⟨l, hl⟩ := Option.isSome_iff_exists.mp hsome
  have hfound : q.den ∣ 10 ^ (l + 1) := by simpa using List.find?_some hl
  unfold places
  rw [hl]
  exact hfound

/-! ## §3. The token. -/

/-- The last `k` decimal digits of `m`, most significant first. -/
def fracDigits : Nat → Nat → List (Fin 10)
  | 0, _ => []
  | k + 1, m => lastDigit (m / 10 ^ k) :: fracDigits k m

/-- The digits behind the point, shifted in front of it, are the number written. -/
theorem fracValue_fracDigits (k m : Nat) :
    JsonNumber.fracValue (fracDigits k m) * 10 ^ k = (m % 10 ^ k : Nat) := by
  induction k with
  | zero => simp [fracDigits, JsonNumber.fracValue, Nat.mod_one]
  | succ k ih =>
      have hsplit : m % 10 ^ (k + 1) = m % 10 ^ k + 10 ^ k * (m / 10 ^ k % 10) := by
        rw [Nat.pow_succ, Nat.mod_mul]
      show ((m / 10 ^ k % 10 : Nat) + JsonNumber.fracValue (fracDigits k m)) / 10 * 10 ^ (k + 1)
        = _
      calc ((m / 10 ^ k % 10 : Nat) + JsonNumber.fracValue (fracDigits k m)) / 10 * 10 ^ (k + 1)
          = (10 ^ k : ℚ) * (m / 10 ^ k % 10 : Nat)
              + JsonNumber.fracValue (fracDigits k m) * 10 ^ k := by
            rw [pow_succ]
            ring
        _ = (m % 10 ^ (k + 1) : Nat) := by
            rw [ih, hsplit]
            push_cast
            ring

/-- The token that writes out all places of `q`. -/
def decimalToken (q : ℚ) : JsonNumber :=
  let scaled := (q * 10 ^ places q).num.natAbs
  ⟨decide (q < 0), scaled / 10 ^ places q, fracDigits (places q) scaled, none⟩

/-- Scaled by its places, `q` is an integer. -/
theorem scaled_eq {q : ℚ} (h : IsDecimal q) :
    (((q * 10 ^ places q).num.natAbs : Nat) : ℚ) = |q| * 10 ^ places q := by
  obtain ⟨c, hc⟩ := den_dvd_places h
  have hint : q * 10 ^ places q = ((q.num * c : Int) : ℚ) := by
    have hpow : (10 : ℚ) ^ places q = q.den * c := by exact_mod_cast hc
    rw [hpow, ← mul_assoc, Rat.mul_den_eq_num]
    push_cast
    rfl
  have hscale : |q| * 10 ^ places q = |q * 10 ^ places q| := by
    rw [abs_mul, abs_of_nonneg (by positivity : (0 : ℚ) ≤ 10 ^ places q)]
  rw [hscale, hint, Rat.num_intCast, Nat.cast_natAbs, Int.cast_abs]

/-- **The token has the value it was made from.** -/
theorem value_decimalToken {q : ℚ} (h : IsDecimal q) : (decimalToken q).value = q := by
  have hscaled := scaled_eq h
  have hfrac := fracValue_fracDigits (places q) (q * 10 ^ places q).num.natAbs
  have hpos : (0 : ℚ) < 10 ^ places q := by positivity
  -- the magnitude, scaled: quotient and remainder together again
  have hmantissa : (decimalToken q).mantissa = |q| := by
    apply mul_right_cancel₀ hpos.ne'
    show (((q * 10 ^ places q).num.natAbs / 10 ^ places q : Nat)
      + JsonNumber.fracValue (fracDigits (places q) (q * 10 ^ places q).num.natAbs))
        * 10 ^ places q = _
    rw [add_mul, hfrac, ← hscaled]
    exact_mod_cast Nat.div_add_mod' _ _
  have hexp : (10 : ℚ) ^ ((decimalToken q).exp.getD 0) = 1 := zpow_zero 10
  have hneg : (decimalToken q).neg = decide (q < 0) := rfl
  unfold JsonNumber.value
  rw [hmantissa, hexp, mul_one, hneg]
  by_cases hq : q < 0
  · rw [decide_eq_true hq, if_pos rfl, abs_of_neg hq, neg_neg]
  · rw [decide_eq_false hq, abs_of_nonneg (not_lt.mp hq)]
    rfl

end KafKatch.Lib
