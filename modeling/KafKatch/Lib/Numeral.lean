/-
  KafKatch.Lib.Numeral — decimal numerals of integers, and texts joined by a separator.

  A numeral is digits, after a minus sign for a negative number.  It is read off the front of any
  text that goes on with another character than a digit, even with a minus sign
  (`numeral_append_inj`).  Texts without the separator are recovered from their join, so the
  dotted text of an address determines the address (`dotted_inj`).
-/
import Mathlib.Algebra.Group.Nat.Defs
import Mathlib.Data.List.Basic

namespace KafKatch.Lib

/-! ## §1. Texts up to a separator. -/

/-- A text without the separator is read off the front, up to the first one. -/
theorem append_sep_inj {sep : Char} {xs ys rest rest' : List Char} (hx : sep ∉ xs) (hy : sep ∉ ys)
    (h : xs ++ sep :: rest = ys ++ sep :: rest') : xs = ys ∧ rest = rest' := by
  induction xs generalizing ys with
  | nil =>
      cases ys with
      | nil => exact ⟨rfl, (List.cons.inj h).2⟩
      | cons y ys =>
          have hsep : sep = y := (List.cons.inj h).1
          exact absurd hsep (List.ne_of_not_mem_cons hy)
  | cons x xs ih =>
      cases ys with
      | nil =>
          have hsep : sep = x := (List.cons.inj h).1.symm
          exact absurd hsep (List.ne_of_not_mem_cons hx)
      | cons y ys =>
          obtain ⟨hxy, htail⟩ := List.cons.inj h
          obtain ⟨hxs, hrest⟩ := ih (List.not_mem_of_not_mem_cons hx)
            (List.not_mem_of_not_mem_cons hy) htail
          exact ⟨by rw [hxy, hxs], hrest⟩

/-! ## §2. Numerals. -/

/-- A numeral determines its number. -/
theorem toDigits_inj {m n : Nat} (h : Nat.toDigits 10 m = Nat.toDigits 10 n) : m = n := by
  have hval := congrArg (fun ds => Nat.ofDigitChars 10 ds 0) h
  simpa only [Nat.ofDigitChars_toDigits (show 1 < 10 by omega) (show 10 ≤ 10 by omega)] using hval

/-- Digits only. -/
theorem notMem_toDigits {c : Char} (hdigit : c.isDigit = false) (n : Nat) :
    c ∉ Nat.toDigits 10 n := by
  intro hmem
  have := Nat.isDigit_of_mem_toDigits (by omega) (by omega) hmem
  rw [hdigit] at this
  exact absurd this (by decide)

/-- Digits are read off the front of a text. -/
theorem toDigits_append_inj {c : Char} (hdigit : c.isDigit = false) {m n : Nat}
    {xs ys : List Char} (h : Nat.toDigits 10 m ++ c :: xs = Nat.toDigits 10 n ++ c :: ys) :
    m = n ∧ xs = ys := by
  obtain ⟨hdigits, hrest⟩ :=
    append_sep_inj (notMem_toDigits hdigit m) (notMem_toDigits hdigit n) h
  exact ⟨toDigits_inj hdigits, hrest⟩

/-- The characters of `toString i`. -/
def numeral (i : Int) : List Char := (toString i).toList

theorem numeral_eq (i : Int) :
    numeral i = if 0 ≤ i then Nat.toDigits 10 i.toNat
      else '-' :: Nat.toDigits 10 (-i).toNat := by
  unfold numeral
  rw [Int.toString_eq_repr, Int.repr_eq_if]
  by_cases h : 0 ≤ i
  · simp [h]
  · simp [h]

/-- **A numeral is read off the front of a text**: the character behind it may be anything but a
digit. -/
theorem numeral_append_inj {c : Char} (hdigit : c.isDigit = false) {i j : Int}
    {xs ys : List Char} (h : numeral i ++ c :: xs = numeral j ++ c :: ys) : i = j ∧ xs = ys := by
  -- the first character tells the sign, since digits do not start with a minus sign
  have hsign : ∀ (m n : Nat) (xs ys : List Char),
      Nat.toDigits 10 m ++ xs ≠ '-' :: Nat.toDigits 10 n ++ ys := by
    intro m n xs ys heq
    obtain ⟨d, ds, hd⟩ := List.exists_cons_of_ne_nil (Nat.toDigits_ne_nil (n := m) (b := 10))
    have hmem : '-' ∈ Nat.toDigits 10 m := by
      rw [hd] at heq ⊢
      rw [(List.cons.inj heq).1]
      exact List.mem_cons_self
    exact notMem_toDigits (by decide) m hmem
  rw [numeral_eq, numeral_eq] at h
  by_cases hi : 0 ≤ i <;> by_cases hj : 0 ≤ j
  · rw [if_pos hi, if_pos hj] at h
    obtain ⟨hn, hrest⟩ := toDigits_append_inj hdigit h
    exact ⟨by omega, hrest⟩
  · rw [if_pos hi, if_neg hj] at h
    exact absurd h (hsign _ _ _ _)
  · rw [if_neg hi, if_pos hj] at h
    exact absurd h.symm (hsign _ _ _ _)
  · rw [if_neg hi, if_neg hj] at h
    obtain ⟨hn, hrest⟩ := toDigits_append_inj hdigit (List.cons.inj h).2
    exact ⟨by omega, hrest⟩

/-! ## §3. Texts joined by a separator. -/

/-- Texts without the separator are recovered from their join. -/
theorem intercalate_inj {sep : Char} {xs ys : List (List Char)} (hx : ∀ l ∈ xs, sep ∉ l)
    (hy : ∀ l ∈ ys, sep ∉ l) (hxne : xs ≠ []) (hyne : ys ≠ [])
    (h : [sep].intercalate xs = [sep].intercalate ys) : xs = ys := by
  rw [← List.splitOn_intercalate sep hx hxne, h, List.splitOn_intercalate sep hy hyne]

/-- The dotted text of an address, given by its number. -/
def dotted (addr : Nat) : List Char :=
  ['.'].intercalate ((List.range 4).map (fun i => Nat.toDigits 10 (addr / 256 ^ i % 256)))

/-- **Different addresses have different texts.** -/
theorem dotted_inj {a b : Nat} (ha : a < 2 ^ 32) (hb : b < 2 ^ 32) (h : dotted a = dotted b) :
    a = b := by
  have hdot : ∀ addr, ∀ digits ∈ (List.range 4).map
      (fun i => Nat.toDigits 10 (addr / 256 ^ i % 256)), '.' ∉ digits := by
    intro addr digits hdigits
    obtain ⟨i, -, rfl⟩ := List.mem_map.mp hdigits
    exact notMem_toDigits (by decide) _
  have hoctets := List.map_inj_left.mp
    (intercalate_inj (hdot a) (hdot b) (by simp) (by simp) h)
  have hoctet : ∀ i < 4, a / 256 ^ i % 256 = b / 256 ^ i % 256 := by
    intro i hi
    exact toDigits_inj (hoctets i (List.mem_range.mpr hi))
  have h0 := hoctet 0 (by omega)
  have h1 := hoctet 1 (by omega)
  have h2 := hoctet 2 (by omega)
  have h3 := hoctet 3 (by omega)
  omega

end KafKatch.Lib
