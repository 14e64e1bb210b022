/-
  KafKatch.Notification.Percentage
  ────────────────────────────────
  **THE PERCENTAGE IN A WARNING.**

  `check` computes the excess over the mean in doubles, rounds it to a `long` and casts that to an
  `int`.  As long as the sum of the window fits a `long` and the percentage an `int`, the number in
  the text is the nearest one up to the error of the doubles (`percentage_near`).  That error
  decides exact halves, and for samples of ordinary size nothing else.
-/
import KafKatch.Lib.Numeral
import KafKatch.Notification.Severity

namespace KafKatch.Notification

open KafKatch.Core KafKatch.Lib

/-! ## §1. The excess. -/

/-- The excess of the value over the mean in percent. -/
def excess (mean : ℚ) (current : Int64) : ℚ := ((current.toInt : ℚ) / mean - 1) * 100

/-- The excess, rounded with halves up. -/
def percentage (mean : ℚ) (current : Int64) : Int := ⌊excess mean current + 1 / 2⌋

/-- What the doubles may be off by. -/
def tolerance (mean : ℚ) (current : Int64) : ℚ := ((current.toInt : ℚ) / mean + 1) / 2 ^ 43

/-- The excess as `check` computes it. -/
def doubleExcess (ratio : ℚ) : ℚ := toDouble (toDouble (ratio - 1) * 100)

/-- The computed excess does not fall when the ratio grows. -/
theorem doubleExcess_mono {ratio ratio' : ℚ} (h : ratio ≤ ratio') :
    doubleExcess ratio ≤ doubleExcess ratio' := by
  unfold doubleExcess
  apply toDouble_mono
  apply mul_le_mul_of_nonneg_right _ (by norm_num)
  apply toDouble_mono
  linarith

/-- From a ratio of `1` on it is not negative. -/
theorem doubleExcess_nonneg {ratio : ℚ} (h : 1 ≤ ratio) : 0 ≤ doubleExcess ratio := by
  have hone : 0 ≤ toDouble (ratio - 1) := toDouble_nonneg (by linarith)
  exact toDouble_nonneg (by positivity)

/-- **The doubles are off by at most the tolerance**: the ratio by its relative error, and two
roundings after it. -/
theorem doubleExcess_near {window : List Int64} (hfits : FitsLong window)
    (hmean : 0 < mean window) {current : Int64} (hcurrent : 0 ≤ current.toInt) :
    |doubleExcess (ratioOf current (doubleMean window)) - excess (mean window) current|
      ≤ tolerance (mean window) current := by
  have hnonneg : (0 : ℚ) ≤ current.toInt / mean window :=
    div_nonneg (by exact_mod_cast hcurrent) hmean.le
  have hratio := close_ratioOf hfits current
  unfold excess tolerance doubleExcess
  generalize (current.toInt : ℚ) / mean window = r at hnonneg hratio ⊢
  generalize ratioOf current (doubleMean window) = ratio at hratio ⊢
  have hratio' : |ratio - r| ≤ 6 / 2 ^ 53 * r := by
    unfold Close at hratio
    rwa [abs_of_nonneg hnonneg] at hratio
  have hminus : |ratio - 1| ≤ |ratio - r| + (r + 1) := by
    have htri := abs_sub_le ratio r 1
    have hr : |r - 1| ≤ r + 1 := abs_le.mpr ⟨by linarith, by linarith⟩
    linarith
  have hsub : |toDouble (ratio - 1) - (ratio - 1)| ≤ 1 / 2 ^ 53 * |ratio - 1| :=
    close_toDouble (ratio - 1)
  have hfirst := (close_toDouble (ratio - 1)).abs_upper
  have hmul : |toDouble (toDouble (ratio - 1) * 100) - toDouble (ratio - 1) * 100|
      ≤ 1 / 2 ^ 53 * (|toDouble (ratio - 1)| * 100) := by
    have h := close_toDouble (toDouble (ratio - 1) * 100)
    unfold Close at h
    rwa [abs_mul, abs_of_pos (show (0 : ℚ) < 100 by norm_num)] at h
  -- from the result back to the ratio
  calc |toDouble (toDouble (ratio - 1) * 100) - (r - 1) * 100|
      = |(toDouble (toDouble (ratio - 1) * 100) - toDouble (ratio - 1) * 100)
          + ((toDouble (ratio - 1) - (ratio - 1)) * 100 + (ratio - r) * 100)| := by
        congr 1
        ring
    _ ≤ |toDouble (toDouble (ratio - 1) * 100) - toDouble (ratio - 1) * 100|
          + (|toDouble (ratio - 1) - (ratio - 1)| * 100 + |ratio - r| * 100) := by
        have habs : |(100 : ℚ)| = 100 := abs_of_pos (by norm_num)
        refine (abs_add_le _ _).trans (add_le_add le_rfl ((abs_add_le _ _).trans ?_))
        rw [abs_mul, abs_mul, habs]
    _ ≤ (r + 1) / 2 ^ 43 := by
        norm_num at hratio' hsub hfirst hmul ⊢
        linarith

/-! ## §2. The cast. -/

/-- An excess that rounds to an `int` comes out of the cast rounded. -/
theorem percentAcima_toInt {ratio : ℚ} (hlow : -2 ^ 31 ≤ doubleExcess ratio + 1 / 2)
    (hhigh : doubleExcess ratio + 1 / 2 < 2 ^ 31) :
    (percentAcima ratio).toInt = ⌊doubleExcess ratio + 1 / 2⌋ := by
  have hfloor : -2 ^ 31 ≤ ⌊doubleExcess ratio + 1 / 2⌋ := by
    rw [Int.le_floor]
    exact_mod_cast hlow
  have hlt : ⌊doubleExcess ratio + 1 / 2⌋ < 2 ^ 31 := by
    rw [Int.floor_lt]
    exact_mod_cast hhigh
  have hlong : (Int64.ofIntClamp ⌊doubleExcess ratio + 1 / 2⌋).toInt
      = ⌊doubleExcess ratio + 1 / 2⌋ := by
    have hmin : Int64.minValue.toInt = -2 ^ 63 := rfl
    have hmax : Int64.maxValue.toInt = 2 ^ 63 - 1 := rfl
    exact Int64.toInt_ofIntClamp (by omega) (by omega)
  have hcast : percentAcima ratio
      = (Int64.ofIntClamp ⌊doubleExcess ratio + 1 / 2⌋).toInt32 := rfl
  rw [hcast, Int64.toInt_toInt32, hlong, Int.bmod_def]
  split_ifs <;> omega

/-- The excess, whatever the doubles make of it, rounds to an `int`. -/
def ExcessFits (mean : ℚ) (current : Int64) : Prop :=
  excess mean current + tolerance mean current + 1 / 2 < 2 ^ 31

/-- **What is printed is the rounded excess, as the doubles have it.** -/
theorem percentAcima_of_fits {window : List Int64} (hfits : FitsLong window)
    (hmean : 0 < mean window) {current : Int64} (hcurrent : 0 ≤ current.toInt)
    (hint : ExcessFits (mean window) current) :
    (percentAcima (ratioOf current (doubleMean window))).toInt
      = ⌊doubleExcess (ratioOf current (doubleMean window)) + 1 / 2⌋ := by
  have hnear := abs_le.mp (doubleExcess_near hfits hmean hcurrent)
  have hnonneg : (0 : ℚ) ≤ current.toInt / mean window :=
    div_nonneg (by exact_mod_cast hcurrent) hmean.le
  unfold ExcessFits at hint
  unfold excess tolerance at hint hnear
  apply percentAcima_toInt
  · linarith
  · linarith

/-! ## §3. The text. -/

/-- The description of the warning gives the value, and `p` as its percentage over the mean. -/
def Prints (w : Warning) (current : Int64) (label : String) (p : Int) : Prop :=
  ∃ rest : String, w.descricao = "O último agregado registrou " ++ toString current.toInt ++ " "
    ++ label ++ ", " ++ toString p ++ "% acima da média de " ++ rest

/-- A description gives one percentage. -/
theorem prints_iff {w : Warning} {current : Int64} {label : String} {average : ℚ} {size : Nat}
    (h : w.descricao = descricao current label average size) (p : Int) :
    Prints w current label p ↔ (percentAcima (ratioOf current average)).toInt = p := by
  have hsign : "% acima da média de ".toList = '%' :: " acima da média de ".toList := by decide
  unfold Prints
  rw [h]
  constructor
  · intro hprints
    obtain ⟨rest, hrest⟩ := hprints
    -- after the common prefix both texts are a numeral up to the percent sign
    have hlists := congrArg String.toList hrest
    unfold descricao decimal at hlists
    simp only [String.toList_append, List.append_assoc, List.append_cancel_left_eq] at hlists
    rw [hsign, List.cons_append, List.cons_append] at hlists
    have hdigit : ('%' : Char).isDigit = false := by decide
    exact (numeral_append_inj hdigit hlists).1
  · intro hp
    refine ⟨toString (Math_round average).toInt ++ " nas " ++ toString size
      ++ " amostras anteriores", ?_⟩
    unfold descricao decimal
    rw [hp]
    simp only [String.append_assoc]

/-- A warning of a check prints the percentage of its value against the average. -/
theorem prints_of_checkWarnings {cfg : AnomalyDetectorTransformer} {store : KeyValueStore}
    {storeKey : String} {window : List Int64} (h : Remembers cfg store storeKey window)
    {current : Int64} {label : String} {w : Warning}
    (hw : w ∈ checkWarnings cfg store storeKey current label) :
    0 < doubleMean window
      ∧ (∃ severity ∈ severities cfg, severity.2 ≤ ratioOf current (doubleMean window))
      ∧ ∀ p, Prints w current label p
          ↔ (percentAcima (ratioOf current (doubleMean window))).toInt = p := by
  rw [checkWarnings_eq h, Option.mem_toList] at hw
  obtain ⟨hpos, severity, hmem, hreached, rfl⟩ := warningAgainst_some hw
  exact ⟨hpos, ⟨severity, hmem, hreached⟩, prints_iff rfl⟩

/-! ## §4. When the percentage is right. -/

/-- The excess is further from every half than the doubles are from it. -/
def NoTie (mean : ℚ) (current : Int64) : Prop :=
  ∀ n : Int, tolerance mean current < |excess mean current - (n + 1 / 2)|

/-- Away from the halves, close numbers round to the same integer. -/
theorem floor_half_eq {x y t : ℚ} (hnear : |x - y| ≤ t)
    (hfar : ∀ n : Int, t < |y - (n + 1 / 2)|) : ⌊x + 1 / 2⌋ = ⌊y + 1 / 2⌋ := by
  have hxy := abs_le.mp hnear
  have hfloor := Int.floor_le (y + 1 / 2)
  have hlt := Int.lt_floor_add_one (y + 1 / 2)
  -- the halves below and above `y`
  have hbelow := hfar (⌊y + 1 / 2⌋ - 1)
  have habove := hfar ⌊y + 1 / 2⌋
  push_cast at hbelow
  rw [abs_of_nonneg (by linarith)] at hbelow
  rw [abs_of_neg (by linarith)] at habove
  rw [Int.floor_eq_iff]
  constructor <;> linarith

/-- An excess near an integer is far from the halves. -/
theorem noTie_of_near {mean : ℚ} {current : Int64} (n : Int)
    (h : |excess mean current - n| + tolerance mean current < 1 / 2) : NoTie mean current := by
  intro k
  have hodd : (1 : ℚ) ≤ |((2 * (n - k) - 1 : Int) : ℚ)| := by
    exact_mod_cast Int.one_le_abs (by omega)
  have htwice : ((2 * (n - k) - 1 : Int) : ℚ) = 2 * ((n : ℚ) - (k + 1 / 2)) := by
    push_cast
    ring
  rw [htwice, abs_mul, abs_of_pos (show (0 : ℚ) < 2 by norm_num)] at hodd
  have htri := abs_sub_le (n : ℚ) (excess mean current) (k + 1 / 2)
  rw [abs_sub_comm (n : ℚ) (excess mean current)] at htri
  linarith

/-- For samples of ordinary size only an exact half is a tie. -/
theorem noTie_of_small {window : List Int64} (hmean : 0 < mean window) {current : Int64}
    (hsmall : window.length * current.toInt + (window.map Int64.toInt).sum < 2 ^ 42)
    (hhalf : ∀ n : Int, excess (mean window) current ≠ n + 1 / 2) :
    NoTie (mean window) current := by
  intro n
  have hne := hhalf n
  unfold mean at hmean
  have hlength : (0 : ℚ) < window.length := by
    rcases Nat.eq_zero_or_pos window.length with hzero | hpos
    · rw [hzero, Nat.cast_zero, div_zero] at hmean
      exact absurd hmean (lt_irrefl 0)
    · exact_mod_cast hpos
  unfold excess at hne ⊢
  unfold tolerance mean at *
  generalize (window.map Int64.toInt).sum = sum at *
  have hsum : (0 : ℚ) < (sum : ℚ) := (div_pos_iff_of_pos_right hlength).mp hmean
  -- the distance to a half is a multiple of `1 / (2 * sum)`
  have hdistance : ((current.toInt : ℚ) / ((sum : ℚ) / window.length) - 1) * 100 - (n + 1 / 2)
      = ((200 * (window.length * current.toInt) - (201 + 2 * n) * sum : Int) : ℚ) / (2 * sum) := by
    push_cast
    field_simp
    ring
  have hnonzero : 200 * (window.length * current.toInt) - (201 + 2 * n) * sum ≠ 0 := by
    intro hzero
    rw [hzero, Int.cast_zero, zero_div] at hdistance
    exact hne (sub_eq_zero.mp hdistance)
  have hone : (1 : ℚ)
      ≤ |((200 * (window.length * current.toInt) - (201 + 2 * n) * sum : Int) : ℚ)| := by
    exact_mod_cast Int.one_le_abs hnonzero
  have hbound : ((window.length : ℚ) * current.toInt + sum) < 2 ^ 42 := by exact_mod_cast hsmall
  rw [hdistance, abs_div, abs_of_pos (show (0 : ℚ) < 2 * sum by positivity)]
  have htolerance : ((current.toInt : ℚ) / ((sum : ℚ) / window.length) + 1) / 2 ^ 43
      = ((window.length : ℚ) * current.toInt + sum) / (2 ^ 43 * (sum : ℚ)) := by
    field_simp
  have hhalfsum : (2 : ℚ) ^ 42 / (2 ^ 43 * sum) = 1 / (2 * sum) := by
    rw [show (2 : ℚ) ^ 43 * sum = 2 ^ 42 * (2 * sum) by ring]
    field_simp
  calc ((current.toInt : ℚ) / ((sum : ℚ) / window.length) + 1) / 2 ^ 43
      = ((window.length : ℚ) * current.toInt + sum) / (2 ^ 43 * (sum : ℚ)) := htolerance
    _ < 2 ^ 42 / (2 ^ 43 * (sum : ℚ)) := div_lt_div_of_pos_right hbound (by positivity)
    _ = 1 / (2 * (sum : ℚ)) := hhalfsum
    _ ≤ |((200 * (window.length * current.toInt) - (201 + 2 * n) * sum : Int) : ℚ)|
          / (2 * (sum : ℚ)) := div_le_div_of_nonneg_right hone (by positivity)

/-- No threshold is below `1`. -/
def AboveMean (cfg : AnomalyDetectorTransformer) : Prop :=
  ∀ severity ∈ severities cfg, 1 ≤ severity.2

/-- **The percentage in a warning is the excess over the mean, rounded up to the error of the
doubles.**  For a window whose sum fits a `long` and an excess that rounds to an `int`, a warning
prints one number.  It is within the tolerance of the nearest ones; it is the percentage unless the
excess is as close to a half, and for samples of ordinary size unless it is a half.  It is not
negative over thresholds of at least `1`, and does not fall when the value grows. -/
theorem percentage_near {cfg : AnomalyDetectorTransformer} {store : KeyValueStore}
    {storeKey : String} {window : List Int64} (h : Remembers cfg store storeKey window)
    (hfits : FitsLong window) {current : Int64} (hcurrent : 0 ≤ current.toInt)
    (hint : ExcessFits (mean window) current) (label : String) :
    ∀ w ∈ checkWarnings cfg store storeKey current label, ∃ p : Int,
      (∀ q, Prints w current label q ↔ p = q)
        ∧ |(p : ℚ) - excess (mean window) current|
            ≤ 1 / 2 + tolerance (mean window) current
        ∧ (NoTie (mean window) current → p = percentage (mean window) current)
        ∧ (window.length * current.toInt + (window.map Int64.toInt).sum < 2 ^ 42 →
            (∀ n : Int, excess (mean window) current ≠ n + 1 / 2) →
              p = percentage (mean window) current)
        ∧ (AboveMean cfg → 0 ≤ p)
        ∧ ∀ current' : Int64, current.toInt ≤ current'.toInt →
            ExcessFits (mean window) current' →
            ∀ w' ∈ checkWarnings cfg store storeKey current' label, ∀ p',
              Prints w' current' label p' → p ≤ p' := by
  intro w hw
  obtain ⟨hpos, ⟨severity, hmem, hreached⟩, hprints⟩ := prints_of_checkWarnings h hw
  have hmean := (doubleMean_pos_iff hfits).mp hpos
  have hnear := doubleExcess_near hfits hmean hcurrent
  have hexact : NoTie (mean window) current →
      (percentAcima (ratioOf current (doubleMean window))).toInt
        = percentage (mean window) current := by
    intro hfar
    rw [percentAcima_of_fits hfits hmean hcurrent hint]
    exact floor_half_eq hnear hfar
  refine ⟨_, hprints, ?_, hexact, fun hsmall hhalf => hexact (noTie_of_small hmean hsmall hhalf),
    ?_, ?_⟩
  · rw [percentAcima_of_fits hfits hmean hcurrent hint]
    have hfloor := Int.floor_le (doubleExcess (ratioOf current (doubleMean window)) + 1 / 2)
    have hlt := Int.lt_floor_add_one (doubleExcess (ratioOf current (doubleMean window)) + 1 / 2)
    have hbounds := abs_le.mp hnear
    rw [abs_le]
    constructor <;> linarith
  · intro hcfg
    rw [percentAcima_of_fits hfits hmean hcurrent hint, Int.floor_nonneg]
    have hnonneg := doubleExcess_nonneg ((hcfg severity hmem).trans hreached)
    linarith
  · intro current' hle hint' w' hw' p' hp'
    obtain ⟨-, -, hprints'⟩ := prints_of_checkWarnings h hw'
    rw [← (hprints' p').mp hp', percentAcima_of_fits hfits hmean hcurrent hint,
      percentAcima_of_fits hfits hmean (hcurrent.trans hle) hint']
    apply Int.floor_le_floor
    have hmono := doubleExcess_mono (ratioOf_mono hpos.le hle)
    linarith

/-- A window and value out of which a warning comes. -/
theorem exists_warning (cfg : AnomalyDetectorTransformer) (window : List Int64) (current : Int64)
    (hwarns : (warningAgainst cfg window current "bytes recebidos").isSome = true) :
    ∃ w, w ∈ checkWarnings cfg (remembering window) "global" current "bytes recebidos" := by
  obtain ⟨w, hw⟩ := Option.isSome_iff_exists.mp hwarns
  refine ⟨w, ?_⟩
  rw [checkWarnings_eq (remembers_remembering window "global"), hw]
  exact List.mem_singleton.mpr rfl

theorem percentage_near_doubled :
    ∃ w ∈ checkWarnings watcher (remembering [100, 100, 100]) "global" 250 "bytes recebidos",
      Prints w 250 "bytes recebidos" 150 ∧ AboveMean watcher
        ∧ percentage (mean [100, 100, 100]) 250 = 150
        ∧ ∀ w' ∈ checkWarnings watcher (remembering [100, 100, 100]) "global" 270
            "bytes recebidos",
          ∀ p', Prints w' 270 "bytes recebidos" p' → 150 ≤ p' := by
  obtain ⟨w, hmem⟩ := exists_warning watcher [100, 100, 100] 250 (by decide +kernel)
  have hpercentage : percentage (mean [100, 100, 100]) 250 = 150 := by decide +kernel
  obtain ⟨p, hprints, -, hexact, -, -, hmono⟩ :=
    percentage_near (remembers_remembering [100, 100, 100] "global") ⟨by decide, by decide⟩
      (by decide) (by unfold ExcessFits; decide +kernel) "bytes recebidos" w hmem
  have hp : p = 150 := (hexact (noTie_of_near 150 (by decide +kernel))).trans hpercentage
  rw [hp] at hmono
  refine ⟨w, hmem, (hprints 150).mpr hp, ?_, hpercentage, ?_⟩
  · unfold AboveMean
    decide +kernel
  · exact hmono 270 (by decide) (by unfold ExcessFits; decide +kernel)

/-! ## §5. Where it is wrong. -/

/-- Every warning about windows and values that are `among` the ones considered prints the
percentage, and it is not negative. -/
def PrintsRightly (among : List Int64 → Int64 → Prop) : Prop :=
  ∀ (cfg : AnomalyDetectorTransformer), 1 ≤ cfg.ratioRegular →
    ∀ (store : KeyValueStore) (storeKey : String) (window : List Int64),
      Remembers cfg store storeKey window → 3 ≤ window.length → (∀ v ∈ window, 0 ≤ v.toInt) →
      0 < mean window → ∀ (current : Int64), 0 ≤ current.toInt → among window current →
      ∀ (label : String), ∀ w ∈ checkWarnings cfg store storeKey current label,
        Prints w current label (percentage (mean window) current)
          ∧ 0 ≤ percentage (mean window) current

/-- One window and value that print another number, or a negative one, are enough. -/
theorem not_printsRightly {among : List Int64 → Int64 → Prop} (cfg : AnomalyDetectorTransformer)
    (window : List Int64) (current : Int64) (hamong : among window current)
    (hcfg : 1 ≤ cfg.ratioRegular) (hlen : 3 ≤ window.length)
    (hwindow : window.all (fun v => decide (0 ≤ v.toInt)) = true) (hmean : 0 < mean window)
    (hcurrent : 0 ≤ current.toInt)
    (hwarns : (warningAgainst cfg window current "bytes recebidos").isSome = true)
    (hwrong : ¬ ((percentAcima (ratioOf current (doubleMean window))).toInt
        = percentage (mean window) current
      ∧ 0 ≤ percentage (mean window) current)) :
    ¬ PrintsRightly among := by
  intro hclaim
  obtain ⟨w, hmem⟩ := exists_warning cfg window current hwarns
  have hremembers : Remembers cfg (remembering window) "global" window :=
    remembers_remembering window "global"
  have hnonneg : ∀ v ∈ window, 0 ≤ v.toInt :=
    fun v hv => of_decide_eq_true (List.all_eq_true.mp hwindow v hv)
  obtain ⟨hprints, hsign⟩ := hclaim cfg hcfg (remembering window) "global" window
    hremembers hlen hnonneg hmean current hcurrent hamong "bytes recebidos" w hmem
  exact hwrong ⟨((prints_of_checkWarnings hremembers hmem).2.2 _).mp hprints, hsign⟩

/-- **None of the conditions can be left out.**  Over 40 bytes, 51 are 27.5 percent more, and 27 is
printed; over 10 bytes, 300 megabytes are 2999999900 percent more, which the cast makes a negative
number; a sum that wraps makes of 50 percent more one percent less; and where `ratioAlta` is a
half, a warning says of 60 bytes that they are -40 percent above 100. -/
theorem percentage_not_exact :
    ¬ PrintsRightly (fun window current => FitsLong window ∧ ExcessFits (mean window) current)
      ∧ ¬ PrintsRightly (fun window current => FitsLong window ∧ NoTie (mean window) current)
      ∧ ¬ PrintsRightly (fun window current =>
          ExcessFits (mean window) current ∧ NoTie (mean window) current)
      ∧ ¬ PrintsRightly (fun window current =>
          FitsLong window ∧ ExcessFits (mean window) current ∧ NoTie (mean window) current) := by
  refine ⟨?_, ?_, ?_, ?_⟩
  · refine not_printsRightly watcher [40, 40, 40] 51 ⟨⟨?_, ?_⟩, ?_⟩ ?_ ?_ ?_ ?_ ?_ ?_ ?_
    · decide
    · decide
    · unfold ExcessFits
      decide +kernel
    all_goals decide +kernel
  · refine not_printsRightly watcher [10, 10, 10] 300000000
      ⟨⟨?_, ?_⟩, noTie_of_near 2999999900 ?_⟩ ?_ ?_ ?_ ?_ ?_ ?_ ?_
    all_goals decide +kernel
  · refine not_printsRightly watcher [2 ^ 63 - 1, 2 ^ 63 - 1, 3] (2 ^ 63 - 1)
      ⟨?_, noTie_of_near 50 ?_⟩ ?_ ?_ ?_ ?_ ?_ ?_ ?_
    · unfold ExcessFits
      decide +kernel
    all_goals decide +kernel
  · refine not_printsRightly ⟨30, 1, 15 / 10, 1 / 2⟩ [100, 100, 100] 60
      ⟨⟨?_, ?_⟩, ?_, noTie_of_near (-40) ?_⟩ ?_ ?_ ?_ ?_ ?_ ?_ ?_
    · decide
    · decide
    · unfold ExcessFits
      decide +kernel
    all_goals decide +kernel

end KafKatch.Notification
