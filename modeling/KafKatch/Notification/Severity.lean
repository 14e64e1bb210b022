/-
  KafKatch.Notification.Severity
  ──────────────────────────────
  **HOW THE SEVERITY DEPENDS ON THE PAST.**

  `check` compares a value with the window its store remembers, and every state a run reaches
  remembers one (`remembers_storesAfter`).  The severity grows with the ratio of the value to the
  mean, so it grows when the mean falls (`quieter_past`, and `quieter_run` over whole runs), down to
  a mean of zero: against complete silence the guard of the division lets nothing be reported.
  Doubles do not get in the way, since rounding keeps the order.
-/
import KafKatch.Notification.Detection
import Mathlib.Algebra.Order.BigOperators.Group.List

namespace KafKatch.Notification

open KafKatch.Core

/-! ## §1. One check against a window. -/

section Remembers

variable (cfg : AnomalyDetectorTransformer)

/-- The store has the samples `window` under the key, with their sum in step. -/
structure Remembers (store : KeyValueStore) (storeKey : String) (window : List Int64) : Prop where
  values : (windowAt cfg store storeKey).values = window
  sum : Consistent (windowAt cfg store storeKey)
  maxSize : 0 ≤ (windowAt cfg store storeKey).maxSize.toInt

/-- **Every state of a run without faults remembers the last samples of each key.** -/
theorem remembers_storesAfter (hsize : 0 ≤ cfg.windowSize.toInt) (m : Metric)
    (records : List Record) (storeKey : String) :
    Remembers cfg (m.store (storesAfter cfg (steps records))) storeKey
      ((samples m storeKey records).rtake cfg.windowSize.toInt.toNat) := by
  have hwindow := windowAt_storesAfter hsize m records storeKey
  exact
    { values := by rw [hwindow]; rfl
      sum := by rw [hwindow]; rfl
      maxSize := by rw [hwindow]; exact hsize }

/-- The warnings of one check in which nothing throws. -/
def checkWarnings (store : KeyValueStore) (storeKey : String) (current : Int64)
    (label : String) : List Warning :=
  caught ((check cfg noFault storeKey current label).runOn store).1

/-- **A check warns about its value against the window that is remembered.** -/
theorem checkWarnings_eq {cfg : AnomalyDetectorTransformer} {store : KeyValueStore}
    {storeKey : String} {window : List Int64} (h : Remembers cfg store storeKey window)
    (current : Int64) (label : String) :
    checkWarnings cfg store storeKey current label
      = (warningAgainst cfg window current label).toList := by
  have hadd := add_of_consistent h.sum h.maxSize current
  have hrun := check_run cfg noFault store storeKey current label
  rw [hadd] at hrun
  unfold checkWarnings
  rw [hrun, ← h.values]
  exact evaluate_eq cfg h.sum current label

end Remembers

/-- A store with the given samples under every key. -/
def remembering (window : List Int64) : KeyValueStore := fun _ => some ⟨window, 30, sum64 window⟩

/-- Such a store remembers them. -/
theorem remembers_remembering {cfg : AnomalyDetectorTransformer} (window : List Int64)
    (storeKey : String) : Remembers cfg (remembering window) storeKey window where
  values := rfl
  sum := rfl
  maxSize := by
    show 0 ≤ (30 : Int32).toInt
    decide

/-! ## §2. Ranks. -/

/-- `none < regular < media < alta`. -/
def severityRank (severidade : String) : Nat :=
  if severidade = "alta" then 3
  else if severidade = "media" then 2
  else if severidade = "regular" then 1
  else 0

/-- The rank of what a check returns. -/
def rank (warnings : List Warning) : Nat :=
  (warnings.head?.map (fun w => severityRank w.severidade)).getD 0

/-- The rank of a ratio. -/
def ratioRank (cfg : AnomalyDetectorTransformer) (ratio : ℚ) : Nat :=
  if cfg.ratioAlta ≤ ratio then 3
  else if cfg.ratioMedia ≤ ratio then 2
  else if cfg.ratioRegular ≤ ratio then 1
  else 0

/-- The thresholds are positive and in order. -/
structure Ordered (cfg : AnomalyDetectorTransformer) : Prop where
  positive : 0 < cfg.ratioRegular
  media : cfg.ratioRegular ≤ cfg.ratioMedia
  alta : cfg.ratioMedia ≤ cfg.ratioAlta

/-- The rank of a check is that of its ratio, where one is computed. -/
theorem rank_warningAgainst (cfg : AnomalyDetectorTransformer) (window : List Int64)
    (current : Int64) (label : String) :
    rank (warningAgainst cfg window current label).toList
      = if window.length < 3 ∨ doubleMean window ≤ 0 then 0
        else ratioRank cfg (ratioOf current (doubleMean window)) := by
  unfold warningAgainst
  by_cases hguard : window.length < 3 ∨ doubleMean window ≤ 0
  · rw [if_pos hguard, if_pos hguard]
    rfl
  · rw [if_neg hguard, if_neg hguard, ← first_severity]
    unfold ratioRank
    split_ifs <;> rfl

/-- A larger ratio does not rank lower. -/
theorem ratioRank_mono {cfg : AnomalyDetectorTransformer} (hcfg : Ordered cfg) {r s : ℚ}
    (h : r ≤ s) : ratioRank cfg r ≤ ratioRank cfg s := by
  have := hcfg.media
  have := hcfg.alta
  unfold ratioRank
  by_cases halta : cfg.ratioAlta ≤ s
  · rw [if_pos halta]
    split_ifs <;> omega
  · have hr : ¬ cfg.ratioAlta ≤ r := fun hle => halta (hle.trans h)
    rw [if_neg halta, if_neg hr]
    by_cases hmedia : cfg.ratioMedia ≤ s
    · rw [if_pos hmedia]
      split_ifs <;> omega
    · have hr : ¬ cfg.ratioMedia ≤ r := fun hle => hmedia (hle.trans h)
      rw [if_neg hmedia, if_neg hr]
      by_cases hregular : cfg.ratioRegular ≤ s
      · rw [if_pos hregular]
        split_ifs <;> omega
      · have hr : ¬ cfg.ratioRegular ≤ r := fun hle => hregular (hle.trans h)
        rw [if_neg hr]
        omega

/-! ## §3. A quieter past. -/

/-- `quiet` is, sample by sample, at most `loud`, and no sample is negative. -/
def Quieter (quiet loud : List Int64) : Prop :=
  List.Forall₂ (fun q l => 0 ≤ q.toInt ∧ q.toInt ≤ l.toInt) quiet loud

/-- A quieter past has no larger sum. -/
theorem Quieter.sum_le {quiet loud : List Int64} (h : Quieter quiet loud) :
    0 ≤ (quiet.map Int64.toInt).sum
      ∧ (quiet.map Int64.toInt).sum ≤ (loud.map Int64.toInt).sum := by
  induction h with
  | nil => simp
  | cons hsample _ ih =>
      simp only [List.map_cons, List.sum_cons]
      omega

/-- A sample above zero gives a sum above zero. -/
theorem Quieter.sum_pos {quiet loud : List Int64} (h : Quieter quiet loud)
    (hnoise : ∃ v ∈ quiet, v ≠ 0) : 0 < (quiet.map Int64.toInt).sum := by
  obtain ⟨v, hv, hne⟩ := hnoise
  induction h with
  | nil => simp at hv
  | cons hsample htail ih =>
      have hrest := (Quieter.sum_le htail).1
      simp only [List.map_cons, List.sum_cons]
      rcases List.mem_cons.mp hv with rfl | hv
      · have : v.toInt ≠ 0 := fun e => hne (Int64.toInt_inj.mp e)
        omega
      · have := ih hv
        omega

/-- The mean of silence is zero. -/
theorem doubleMean_silent {window : List Int64} (h : ∀ v ∈ window, v = 0) :
    doubleMean window = 0 := by
  have hzero : window = List.replicate window.length 0 := List.eq_replicate_iff.mpr ⟨rfl, h⟩
  have hsum : (window.map Int64.toInt).sum = 0 := by
    rw [hzero]
    simp
  unfold doubleMean sum64
  rw [hsum]
  simp [toDouble]

/-- A quieter past has no larger mean, and one that is not silent a positive one. -/
theorem Quieter.doubleMean_le {quiet loud : List Int64} (h : Quieter quiet loud)
    (hlen : 0 < loud.length) (hfits : FitsLong loud) (hnoise : ∃ v ∈ quiet, v ≠ 0) :
    0 < doubleMean quiet ∧ doubleMean quiet ≤ doubleMean loud := by
  have hsum := h.sum_le
  have hpos := h.sum_pos hnoise
  have hlength : quiet.length = loud.length := List.Forall₂.length_eq h
  have hfits' : FitsLong quiet := ⟨by omega, by have := hfits.2; omega⟩
  have hcount : (0 : ℚ) < loud.length := by exact_mod_cast hlen
  constructor
  · rw [doubleMean_pos_iff hfits', mean, hlength]
    exact div_pos (by exact_mod_cast hpos) hcount
  · rw [doubleMean_eq hfits, doubleMean_eq hfits', hlength]
    apply toDouble_mono
    exact div_le_div_of_nonneg_right (toDouble_mono (by exact_mod_cast hsum.2)) hcount.le

/-- The severities of the warnings of one value against a past and a quieter one. -/
theorem rank_quieter {cfg : AnomalyDetectorTransformer} (hcfg : Ordered cfg)
    {loud quiet : List Int64} (hlen : 3 ≤ loud.length) (hle : Quieter quiet loud)
    (hfits : FitsLong loud) {current : Int64} (hcurrent : 0 ≤ current.toInt) (label : String) :
    ((∃ v ∈ quiet, v ≠ 0) →
        rank (warningAgainst cfg loud current label).toList
          ≤ rank (warningAgainst cfg quiet current label).toList)
      ∧ ((∀ v ∈ quiet, v = 0) → warningAgainst cfg quiet current label = none) := by
  have hlength : quiet.length = loud.length := List.Forall₂.length_eq hle
  constructor
  · intro hnoise
    obtain ⟨hquietpos, hmean⟩ := hle.doubleMean_le (by omega) hfits hnoise
    have hloudpos := lt_of_lt_of_le hquietpos hmean
    rw [rank_warningAgainst, rank_warningAgainst,
      if_neg (not_or.mpr ⟨by omega, not_le.mpr hloudpos⟩),
      if_neg (not_or.mpr ⟨by omega, not_le.mpr hquietpos⟩)]
    apply ratioRank_mono hcfg
    exact ratioOf_anti hcurrent hquietpos hmean
  · intro hsilent
    unfold warningAgainst
    rw [doubleMean_silent hsilent, if_pos (Or.inr le_rfl)]

/-- **A quieter past does not weaken an alert**, as long as the sum of the louder past fits a
`long` and the quieter one is not complete silence; against complete silence nothing is
reported. -/
theorem quieter_past {cfg : AnomalyDetectorTransformer} (hcfg : Ordered cfg)
    {loudStore quietStore : KeyValueStore} {loudKey quietKey : String} {loud quiet : List Int64}
    (hloud : Remembers cfg loudStore loudKey loud)
    (hquiet : Remembers cfg quietStore quietKey quiet)
    (hlen : 3 ≤ loud.length) (hle : Quieter quiet loud) (hfits : FitsLong loud)
    (current : Int64) (hcurrent : 0 ≤ current.toInt) (label : String) :
    ((∃ v ∈ quiet, v ≠ 0) →
        rank (checkWarnings cfg loudStore loudKey current label)
          ≤ rank (checkWarnings cfg quietStore quietKey current label))
      ∧ ((∀ v ∈ quiet, v = 0) → checkWarnings cfg quietStore quietKey current label = []) := by
  rw [checkWarnings_eq hloud, checkWarnings_eq hquiet]
  obtain ⟨hnoisy, hsilent⟩ := rank_quieter hcfg hlen hle hfits hcurrent label
  refine ⟨hnoisy, ?_⟩
  intro hzero
  rw [hsilent hzero]
  rfl

/-- The thresholds of the watcher are in order. -/
theorem ordered_watcher : Ordered watcher where
  positive := by decide +kernel
  media := by decide +kernel
  alta := by decide +kernel

theorem quieter_past_watcher :
    ((∃ v ∈ ([1, 0, 3] : List Int64), v ≠ 0) →
        rank (checkWarnings watcher (remembering [4, 4, 4]) "global" 6 "bytes recebidos")
          ≤ rank (checkWarnings watcher (remembering [1, 0, 3]) "global" 6 "bytes recebidos"))
      ∧ ((∀ v ∈ ([1, 0, 3] : List Int64), v = 0) →
        checkWarnings watcher (remembering [1, 0, 3]) "global" 6 "bytes recebidos" = []) :=
  quieter_past ordered_watcher (remembers_remembering [4, 4, 4] "global")
    (remembers_remembering [1, 0, 3] "global") (by decide) (by simp [Quieter])
    ⟨by decide, by decide⟩ 6
    (by decide) "bytes recebidos"

/-- What is at most the other in a metric, with the same key. -/
def QuieterRecord (m : Metric) (quiet loud : Record) : Prop :=
  quiet.storeKey = loud.storeKey
    ∧ Option.Rel (fun q l => 0 ≤ (m.current q).toInt ∧ (m.current q).toInt ≤ (m.current l).toInt)
        quiet.value loud.value

/-- Of two runs that are quieter record by record, so are the samples under every key. -/
theorem quieter_samples {m : Metric} {quiet loud : List Record}
    (h : List.Forall₂ (QuieterRecord m) quiet loud) (storeKey : String) :
    Quieter (samples m storeKey quiet) (samples m storeKey loud) := by
  refine List.rel_filterMap ?_ h
  rintro ⟨qkey, q⟩ ⟨lkey, l⟩ ⟨hkey, hvalue⟩
  dsimp only at hvalue ⊢
  rw [hkey]
  by_cases hsame : (⟨lkey, l⟩ : Record).storeKey = storeKey
  · rw [if_pos hsame, if_pos hsame]
    cases hvalue with
    | some hle => exact .some hle
    | none => exact .none
  · rw [if_neg hsame, if_neg hsame]
    exact .none

/-- The last samples of a quieter past are quieter. -/
theorem Quieter.rtake {quiet loud : List Int64} (h : Quieter quiet loud) (n : Nat) :
    Quieter (quiet.rtake n) (loud.rtake n) := by
  unfold List.rtake
  rw [List.Forall₂.length_eq h]
  exact List.forall₂_drop _ h

/-- **A quieter run does not weaken the next alert.**  Of two runs without faults over the same
keys, let one be quieter in a metric, record by record.  Then the metric's warning for the next
record ranks at least as high after the quieter run, under the conditions of `quieter_past` on the
windows the two runs leave. -/
theorem quieter_run {cfg : AnomalyDetectorTransformer} (hcfg : Ordered cfg)
    (hsize : 0 ≤ cfg.windowSize.toInt) {m : Metric} {quiet loud : List Record}
    (h : List.Forall₂ (QuieterRecord m) quiet loud) {r : Record} {value : AggregatedFlow}
    (hvalue : r.value = some value) (hcurrent : 0 ≤ (m.current value).toInt)
    (hlen : 3 ≤ (comparedWith cfg loud r m).length) (hfits : FitsLong (comparedWith cfg loud r m)) :
    ((∃ v ∈ comparedWith cfg quiet r m, v ≠ 0) →
        rank (contributionAfter cfg (steps loud) ⟨r, noFaults⟩ m)
          ≤ rank (contributionAfter cfg (steps quiet) ⟨r, noFaults⟩ m))
      ∧ ((∀ v ∈ comparedWith cfg quiet r m, v = 0) →
        contributionAfter cfg (steps quiet) ⟨r, noFaults⟩ m = []) := by
  -- what the metric contributes is a check of its store
  have hcheck : ∀ past : List Record, contributionAfter cfg (steps past) ⟨r, noFaults⟩ m
      = (warningAgainst cfg (comparedWith cfg past r m) (m.current value) m.label).toList := by
    intro past
    have hstore := checkWarnings_eq (remembers_storesAfter cfg hsize m past r.storeKey)
      (m.current value) m.label
    unfold comparedWith
    rw [← hstore]
    unfold contributionAfter contribution metricStep checkWarnings
    rw [hvalue, fault_noFaults]
  have hquieter : Quieter (comparedWith cfg quiet r m) (comparedWith cfg loud r m) :=
    (quieter_samples h r.storeKey).rtake cfg.windowSize.toInt.toNat
  rw [hcheck, hcheck]
  obtain ⟨hnoisy, hsilent⟩ := rank_quieter hcfg hlen hquieter hfits hcurrent m.label
  refine ⟨hnoisy, ?_⟩
  intro hzero
  rw [hsilent hzero]
  rfl

/-- For every quieter past of the kind `heard`, the outcome ranks at least as high. -/
def NeverWeakens (heard : List Int64 → Prop) : Prop :=
  ∀ (cfg : AnomalyDetectorTransformer), Ordered cfg →
    ∀ (loudStore quietStore : KeyValueStore) (loudKey quietKey : String)
      (loud quiet : List Int64), Remembers cfg loudStore loudKey loud →
      Remembers cfg quietStore quietKey quiet → 3 ≤ loud.length → Quieter quiet loud →
      heard quiet → ∀ (current : Int64), 0 ≤ current.toInt → ∀ label : String,
        rank (checkWarnings cfg loudStore loudKey current label)
          ≤ rank (checkWarnings cfg quietStore quietKey current label)

/-- **A burst out of complete silence is not reported**, although the same burst over a few bytes
is; and where the sum of the louder past wraps, its mean may be the smaller one. -/
theorem silence_weakens :
    ¬ NeverWeakens (fun _ => True) ∧ ¬ NeverWeakens (fun quiet => ∃ v ∈ quiet, v ≠ 0) := by
  constructor
  · intro hclaim
    have hrank := hclaim watcher ordered_watcher (remembering [1, 1, 1]) (remembering [0, 0, 0])
      "global" "global" [1, 1, 1] [0, 0, 0] (remembers_remembering _ _)
      (remembers_remembering _ _) (by decide) (by simp [Quieter]) trivial 10 (by decide)
      "bytes recebidos"
    revert hrank
    decide +kernel
  · intro hclaim
    -- `2^63 - 1 + 2^63 - 1 + 3` is `1` in 64-bit arithmetic
    have hrank := hclaim watcher ordered_watcher (remembering [2 ^ 63 - 1, 2 ^ 63 - 1, 3])
      (remembering [2 ^ 61, 2 ^ 61, 3]) "global" "global" [2 ^ 63 - 1, 2 ^ 63 - 1, 3]
      [2 ^ 61, 2 ^ 61, 3] (remembers_remembering _ _) (remembers_remembering _ _) (by decide)
      (.cons (by decide +kernel) (.cons (by decide +kernel) (.cons (by decide) .nil)))
      ⟨3, by simp, by decide⟩ 10 (by decide) "bytes recebidos"
    revert hrank
    decide +kernel

end KafKatch.Notification
