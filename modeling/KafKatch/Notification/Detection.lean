/-
  KafKatch.Notification.Detection
  ───────────────────────────────
  **WHAT THE DETECTOR WARNS ABOUT, WITHOUT ITS STORES.**

  In a run without faults the window of a metric under a key is determined by the earlier samples
  of that metric under that key: the last `windowSize` of them (`windowAt_storesAfter`).  So the
  warnings for a record are a function of its values and of those samples: the value under
  evaluation is not among them.

  Mean and ratio are computed in doubles, from a 64-bit sum.  The severities are those of the exact
  mean and ratio as long as the sum fits a `long` and the ratio is not within one part in `2^50` of
  a threshold (`detector_refines`).
-/
import KafKatch.Notification.Doubles
import KafKatch.Notification.Isolation
import Mathlib.Algebra.Order.Ring.Rat
import Mathlib.Data.List.Find

namespace KafKatch.Notification

open KafKatch.Core KafKatch.Lib

/-! ## §1. The specification. -/

/-- A run of records in which nothing throws. -/
def steps (records : List Record) : List Step := records.map (fun r => ⟨r, noFaults⟩)

/-- The samples of a metric under a key, oldest first. -/
def samples (m : Metric) (storeKey : String) (records : List Record) : List Int64 :=
  records.filterMap (fun r => if r.storeKey = storeKey then r.value.map m.current else none)

/-- The earlier samples a record is compared with. -/
def comparedWith (cfg : AnomalyDetectorTransformer) (past : List Record) (r : Record)
    (m : Metric) : List Int64 :=
  (samples m r.storeKey past).rtake cfg.windowSize.toInt.toNat

/-- The severities with their thresholds, in the order in which they are tried. -/
def severities (cfg : AnomalyDetectorTransformer) : List (String × ℚ) :=
  [("alta", cfg.ratioAlta), ("media", cfg.ratioMedia), ("regular", cfg.ratioRegular)]

/-- The warning for one value against the samples before it. -/
def warningAgainst (cfg : AnomalyDetectorTransformer) (window : List Int64) (current : Int64)
    (label : String) : Option Warning :=
  if window.length < 3 ∨ doubleMean window ≤ 0 then none
  else
    ((severities cfg).find? (fun severity =>
        decide (severity.2 ≤ ratioOf current (doubleMean window)))).map
      (fun severity =>
        ⟨severity.1, descricao current label (doubleMean window) window.length⟩)

/-- The warning of one metric for a record after the records `past`. -/
def expectedFor (cfg : AnomalyDetectorTransformer) (past : List Record) (r : Record)
    (m : Metric) : Option Warning :=
  r.value.bind (fun value =>
    warningAgainst cfg (comparedWith cfg past r m) (m.current value) m.label)

/-- The warnings for a record: at most one for each metric, in the order of the metrics. -/
def expected (cfg : AnomalyDetectorTransformer) (past : List Record) (r : Record) :
    List Warning :=
  [Metric.inbound, .outbound, .flows].filterMap (expectedFor cfg past r)

/-- The severity of a value against the samples before it, with exact mean and ratio. -/
def severityAgainst (cfg : AnomalyDetectorTransformer) (window : List Int64) (current : Int64) :
    Option String :=
  if window.length < 3 ∨ mean window ≤ 0 then none
  else
    ((severities cfg).find? (fun severity =>
      decide (severity.2 ≤ current.toInt / mean window))).map Prod.fst

/-- The exact severity of one metric for a record after the records `past`. -/
def severityFor (cfg : AnomalyDetectorTransformer) (past : List Record) (r : Record)
    (m : Metric) : Option String :=
  r.value.bind (fun value => severityAgainst cfg (comparedWith cfg past r m) (m.current value))

/-- The exact ratio is not within one part in `2^50` of a threshold. -/
def Clear (cfg : AnomalyDetectorTransformer) (window : List Int64) (current : Int64) : Prop :=
  ∀ severity ∈ severities cfg,
    1 / 2 ^ 50 * |current.toInt / mean window| ≤ |current.toInt / mean window - severity.2|

/-! ## §2. The window is a function of the history. -/

section Window

variable {cfg : AnomalyDetectorTransformer} (hsize : 0 ≤ cfg.windowSize.toInt)

theorem samples_concat (m : Metric) (storeKey : String) (records : List Record) (r : Record) :
    samples m storeKey (records ++ [r])
      = samples m storeKey records
        ++ ((if r.storeKey = storeKey then r.value.map m.current else none).toList) := by
  rw [samples, List.filterMap_append, ← samples]
  congr 1

include hsize

/-- One record without faults moves the windows of its own key only, by its own sample. -/
theorem windowAt_metricStep (m : Metric) (store : KeyValueStore) (r : Record)
    (history : String → List Int64)
    (h : ∀ storeKey, windowAt cfg store storeKey = windowOf cfg.windowSize (history storeKey))
    (storeKey : String) :
    windowAt cfg (metricStep cfg m noFault store r).2 storeKey
      = windowOf cfg.windowSize (history storeKey
          ++ (if r.storeKey = storeKey then r.value.map m.current else none).toList) := by
  obtain ⟨key, value⟩ := r
  cases value with
  | none =>
      show windowAt cfg store storeKey = _
      simp [h]
  | some value =>
      have hadd := add_windowOf hsize (history (key.getD "global")) (m.current value)
      rw [← h] at hadd
      have hrun := check_run cfg noFault store (key.getD "global") (m.current value) m.label
      rw [hadd] at hrun
      have hstore : (metricStep cfg m noFault store ⟨key, some value⟩).2
          = Function.update store (key.getD "global") (some (windowOf cfg.windowSize
              (history (key.getD "global") ++ [m.current value]))) := congrArg Prod.snd hrun
      rw [hstore]
      -- `put` changes the entry of one key only
      by_cases hkey : key.getD "global" = storeKey
      · subst hkey
        simp [windowAt, Record.storeKey]
      · have hother : windowAt cfg (Function.update store (key.getD "global") (some (windowOf
            cfg.windowSize (history (key.getD "global") ++ [m.current value])))) storeKey
            = windowAt cfg store storeKey := by
          unfold windowAt
          rw [Function.update_of_ne (Ne.symm hkey)]
        rw [hother, h]
        simp [Record.storeKey, hkey]

/-- **The window of a metric under a key holds the last samples of that metric under that
key.** -/
theorem windowAt_storesAfter (m : Metric) (records : List Record) (storeKey : String) :
    windowAt cfg (m.store (storesAfter cfg (steps records))) storeKey
      = windowOf cfg.windowSize (samples m storeKey records) := by
  induction records using List.reverseRecOn generalizing storeKey with
  | nil =>
      cases m <;> exact new_eq_windowOf cfg.windowSize
  | append_singleton records r ih =>
      rw [steps, List.map_append, List.map_singleton, storesAfter_concat, ← steps,
        fault_noFaults, samples_concat]
      exact windowAt_metricStep hsize m _ r (fun storeKey => samples m storeKey records) ih storeKey

end Window

/-! ## §3. The warnings are a function of the window. -/

/-- The nested tests are the first threshold that is reached. -/
theorem first_severity (cfg : AnomalyDetectorTransformer) (ratio : ℚ) (text : String) :
    (if cfg.ratioAlta ≤ ratio then [(⟨"alta", text⟩ : Warning)]
      else if cfg.ratioMedia ≤ ratio then [⟨"media", text⟩]
      else if cfg.ratioRegular ≤ ratio then [⟨"regular", text⟩]
      else [])
      = (((severities cfg).find? (fun severity => decide (severity.2 ≤ ratio))).map
          (fun severity => (⟨severity.1, text⟩ : Warning))).toList := by
  unfold severities
  by_cases halta : cfg.ratioAlta ≤ ratio
  · simp [halta]
  · by_cases hmedia : cfg.ratioMedia ≤ ratio
    · simp [halta, hmedia]
    · by_cases hregular : cfg.ratioRegular ≤ ratio <;> simp [halta, hmedia, hregular]

/-- What a warning says: one of the thresholds is reached, over a positive average. -/
theorem warningAgainst_some {cfg : AnomalyDetectorTransformer} {window : List Int64}
    {current : Int64} {label : String} {warning : Warning}
    (h : warningAgainst cfg window current label = some warning) :
    0 < doubleMean window
      ∧ ∃ severity ∈ severities cfg, severity.2 ≤ ratioOf current (doubleMean window)
        ∧ warning = ⟨severity.1, descricao current label (doubleMean window) window.length⟩ := by
  unfold warningAgainst at h
  by_cases hguard : window.length < 3 ∨ doubleMean window ≤ 0
  · rw [if_pos hguard] at h
    cases h
  · rw [if_neg hguard] at h
    obtain ⟨severity, hfind, heq⟩ := Option.map_eq_some_iff.mp h
    have hreached := List.find?_some hfind
    exact ⟨not_le.mp (fun hle => hguard (Or.inr hle)), severity,
      List.mem_of_find?_eq_some hfind, of_decide_eq_true hreached, heq.symm⟩

/-- **What is evaluated is the specification for the values in the window.** -/
theorem evaluate_eq (cfg : AnomalyDetectorTransformer) {stats : RollingStats}
    (h : Consistent stats) (current : Int64) (label : String) :
    evaluate cfg stats current label
      = (warningAgainst cfg stats.values current label).toList := by
  have hsize : stats.size = stats.values.length := rfl
  unfold evaluate warningAgainst
  by_cases hlen : 3 ≤ stats.size
  · rw [if_pos hlen, doubleAverage_eq h hlen]
    by_cases hpos : 0 < doubleMean stats.values
    · have hnot : ¬ (stats.values.length < 3 ∨ doubleMean stats.values ≤ 0) :=
        not_or.mpr ⟨by omega, not_le.mpr hpos⟩
      rw [if_neg hnot]
      exact (if_pos hpos).trans (first_severity cfg _ _)
    · rw [if_pos (Or.inr (not_lt.mp hpos))]
      exact if_neg hpos
  · rw [if_neg hlen, if_pos (Or.inl (by omega))]
    rfl

/-- Without faults every metric records its sample and contributes the warning of the window
without it. -/
theorem contribution_noFault {cfg : AnomalyDetectorTransformer}
    (hsize : 0 ≤ cfg.windowSize.toInt) (past : List Record) (key : Option String)
    (value : AggregatedFlow) (m : Metric) :
    contributionAfter cfg (steps past) ⟨⟨key, some value⟩, noFaults⟩ m
      = (expectedFor cfg past ⟨key, some value⟩ m).toList := by
  have hwindow := windowAt_storesAfter hsize m past (key.getD "global")
  have hadd := add_windowOf hsize (samples m (key.getD "global") past) (m.current value)
  have hrun := check_run cfg noFault (m.store (storesAfter cfg (steps past))) (key.getD "global")
    (m.current value) m.label
  rw [hwindow, hadd] at hrun
  have hcaught : contributionAfter cfg (steps past) ⟨⟨key, some value⟩, noFaults⟩ m
      = caught ((check cfg (m.fault noFaults) (key.getD "global") (m.current value)
          m.label).runOn (m.store (storesAfter cfg (steps past)))).1 := rfl
  have hconsistent : Consistent (windowOf cfg.windowSize (samples m (key.getD "global") past)) :=
    rfl
  rw [hcaught, fault_noFaults, hrun]
  exact evaluate_eq cfg hconsistent (m.current value) m.label

/-- **After any records without faults, `transform` returns what is expected.** -/
theorem returnedAfter_steps {cfg : AnomalyDetectorTransformer} (hsize : 0 ≤ cfg.windowSize.toInt)
    (past : List Record) (r : Record) :
    returnedAfter cfg (steps past) ⟨r, noFaults⟩ = .ok (expected cfg past r) := by
  obtain ⟨key, value⟩ := r
  have hreturned := returnedAfter_eq cfg (steps past) ⟨⟨key, value⟩, noFaults⟩
  cases value with
  | none => exact hreturned
  | some value =>
      rw [hreturned, contribution_noFault hsize, contribution_noFault hsize,
        contribution_noFault hsize]
      unfold expected
      rw [List.filterMap_eq_flatMap_toList]
      simp

/-! ## §4. The severities are those of the exact ratio. -/

/-- A ratio that is clear of the thresholds is rounded to the same side of each. -/
theorem severityAgainst_eq {cfg : AnomalyDetectorTransformer} {window : List Int64}
    {current : Int64} (hfits : FitsLong window) (hclear : Clear cfg window current)
    (label : String) :
    (warningAgainst cfg window current label).map Warning.severidade
      = severityAgainst cfg window current := by
  have hguard : (window.length < 3 ∨ doubleMean window ≤ 0)
      ↔ (window.length < 3 ∨ mean window ≤ 0) := by
    rw [← not_lt (a := 0), ← not_lt (a := 0), doubleMean_pos_iff hfits]
  have hthresholds : ∀ severity ∈ severities cfg,
      decide (severity.2 ≤ ratioOf current (doubleMean window))
        = decide (severity.2 ≤ current.toInt / mean window) := by
    intro severity hmem
    rw [decide_eq_decide]
    exact (close_ratioOf hfits current).le_iff (by norm_num) (hclear severity hmem)
  unfold warningAgainst severityAgainst
  by_cases h : window.length < 3 ∨ mean window ≤ 0
  · rw [if_pos h, if_pos (hguard.mpr h)]
    rfl
  · rw [if_neg h, if_neg (fun h' => h (hguard.mp h')), List.find?_congr hthresholds, Option.map_map]
    rfl

/-- **The detector refines its specification**: after any records without faults, what
`transform` returns for a record is what `expected` says about its values and the earlier samples.
The severity of each metric is that of the exact mean and ratio, as long as the sum of its window
fits a `long` and the ratio is clear of the thresholds. -/
theorem detector_refines (cfg : AnomalyDetectorTransformer) (hsize : 0 ≤ cfg.windowSize.toInt)
    (past : List Record) (r : Record) :
    returnedAfter cfg (steps past) ⟨r, noFaults⟩ = .ok (expected cfg past r)
      ∧ ∀ (m : Metric) (value : AggregatedFlow), r.value = some value →
          FitsLong (comparedWith cfg past r m) →
          Clear cfg (comparedWith cfg past r m) (m.current value) →
          (expectedFor cfg past r m).map Warning.severidade = severityFor cfg past r m := by
  refine ⟨returnedAfter_steps hsize past r, ?_⟩
  intro m value hvalue hfits hclear
  unfold expectedFor severityFor
  rw [hvalue]
  exact severityAgainst_eq hfits hclear m.label

/-- A record of inbound bytes. -/
def inboundRecord (bytes : Int64) : Record :=
  ⟨none, some { AggregatedFlow.fresh none with bytes_inbound := bytes }⟩

theorem detector_refines_watcher :
    returnedAfter watcher (steps ([100, 100, 100].map inboundRecord))
        ⟨inboundRecord 250, noFaults⟩
          = .ok (expected watcher ([100, 100, 100].map inboundRecord) (inboundRecord 250))
      ∧ ∀ (m : Metric) (value : AggregatedFlow), (inboundRecord 250).value = some value →
          FitsLong (comparedWith watcher ([100, 100, 100].map inboundRecord)
            (inboundRecord 250) m) →
          Clear watcher (comparedWith watcher ([100, 100, 100].map inboundRecord)
            (inboundRecord 250) m) (m.current value) →
          (expectedFor watcher ([100, 100, 100].map inboundRecord) (inboundRecord 250) m).map
              Warning.severidade
            = severityFor watcher ([100, 100, 100].map inboundRecord) (inboundRecord 250) m :=
  detector_refines watcher (by decide) ([100, 100, 100].map inboundRecord) (inboundRecord 250)

/-- The severities returned are the exact ones, for all records whose windows and values are
`among` the ones considered. -/
def MatchesExactly (among : AnomalyDetectorTransformer → List Int64 → Int64 → Prop) : Prop :=
  ∀ (cfg : AnomalyDetectorTransformer), 0 ≤ cfg.windowSize.toInt →
    ∀ (past : List Record) (r : Record),
      (∀ (m : Metric) (value : AggregatedFlow), r.value = some value →
        among cfg (comparedWith cfg past r m) (m.current value)) →
      ∃ warnings, returnedAfter cfg (steps past) ⟨r, noFaults⟩ = .ok warnings
        ∧ warnings.map Warning.severidade
          = [Metric.inbound, .outbound, .flows].filterMap (severityFor cfg past r)

/-- One record with other severities is enough. -/
theorem not_matchesExactly {among : AnomalyDetectorTransformer → List Int64 → Int64 → Prop}
    {cfg : AnomalyDetectorTransformer} (hsize : 0 ≤ cfg.windowSize.toInt) (past : List Record)
    (r : Record)
    (hamong : ∀ (m : Metric) (value : AggregatedFlow), r.value = some value →
      among cfg (comparedWith cfg past r m) (m.current value))
    (hwrong : (expected cfg past r).map Warning.severidade
      ≠ [Metric.inbound, .outbound, .flows].filterMap (severityFor cfg past r)) :
    ¬ MatchesExactly among := by
  intro hclaim
  obtain ⟨warnings, hreturned, hexact⟩ := hclaim cfg hsize past r hamong
  rw [returnedAfter_steps hsize, Except.ok.injEq] at hreturned
  rw [← hreturned] at hexact
  exact hwrong hexact

/-- **Neither condition alone is enough.**  35 is 1.875 times the mean of 18, 19 and 19, but not
quite in doubles; and three samples of `2^62` have a negative mean in 64-bit arithmetic. -/
theorem severities_not_exact :
    ¬ MatchesExactly (fun _ window _ => FitsLong window) ∧ ¬ MatchesExactly Clear := by
  constructor
  · have hsize : 0 ≤ { watcher with ratioAlta := 15 / 8 }.windowSize.toInt := by decide
    refine not_matchesExactly hsize ([18, 19, 19].map inboundRecord) (inboundRecord 35) ?_ ?_
    · intro m value _
      cases m <;> exact ⟨by decide +kernel, by decide +kernel⟩
    · decide +kernel
  · have hsize : 0 ≤ watcher.windowSize.toInt := by decide
    refine not_matchesExactly hsize ([2 ^ 62, 2 ^ 62, 2 ^ 62].map inboundRecord)
      (inboundRecord (7 * 2 ^ 60)) ?_ ?_
    · intro m value hvalue
      cases hvalue
      unfold Clear
      cases m <;> decide +kernel
    · decide +kernel

end KafKatch.Notification
