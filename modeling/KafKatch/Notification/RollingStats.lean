/-
  KafKatch.Notification.RollingStats — the rolling window of one metric (`RollingStats.java`).

  The sum is a `long` next to the list of values.  `sum64` says what it holds: the sum of the
  values in 64-bit arithmetic, whatever was evicted before (`add_of_consistent`).  So a history of
  calls, resizes among them, is one of the window alone with the sum read off it
  (`calls_refine_window`).  A `LinkedList` is a list, its size a natural number.

  A `double` is the rational number it stands for, and an operation on doubles rounds its exact
  result to the nearest one.  The average comes twice: as `check` computes it, and as the exact
  quotient.
-/
import KafKatch.Lib.Rounding
import KafKatch.Lib.Run
import KafKatch.Lib.SlidingWindow
import Mathlib.Algebra.BigOperators.Group.List.Basic
import Mathlib.Algebra.Order.Field.Rat
import Mathlib.Data.Int.ModEq

namespace KafKatch.Notification

open KafKatch.Lib

/-- The `double` nearest to `x`, ties to even. -/
def toDouble (x : ℚ) : ℚ := roundTo 52 x

/-- `RollingStats`. -/
structure RollingStats where
  values : List Int64
  maxSize : Int32
  sum : Int64
  deriving DecidableEq

namespace RollingStats

/-- `new RollingStats(maxSize)`; `new RollingStats()` leaves the `maxSize` at 0. -/
def new (maxSize : Int32) : RollingStats := ⟨[], maxSize, 0⟩

/-- `add`; `none` is the `NoSuchElementException` of `removeFirst`. -/
def add (stats : RollingStats) (value : Int64) : Option RollingStats :=
  (evict (fun sum removed => sum - removed) stats.maxSize.toInt (stats.values ++ [value])
      (stats.sum + value)).map
    (fun kept => { stats with values := kept.1, sum := kept.2 })

/-- `average`, as an exact quotient. -/
def average (stats : RollingStats) : ℚ :=
  if stats.values.isEmpty then 0 else (stats.sum.toInt : ℚ) / stats.values.length

/-- `average`: the sum is cast to a `double`, and so is its quotient. -/
def doubleAverage (stats : RollingStats) : ℚ :=
  if stats.values.isEmpty then 0
  else toDouble (toDouble stats.sum.toInt / stats.values.length)

/-- `size`. -/
def size (stats : RollingStats) : Nat := stats.values.length

/-- `setMaxSize`. -/
def setMaxSize (stats : RollingStats) (maxSize : Int32) : RollingStats :=
  { stats with maxSize := maxSize }

end RollingStats

/-! ## §1. What the sum holds. -/

/-- The sum of the values in 64-bit arithmetic. -/
def sum64 (values : List Int64) : Int64 := Int64.ofInt (values.map Int64.toInt).sum

theorem sum64_concat (values : List Int64) (value : Int64) :
    sum64 (values ++ [value]) = sum64 values + value := by
  simp [sum64, Int64.ofInt_add]

theorem sum64_cons_sub (value : Int64) (values : List Int64) :
    sum64 (value :: values) - value = sum64 values := by
  have hcons : sum64 (value :: values) = value + sum64 values := by
    simp [sum64, Int64.ofInt_add]
  rw [hcons, Int64.add_comm, Int64.add_sub_cancel]

/-- The sum of the samples fits a `long`. -/
def FitsLong (window : List Int64) : Prop :=
  -2 ^ 63 ≤ (window.map Int64.toInt).sum ∧ (window.map Int64.toInt).sum < 2 ^ 63

/-- A sum that fits is exact. -/
theorem toInt_sum64 {values : List Int64} (hlow : -2 ^ 63 ≤ (values.map Int64.toInt).sum)
    (hhigh : (values.map Int64.toInt).sum < 2 ^ 63) :
    (sum64 values).toInt = (values.map Int64.toInt).sum :=
  Int64.toInt_ofInt_of_le hlow hhigh

/-- The sum of the statistics is that of their values. -/
def Consistent (stats : RollingStats) : Prop := stats.sum = sum64 stats.values

/-- **`add` keeps the last `maxSize` values and their sum.** -/
theorem add_of_consistent {stats : RollingStats} (h : Consistent stats)
    (hsize : 0 ≤ stats.maxSize.toInt) (value : Int64) :
    stats.add value = some
      { stats with
        values := (stats.values ++ [value]).rtake stats.maxSize.toInt.toNat
        sum := sum64 ((stats.values ++ [value]).rtake stats.maxSize.toInt.toNat) } := by
  have hlimit : stats.maxSize.toInt = (stats.maxSize.toInt.toNat : Int) :=
    (Int.toNat_of_nonneg hsize).symm
  have hsum : stats.sum + value = sum64 (stats.values ++ [value]) := by
    rw [sum64_concat, h]
  -- the loop starts from the sum of the longer list and keeps it in step
  have hevict := evict_tracks (f := sum64) sum64_cons_sub stats.maxSize.toInt.toNat
    (stats.values ++ [value])
  rw [RollingStats.add, hsum, hlimit, hevict, Option.map_some]
  simp

/-! ## §2. A window as a function of its history. -/

/-- The statistics after the samples `samples`. -/
def windowOf (maxSize : Int32) (samples : List Int64) : RollingStats where
  values := samples.rtake maxSize.toInt.toNat
  maxSize := maxSize
  sum := sum64 (samples.rtake maxSize.toInt.toNat)

theorem new_eq_windowOf (maxSize : Int32) : RollingStats.new maxSize = windowOf maxSize [] := by
  simp [RollingStats.new, windowOf, sum64]

theorem add_windowOf {maxSize : Int32} (hsize : 0 ≤ maxSize.toInt) (samples : List Int64)
    (value : Int64) :
    (windowOf maxSize samples).add value = some (windowOf maxSize (samples ++ [value])) := by
  have hconsistent : Consistent (windowOf maxSize samples) := rfl
  rw [add_of_consistent hconsistent hsize]
  simp only [windowOf, push_rtake]

/-! ## §3. Histories with resizes. -/

namespace RollingStats

/-- `add` throws exactly for a negative `maxSize`. -/
theorem add_eq_none_iff (stats : RollingStats) (value : Int64) :
    stats.add value = none ↔ stats.maxSize.toInt < 0 := by
  unfold add
  rw [Option.map_eq_none_iff, evict_eq_none_iff]

/-- A call: `add` of any value, or `setMaxSize` to a size that is not negative. -/
inductive Call where
  | add (value : Int64)
  | setMaxSize (maxSize : Int32) (nonneg : 0 ≤ maxSize.toInt)

/-- One call; `none` is the exception of `add`. -/
def call (stats : RollingStats) : Call → Option RollingStats
  | .add value => stats.add value
  | .setMaxSize maxSize _ => some (stats.setMaxSize maxSize)

/-- What a call does to the window. -/
def Call.windowOp : Call → WindowOp Int64
  | .add value => .push value
  | .setMaxSize maxSize _ => .resize maxSize.toInt.toNat

/-- The values added, in order. -/
def added (calls : List Call) : List Int64 :=
  calls.filterMap (fun c => match c with | .add value => some value | .setMaxSize _ _ => none)

theorem pushed_windowOp (calls : List Call) : pushed (calls.map Call.windowOp) = added calls := by
  unfold pushed added
  rw [List.filterMap_map]
  congr 1
  funext c
  cases c <;> rfl

/-- Over any values, the sum is theirs up to a multiple of `2^64`. -/
theorem toInt_sum64_modEq (values : List Int64) :
    (sum64 values).toInt ≡ (values.map Int64.toInt).sum [ZMOD 2 ^ 64] := by
  unfold sum64
  rw [Int64.toInt_ofInt]
  exact Int.bmod_emod

/-- The statistics hold the window `w`, with the sum of its values. -/
structure Holds (stats : RollingStats) (w : Window Int64) : Prop where
  values : stats.values = w.values
  maxSize : stats.maxSize.toInt = w.size
  sum : Consistent stats

theorem Holds.size_eq {stats : RollingStats} {w : Window Int64} (h : stats.Holds w) :
    stats.maxSize.toInt.toNat = w.size := by
  rw [h.maxSize, Int.toNat_natCast]

/-- **One call is one operation of the window**, and does not throw. -/
theorem call_holds {stats : RollingStats} {w : Window Int64} (h : stats.Holds w) (c : Call) :
    ∃ after, stats.call c = some after ∧ after.Holds (w.step c.windowOp) := by
  cases c with
  | add value =>
      have hnonneg : 0 ≤ stats.maxSize.toInt := by
        rw [h.maxSize]
        exact Int.natCast_nonneg w.size
      refine ⟨_, add_of_consistent h.sum hnonneg value, ?_⟩
      exact
        { values := by
            show (stats.values ++ [value]).rtake stats.maxSize.toInt.toNat
              = (w.values ++ [value]).rtake w.size
            rw [h.size_eq, h.values]
          maxSize := h.maxSize
          sum := rfl }
  | setMaxSize maxSize nonneg =>
      refine ⟨stats.setMaxSize maxSize, rfl, ?_⟩
      exact
        { values := h.values
          maxSize := (Int.toNat_of_nonneg nonneg).symm
          sum := h.sum }

/-- **A history of calls is the history of its window**: no call throws. -/
theorem calls_refine_window {maxSize : Int32} (hsize : 0 ≤ maxSize.toInt) (calls : List Call) :
    ∃ stats, run call (new maxSize) calls = some stats
      ∧ stats.Holds ((calls.map Call.windowOp).foldl Window.step ⟨[], maxSize.toInt.toNat⟩) := by
  refine run_exists (fun calls (stats : RollingStats) => stats.Holds
    ((calls.map Call.windowOp).foldl Window.step ⟨[], maxSize.toInt.toNat⟩)) ?_ ?_ calls
  · exact
      { values := rfl
        maxSize := (Int.toNat_of_nonneg hsize).symm
        sum := rfl }
  · intro calls stats c hholds
    rw [List.map_append, List.map_singleton, List.foldl_concat]
    exact call_holds hholds c

/-- The values are the last ones of the history and the sum is theirs, up to a multiple of `2^64`.
If theirs fits a `long` it is exact, and so is the average. -/
structure InStep (stats : RollingStats) (history : List Int64) : Prop where
  values : stats.values <:+ history
  sum : stats.sum.toInt ≡ (stats.values.map Int64.toInt).sum [ZMOD 2 ^ 64]
  exact_sum : FitsLong stats.values → stats.sum.toInt = (stats.values.map Int64.toInt).sum
  exact_average : FitsLong stats.values → stats.values ≠ [] →
    stats.average = ((stats.values.map Int64.toInt).sum : ℚ) / stats.size

theorem Holds.inStep {stats : RollingStats} {w : Window Int64} {history : List Int64}
    (h : stats.Holds w) (hsuffix : w.values <:+ history) : stats.InStep history := by
  have hsum : stats.sum = sum64 stats.values := h.sum
  have hexact : FitsLong stats.values →
      stats.sum.toInt = (stats.values.map Int64.toInt).sum := by
    intro hfits
    rw [hsum]
    exact toInt_sum64 hfits.1 hfits.2
  refine
    { values := by rw [h.values]; exact hsuffix
      sum := by rw [hsum]; exact toInt_sum64_modEq stats.values
      exact_sum := hexact
      exact_average := ?_ }
  intro hfits hne
  have hnonempty : ¬ stats.values.isEmpty = true := by
    rw [List.isEmpty_iff]
    exact hne
  unfold average size
  rw [if_neg hnonempty, hexact hfits]

/-- **The window and its sum stay in step over any history**: no `add` throws, each one appends
its value and cuts the window to the last `maxSize` values, and an overflow of the sum leaves no
trace. -/
theorem rolling_stats_in_step {maxSize : Int32} (hsize : 0 ≤ maxSize.toInt) (calls : List Call) :
    ∃ stats, run call (new maxSize) calls = some stats
      ∧ stats.InStep (added calls)
      ∧ ∀ value, ∃ after, stats.add value = some after
          ∧ after.maxSize = stats.maxSize
          ∧ after.values = (stats.values ++ [value]).rtake stats.maxSize.toInt.toNat
          ∧ (after.size : Int) ≤ after.maxSize.toInt
          ∧ after.InStep (added calls ++ [value]) := by
  obtain ⟨stats, hrun, hholds⟩ := calls_refine_window hsize calls
  have hsuffix := window_suffix maxSize.toInt.toNat (calls.map Call.windowOp)
  rw [pushed_windowOp] at hsuffix
  refine ⟨stats, hrun, hholds.inStep hsuffix, ?_⟩
  intro value
  obtain ⟨after, hadd, hafter⟩ := call_holds hholds (.add value)
  have hvalues : after.values = (stats.values ++ [value]).rtake stats.maxSize.toInt.toNat := by
    rw [hafter.values, hholds.values, hholds.size_eq]
    rfl
  have hmax : after.maxSize = stats.maxSize :=
    Int32.toInt_inj.mp (hafter.maxSize.trans hholds.maxSize.symm)
  refine ⟨after, hadd, hmax, hvalues, ?_, ?_⟩
  · have hle := length_rtake_le stats.maxSize.toInt.toNat (stats.values ++ [value])
    have hsize' := hholds.maxSize
    unfold size
    rw [hvalues, hmax]
    omega
  · exact hafter.inStep (Window.step_suffix hsuffix (.push value))

/-- The sum overflows, and the next value evicts both it is made of. -/
def overflowing : List Call :=
  [.add (2 ^ 63 - 1), .add (2 ^ 63 - 1), .setMaxSize 1 (by decide), .add 5]

theorem rolling_stats_in_step_overflowing :
    ∃ stats, run call (new 3) overflowing = some stats
      ∧ stats.InStep (added overflowing)
      ∧ ∀ value, ∃ after, stats.add value = some after
          ∧ after.maxSize = stats.maxSize
          ∧ after.values = (stats.values ++ [value]).rtake stats.maxSize.toInt.toNat
          ∧ (after.size : Int) ≤ after.maxSize.toInt
          ∧ after.InStep (added overflowing ++ [value]) :=
  rolling_stats_in_step (by decide) overflowing

end RollingStats

end KafKatch.Notification
