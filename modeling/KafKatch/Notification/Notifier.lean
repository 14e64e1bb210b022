/-
  KafKatch.Notification.Notifier
  ──────────────────────────────
  **THE SAMPLE OF THE NOTIFIER** (`Notifier.java` of the notification service, deprecated).

  The notifier keeps the last aggregates, the sum of each metric over them, and the record of
  each metric.  Sums are undone on eviction; records are looked for again only if the evicted
  aggregate holds one of them.  `Describes` is the invariant: sums and records are those of the
  sample, with `-1` as the record of an empty one.  It holds after every call
  (`describes_addAggregates`), whichever aggregate holds which record.
-/
import KafKatch.Core.AggregatedFlow
import KafKatch.Notification.RollingStats

namespace KafKatch.Notification

open KafKatch.Core KafKatch.Lib

/-! ## §1. The class. -/

/-- `Notifier`. -/
structure Notifier where
  aggregate_sample : List AggregatedFlow
  sample_max_size : Int32
  bytes_inbound_sum : Int64
  bytes_inbound_record : Int64
  bytes_outbound_sum : Int64
  bytes_outbound_record : Int64
  unique_flow_sum : Int32
  unique_flow_record : Int32
  bytes_inbound_limit : Int64
  bytes_outbound_limit : Int64
  unique_flow_limit : Int32
  deriving DecidableEq

namespace Notifier

/-- The constructor. -/
def new (sample_max_size : Int32) (bytes_inbound_limit bytes_outbound_limit : Int64)
    (unique_flows_limit : Int32) : Notifier where
  aggregate_sample := []
  sample_max_size := sample_max_size
  bytes_inbound_sum := 0
  bytes_inbound_record := -1
  bytes_outbound_sum := 0
  bytes_outbound_record := -1
  unique_flow_sum := 0
  unique_flow_record := -1
  bytes_inbound_limit := bytes_inbound_limit
  bytes_outbound_limit := bytes_outbound_limit
  unique_flow_limit := unique_flows_limit

/-- `if (value > record) record = value`. -/
def raised {α : Type} [LT α] [DecidableLT α] (record value : α) : α :=
  if record < value then value else record

/-- `updateRecords`: the three records of the sample, from `-1` up. -/
def updateRecords (notifier : Notifier) : Notifier :=
  { notifier with
    bytes_inbound_record :=
      notifier.aggregate_sample.foldl (fun record a => raised record a.bytes_inbound) (-1)
    bytes_outbound_record :=
      notifier.aggregate_sample.foldl (fun record a => raised record a.bytes_outbound) (-1)
    unique_flow_record :=
      notifier.aggregate_sample.foldl (fun record a => raised record a.unique_flow_count) (-1) }

/-- The first half of `addAggregate_sample`: the newest aggregate goes in. -/
def insertNewest (notifier : Notifier) (newest : AggregatedFlow) : Notifier :=
  { notifier with
    aggregate_sample := notifier.aggregate_sample ++ [newest]
    bytes_inbound_record := raised notifier.bytes_inbound_record newest.bytes_inbound
    bytes_outbound_record := raised notifier.bytes_outbound_record newest.bytes_outbound
    unique_flow_record := raised notifier.unique_flow_record newest.unique_flow_count
    bytes_inbound_sum := notifier.bytes_inbound_sum + newest.bytes_inbound
    bytes_outbound_sum := notifier.bytes_outbound_sum + newest.bytes_outbound
    unique_flow_sum := notifier.unique_flow_sum + newest.unique_flow_count }

/-- The oldest aggregate holds one of the records. -/
def holdsRecord (notifier : Notifier) (oldest : AggregatedFlow) : Prop :=
  notifier.bytes_inbound_record ≤ oldest.bytes_inbound
    ∨ notifier.bytes_outbound_record ≤ oldest.bytes_outbound
    ∨ notifier.unique_flow_record ≤ oldest.unique_flow_count

instance (notifier : Notifier) (oldest : AggregatedFlow) :
    Decidable (notifier.holdsRecord oldest) := inferInstanceAs (Decidable (_ ∨ _ ∨ _))

/-- The other half: `remove(0)`, the records, and the sums. -/
def removeOldest (notifier : Notifier) : Notifier :=
  match notifier.aggregate_sample with
  -- not reached: an aggregate has just been added
  | [] => notifier
  | oldest :: rest =>
      let kept := { notifier with aggregate_sample := rest }
      let kept := if kept.holdsRecord oldest then kept.updateRecords else kept
      { kept with
        bytes_inbound_sum := kept.bytes_inbound_sum + -oldest.bytes_inbound
        bytes_outbound_sum := kept.bytes_outbound_sum + -oldest.bytes_outbound
        unique_flow_sum := kept.unique_flow_sum + -oldest.unique_flow_count }

/-- `addAggregate_sample`. -/
def addAggregate_sample (notifier : Notifier) (newest : AggregatedFlow) : Notifier :=
  let notifier := notifier.insertNewest newest
  if notifier.sample_max_size.toInt < notifier.aggregate_sample.length then
    notifier.removeOldest
  else notifier

/-- A sequence of `addAggregate_sample` calls. -/
def addAggregates (notifier : Notifier) (added : List AggregatedFlow) : Notifier :=
  added.foldl addAggregate_sample notifier

end Notifier

/-! ## §2. Sums and records of a sample. -/

/-- The sum of the values in 32-bit arithmetic. -/
def sum32 (values : List Int32) : Int32 := Int32.ofInt (values.map Int32.toInt).sum

theorem sum32_concat (values : List Int32) (value : Int32) :
    sum32 (values ++ [value]) = sum32 values + value := by
  simp [sum32, Int32.ofInt_add]

theorem sum32_cons_add_neg (value : Int32) (values : List Int32) :
    sum32 (value :: values) + -value = sum32 values := by
  have hcons : sum32 (value :: values) = value + sum32 values := by
    simp [sum32, Int32.ofInt_add]
  rw [hcons, ← Int32.sub_eq_add_neg, Int32.add_comm, Int32.add_sub_cancel]

theorem sum64_cons_add_neg (value : Int64) (values : List Int64) :
    sum64 (value :: values) + -value = sum64 values := by
  rw [← Int64.sub_eq_add_neg, sum64_cons_sub]

section Raised

open Notifier

-- records are machine integers of either width
variable {β : Type} [LT β] [DecidableLT β] {toInt : β → Int}
  (hlt : ∀ x y : β, x < y ↔ toInt x < toInt y)

include hlt

theorem toInt_raised (record value : β) :
    toInt (raised record value) = max (toInt record) (toInt value) := by
  unfold raised
  by_cases h : record < value
  · have := (hlt record value).mp h
    rw [if_pos h]
    omega
  · have := mt (hlt record value).mpr h
    rw [if_neg h]
    omega

/-- Raising a record over a list of values finds the largest. -/
theorem toInt_foldl_raised {α : Type} (value : α → β) (xs : List α) (record : β) :
    toInt (xs.foldl (fun record a => raised record (value a)) record)
      = highest (toInt record) (xs.map (fun a => toInt (value a))) := by
  induction xs using List.reverseRecOn with
  | nil => rfl
  | append_singleton xs a ih =>
      rw [List.foldl_concat, toInt_raised hlt, ih, List.map_append, List.map_singleton,
        highest_concat]

end Raised

theorem int64_lt_iff (x y : Int64) : x < y ↔ x.toInt < y.toInt := Int64.lt_iff_toInt_lt

theorem int32_lt_iff (x y : Int32) : x < y ↔ x.toInt < y.toInt := Int32.lt_iff_toInt_lt

/-! ## §3. The invariant. -/

/-- The record of a metric over a sample. -/
def recordOf (metric : AggregatedFlow → Int) (sample : List AggregatedFlow) : Int :=
  highest (-1) (sample.map metric)

/-- The sums and the records of the notifier are those of its sample. -/
structure Describes (notifier : Notifier) : Prop where
  bytes_inbound_sum :
    notifier.bytes_inbound_sum = sum64 (notifier.aggregate_sample.map (·.bytes_inbound))
  bytes_outbound_sum :
    notifier.bytes_outbound_sum = sum64 (notifier.aggregate_sample.map (·.bytes_outbound))
  unique_flow_sum :
    notifier.unique_flow_sum = sum32 (notifier.aggregate_sample.map (·.unique_flow_count))
  bytes_inbound_record : notifier.bytes_inbound_record.toInt
    = recordOf (·.bytes_inbound.toInt) notifier.aggregate_sample
  bytes_outbound_record : notifier.bytes_outbound_record.toInt
    = recordOf (·.bytes_outbound.toInt) notifier.aggregate_sample
  unique_flow_record : notifier.unique_flow_record.toInt
    = recordOf (·.unique_flow_count.toInt) notifier.aggregate_sample

theorem describes_new (sample_max_size : Int32) (bytes_inbound_limit bytes_outbound_limit : Int64)
    (unique_flows_limit : Int32) :
    Describes (Notifier.new sample_max_size bytes_inbound_limit bytes_outbound_limit
      unique_flows_limit) := by
  constructor <;> rfl

/-- The records of `updateRecords` are those of the sample, whatever they were before. -/
theorem updateRecords_records (notifier : Notifier) :
    notifier.updateRecords.bytes_inbound_record.toInt
        = recordOf (·.bytes_inbound.toInt) notifier.aggregate_sample
      ∧ notifier.updateRecords.bytes_outbound_record.toInt
        = recordOf (·.bytes_outbound.toInt) notifier.aggregate_sample
      ∧ notifier.updateRecords.unique_flow_record.toInt
        = recordOf (·.unique_flow_count.toInt) notifier.aggregate_sample :=
  ⟨toInt_foldl_raised int64_lt_iff _ _ _, toInt_foldl_raised int64_lt_iff _ _ _,
    toInt_foldl_raised int32_lt_iff _ _ _⟩

/-- **The newest aggregate goes in.** -/
theorem describes_insertNewest {notifier : Notifier} (h : Describes notifier)
    (newest : AggregatedFlow) : Describes (notifier.insertNewest newest) := by
  have hrecord : ∀ (metric : AggregatedFlow → Int),
      max (recordOf metric notifier.aggregate_sample) (metric newest)
        = recordOf metric (notifier.aggregate_sample ++ [newest]) := by
    intro metric
    unfold recordOf
    rw [List.map_append, List.map_singleton, highest_concat]
  unfold Notifier.insertNewest
  exact
    { bytes_inbound_sum := by simp only [List.map_append, List.map_singleton, sum64_concat,
        h.bytes_inbound_sum]
      bytes_outbound_sum := by simp only [List.map_append, List.map_singleton, sum64_concat,
        h.bytes_outbound_sum]
      unique_flow_sum := by simp only [List.map_append, List.map_singleton, sum32_concat,
        h.unique_flow_sum]
      bytes_inbound_record := by
        rw [← hrecord, toInt_raised int64_lt_iff, h.bytes_inbound_record]
      bytes_outbound_record := by
        rw [← hrecord, toInt_raised int64_lt_iff, h.bytes_outbound_record]
      unique_flow_record := by
        rw [← hrecord, toInt_raised int32_lt_iff, h.unique_flow_record] }

section RemoveOldest

variable {notifier : Notifier} {oldest : AggregatedFlow} {rest : List AggregatedFlow}
  (hsample : notifier.aggregate_sample = oldest :: rest)

include hsample

/-- What `removeOldest` does whether or not a record is evicted. -/
theorem removeOldest_of_cons :
    notifier.removeOldest.aggregate_sample = rest
      ∧ notifier.removeOldest.bytes_inbound_sum
        = notifier.bytes_inbound_sum + -oldest.bytes_inbound
      ∧ notifier.removeOldest.bytes_outbound_sum
        = notifier.bytes_outbound_sum + -oldest.bytes_outbound
      ∧ notifier.removeOldest.unique_flow_sum
        = notifier.unique_flow_sum + -oldest.unique_flow_count := by
  unfold Notifier.removeOldest
  rw [hsample]
  dsimp only
  split_ifs <;> exact ⟨rfl, rfl, rfl, rfl⟩

/-- An aggregate below a record is not the one that holds it. -/
theorem recordOf_evicted {metric : AggregatedFlow → Int} {record : Int}
    (hrecord : record = recordOf metric notifier.aggregate_sample) (hlt : metric oldest < record) :
    record = recordOf metric rest := by
  rw [hsample, recordOf, List.map_cons] at hrecord
  rw [hrecord] at hlt ⊢
  exact (highest_evicted hlt).symm

/-- If the oldest aggregate holds a record, all three are looked for again; otherwise it is below
each of them and its eviction changes none. -/
theorem removeOldest_records (h : Describes notifier) :
    notifier.removeOldest.bytes_inbound_record.toInt = recordOf (·.bytes_inbound.toInt) rest
      ∧ notifier.removeOldest.bytes_outbound_record.toInt
        = recordOf (·.bytes_outbound.toInt) rest
      ∧ notifier.removeOldest.unique_flow_record.toInt
        = recordOf (·.unique_flow_count.toInt) rest := by
  unfold Notifier.removeOldest
  rw [hsample]
  dsimp only
  by_cases hholds : ({ notifier with aggregate_sample := rest } : Notifier).holdsRecord oldest
  · rw [if_pos hholds]
    exact updateRecords_records { notifier with aggregate_sample := rest }
  · rw [if_neg hholds]
    obtain ⟨hin, hout, hflows⟩ := by
      simpa only [Notifier.holdsRecord, not_or] using hholds
    refine ⟨?_, ?_, ?_⟩
    · apply recordOf_evicted hsample h.bytes_inbound_record
      exact not_le.mp (mt Int64.le_iff_toInt_le.mpr hin)
    · apply recordOf_evicted hsample h.bytes_outbound_record
      exact not_le.mp (mt Int64.le_iff_toInt_le.mpr hout)
    · apply recordOf_evicted hsample h.unique_flow_record
      exact not_le.mp (mt Int32.le_iff_toInt_le.mpr hflows)

/-- **The oldest aggregate goes out.** -/
theorem describes_removeOldest (h : Describes notifier) :
    Describes notifier.removeOldest ∧ notifier.removeOldest.aggregate_sample = rest := by
  obtain ⟨hrest, hin, hout, hflows⟩ := removeOldest_of_cons hsample
  obtain ⟨hinrec, houtrec, hflowsrec⟩ := removeOldest_records hsample h
  refine ⟨?_, hrest⟩
  constructor
  · rw [hin, hrest, h.bytes_inbound_sum, hsample, List.map_cons, sum64_cons_add_neg]
  · rw [hout, hrest, h.bytes_outbound_sum, hsample, List.map_cons, sum64_cons_add_neg]
  · rw [hflows, hrest, h.unique_flow_sum, hsample, List.map_cons, sum32_cons_add_neg]
  · rw [hrest, hinrec]
  · rw [hrest, houtrec]
  · rw [hrest, hflowsrec]

end RemoveOldest

theorem removeOldest_sample_max_size (notifier : Notifier) :
    notifier.removeOldest.sample_max_size = notifier.sample_max_size := by
  unfold Notifier.removeOldest
  cases notifier.aggregate_sample with
  | nil => rfl
  | cons oldest rest =>
      dsimp only
      split_ifs <;> rfl

/-! ## §4. Every call. -/

/-- After the aggregates `added` the sample is the last of them, and is described. -/
structure Follows (notifier : Notifier) (max_size : Int32) (added : List AggregatedFlow) :
    Prop where
  sample_max_size : notifier.sample_max_size = max_size
  aggregate_sample : notifier.aggregate_sample = added.rtake max_size.toInt.toNat
  describes : Describes notifier

/-- **One call.** -/
theorem follows_addAggregate_sample {notifier : Notifier} {sample_max_size : Int32}
    {added : List AggregatedFlow} (hsize : 0 ≤ sample_max_size.toInt)
    (h : Follows notifier sample_max_size added) (newest : AggregatedFlow) :
    Follows (notifier.addAggregate_sample newest) sample_max_size (added ++ [newest]) := by
  have hinsert := describes_insertNewest h.describes newest
  have hmax : (notifier.insertNewest newest).sample_max_size = sample_max_size :=
    h.sample_max_size
  have hsample : (notifier.insertNewest newest).aggregate_sample
      = added.rtake sample_max_size.toInt.toNat ++ [newest] := by
    rw [← h.aggregate_sample]
    rfl
  have hpush := push_rtake sample_max_size.toInt.toNat added newest
  rw [← hsample] at hpush
  have hle := length_push_rtake_le sample_max_size.toInt.toNat added newest
  rw [← hsample] at hle
  unfold Notifier.addAggregate_sample
  dsimp only
  rw [hmax]
  -- at most one aggregate is too many
  by_cases hfull : sample_max_size.toInt < (notifier.insertNewest newest).aggregate_sample.length
  · rw [if_pos hfull]
    cases hcons : (notifier.insertNewest newest).aggregate_sample with
    | nil =>
        rw [hcons, List.length_nil] at hfull
        omega
    | cons oldest rest =>
        obtain ⟨hdescribes, hrest⟩ := describes_removeOldest hcons hinsert
        refine ⟨(removeOldest_sample_max_size _).trans hmax, ?_, hdescribes⟩
        rw [hrest, ← hpush, hcons]
        rw [hcons] at hfull hle
        exact (rtake_of_cons_too_long (by omega)).symm
  · rw [if_neg hfull]
    refine ⟨hmax, ?_, hinsert⟩
    rw [← hpush]
    exact (rtake_of_length_le (by omega)).symm

/-- **Every sequence of calls.** -/
theorem follows_addAggregates {sample_max_size : Int32} (hsize : 0 ≤ sample_max_size.toInt)
    (bytes_inbound_limit bytes_outbound_limit : Int64) (unique_flows_limit : Int32)
    (added : List AggregatedFlow) :
    Follows ((Notifier.new sample_max_size bytes_inbound_limit bytes_outbound_limit
      unique_flows_limit).addAggregates added) sample_max_size added := by
  induction added using List.reverseRecOn with
  | nil => exact ⟨rfl, by simp [Notifier.addAggregates, Notifier.new], describes_new _ _ _ _⟩
  | append_singleton added newest ih =>
      rw [Notifier.addAggregates, List.foldl_concat]
      exact follows_addAggregate_sample hsize ih newest

/-- The three metrics of the aggregate are not negative. -/
structure NonNegative (agg : AggregatedFlow) : Prop where
  bytes_inbound : 0 ≤ agg.bytes_inbound.toInt
  bytes_outbound : 0 ≤ agg.bytes_outbound.toInt
  unique_flow_count : 0 ≤ agg.unique_flow_count.toInt

/-- `record` is the maximum of the metric over the sample. -/
def IsRecord (metric : AggregatedFlow → Int) (sample : List AggregatedFlow) (record : Int) :
    Prop := IsGreatest {x | ∃ a ∈ sample, metric a = x} record

theorem isRecord_recordOf {metric : AggregatedFlow → Int} {sample : List AggregatedFlow}
    (hne : sample ≠ []) (hnonneg : ∀ a ∈ sample, 0 ≤ metric a) :
    IsRecord metric sample (recordOf metric sample) := by
  have hbottom : ∀ x ∈ sample.map metric, (-1 : Int) ≤ x := by
    intro x hx
    obtain ⟨a, ha, rfl⟩ := List.mem_map.mp hx
    have := hnonneg a ha
    omega
  have hgreatest := isGreatest_highest (by simpa using hne) hbottom
  simpa only [IsRecord, recordOf, List.mem_map] using hgreatest

/-- The sample is `sample`, the sums are those of its metrics in machine arithmetic, and the
records their maxima. -/
structure DescribesExactly (notifier : Notifier) (sample : List AggregatedFlow) : Prop where
  aggregate_sample : notifier.aggregate_sample = sample
  bytes_inbound_sum : notifier.bytes_inbound_sum = sum64 (sample.map (·.bytes_inbound))
  bytes_outbound_sum : notifier.bytes_outbound_sum = sum64 (sample.map (·.bytes_outbound))
  unique_flow_sum : notifier.unique_flow_sum = sum32 (sample.map (·.unique_flow_count))
  bytes_inbound_record :
    IsRecord (·.bytes_inbound.toInt) sample notifier.bytes_inbound_record.toInt
  bytes_outbound_record :
    IsRecord (·.bytes_outbound.toInt) sample notifier.bytes_outbound_record.toInt
  unique_flow_record :
    IsRecord (·.unique_flow_count.toInt) sample notifier.unique_flow_record.toInt

/-- **After every call the notifier describes exactly its sample**, the last `sample_max_size`
aggregates added. -/
theorem notifier_describes_sample {sample_max_size : Int32} (hsize : 1 ≤ sample_max_size.toInt)
    (bytes_inbound_limit bytes_outbound_limit : Int64) (unique_flows_limit : Int32)
    (added : List AggregatedFlow) (newest : AggregatedFlow)
    (hnonneg : ∀ a ∈ added ++ [newest], NonNegative a) :
    DescribesExactly
      (((Notifier.new sample_max_size bytes_inbound_limit bytes_outbound_limit
        unique_flows_limit).addAggregates added).addAggregate_sample newest)
      ((added ++ [newest]).rtake sample_max_size.toInt.toNat) := by
  have hfollows := follows_addAggregate_sample (by omega)
    (follows_addAggregates (by omega : 0 ≤ sample_max_size.toInt) bytes_inbound_limit
      bytes_outbound_limit unique_flows_limit added) newest
  have hdescribes := hfollows.describes
  have hne : (added ++ [newest]).rtake sample_max_size.toInt.toNat ≠ [] := by
    intro hnil
    have hlen := congrArg List.length hnil
    simp only [List.rtake, List.length_drop, List.length_append, List.length_singleton,
      List.length_nil] at hlen
    omega
  have hkept : ∀ a ∈ (added ++ [newest]).rtake sample_max_size.toInt.toNat, NonNegative a :=
    fun a ha => hnonneg a (List.mem_of_mem_drop ha)
  rw [← hfollows.aggregate_sample] at hne hkept ⊢
  exact
    { aggregate_sample := rfl
      bytes_inbound_sum := hdescribes.bytes_inbound_sum
      bytes_outbound_sum := hdescribes.bytes_outbound_sum
      unique_flow_sum := hdescribes.unique_flow_sum
      bytes_inbound_record := by
        rw [hdescribes.bytes_inbound_record]
        exact isRecord_recordOf hne (fun a ha => (hkept a ha).bytes_inbound)
      bytes_outbound_record := by
        rw [hdescribes.bytes_outbound_record]
        exact isRecord_recordOf hne (fun a ha => (hkept a ha).bytes_outbound)
      unique_flow_record := by
        rw [hdescribes.unique_flow_record]
        exact isRecord_recordOf hne (fun a ha => (hkept a ha).unique_flow_count) }

/-- An aggregate with the given metrics. -/
def measured (bytes_inbound bytes_outbound : Int64) (unique_flow_count : Int32) : AggregatedFlow :=
  { AggregatedFlow.fresh none with
    bytes_inbound := bytes_inbound
    bytes_outbound := bytes_outbound
    unique_flow_count := unique_flow_count }

-- the evicted aggregate holds the inbound record, in a tie, and the others hold theirs
theorem notifier_describes_sample_tied :
    DescribesExactly
      (((Notifier.new 2 1000 1000 50).addAggregates
        [measured 9 1 0, measured 9 4 7]).addAggregate_sample (measured 3 2 5))
      (([measured 9 1 0, measured 9 4 7] ++ [measured 3 2 5]).rtake 2) :=
  notifier_describes_sample (by decide) 1000 1000 50 [measured 9 1 0, measured 9 4 7]
    (measured 3 2 5) (by
      intro a ha
      simp only [List.cons_append, List.nil_append, List.mem_cons, List.not_mem_nil,
        or_false] at ha
      rcases ha with rfl | rfl | rfl <;> exact ⟨by decide, by decide, by decide⟩)

end KafKatch.Notification
