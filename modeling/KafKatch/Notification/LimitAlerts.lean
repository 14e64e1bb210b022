/-
  KafKatch.Notification.LimitAlerts
  ─────────────────────────────────
  **ALERTS BY FIXED LIMITS** (`App.java` and `Notifier.checkForAnomalies`, deprecated).

  The application adds every aggregate it can read to a `Notifier` and raises a popup for each limit
  that the newest one exceeds.  The document `null` is read as a null reference, which is in the
  sample before anything finds out: from there on, a call that looks at it ends in an exception,
  and the popups of the aggregate that was being added are lost.

    • `Sampled`: what a sample with nulls in it still satisfies,
    • `main_follows`: without nulls the application is the `Notifier` it was meant to be,
    • `limit_alerts`: which popups are raised, with or without nulls.
-/
import KafKatch.AlertViewer.App
import KafKatch.Core.AggregatedFlowParser
import KafKatch.Notification.Notifier
import Mathlib.Data.List.ReduceOption

namespace KafKatch.Notification

open KafKatch.Core KafKatch.Lib
open KafKatch.AlertViewer (ToastType)

/-! ## §1. A sample with nulls in it. -/

/-- A `Notifier` with the references in its `aggregate_sample`; `notifier` has the aggregates among
them. -/
structure NullableNotifier where
  references : List (Option AggregatedFlow)
  notifier : Notifier
  aggregates : notifier.aggregate_sample = references.reduceOption

namespace NullableNotifier

/-- The other fields of `notifier`, over `references`. -/
def holding (references : List (Option AggregatedFlow)) (notifier : Notifier) :
    NullableNotifier where
  references := references
  notifier := { notifier with aggregate_sample := references.reduceOption }
  aggregates := rfl

/-- The constructor. -/
def new (sample_max_size : Int32) (bytes_inbound_limit bytes_outbound_limit : Int64)
    (unique_flows_limit : Int32) : NullableNotifier :=
  holding [] (Notifier.new sample_max_size bytes_inbound_limit bytes_outbound_limit
    unique_flows_limit)

/-- What comes before the eviction. -/
def insertNewest (n : NullableNotifier) (newest : AggregatedFlow) : NullableNotifier :=
  holding (n.references ++ [some newest]) (n.notifier.insertNewest newest)

/-- `remove(0)` and what follows it; `false` is an exception. -/
def removeOldest (n : NullableNotifier) : NullableNotifier × Bool :=
  match n.references with
  -- not reached: a reference has just been added
  | [] => (n, false)
  | none :: rest => (holding rest n.notifier, false)
  | some oldest :: rest =>
      let kept := holding rest n.notifier
      -- `updateRecords` goes through the whole sample before it sets anything
      if kept.notifier.holdsRecord oldest ∧ none ∈ rest then (kept, false)
      else (holding rest n.notifier.removeOldest, true)

/-- `addAggregate_sample`; `false` is an exception. -/
def addAggregate_sample (n : NullableNotifier) :
    Option AggregatedFlow → NullableNotifier × Bool
  -- `newest.getBytes_inbound()`, after `add(newest)`
  | none => (holding (n.references ++ [none]) n.notifier, false)
  | some newest =>
      let n := n.insertNewest newest
      if n.notifier.sample_max_size.toInt < n.references.length then n.removeOldest
      else (n, true)

end NullableNotifier

/-! ## §2. The popups. -/

/-- A `Toast.toast`. -/
structure Toast where
  type : ToastType
  title : String
  text : String
  deriving DecidableEq

/-- The popups that `checkForAnomalies` wants for the newest aggregate. -/
def Notifier.alerts (notifier : Notifier) (a : AggregatedFlow) : List Toast :=
  (if notifier.bytes_inbound_limit < a.bytes_inbound then
    [⟨.WARNING, "Alerta de bytes recebidos",
      "O último agregado registrou " ++ toString a.bytes_inbound.toInt ++ " bytes recebidos"⟩]
  else [])
  ++ (if notifier.bytes_outbound_limit < a.bytes_outbound then
    [⟨.WARNING, "Alerta de bytes enviados",
      "O último agregado registrou " ++ toString a.bytes_outbound.toInt ++ " bytes enviados"⟩]
  else [])
  ++ (if notifier.unique_flow_limit < a.unique_flow_count then
    [⟨.WARNING, "Alerta de número de conexões",
      "O último agregado registrou " ++ decimal a.unique_flow_count ++ " conexões"⟩]
  else [])

section Toasts

variable (throws : Toast → Bool)

/-- The popups up to the first that throws. -/
def attempted : List Toast → List Toast
  | [] => []
  | toast :: rest => if throws toast then [toast] else toast :: attempted rest

/-- `checkForAnomalies`: what it raises before it returns or throws. -/
def NullableNotifier.checkForAnomalies (n : NullableNotifier) : List Toast :=
  match n.references.getLast? with
  | some (some a) => attempted throws (n.notifier.alerts a)
  -- `get(-1)`, or a null
  | _ => []

end Toasts

/-! ## §3. The application. -/

namespace App

/-- The notifier, the popups raised so far, and how many values have been added, which tells apart
the calls of `Toast.toast`. -/
structure State where
  notifier : NullableNotifier
  toasts : List Toast
  added : Nat

section Loop

variable (mapper : ObjectMapper) (throws : Nat → Toast → Bool)

/-- `AggregatedFlowParser.fromJsonString` on the value of a record; `none` is an exception. -/
def readAggregate (value : Option String) : Option (Option AggregatedFlow) :=
  value.bind (fun json =>
    match mapper.readText json with
    | some .null => some none
    | _ => (fromJsonString mapper json).map some)

/-- The two calls on the notifier, in the `try` of the loop. -/
def add (s : State) (newest : Option AggregatedFlow) : State :=
  match s.notifier.addAggregate_sample newest with
  | (notifier, false) => ⟨notifier, s.toasts, s.added + 1⟩
  | (notifier, true) =>
      ⟨notifier, s.toasts ++ notifier.checkForAnomalies (throws s.added), s.added + 1⟩

/-- The body of the `for` over the records of a poll. -/
def onRecord (s : State) (value : Option String) : State :=
  match readAggregate mapper value with
  | none => s
  | some newest => add throws s newest

/-- The limits of `main`. -/
def limits : Notifier := .new 60 10000000 1000000 200

/-- Before the first poll. -/
def start : State where
  notifier := .new 60 10000000 1000000 200
  toasts := [⟨.INFO, "Notifier ativado", "O Notifier entrou em execução com sucesso"⟩]
  added := 0

/-- The loop of `main`, over the values that its polls return. -/
def main (polls : List (List (Option String))) : State :=
  polls.foldl (fun s records => records.foldl (onRecord mapper throws) s) start

theorem readAggregate_of_fromJsonString {mapper : ObjectMapper} {json : String}
    {a : AggregatedFlow} (h : fromJsonString mapper json = some a) :
    readAggregate mapper (some json) = some (some a) := by
  obtain ⟨document, htext, htree⟩ := Option.bind_eq_some_iff.mp h
  unfold readAggregate
  rw [Option.bind_some, htext, h]
  cases document with
  | null => cases htree
  | _ => rfl

/-- What was read, null or not. -/
def values (polls : List (List (Option String))) : List (Option AggregatedFlow) :=
  polls.flatten.filterMap (readAggregate mapper)

end Loop

/-! ## §4. One call. -/

/-- The configuration never changes, and the sample is the end of what was read, longer than it
should be by at most the nulls. -/
structure Sampled (n : NullableNotifier) (values : List (Option AggregatedFlow)) : Prop where
  sample_max_size : n.notifier.sample_max_size = 60
  alerts : n.notifier.alerts = limits.alerts
  suffix : n.references <:+ values
  length : n.references.length ≤ 60 + values.countP Option.isNone

section Call

open NullableNotifier

theorem holding_notifier {references : List (Option AggregatedFlow)} {notifier : Notifier}
    (h : notifier.aggregate_sample = references.reduceOption) :
    (holding references notifier).notifier = notifier := by
  unfold holding
  dsimp only
  rw [← h]

theorem alerts_removeOldest (notifier : Notifier) :
    notifier.removeOldest.alerts = notifier.alerts := by
  funext a
  unfold Notifier.removeOldest
  cases notifier.aggregate_sample with
  | nil => rfl
  | cons oldest rest =>
      dsimp only
      split_ifs <;> rfl

variable {n : NullableNotifier}

/-- Whatever is evicted, and whether or not that throws, the rest of the sample stays. -/
theorem removeOldest_kept {head : Option AggregatedFlow} {rest : List (Option AggregatedFlow)}
    (h : n.references = head :: rest) :
    n.removeOldest.1.references = rest
      ∧ n.removeOldest.1.notifier.sample_max_size = n.notifier.sample_max_size
      ∧ n.removeOldest.1.notifier.alerts = n.notifier.alerts := by
  unfold NullableNotifier.removeOldest
  rw [h]
  cases head with
  | none => exact ⟨rfl, rfl, rfl⟩
  | some oldest =>
      dsimp only
      split
      · exact ⟨rfl, rfl, rfl⟩
      · exact ⟨rfl, removeOldest_sample_max_size n.notifier, alerts_removeOldest n.notifier⟩

/-- The references before an eviction. -/
theorem insertNewest_cons (n : NullableNotifier) (newest : AggregatedFlow) :
    ∃ head rest, (n.insertNewest newest).references = head :: rest
      ∧ rest.length = n.references.length
      ∧ (rest ≠ [] → rest.getLast? = some (some newest)) := by
  have hpushed : (n.insertNewest newest).references = n.references ++ [some newest] := rfl
  rw [hpushed]
  cases n.references with
  | nil => exact ⟨some newest, [], rfl, rfl, fun hne => absurd rfl hne⟩
  | cons head rest =>
      refine ⟨head, rest ++ [some newest], rfl, ?_, fun _ => List.getLast?_concat⟩
      rw [List.length_append]
      rfl

theorem insertNewest_max_size (h : n.notifier.sample_max_size = 60) (newest : AggregatedFlow) :
    (n.insertNewest newest).notifier.sample_max_size.toInt = 60 := congrArg Int32.toInt h

/-- **Every call leaves the end of what was read**, also one that throws. -/
theorem sampled_addAggregate_sample {values : List (Option AggregatedFlow)} (h : Sampled n values)
    (newest : Option AggregatedFlow) :
    Sampled (n.addAggregate_sample newest).1 (values ++ [newest]) := by
  obtain ⟨hsize, halerts, hsuffix, hlength⟩ := h
  have hpush : n.references ++ [newest] <:+ values ++ [newest] := by
    obtain ⟨before, rfl⟩ := hsuffix
    exact ⟨before, (List.append_assoc _ _ _).symm⟩
  cases newest with
  | none =>
      refine ⟨hsize, halerts, hpush, ?_⟩
      show (n.references ++ [none]).length ≤ _
      rw [List.length_append, List.countP_append, ← Nat.add_assoc]
      exact Nat.add_le_add_right hlength 1
  | some newest =>
      have hcount : (values ++ [some newest]).countP Option.isNone
          = values.countP Option.isNone := by
        rw [List.countP_append]
        rfl
      unfold NullableNotifier.addAggregate_sample
      dsimp only
      rw [insertNewest_max_size hsize]
      by_cases hfull : (60 : Int) < (n.insertNewest newest).references.length
      · -- one reference goes out for the one that came in
        rw [if_pos hfull]
        obtain ⟨head, rest, hcons, hrest, -⟩ := insertNewest_cons n newest
        obtain ⟨hreferences, hsize', halerts'⟩ := removeOldest_kept hcons
        refine ⟨hsize'.trans hsize, halerts'.trans halerts, ?_, ?_⟩
        · rw [hreferences]
          have htail : rest <:+ n.references ++ [some newest] := by
            rw [show n.references ++ [some newest] = head :: rest from hcons]
            exact List.suffix_cons head rest
          exact htail.trans hpush
        · rw [hreferences, hrest, hcount]
          exact hlength
      · rw [if_neg hfull]
        refine ⟨hsize, halerts, hpush, ?_⟩
        dsimp only
        omega

/-- A call that returns has the aggregate it added at the end of the sample. -/
theorem getLast_of_returned {values : List (Option AggregatedFlow)} (h : Sampled n values)
    {newest : Option AggregatedFlow} (hreturned : (n.addAggregate_sample newest).2 = true) :
    ∃ a, newest = some a
      ∧ (n.addAggregate_sample newest).1.references.getLast? = some (some a) := by
  cases newest with
  | none => cases hreturned
  | some newest =>
      refine ⟨newest, rfl, ?_⟩
      unfold NullableNotifier.addAggregate_sample
      dsimp only
      rw [insertNewest_max_size h.sample_max_size]
      by_cases hfull : (60 : Int) < (n.insertNewest newest).references.length
      · rw [if_pos hfull]
        obtain ⟨head, rest, hcons, -, hlast⟩ := insertNewest_cons n newest
        rw [(removeOldest_kept hcons).1]
        apply hlast
        rintro rfl
        rw [hcons, List.length_singleton] at hfull
        omega
      · rw [if_neg hfull]
        exact List.getLast?_concat

/-- **Without a null in the sample a call returns, and is that of the `Notifier`.** -/
theorem addAggregate_sample_of_no_null (hnull : none ∉ n.references) (newest : AggregatedFlow) :
    (n.addAggregate_sample (some newest)).2 = true
      ∧ (n.addAggregate_sample (some newest)).1.notifier
        = n.notifier.addAggregate_sample newest := by
  have hpushed : (n.notifier.insertNewest newest).aggregate_sample
      = (n.references ++ [some newest]).reduceOption := by
    rw [List.reduceOption_append, ← n.aggregates]
    rfl
  have hnotifier : (n.insertNewest newest).notifier = n.notifier.insertNewest newest :=
    holding_notifier hpushed
  have hnull' : none ∉ (n.insertNewest newest).references := by
    show none ∉ n.references ++ [some newest]
    simp [hnull]
  have hlength : (n.insertNewest newest).references.length
      = (n.notifier.insertNewest newest).aggregate_sample.length := by
    rw [hpushed]
    refine (List.reduceOption_length_eq_iff.mpr ?_).symm
    intro x hx
    exact Option.isSome_iff_ne_none.mpr (fun hx' => hnull' (hx' ▸ hx))
  unfold NullableNotifier.addAggregate_sample Notifier.addAggregate_sample
  dsimp only
  rw [hnotifier, hlength]
  split_ifs with hfull
  · obtain ⟨head, rest, hcons, -, -⟩ := insertNewest_cons n newest
    rw [hcons] at hnull'
    cases head with
    | none => exact absurd List.mem_cons_self hnull'
    | some oldest =>
        have hrest : none ∉ rest := fun h => hnull' (List.mem_cons_of_mem _ h)
        have hsample : (n.notifier.insertNewest newest).aggregate_sample
            = oldest :: rest.reduceOption := by
          rw [hpushed, show n.references ++ [some newest] = some oldest :: rest from hcons,
            List.reduceOption_cons_of_some]
        unfold NullableNotifier.removeOldest
        rw [hcons]
        dsimp only
        rw [if_neg (fun h => hrest h.2), hnotifier]
        exact ⟨rfl, holding_notifier (removeOldest_of_cons hsample).1⟩
  · exact ⟨rfl, hnotifier⟩

end Call

section Step

variable {throws : Nat → Toast → Bool} {s : State} {values : List (Option AggregatedFlow)}

/-- The popups that an aggregate is worth, up to the first that throws. -/
def raised (throws : Toast → Bool) (a : AggregatedFlow) : List Toast :=
  attempted throws (limits.alerts a)

/-- The popups that some values are worth, the first of them being the `k`-th that is added. -/
def worth (throws : Nat → Toast → Bool) : Nat → List (Option AggregatedFlow) → List Toast
  | _, [] => []
  | k, value :: rest => value.toList.flatMap (raised (throws k)) ++ worth throws (k + 1) rest

theorem worth_concat (throws : Nat → Toast → Bool) (k : Nat) (read : List (Option AggregatedFlow))
    (newest : Option AggregatedFlow) :
    worth throws k (read ++ [newest])
      = worth throws k read ++ newest.toList.flatMap (raised (throws (k + read.length))) := by
  induction read generalizing k with
  | nil => exact (List.append_nil _).trans (List.nil_append _).symm
  | cons value read ih =>
      show _ ++ worth throws (k + 1) (read ++ [newest]) = _ ++ worth throws (k + 1) read ++ _
      rw [ih, List.append_assoc, List.length_cons, Nat.add_assoc, Nat.add_comm 1]

theorem add_notifier (throws : Nat → Toast → Bool) (s : State) (newest : Option AggregatedFlow) :
    (add throws s newest).notifier = (s.notifier.addAggregate_sample newest).1 := by
  unfold add
  cases hcall : s.notifier.addAggregate_sample newest with
  | mk notifier returned => cases returned <;> rfl

theorem add_added (throws : Nat → Toast → Bool) (s : State) (newest : Option AggregatedFlow) :
    (add throws s newest).added = s.added + 1 := by
  unfold add
  cases hcall : s.notifier.addAggregate_sample newest with
  | mk notifier returned => cases returned <;> rfl

/-- **A call raises the popups of its aggregate if it returns, and none otherwise.** -/
theorem add_toasts (h : Sampled s.notifier values) (newest : Option AggregatedFlow) :
    ((s.notifier.addAggregate_sample newest).2 = false
        ∧ (add throws s newest).toasts = s.toasts)
      ∨ ∃ a, newest = some a
        ∧ (add throws s newest).toasts = s.toasts ++ raised (throws s.added) a := by
  have hlast := @getLast_of_returned s.notifier values h newest
  have hsampled := sampled_addAggregate_sample h newest
  unfold add
  cases hcall : s.notifier.addAggregate_sample newest with
  | mk notifier returned =>
      rw [hcall] at hlast hsampled
      cases returned with
      | false => exact Or.inl ⟨rfl, rfl⟩
      | true =>
          obtain ⟨a, rfl, ha⟩ := hlast rfl
          refine Or.inr ⟨a, rfl, ?_⟩
          dsimp only at ha hsampled ⊢
          unfold NullableNotifier.checkForAnomalies raised
          rw [ha]
          dsimp only
          rw [hsampled.alerts]

theorem add_toasts_of_no_null (h : Sampled s.notifier values)
    (hnull : none ∉ s.notifier.references) (a : AggregatedFlow) :
    (add throws s (some a)).toasts = s.toasts ++ raised (throws s.added) a := by
  rcases add_toasts h (some a) with ⟨hthrew, -⟩ | ⟨b, hb, htoasts⟩
  · have hreturned := (addAggregate_sample_of_no_null hnull a).1
    rw [hthrew] at hreturned
    cases hreturned
  · rw [htoasts, Option.some.inj hb]

end Step

/-! ## §5. Runs. -/

section Run

variable (mapper : ObjectMapper) (throws : Nat → Toast → Bool)

/-- **How the records are spread over the polls does not matter**, nor do those that cannot be
read. -/
theorem main_eq (polls : List (List (Option String))) :
    main mapper throws polls = (values mapper polls).foldl (add throws) start := by
  unfold main values
  rw [← List.foldl_flatten]
  generalize polls.flatten = records
  generalize start = s
  induction records generalizing s with
  | nil => rfl
  | cons record records ih =>
      rw [List.foldl_cons, ih]
      unfold onRecord
      cases hread : readAggregate mapper record with
      | none => rw [List.filterMap_cons_none hread]
      | some newest => rw [List.filterMap_cons_some hread, List.foldl_cons]

/-- What holds after the values `read`. -/
structure Ran (s : State) (read : List (Option AggregatedFlow)) : Prop where
  sampled : Sampled s.notifier read
  toasts : s.toasts.Sublist (start.toasts ++ worth throws 0 read)
  added : s.added = read.length

/-- **One value.** -/
theorem ran_add {s : State} {read : List (Option AggregatedFlow)} (h : Ran throws s read)
    (newest : Option AggregatedFlow) : Ran throws (add throws s newest) (read ++ [newest]) := by
  constructor
  · rw [add_notifier]
    exact sampled_addAggregate_sample h.sampled newest
  · rw [worth_concat, ← List.append_assoc, Nat.zero_add, ← h.added]
    rcases add_toasts h.sampled newest with ⟨-, hsame⟩ | ⟨a, rfl, hmore⟩
    · rw [hsame]
      exact h.toasts.trans (List.sublist_append_left _ _)
    · rw [hmore, Option.toList_some, List.flatMap_singleton]
      exact h.toasts.append (List.Sublist.refl _)
  · rw [add_added, h.added, List.length_append]
    rfl

/-- **Every run.** -/
theorem ran_foldl (read : List (Option AggregatedFlow)) :
    Ran throws (read.foldl (add throws) start) read := by
  induction read using List.reverseRecOn with
  | nil =>
      refine ⟨⟨rfl, rfl, List.suffix_rfl, Nat.zero_le _⟩, ?_, rfl⟩
      show start.toasts.Sublist (start.toasts ++ [])
      rw [List.append_nil]
  | append_singleton read newest ih =>
      rw [List.foldl_concat]
      exact ran_add throws ih newest

/-- Without nulls the notifier describes the last aggregates, and no popup is lost. -/
theorem follows_foldl {read : List (Option AggregatedFlow)} (hnull : none ∉ read) :
    Follows (read.foldl (add throws) start).notifier.notifier 60 read.reduceOption
      ∧ (read.foldl (add throws) start).toasts = start.toasts ++ worth throws 0 read := by
  induction read using List.reverseRecOn with
  | nil =>
      refine ⟨follows_addAggregates (by decide) 10000000 1000000 200 [], ?_⟩
      exact (List.append_nil _).symm
  | append_singleton read newest ih =>
      obtain ⟨hread, hnewest⟩ := by simpa only [List.mem_append, not_or] using hnull
      obtain ⟨hfollows, htoasts⟩ := ih hread
      have hran := ran_foldl throws read
      have hkept : none ∉ (read.foldl (add throws) start).notifier.references :=
        fun hmem => hread (hran.sampled.suffix.subset hmem)
      cases newest with
      | none => exact absurd List.mem_cons_self hnewest
      | some a =>
          have hadded := (addAggregate_sample_of_no_null hkept a).2
          rw [List.foldl_concat, add_notifier, hadded, add_toasts_of_no_null hran.sampled hkept,
            htoasts, List.reduceOption_append, worth_concat, Nat.zero_add, hran.added,
            List.append_assoc, Option.toList_some, List.flatMap_singleton]
          exact ⟨follows_addAggregate_sample (by decide) hfollows a, rfl⟩

/-- The sample is the end of what was read. -/
theorem references_rtake {n : NullableNotifier} {read : List (Option AggregatedFlow)}
    (h : Sampled n read) :
    n.references <:+ read.rtake (60 + read.countP Option.isNone) :=
  List.suffix_of_suffix_length_le h.suffix (rtake_suffix _ _) (by
    rw [List.rtake, List.length_drop]
    have := h.length
    have := h.suffix.length_le
    omega)

/-- **Which popups are raised.**  For every sequence of records, spread over any polls, and
whichever popups cannot be drawn: no popup is raised that an aggregate in the topic is not worth,
nor out of order; if the document `null` is never read, none is missing, and the notifier describes
the last sixty aggregates; and if it is read, the next aggregate only misses its popups while one
of the nulls is among the last sixty documents, or as many more as there were nulls. -/
theorem limit_alerts (polls : List (List (Option String))) :
    (main mapper throws polls).toasts.Sublist
        (start.toasts ++ worth throws 0 (values mapper polls))
      ∧ (none ∉ values mapper polls →
          (main mapper throws polls).toasts
              = start.toasts ++ worth throws 0 (values mapper polls)
            ∧ Follows (main mapper throws polls).notifier.notifier 60
                (values mapper polls).reduceOption)
      ∧ ∀ record a, readAggregate mapper record = some (some a) →
          none ∉ (values mapper polls).rtake
              (60 + (values mapper polls).countP Option.isNone) →
            (main mapper throws (polls ++ [[record]])).toasts
              = (main mapper throws polls).toasts
                ++ raised (throws (values mapper polls).length) a := by
  have hran := ran_foldl throws (values mapper polls)
  refine ⟨?_, ?_, ?_⟩
  · rw [main_eq]
    exact hran.toasts
  · intro hnull
    obtain ⟨hfollows, htoasts⟩ := follows_foldl throws hnull
    rw [main_eq]
    exact ⟨htoasts, hfollows⟩
  · intro record a hread hrecent
    have hvalues : values mapper (polls ++ [[record]]) = values mapper polls ++ [some a] := by
      unfold values
      rw [List.flatten_append, List.filterMap_append, List.flatten_singleton,
        List.filterMap_cons_some hread, List.filterMap_nil]
    have hkept : none ∉ ((values mapper polls).foldl (add throws) start).notifier.references :=
      fun hmem => hrecent ((references_rtake hran.sampled).subset hmem)
    rw [main_eq, main_eq, hvalues, List.foldl_concat,
      add_toasts_of_no_null hran.sampled hkept, hran.added]

/-- One null costs two aggregates their popups here, and the sample stays too long for good. -/
example :
    let s := [some (measured 1 0 0), none, some (measured 2 0 0), some (measured 3 0 0),
      some (measured 4 0 0)].foldl (add (fun _ _ => false)) ⟨.new 1 0 0 0, [], 0⟩
    s.toasts = [1, 4].flatMap (fun n => (Notifier.new 1 0 0 0).alerts (measured n 0 0))
      ∧ s.notifier.references = [some (measured 3 0 0), some (measured 4 0 0)] :=
  ⟨rfl, rfl⟩

end Run

end App

end KafKatch.Notification
