/-
  KafKatch.Lib.Tumbling
  ─────────────────────
  **AGGREGATES OVER WINDOWS OF EVENT TIME, ONE RESULT FOR EACH WINDOW.**

  Time is what the records say: the stream time is the highest timestamp so far.  A window of
  fixed size is closed once the stream time has reached its end, and a record whose window is
  closed when it arrives is dropped.  The records of a window are folded in the order of arrival,
  and the aggregate may be written and read back at any point of the fold (`Folded`).

  Every record is in one closed window, in one window that is still open, or late
  (`perm_windows`).

  `TumblingAggregation` is an operator that gives the final result of every closed window once,
  in the order of the windows; `.reference` computes them at the end of the stream.
-/
import Mathlib.Data.Finset.Sort
import Mathlib.Data.List.Induction

namespace KafKatch.Lib

variable {α β γ : Type}

/-! ## §1. Windows. -/

/-- The start of the window a timestamp falls into. -/
def windowStart (size timestamp : Nat) : Nat := timestamp / size * size

/-- The stream time after some records. -/
def streamTime (records : List (Nat × α)) : Nat :=
  records.foldl (fun time record => max time record.1) 0

/-- The records that find their window open, in a stream that has come to `time`. -/
def acceptedFrom (size : Nat) : Nat → List (Nat × α) → List (Nat × α)
  | _, [] => []
  | time, record :: records =>
      if windowStart size record.1 + size ≤ max time record.1 then
        acceptedFrom size (max time record.1) records
      else record :: acceptedFrom size (max time record.1) records

/-- The records of a stream that find their window open. -/
def accepted (size : Nat) (records : List (Nat × α)) : List (Nat × α) :=
  acceptedFrom size 0 records

/-- What a window has accepted, in the order of arrival. -/
def valuesIn (size : Nat) (records : List (Nat × α)) (start : Nat) : List α :=
  ((accepted size records).filter (fun record => windowStart size record.1 = start)).map Prod.snd

/-- The windows that have accepted something and are closed, in ascending order. -/
def closedWindows (size : Nat) (records : List (Nat × α)) : List Nat :=
  (((accepted size records).map (fun record => windowStart size record.1)).toFinset.filter
    (fun start => start + size ≤ streamTime records)).sort (· ≤ ·)

/-- Only the timestamps decide. -/
theorem acceptedFrom_map (f : α → γ) (size time : Nat) (records : List (Nat × α)) :
    acceptedFrom size time (records.map (fun record => (record.1, f record.2)))
      = (acceptedFrom size time records).map (fun record => (record.1, f record.2)) := by
  induction records generalizing time with
  | nil => rfl
  | cons record records ih =>
      rw [List.map_cons, acceptedFrom, acceptedFrom]
      dsimp only
      rw [ih]
      split <;> rfl

theorem streamTime_map (f : α → γ) (records : List (Nat × α)) :
    streamTime (records.map (fun record => (record.1, f record.2))) = streamTime records := by
  unfold streamTime
  rw [List.foldl_map]

theorem valuesIn_map (f : α → γ) (size : Nat) (records : List (Nat × α)) (start : Nat) :
    valuesIn size (records.map (fun record => (record.1, f record.2))) start
      = (valuesIn size records start).map f := by
  unfold valuesIn accepted
  rw [acceptedFrom_map, List.filter_map, List.map_map, List.map_map]
  rfl

theorem closedWindows_map (f : α → γ) (size : Nat) (records : List (Nat × α)) :
    closedWindows size (records.map (fun record => (record.1, f record.2)))
      = closedWindows size records := by
  unfold closedWindows accepted
  rw [acceptedFrom_map, streamTime_map, List.map_map]
  rfl

/-- A closed window is not empty. -/
theorem valuesIn_ne_nil {size start : Nat} {records : List (Nat × α)}
    (h : start ∈ closedWindows size records) : valuesIn size records start ≠ [] := by
  unfold closedWindows at h
  rw [Finset.mem_sort, Finset.mem_filter, List.mem_toFinset, List.mem_map] at h
  obtain ⟨⟨record, hmem, hstart⟩, -⟩ := h
  have hvalue : record.2 ∈ valuesIn size records start :=
    List.mem_map_of_mem (List.mem_filter.mpr ⟨hmem, decide_eq_true hstart⟩)
  exact List.ne_nil_of_mem hvalue

/-! ## §2. Where the records are. -/

/-- The records that find their window closed, in a stream that has come to `time`. -/
def lateFrom (size : Nat) : Nat → List (Nat × α) → List (Nat × α)
  | _, [] => []
  | time, record :: records =>
      if windowStart size record.1 + size ≤ max time record.1 then
        record :: lateFrom size (max time record.1) records
      else lateFrom size (max time record.1) records

/-- What is dropped. -/
def late (size : Nat) (records : List (Nat × α)) : List α := (lateFrom size 0 records).map Prod.snd

/-- What the windows have accepted that are still open at the end. -/
def pending (size : Nat) (records : List (Nat × α)) : List α :=
  ((accepted size records).filter
    (fun record => ¬ windowStart size record.1 + size ≤ streamTime records)).map Prod.snd

theorem acceptedFrom_append_lateFrom (size time : Nat) (records : List (Nat × α)) :
    (acceptedFrom size time records ++ lateFrom size time records).Perm records := by
  induction records generalizing time with
  | nil => exact List.Perm.refl _
  | cons record records ih =>
      unfold acceptedFrom lateFrom
      split
      · exact List.perm_middle.trans ((ih _).cons record)
      · exact (ih _).cons record

/-- A list is regrouped by the values of a function. -/
theorem flatMap_filter_perm [DecidableEq β] {f : α → β} {keys : List β} (hkeys : keys.Nodup)
    {xs : List α} (h : ∀ x ∈ xs, f x ∈ keys) :
    (keys.flatMap (fun key => xs.filter (fun x => f x = key))).Perm xs := by
  induction keys generalizing xs with
  | nil =>
      cases xs with
      | nil => exact List.Perm.refl _
      | cons x xs => exact absurd (h x List.mem_cons_self) List.not_mem_nil
  | cons key keys ih =>
      obtain ⟨hnotin, hkeys⟩ := List.nodup_cons.mp hkeys
      have hothers : ∀ x ∈ xs.filter (fun x => !decide (f x = key)), f x ∈ keys := by
        intro x hx
        obtain ⟨hmem, hne⟩ := List.mem_filter.mp hx
        have hne : f x ≠ key := by simpa using hne
        exact (List.mem_cons.mp (h x hmem)).resolve_left hne
      have hrest := ih hkeys hothers
      -- the other keys look for nothing that the first one has taken
      have hsame : keys.flatMap (fun k =>
            (xs.filter (fun x => !decide (f x = key))).filter (fun x => f x = k))
          = keys.flatMap (fun k => xs.filter (fun x => f x = k)) := by
        refine List.flatMap_congr ?_
        intro k hk
        rw [List.filter_filter]
        refine List.filter_congr ?_
        intro x _
        by_cases hx : f x = k
        · have hne : f x ≠ key := fun heq => hnotin (heq ▸ hx ▸ hk)
          simp [hx, hx ▸ hne]
        · simp [hx]
      rw [hsame] at hrest
      rw [List.flatMap_cons]
      exact (hrest.append_left _).trans (List.filter_append_perm _ xs)

/-- **Every record is in one closed window, in an open one, or late**, and in only one place. -/
theorem perm_windows (size : Nat) (records : List (Nat × α)) :
    ((closedWindows size records).flatMap (valuesIn size records)
      ++ (pending size records ++ late size records)).Perm (records.map Prod.snd) := by
  have hclosed : ((closedWindows size records).flatMap (fun start =>
      (accepted size records).filter (fun record => windowStart size record.1 = start))).Perm
        ((accepted size records).filter
          (fun record => windowStart size record.1 + size ≤ streamTime records)) := by
    have hkeys : (closedWindows size records).Nodup := Finset.sort_nodup _ _
    have hmem : ∀ record ∈ (accepted size records).filter
        (fun record => windowStart size record.1 + size ≤ streamTime records),
          windowStart size record.1 ∈ closedWindows size records := by
      intro record h
      obtain ⟨hmem, hend⟩ := List.mem_filter.mp h
      unfold closedWindows
      rw [Finset.mem_sort, Finset.mem_filter, List.mem_toFinset]
      exact ⟨List.mem_map_of_mem hmem, of_decide_eq_true hend⟩
    have hregroup := flatMap_filter_perm hkeys hmem
    refine (List.Perm.of_eq (List.flatMap_congr ?_)).trans hregroup
    intro start hstart
    unfold closedWindows at hstart
    rw [Finset.mem_sort, Finset.mem_filter] at hstart
    rw [List.filter_filter]
    refine List.filter_congr ?_
    intro record _
    by_cases hx : windowStart size record.1 = start
    · simp [hx, hstart.2]
    · simp [hx]
  have haccepted : ((closedWindows size records).flatMap (valuesIn size records)
      ++ pending size records).Perm ((accepted size records).map Prod.snd) := by
    have hsplit := (hclosed.append_right _).trans (List.filter_append_perm
      (fun record => decide (windowStart size record.1 + size ≤ streamTime records))
      (accepted size records))
    have hvalues := hsplit.map Prod.snd
    rw [List.map_append, List.map_flatMap] at hvalues
    unfold pending
    simp only [decide_not]
    exact hvalues
  have hall := (acceptedFrom_append_lateFrom size 0 records).map Prod.snd
  rw [List.map_append] at hall
  rw [← List.append_assoc]
  exact (haccepted.append_right _).trans hall

theorem lt_windowEnd {size : Nat} (hsize : 0 < size) (timestamp : Nat) :
    timestamp < windowStart size timestamp + size := by
  unfold windowStart
  have hdiv := Nat.div_add_mod timestamp size
  have hmod := Nat.mod_lt timestamp hsize
  rw [Nat.mul_comm]
  omega

/-- **In a stream in order nothing is late.** -/
theorem late_of_ordered {size : Nat} (hsize : 0 < size) {records : List (Nat × α)}
    (h : records.Pairwise (fun record record' => record.1 ≤ record'.1)) :
    late size records = [] := by
  have hfrom : ∀ (records : List (Nat × α)) (time : Nat),
      records.Pairwise (fun record record' => record.1 ≤ record'.1) →
        (∀ record ∈ records, time ≤ record.1) → lateFrom size time records = [] := by
    intro records
    induction records with
    | nil =>
        intro time _ _
        rfl
    | cons record records ih =>
        intro time hordered hstart
        obtain ⟨hrest, hordered⟩ := List.pairwise_cons.mp hordered
        have htime : max time record.1 = record.1 := max_eq_right (hstart record List.mem_cons_self)
        have hopen := lt_windowEnd hsize record.1
        unfold lateFrom
        rw [htime, if_neg (by omega)]
        exact ih record.1 hordered hrest
  unfold late
  rw [hfrom records 0 h (fun _ _ => Nat.zero_le _)]
  rfl

/-! ## §3. Folding a window. -/

/-- What is aggregated: the first aggregate of a window, one more value, and what becomes of an
aggregate that is written to the store and read back. -/
structure Aggregation (α β : Type) where
  initializer : α → β
  aggregator : β → α → β
  roundTrip : β → Option β

/-- `b` is an aggregate of `values`, written and read back at whatever points. -/
inductive Folded (agg : Aggregation α β) : List α → β → Prop
  | first (v : α) : Folded agg [v] (agg.aggregator (agg.initializer v) v)
  | next {values : List α} {b : β} (h : Folded agg values b) (v : α) :
      Folded agg (values ++ [v]) (agg.aggregator b v)
  | stored {values : List α} {b b' : β} (h : Folded agg values b) (hb : agg.roundTrip b = some b') :
      Folded agg values b'

/-- Folding without the store. -/
def Aggregation.direct (agg : Aggregation α β) : List α → Option β
  | [] => none
  | v :: values => some (values.foldl agg.aggregator (agg.aggregator (agg.initializer v) v))

theorem direct_concat (agg : Aggregation α β) {values : List α} {b : β}
    (h : agg.direct values = some b) (v : α) :
    agg.direct (values ++ [v]) = some (agg.aggregator b v) := by
  cases values with
  | nil => cases h
  | cons w values =>
      rw [Aggregation.direct, Option.some.injEq] at h
      rw [List.cons_append, Aggregation.direct, List.foldl_concat, h]

/-- **A property of the direct fold that no round trip breaks holds of every fold.** -/
theorem Folded.induct_direct {agg : Aggregation α β} (Same : β → β → Prop)
    (hrefl : ∀ b, Same b b)
    (hnext : ∀ b d v, Same b d → Same (agg.aggregator b v) (agg.aggregator d v))
    (hstored : ∀ b b' d, Same b d → agg.roundTrip b = some b' → Same b' d)
    {values : List α} {b : β} (h : Folded agg values b) :
    ∃ d, agg.direct values = some d ∧ Same b d := by
  induction h with
  | first v => exact ⟨_, rfl, hrefl _⟩
  | next h v ih =>
      obtain ⟨d, hd, hsame⟩ := ih
      exact ⟨_, direct_concat agg hd v, hnext _ _ v hsame⟩
  | stored h hb ih =>
      obtain ⟨d, hd, hsame⟩ := ih
      exact ⟨d, hd, hstored _ _ _ hsame hb⟩

theorem folded_direct {agg : Aggregation α β} {values : List α} {b : β}
    (h : agg.direct values = some b) : Folded agg values b := by
  induction values using List.reverseRecOn generalizing b with
  | nil => cases h
  | append_singleton values v ih =>
      cases hd : agg.direct values with
      | none =>
          cases values with
          | nil =>
              rw [List.nil_append, Aggregation.direct, List.foldl_nil, Option.some.injEq] at h
              exact h ▸ Folded.first v
          | cons w values => cases hd
      | some d =>
          rw [direct_concat agg hd, Option.some.injEq] at h
          exact h ▸ (ih hd).next v

/-! ## §4. The operator. -/

/-- One final result for every closed window, and for no other. -/
def FinalResults (agg : Aggregation α β) (size : Nat) (records : List (Nat × α))
    (results : List (Nat × β)) : Prop :=
  List.Forall₂ (fun start result => result.1 = start
    ∧ Folded agg (valuesIn size records start) result.2) (closedWindows size records) results

/-- A windowed aggregation that holds its results back until their window closes.  It relies on
aggregates that can be read back from the store. -/
structure TumblingAggregation (α β : Type) where
  results : Aggregation α β → Nat → List (Nat × α) → List (Nat × β)
  final : ∀ agg size records, 0 < size → (∀ b, (agg.roundTrip b).isSome) →
    FinalResults agg size records (results agg size records)

/-- The results, all at the end of the stream, with a last round trip. -/
def TumblingAggregation.reference : TumblingAggregation α β where
  results agg size records :=
    (closedWindows size records).filterMap (fun start =>
      ((agg.direct (valuesIn size records start)).bind agg.roundTrip).map (fun b => (start, b)))
  final agg size records _ hroundTrip := by
    have hwindows : ∀ starts : List Nat, (∀ start ∈ starts, start ∈ closedWindows size records) →
        List.Forall₂ (fun start result => result.1 = start
          ∧ Folded agg (valuesIn size records start) result.2) starts
          (starts.filterMap (fun start =>
            ((agg.direct (valuesIn size records start)).bind agg.roundTrip).map
              (fun b => (start, b)))) := by
      intro starts
      induction starts with
      | nil => exact fun _ => .nil
      | cons start starts ih =>
          intro hmem
          have hne := valuesIn_ne_nil (hmem start List.mem_cons_self)
          obtain ⟨v, values, hvalues⟩ := List.exists_cons_of_ne_nil hne
          obtain ⟨d, hd⟩ : ∃ d, agg.direct (valuesIn size records start) = some d := by
            rw [hvalues]
            exact ⟨_, rfl⟩
          obtain ⟨b, hb⟩ := Option.isSome_iff_exists.mp (hroundTrip d)
          rw [List.filterMap_cons_some (b := (start, b)) (by rw [hd, Option.bind_some, hb]; rfl)]
          refine .cons ⟨rfl, (folded_direct hd).stored hb⟩ (ih ?_)
          exact fun other h => hmem other (List.mem_cons_of_mem start h)
    exact hwindows _ (fun _ h => h)

end KafKatch.Lib
