/-
  KafKatch.Lib.LogConsumer — a consumer that decodes the records of a log.

  A poll returns the records from the current position up to the first one that cannot be
  decoded, and moves behind what it returned; if the record at the position itself cannot be
  decoded, the poll fails and does not move.  Whoever polls again after a failure fails again
  (`poll_again`), so the first poll returns all there will ever be (`polls_eq`): a log is
  consumed completely exactly when nothing of interest stands behind its first undecodable
  record (`clear_iff`).
-/
import Mathlib.Data.List.TakeWhile
import Mathlib.Logic.Function.Iterate

namespace KafKatch.Lib

variable {α β γ ε : Type*} (decode : α → Except ε β)

/-! ## §1. One poll. -/

/-- The values in front of the first record that cannot be decoded. -/
def decodable : List α → List β
  | [] => []
  | record :: rest =>
      match decode record with
      | .ok value => value :: decodable rest
      | .error _ => []

/-- The values returned, and the position behind them. -/
def poll (log : List α) (position : Nat) : Except ε (List β × Nat) :=
  match log.drop position with
  | [] => .ok ([], position)
  | record :: rest =>
      match decode record with
      | .ok value =>
          .ok (value :: decodable decode rest, position + 1 + (decodable decode rest).length)
      | .error e => .error e

/-- The values of all records that can be decoded. -/
def decoded (log : List α) : List β :=
  log.filterMap fun record =>
    match decode record with
    | .ok value => some value
    | .error _ => none

variable {decode}

theorem decodable_cons_ok {record : α} {value : β} (h : decode record = .ok value)
    (rest : List α) : decodable decode (record :: rest) = value :: decodable decode rest := by
  rw [decodable, h]

theorem decodable_cons_error {record : α} {e : ε} (h : decode record = .error e)
    (rest : List α) : decodable decode (record :: rest) = [] := by
  rw [decodable, h]

theorem decoded_cons_ok {record : α} {value : β} (h : decode record = .ok value)
    (rest : List α) : decoded decode (record :: rest) = value :: decoded decode rest := by
  unfold decoded
  rw [List.filterMap_cons_some]
  rw [h]

theorem decoded_cons_error {record : α} {e : ε} (h : decode record = .error e)
    (rest : List α) : decoded decode (record :: rest) = decoded decode rest := by
  unfold decoded
  rw [List.filterMap_cons_none]
  rw [h]

theorem decoded_append (log log' : List α) :
    decoded decode (log ++ log') = decoded decode log ++ decoded decode log' :=
  List.filterMap_append

section Split

variable (decode)

/-- A log is read to its end, or up to an undecodable record. -/
theorem decodable_split (log : List α) :
    decodable decode log = decoded decode log
      ∨ ∃ before bad after e, log = before ++ bad :: after ∧ decode bad = .error e
          ∧ decodable decode log = decoded decode before := by
  induction log with
  | nil => exact .inl rfl
  | cons record rest ih =>
      cases h : decode record with
      | error e =>
          exact .inr ⟨[], record, rest, e, rfl, h, decodable_cons_error h rest⟩
      | ok value =>
          rcases ih with hall | ⟨before, bad, after, e, rfl, hbad, hval⟩
          · left
            rw [decodable_cons_ok h, decoded_cons_ok h, hall]
          · right
            refine ⟨record :: before, bad, after, e, rfl, hbad, ?_⟩
            rw [decodable_cons_ok h, decoded_cons_ok h, hval]

end Split

/-- Nothing is read from behind an undecodable record. -/
theorem decodable_prefix (before after : List α) {bad : α} {e : ε}
    (hbad : decode bad = .error e) :
    decodable decode (before ++ bad :: after) <+: decoded decode before := by
  induction before with
  | nil =>
      rw [List.nil_append, decodable_cons_error hbad]
      exact List.nil_prefix
  | cons record before ih =>
      cases h : decode record with
      | error e' =>
          rw [List.cons_append, decodable_cons_error h]
          exact List.nil_prefix
      | ok value =>
          rw [List.cons_append, decodable_cons_ok h, decoded_cons_ok h]
          exact (List.prefix_cons_inj value).mpr ih

section Clear

variable (decode)

theorem decodable_prefix_decoded (log : List α) :
    decodable decode log <+: decoded decode log := by
  rcases decodable_split decode log with hall | ⟨before, bad, after, e, rfl, hbad, hval⟩
  · exact ⟨[], by rw [List.append_nil, hall]⟩
  · rw [hval, decoded_append]
    exact List.prefix_append _ _

/-- **Everything of interest is read exactly when nothing of interest stands behind an undecodable
record.** -/
theorem clear_iff (handle : β → List γ) (log : List α) :
    (decodable decode log).flatMap handle = (decoded decode log).flatMap handle
      ↔ ∀ before bad after e, log = before ++ bad :: after → decode bad = .error e →
          (decoded decode after).flatMap handle = [] := by
  constructor
  · rintro hall before bad after e rfl hbad
    obtain ⟨more, hmore⟩ := decodable_prefix before after hbad
    rw [decoded_append, decoded_cons_error hbad, List.flatMap_append, ← hmore,
      List.flatMap_append, List.append_assoc] at hall
    have hnil := List.append_right_eq_self.mp hall.symm
    exact (List.append_eq_nil_iff.mp hnil).2
  · intro hclear
    rcases decodable_split decode log with hall | ⟨before, bad, after, e, rfl, hbad, hval⟩
    · rw [hall]
    · rw [hval, decoded_append, decoded_cons_error hbad, List.flatMap_append,
        hclear before bad after e rfl hbad, List.append_nil]

end Clear

/-! ## §2. Polls in a loop that carries on after a failure. -/

section Poll

variable (decode)

/-- The first poll. -/
theorem poll_start (log : List α) :
    poll decode log 0 = .ok (decodable decode log, (decodable decode log).length)
      ∨ ∃ e, poll decode log 0 = .error e ∧ decodable decode log = [] := by
  cases log with
  | nil => exact .inl rfl
  | cons record rest =>
      unfold poll
      rw [List.drop_zero]
      cases h : decode record with
      | ok value =>
          left
          rw [decodable_cons_ok h, List.length_cons, Nat.zero_add, Nat.add_comm]
          simp only [h]
      | error e =>
          right
          refine ⟨e, ?_, decodable_cons_error h rest⟩
          simp only [h]

/-- **Behind what the first poll returns, a poll returns nothing or fails.** -/
theorem poll_again (log : List α) :
    poll decode log (decodable decode log).length = .ok ([], (decodable decode log).length)
      ∨ ∃ e, poll decode log (decodable decode log).length = .error e := by
  have hnext : log.drop (decodable decode log).length = []
      ∨ ∃ bad after e, log.drop (decodable decode log).length = bad :: after
          ∧ decode bad = .error e := by
    induction log with
    | nil => exact .inl rfl
    | cons record rest ih =>
        cases h : decode record with
        | ok value =>
            rw [decodable_cons_ok h, List.length_cons, List.drop_succ_cons]
            exact ih
        | error e =>
            rw [decodable_cons_error h]
            exact .inr ⟨record, rest, e, rfl, h⟩
  unfold poll
  rcases hnext with hend | ⟨bad, after, e, hbad, he⟩
  · rw [hend]
    exact .inl rfl
  · rw [hbad]
    right
    exact ⟨e, by simp only [he]⟩

end Poll

variable {σ : Type*} (decode) (log : List α) (onBatch : σ → List β → σ) (onError : σ → ε → σ)

/-- One round of the loop, on the position and the loop's own state. -/
def pollStep (s : Nat × σ) : Nat × σ :=
  match poll decode log s.1 with
  | .ok (batch, position) => (position, onBatch s.2 batch)
  | .error e => (s.1, onError s.2 e)

variable {decode log onBatch onError}

theorem pollStep_ok {s : Nat × σ} {batch : List β} {position : Nat}
    (h : poll decode log s.1 = .ok (batch, position)) :
    pollStep decode log onBatch onError s = (position, onBatch s.2 batch) := by
  unfold pollStep
  rw [h]

theorem pollStep_error {s : Nat × σ} {e : ε} (h : poll decode log s.1 = .error e) :
    pollStep decode log onBatch onError s = (s.1, onError s.2 e) := by
  unfold pollStep
  rw [h]

section Observed

variable (log) {handle : β → List γ} {observe : σ → List γ}
  (hbatch : ∀ s batch, observe (onBatch s batch) = observe s ++ batch.flatMap handle)
  (herror : ∀ s e, observe (onError s e) = observe s)
include hbatch herror

/-- **From the first poll on, the loop has handled what stands in front of the first undecodable
record**, and it stays there. -/
theorem polls_eq (s : σ) (k : Nat) :
    ((pollStep decode log onBatch onError)^[k + 1] (0, s)).1 = (decodable decode log).length
      ∧ observe ((pollStep decode log onBatch onError)^[k + 1] (0, s)).2
          = observe s ++ (decodable decode log).flatMap handle := by
  induction k with
  | zero =>
      rw [Nat.zero_add, Function.iterate_one]
      rcases poll_start decode log with hok | ⟨e, herr, hnil⟩
      · rw [pollStep_ok hok]
        exact ⟨rfl, hbatch _ _⟩
      · rw [pollStep_error herr, hnil, List.flatMap_nil, List.append_nil]
        exact ⟨rfl, herror _ _⟩
  | succ k ih =>
      rw [Function.iterate_succ_apply']
      obtain ⟨hpos, hobs⟩ := ih
      rcases poll_again decode log with hend | ⟨e, herr⟩
      · rw [← hpos] at hend
        rw [pollStep_ok hend]
        refine ⟨hpos, ?_⟩
        rw [hbatch, hobs, List.flatMap_nil, List.append_nil]
      · rw [← hpos] at herr
        rw [pollStep_error herr]
        refine ⟨hpos, ?_⟩
        rw [herror, hobs]

/-- **Any number of polls is enough exactly when one is.** -/
theorem polls_reach_iff (s : σ) {n : Nat} (hn : 1 ≤ n) :
    (∃ k ≤ n, observe ((pollStep decode log onBatch onError)^[k] (0, s)).2
        = observe s ++ (decoded decode log).flatMap handle)
      ↔ (decodable decode log).flatMap handle = (decoded decode log).flatMap handle := by
  constructor
  · rintro ⟨k, -, hk⟩
    cases k with
    | zero =>
        have hnone := List.self_eq_append_right.mp hk
        obtain ⟨more, hmore⟩ := decodable_prefix_decoded decode log
        rw [← hmore, List.flatMap_append, List.append_eq_nil_iff] at hnone
        rw [← hmore, List.flatMap_append, hnone.1, hnone.2]
        rfl
    | succ k =>
        rw [(polls_eq log hbatch herror s k).2] at hk
        exact List.append_cancel_left hk
  · intro hclear
    refine ⟨1, hn, ?_⟩
    rw [← hclear]
    exact (polls_eq log hbatch herror s 0).2

end Observed

end KafKatch.Lib
