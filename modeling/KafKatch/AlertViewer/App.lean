/-
  KafKatch.AlertViewer.App
  ────────────────────────
  **THE ALERT VIEWER (`App.java`, `Notifier.java`) ON ONE PARTITION OF `network-warnings`.**

  The loop polls, carries on when a poll throws, and turns every warning of a batch into a popup.
  Since `WarningDeserializer` throws inside the poll and the loop does not move the consumer past
  the record that made it throw, the viewer shows the warnings in front of the first undecodable
  record and no other (`notified_succ`).

  Jackson, two-slices and the consumer's own exception texts are parameters (`Env`).
-/
import KafKatch.Lib.LogConsumer

namespace KafKatch.AlertViewer

open KafKatch.Lib

/-! ## §1. Warnings and popups. -/

/-- A `Warning` as Jackson fills it: a property that the document lacks stays `null`. -/
structure Warning where
  severidade : Option String
  descricao : Option String
  deriving Repr, DecidableEq

/-- What string concatenation makes of a `String`. -/
def concat (s : Option String) : String := s.getD "null"

/-- `Warning.toString`. -/
def Warning.toString (warning : Warning) : String :=
  "[" ++ concat warning.severidade ++ "] " ++ concat warning.descricao

inductive ToastType where
  | NONE
  | INFO
  | WARNING
  | ERROR
  deriving Repr, DecidableEq

/-- What the viewer does, in order: a `Toast.toast` with the warning's description, a line on
`System.out`, a line on `System.err`. -/
inductive Event where
  | toast (warning : Warning) (type : ToastType) (titulo : String)
  | out (line : String)
  | err (line : String)
  deriving Repr, DecidableEq

/-- The warnings that a popup was raised for. -/
def notified (events : List Event) : List Warning :=
  events.filterMap fun
    | .toast warning _ _ => some warning
    | _ => none

/-- The libraries: `ObjectMapper.readValue` (`none` for the document `null`), whether a call of
`Toast.toast` throws and with which message, which may depend on all that happened before it, and
the message of the exception that `poll` throws around the deserializer's. -/
structure Env where
  readValue : List UInt8 → Except String (Option Warning)
  toast : List Event → ToastType → String → Option String → Except String Unit
  pollMessage : String → String

variable (env : Env)

/-- `WarningDeserializer.deserialize`. -/
def deserialize (data : Option (List UInt8)) : Except String (Option Warning) :=
  match data with
  | none => .ok none
  | some data =>
      match env.readValue data with
      | .ok warning => .ok warning
      | .error _ => .error "Erro ao desserializar Warning"

namespace Notifier

/-- `toastTypeFor`, with the lines it writes to `System.err`. -/
def toastTypeFor (severidade : Option String) : List Event × ToastType :=
  match severidade with
  | none =>
      ([.err "[TOAST] Severidade nula recebida, usando ToastType.INFO como fallback."], .INFO)
  | some severidade =>
      -- only ASCII letters have these lower-case words as their image
      if severidade.toLower = "alta" then ([], .ERROR)
      else if severidade.toLower = "media" then ([], .WARNING)
      else if severidade.toLower = "regular" then ([], .INFO)
      else
        ([.err ("[TOAST] Severidade desconhecida \"" ++ severidade
          ++ "\", usando ToastType.INFO como fallback.")], .INFO)

/-- `notify`: what it does after `past`, and the message of the exception it ends with, if any. -/
def notify (past : List Event) (warning : Warning) : List Event × Option String :=
  let (lines, type) := toastTypeFor warning.severidade
  let titulo := "Alerta de rede [" ++ concat warning.severidade ++ "]"
  match env.toast past type titulo warning.descricao with
  | .error message => (lines ++ [.toast warning type titulo], some message)
  | .ok _ =>
      (lines ++ [.toast warning type titulo,
        .out ("[TOAST] " ++ titulo ++ " -> " ++ concat warning.descricao)], none)

end Notifier

/-! ## §2. The loop. -/

namespace App

/-- The body of the `for` over the records of a batch. -/
def onRecord (events : List Event) (value : Option Warning) : List Event :=
  match value with
  | none => events ++ [.err "Warning nulo recebido, ignorando registro."]
  | some warning =>
      let events := events ++ [.out ("Warning recebido: " ++ warning.toString)]
      match Notifier.notify env events warning with
      | (done, none) => events ++ done
      | (done, some message) =>
          events ++ done ++ [.err ("[Erro ao processar mensagem: " ++ message)]

/-- One round of `while (true)`: the position of the consumer, and what was done so far. -/
def round (log : List (Option (List UInt8))) : Nat × List Event → Nat × List Event :=
  pollStep (deserialize env) log
    (fun events records => records.foldl (onRecord env) events)
    -- `continue`: the consumer still stands in front of the same record
    (fun events e =>
      events ++ [.err ("Erro ao consumir/desserializar mensagens: " ++ env.pollMessage e)])

/-- What the viewer has done after `k` polls. -/
def polled (log : List (Option (List UInt8))) (k : Nat) : List Event :=
  ((round env log)^[k] (0, [])).2

end App

/-- The decodable warnings of a log that are not `null`. -/
def warnings (log : List (Option (List UInt8))) : List Warning :=
  log.filterMap fun data =>
    match deserialize env data with
    | .ok warning => warning
    | .error _ => none

/-! ## §3. Which warnings are shown. -/

section Shown

/-- What the popups among some events say, each seen through `f`. -/
def popupsBy {γ : Type} (f : Warning → ToastType → String → γ) (events : List Event) : List γ :=
  events.filterMap fun
    | .toast warning type titulo => some (f warning type titulo)
    | _ => none

/-- The popup of a warning, seen through `f`. -/
def popup {γ : Type} (f : Warning → ToastType → String → γ) (warning : Warning) : γ :=
  f warning (Notifier.toastTypeFor warning.severidade).2
    ("Alerta de rede [" ++ concat warning.severidade ++ "]")

section Popups

variable {γ : Type} (f : Warning → ToastType → String → γ)

theorem popupsBy_append (events events' : List Event) :
    popupsBy f (events ++ events') = popupsBy f events ++ popupsBy f events' :=
  List.filterMap_append

/-- A line on `System.out` is no popup. -/
theorem popupsBy_out (events : List Event) (line : String) :
    popupsBy f (events ++ [.out line]) = popupsBy f events := by
  rw [popupsBy_append]
  exact List.append_nil _

/-- Nor is one on `System.err`. -/
theorem popupsBy_err (events : List Event) (line : String) :
    popupsBy f (events ++ [.err line]) = popupsBy f events := by
  rw [popupsBy_append]
  exact List.append_nil _

/-- The severity lines are no popups. -/
theorem popupsBy_toastTypeFor (severidade : Option String) :
    popupsBy f (Notifier.toastTypeFor severidade).1 = [] := by
  unfold Notifier.toastTypeFor
  cases severidade with
  | none => rfl
  | some severidade =>
      dsimp only
      split
      · rfl
      · split
        · rfl
        · split <;> rfl

/-- One popup per warning, whether or not it can be drawn. -/
theorem popupsBy_notify (past : List Event) (warning : Warning) :
    popupsBy f (Notifier.notify env past warning).1 = [popup f warning] := by
  have hlines := popupsBy_toastTypeFor f warning.severidade
  unfold Notifier.notify popup
  cases ht : Notifier.toastTypeFor warning.severidade with
  | mk lines type =>
      rw [ht] at hlines
      dsimp only at hlines ⊢
      cases env.toast past type ("Alerta de rede [" ++ concat warning.severidade ++ "]")
          warning.descricao with
      | ok _ =>
          rw [popupsBy_append, hlines]
          rfl
      | error message =>
          rw [popupsBy_append, hlines]
          rfl

/-- A record adds the popup of its warning, if it is one. -/
theorem popupsBy_onRecord (events : List Event) (value : Option Warning) :
    popupsBy f (App.onRecord env events value) = popupsBy f events ++ value.toList.map (popup f) := by
  unfold App.onRecord
  cases value with
  | none => exact (popupsBy_err f events _).trans (List.append_nil _).symm
  | some warning =>
      dsimp only
      have hnotify := popupsBy_notify env f
        (events ++ [.out ("Warning recebido: " ++ warning.toString)]) warning
      cases hn : Notifier.notify env (events ++ [.out ("Warning recebido: " ++ warning.toString)])
          warning with
      | mk done message =>
          rw [hn] at hnotify
          cases message with
          | none =>
              dsimp only at hnotify ⊢
              rw [popupsBy_append, popupsBy_out, hnotify]
              rfl
          | some message =>
              -- the exception comes after the popup
              dsimp only at hnotify ⊢
              rw [popupsBy_err, popupsBy_append, popupsBy_out, hnotify]
              rfl

/-- So do the records of a batch, in order. -/
theorem popupsBy_batch (events : List Event) (records : List (Option Warning)) :
    popupsBy f (records.foldl (App.onRecord env) events)
      = popupsBy f events ++ records.flatMap (fun value => value.toList.map (popup f)) := by
  induction records generalizing events with
  | nil => exact (List.append_nil _).symm
  | cons value records ih =>
      rw [List.foldl_cons, ih, popupsBy_onRecord, List.flatMap_cons, List.append_assoc]

/-- **From the first poll on, the viewer has shown what stands in front of the first undecodable
record.** -/
theorem popupsBy_succ (log : List (Option (List UInt8))) (k : Nat) :
    popupsBy f (App.polled env log (k + 1))
      = (decodable (deserialize env) log).flatMap (fun value => value.toList.map (popup f)) :=
  (polls_eq log (popupsBy_batch env f) (fun events _ => popupsBy_err f events _) [] k).2

end Popups

/-- Seen by its warning, a popup is its warning. -/
theorem map_popup (value : Option Warning) :
    value.toList.map (popup (fun warning _ _ => warning)) = value.toList :=
  List.map_id _

/-- Every warning of a batch is notified. -/
theorem notified_batch (events : List Event) (records : List (Option Warning)) :
    notified (records.foldl (App.onRecord env) events)
      = notified events ++ records.flatMap Option.toList := by
  have hbatch := popupsBy_batch env (fun warning _ _ => warning) events records
  simp only [map_popup] at hbatch
  exact hbatch

/-- A poll that fails notifies nothing. -/
theorem notified_failure (events : List Event) (e : String) :
    notified (events ++ [.err ("Erro ao consumir/desserializar mensagens: " ++ env.pollMessage e)])
      = notified events :=
  popupsBy_err (fun warning _ _ => warning) events _

/-- The warnings of a log are those that its decoded values hold. -/
theorem warnings_eq (log : List (Option (List UInt8))) :
    warnings env log = (decoded (deserialize env) log).flatMap Option.toList := by
  induction log with
  | nil => rfl
  | cons data log ih =>
      cases h : deserialize env data with
      | ok warning =>
          rw [decoded_cons_ok h, List.flatMap_cons, ← ih]
          cases warning with
          | none => exact List.filterMap_cons_none (by rw [h])
          | some warning => exact List.filterMap_cons_some (by rw [h])
      | error e =>
          rw [decoded_cons_error h, ← ih]
          exact List.filterMap_cons_none (by rw [h])

/-- **From the first poll on, the viewer has shown the warnings in front of the first undecodable
record.** -/
theorem notified_succ (log : List (Option (List UInt8))) (k : Nat) :
    notified (App.polled env log (k + 1))
      = (decodable (deserialize env) log).flatMap Option.toList :=
  (polls_eq log (notified_batch env) (notified_failure env) [] k).2

/-- **The viewer shows all warnings of a log, each once and in order, exactly when none of them
stands behind an undecodable record.** -/
theorem all_notified_iff (log : List (Option (List UInt8))) :
    (∃ k ≤ 2 * log.length + 1, notified (App.polled env log k) = warnings env log)
      ↔ ∀ before bad after e, log = before ++ bad :: after → deserialize env bad = .error e →
          warnings env after = [] := by
  have hreach : (∃ k ≤ 2 * log.length + 1, notified (App.polled env log k)
      = (decoded (deserialize env) log).flatMap Option.toList) ↔ _ :=
    polls_reach_iff log (notified_batch env) (notified_failure env) [] (Nat.le_add_left 1 _)
  have hclear := clear_iff (deserialize env) Option.toList log
  simp only [← warnings_eq] at hreach hclear
  exact hreach.trans hclear

/-- Jackson on two documents: an empty object, and an object that is cut off. -/
def two_documents : Env where
  readValue data :=
    if data = [0x7b, 0x7d] then .ok (some ⟨none, none⟩) else .error "Unexpected end-of-input"
  toast _ _ _ _ := .ok ()
  pollMessage message := message

/-- A cut-off document in front of a warning: the warning is never shown. -/
theorem malformed_blocks :
    warnings two_documents [some [0x7b], some [0x7b, 0x7d]] = [⟨none, none⟩]
      ∧ (∀ k, notified (App.polled two_documents [some [0x7b], some [0x7b, 0x7d]] k) = [])
      ∧ ¬ ∀ (env : Env) (log : List (Option (List UInt8))),
          ∃ k ≤ 2 * log.length + 1, notified (App.polled env log k) = warnings env log := by
  have hnever : ∀ k,
      notified (App.polled two_documents [some [0x7b], some [0x7b, 0x7d]] k) = [] := by
    intro k
    cases k with
    | zero => rfl
    | succ k =>
        rw [notified_succ]
        rfl
  refine ⟨rfl, hnever, fun hall => ?_⟩
  obtain ⟨k, -, hk⟩ := hall two_documents [some [0x7b], some [0x7b, 0x7d]]
  rw [hnever] at hk
  cases hk

end Shown

end KafKatch.AlertViewer
