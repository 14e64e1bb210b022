/-
  KafKatch.Sniffer.Export
  ───────────────────────
  **WHAT BECOMES OF A FLOW THAT `rd_kafka_producev` REFUSES.**

  `KafkaClient.lean` says what `kafka_client_send_flows` writes; here is whom it writes to.
  librdkafka is a parameter: it answers every `rd_kafka_producev` as it likes, enqueues a message
  exactly when it answers with no error, and calls `dr_msg_cb` for enqueued messages only.  The
  loop discards the answer and frees the node either way, so a refused flow is in no table, in no
  queue, and no callback is ever made for it (`accounted_iff`).
-/
import KafKatch.Sniffer.KafkaClient

namespace KafKatch.Sniffer.Export

/-! ## §1. The producer. -/

/-- `rd_kafka_resp_err_t`: librdkafka's numeric error codes. -/
abbrev RdKafkaRespErrT := Int32

def RD_KAFKA_RESP_ERR_NO_ERROR : RdKafkaRespErrT := 0
def RD_KAFKA_RESP_ERR_QUEUE_FULL : RdKafkaRespErrT := -184

/-- A message, with the number of the `rd_kafka_producev` call that brought it. -/
structure Message where
  call : Nat
  payload : String
  deriving Repr, DecidableEq

/-- A line that `dr_msg_cb` writes to the error log, and the message it is about. -/
structure LogLine where
  message : Message
  text : String
  deriving Repr, DecidableEq

/-- librdkafka's behaviour.  `producev` is what each call returns; `poll` and `flush` are the
delivery reports served by each of the two, for the messages they have one for. -/
structure Librdkafka where
  producev : Nat → RdKafkaRespErrT
  poll : Nat → Option RdKafkaRespErrT
  flush : Nat → Option RdKafkaRespErrT
  rd_kafka_err2str : RdKafkaRespErrT → String

/-- `rd_kafka_t`: the calls made so far, the messages accepted so far, those whose delivery
report is outstanding, and the error log.  Only accepted messages are ever reported. -/
structure Producer where
  calls : Nat
  accepted : List Message
  queue : List Message
  log : List LogLine
  accepted_lt : ∀ m ∈ accepted, m.call < calls
  queue_accepted : ∀ m ∈ queue, m ∈ accepted
  log_accepted : ∀ line ∈ log, line.message ∈ accepted

/-- A producer as `kafka_client_init` returns it. -/
def Producer.new : Producer := ⟨0, [], [], [], by simp, by simp, by simp⟩

section Operations

variable (lib : Librdkafka) (producer : Producer)

/-- The message enters the queue. -/
def Producer.enqueue (payload : String) : Producer where
  calls := producer.calls + 1
  accepted := producer.accepted ++ [⟨producer.calls, payload⟩]
  queue := producer.queue ++ [⟨producer.calls, payload⟩]
  log := producer.log
  accepted_lt := by
    intro m hm
    rcases List.mem_append.mp hm with hm | hm
    · exact Nat.lt_succ_of_lt (producer.accepted_lt m hm)
    · rw [List.mem_singleton.mp hm]
      exact Nat.lt_succ_self producer.calls
  queue_accepted := by
    intro m hm
    rcases List.mem_append.mp hm with hm | hm
    · exact List.mem_append_left _ (producer.queue_accepted m hm)
    · exact List.mem_append_right _ hm
  log_accepted line hline := List.mem_append_left _ (producer.log_accepted line hline)

/-- The message is refused. -/
def Producer.refuse : Producer where
  calls := producer.calls + 1
  accepted := producer.accepted
  queue := producer.queue
  log := producer.log
  accepted_lt m hm := Nat.lt_succ_of_lt (producer.accepted_lt m hm)
  queue_accepted := producer.queue_accepted
  log_accepted := producer.log_accepted

/-- `rd_kafka_producev`. -/
def rd_kafka_producev (payload : String) : RdKafkaRespErrT × Producer :=
  if lib.producev producer.calls = RD_KAFKA_RESP_ERR_NO_ERROR then
    (RD_KAFKA_RESP_ERR_NO_ERROR, producer.enqueue payload)
  else
    (lib.producev producer.calls, producer.refuse)

/-- `dr_msg_cb` on the delivery report of `message`. -/
def dr_msg_cb (message : Message) (err : RdKafkaRespErrT) : List LogLine :=
  if err ≠ RD_KAFKA_RESP_ERR_NO_ERROR then
    [⟨message, "Falha na entrega da mensagem: " ++ lib.rd_kafka_err2str err⟩]
  else []

theorem dr_msg_cb_message {message : Message} {err : RdKafkaRespErrT} {line : LogLine}
    (h : line ∈ dr_msg_cb lib message err) : line.message = message := by
  unfold dr_msg_cb at h
  split at h
  · rw [List.mem_singleton.mp h]
  · cases h

/-- One round of callbacks: the reports at hand are served, each message leaving the queue. -/
def Producer.serve (report : Nat → Option RdKafkaRespErrT) : Producer where
  calls := producer.calls
  accepted := producer.accepted
  queue := producer.queue.filter fun m => (report m.call).isNone
  log := producer.log
    ++ producer.queue.flatMap fun m => (report m.call).elim [] (dr_msg_cb lib m)
  accepted_lt := producer.accepted_lt
  queue_accepted m hm := producer.queue_accepted m (List.mem_filter.mp hm).1
  log_accepted := by
    intro line hline
    rcases List.mem_append.mp hline with hline | hline
    · exact producer.log_accepted line hline
    · obtain ⟨m, hm, hline⟩ := List.mem_flatMap.mp hline
      cases hr : report m.call with
      | none =>
          rw [hr] at hline
          cases hline
      | some err =>
          rw [hr] at hline
          rw [dr_msg_cb_message lib hline]
          exact producer.queue_accepted m hm

def rd_kafka_poll : Producer := producer.serve lib lib.poll

def rd_kafka_flush : Producer := producer.serve lib lib.flush

end Operations

/-! ## §2. The export loop. -/

section Loop

variable (lib : Librdkafka)

/-- The `HASH_ITER` loop: what is left of the table shrinks from its head. -/
def send_loop (producer : Producer) : List FlowT → Producer × List FlowT
  | [] => (producer, [])
  | current_flow :: tmp =>
      -- the error code is dropped, and `HASH_DEL` and `free` follow whatever it was
      let (_, producer) := rd_kafka_producev lib producer (json_payload current_flow)
      send_loop producer tmp

/-- `kafka_client_send_flows`: the producer and the table it leaves behind. -/
def kafka_client_send_flows (producer : Option Producer) (flow_table : List FlowT) :
    Option Producer × List FlowT :=
  match producer with
  | none => (none, flow_table)
  | some producer =>
      if flow_table = [] then (some producer, flow_table)
      else
        let (producer, flow_table) := send_loop lib producer flow_table
        (some (rd_kafka_flush lib (rd_kafka_poll lib producer)), flow_table)

variable (producer : Producer)

@[simp] theorem send_loop_nil : send_loop lib producer [] = (producer, []) := rfl

theorem send_loop_cons (flow : FlowT) (tmp : List FlowT) :
    send_loop lib producer (flow :: tmp)
      = send_loop lib (rd_kafka_producev lib producer (json_payload flow)).2 tmp := rfl

@[simp] theorem rd_kafka_producev_calls (payload : String) :
    (rd_kafka_producev lib producer payload).2.calls = producer.calls + 1 := by
  unfold rd_kafka_producev
  split <;> rfl

theorem mem_accepted_producev (payload : String) (m : Message) :
    m ∈ (rd_kafka_producev lib producer payload).2.accepted
      ↔ m ∈ producer.accepted
        ∨ (lib.producev producer.calls = RD_KAFKA_RESP_ERR_NO_ERROR
          ∧ m = ⟨producer.calls, payload⟩) := by
  unfold rd_kafka_producev
  by_cases hok : lib.producev producer.calls = RD_KAFKA_RESP_ERR_NO_ERROR
  · rw [if_pos hok]
    show m ∈ producer.accepted ++ [⟨producer.calls, payload⟩] ↔ _
    simp [hok]
  · rw [if_neg hok]
    show m ∈ producer.accepted ↔ _
    simp [hok]

/-- Nothing is left of the table. -/
theorem send_loop_table (flow_table : List FlowT) :
    (send_loop lib producer flow_table).2 = [] := by
  induction flow_table generalizing producer with
  | nil => rfl
  | cons flow tmp ih =>
      rw [send_loop_cons]
      exact ih _

/-- **What the loop adds to the accepted messages**: the message of each flow whose call was
answered with no error. -/
theorem mem_accepted_send_loop (flow_table : List FlowT) (m : Message) :
    m ∈ (send_loop lib producer flow_table).1.accepted
      ↔ m ∈ producer.accepted
        ∨ ∃ i, ∃ hi : i < flow_table.length,
            lib.producev (producer.calls + i) = RD_KAFKA_RESP_ERR_NO_ERROR
              ∧ m = ⟨producer.calls + i, json_payload flow_table[i]⟩ := by
  induction flow_table generalizing producer with
  | nil => simp
  | cons flow tmp ih =>
      rw [send_loop_cons, ih, mem_accepted_producev, rd_kafka_producev_calls, or_assoc]
      apply or_congr_right
      constructor
      · rintro (⟨hok, rfl⟩ | ⟨i, hi, hok, rfl⟩)
        · exact ⟨0, Nat.zero_lt_succ _, hok, rfl⟩
        · rw [Nat.add_right_comm, Nat.add_assoc] at hok ⊢
          exact ⟨i + 1, Nat.succ_lt_succ hi, hok, rfl⟩
      · rintro ⟨i, hi, hok, rfl⟩
        cases i with
        | zero => exact .inl ⟨hok, rfl⟩
        | succ i =>
            right
            refine ⟨i, Nat.lt_of_succ_lt_succ hi, ?_, ?_⟩
            · rw [Nat.add_right_comm, Nat.add_assoc]
              exact hok
            · rw [Nat.add_right_comm, Nat.add_assoc]
              rfl

end Loop

/-! ## §3. Accounting for every flow. -/

section Accounting

variable (lib : Librdkafka)

/-- The `i`-th flow of the table after `kafka_client_send_flows`: its message was accepted, or
the flow is still in the table, or the error log has a line about its message. -/
def Accounted (producer : Option Producer) (flow_table : List FlowT) (i : Nat)
    (hi : i < flow_table.length) : Prop :=
  (∃ before ∈ producer, ∃ after ∈ (kafka_client_send_flows lib producer flow_table).1,
      ⟨before.calls + i, json_payload flow_table[i]⟩ ∈ after.accepted)
    ∨ flow_table[i] ∈ (kafka_client_send_flows lib producer flow_table).2
    ∨ (∃ before ∈ producer, ∃ after ∈ (kafka_client_send_flows lib producer flow_table).1,
        ∃ line ∈ after.log, line.message.call = before.calls + i)

/-- Serving callbacks neither accepts nor takes back a message. -/
theorem send_flows_some (producer : Producer) {flow_table : List FlowT} (hne : flow_table ≠ []) :
    ∃ after : Producer, kafka_client_send_flows lib (some producer) flow_table = (some after, [])
      ∧ after.accepted = (send_loop lib producer flow_table).1.accepted := by
  refine ⟨rd_kafka_flush lib (rd_kafka_poll lib (send_loop lib producer flow_table).1), ?_, rfl⟩
  rw [← send_loop_table lib producer flow_table]
  exact if_neg hne

variable {lib}

/-- A message accepted under the number of a flow's call was accepted at that call. -/
theorem producev_of_accepted (producer : Producer) {flow_table : List FlowT} {m : Message}
    {i : Nat} (hm : m ∈ (send_loop lib producer flow_table).1.accepted)
    (hcall : m.call = producer.calls + i) :
    lib.producev (producer.calls + i) = RD_KAFKA_RESP_ERR_NO_ERROR := by
  rcases (mem_accepted_send_loop lib producer flow_table m).mp hm with hold | ⟨j, hj, hok, rfl⟩
  · have := producer.accepted_lt m hold
    omega
  · have hij : producer.calls + j = producer.calls + i := hcall
    rw [← hij]
    exact hok

/-- **One flow is accounted for exactly when its own call was answered with no error**; a log line
needs an accepted message. -/
theorem accounted_some_iff (producer : Producer) {flow_table : List FlowT} {i : Nat}
    (hi : i < flow_table.length) :
    Accounted lib (some producer) flow_table i hi
      ↔ lib.producev (producer.calls + i) = RD_KAFKA_RESP_ERR_NO_ERROR := by
  have hne : flow_table ≠ [] := List.ne_nil_of_length_pos (Nat.zero_lt_of_lt hi)
  obtain ⟨after, hafter, haccepted⟩ := send_flows_some lib producer hne
  unfold Accounted
  rw [hafter]
  constructor
  · rintro (⟨before, hb, p, hp, hm⟩ | hin | ⟨before, hb, p, hp, line, hline, hcall⟩)
    · cases hb
      cases hp
      rw [haccepted] at hm
      exact producev_of_accepted producer hm rfl
    · cases hin
    · cases hb
      cases hp
      have hm := after.log_accepted line hline
      rw [haccepted] at hm
      exact producev_of_accepted producer hm hcall
  · intro hok
    refine .inl ⟨producer, rfl, after, rfl, ?_⟩
    rw [haccepted, mem_accepted_send_loop]
    exact .inr ⟨i, hi, hok, rfl⟩

/-- **No flow is dropped silently exactly when there is no producer or it refuses none of the
table's messages.** -/
theorem accounted_iff (producer : Option Producer) (flow_table : List FlowT) :
    (∀ (i : Nat) (hi : i < flow_table.length), Accounted lib producer flow_table i hi)
      ↔ ∀ p ∈ producer, ∀ i < flow_table.length,
          lib.producev (p.calls + i) = RD_KAFKA_RESP_ERR_NO_ERROR := by
  cases producer with
  | none =>
      constructor
      · intro _ p hp
        cases hp
      · intro _ i hi
        exact .inr (.inl (List.getElem_mem hi))
  | some producer =>
      constructor
      · intro hall p hp i hi
        cases hp
        exact (accounted_some_iff producer hi).mp (hall i hi)
      · intro hok i hi
        exact (accounted_some_iff producer hi).mpr (hok producer rfl i hi)

/-- A queue with room for one message. -/
def one_slot : Librdkafka where
  producev call :=
    if call = 0 then RD_KAFKA_RESP_ERR_NO_ERROR else RD_KAFKA_RESP_ERR_QUEUE_FULL
  poll _ := none
  flush _ := none
  rd_kafka_err2str _ := "Local: Queue full"

/-- Two flows of one window. -/
def two_flows : List FlowT :=
  [flow_create ⟨0x0100000a, 0x08080808, 0x3930, 0xbb01, IPPROTO_TCP⟩,
    flow_create ⟨0x0100000a, 0x08080808, 0x3a30, 0x3500, IPPROTO_UDP⟩]

/-- The first flow is accepted; the second is refused and freed, and the log stays empty. -/
theorem refused_flow_lost :
    (kafka_client_send_flows one_slot (some Producer.new) two_flows).2 = []
      ∧ ((kafka_client_send_flows one_slot (some Producer.new) two_flows).1.map fun p =>
          (p.accepted.map Message.call, p.log)) = some ([0], [])
      ∧ ¬ ∀ (lib : Librdkafka) (producer : Option Producer) (flow_table : List FlowT) (i : Nat)
          (hi : i < flow_table.length), Accounted lib producer flow_table i hi := by
  refine ⟨rfl, rfl, fun hall => ?_⟩
  have hsecond := (accounted_some_iff Producer.new _).mp
    (hall one_slot (some Producer.new) two_flows 1 (by decide))
  exact absurd hsecond (by decide)

end Accounting

end KafKatch.Sniffer.Export
