/-
  KafKatch.Sniffer.Lifecycle
  ──────────────────────────
  **WHAT `main` ACQUIRES AND RELEASES** (`main.c`, `kafka_client_init`, `kafka_client_cleanup`).

  `main` is the list of the library calls it makes, given what they return.  Whatever fails, each
  device list, configuration, producer, mutex, thread and capture handle that was acquired is
  released once and not used afterwards, and the flush thread never outlives the mutex and the
  producer it works with (`main_releases`).

  The handler of SIGINT works on `global_pcap_handle`, which `main` does not reset.  It is safe
  exactly as long as the handle has not been closed (`sigint_safe_iff`).
-/
import KafKatch.Lib.Ledger
import KafKatch.Sniffer.Capture

namespace KafKatch.Sniffer.Lifecycle

open KafKatch.Lib ExitStatus

/-! ## §1. Calls and their effects. -/

inductive Resource where
  | devs
  | conf
  | producer
  | mutex
  | thread
  | pcap
  deriving Repr, DecidableEq

/-- The library calls of `main` and its helpers; four of them carry whether they succeed. -/
inductive Call where
  | pcap_findalldevs (ok : Bool)
  | pcap_freealldevs
  | pcap_lookupnet
  | rd_kafka_conf_new
  | rd_kafka_conf_set
  | rd_kafka_conf_set_dr_msg_cb
  | rd_kafka_conf_destroy
  | rd_kafka_new (ok : Bool)
  | rd_kafka_flush
  | rd_kafka_destroy
  | rd_kafka_wait_destroyed
  | pthread_mutex_init
  | pthread_create (ok : Bool)
  | pthread_join
  | pthread_mutex_destroy
  | pcap_init
  | pcap_create (ok : Bool)
  | pcap_set_snaplen
  | pcap_set_promisc
  | pcap_set_immediate_mode
  | pcap_set_timeout
  | pcap_set_buffer_size
  | pcap_activate
  | pcap_geterr
  | pcap_datalink
  | pcap_close
  | signal
  | pcap_loop
  | pcap_stats
  | pcap_breakloop
  deriving Repr, DecidableEq

open Effect Resource in
/-- What a call does to the resources.  `rd_kafka_new` consumes the configuration if it succeeds,
and the callback of `pcap_loop` locks the mutex. -/
def Call.effects : Call → List (Effect Resource)
  | .pcap_findalldevs ok => if ok then [acquire devs] else []
  | .pcap_freealldevs => [release devs]
  | .rd_kafka_conf_new => [acquire conf]
  | .rd_kafka_conf_set | .rd_kafka_conf_set_dr_msg_cb => [use conf]
  | .rd_kafka_conf_destroy => [release conf]
  | .rd_kafka_new ok => if ok then [release conf, acquire producer] else [use conf]
  | .rd_kafka_flush => [use producer]
  | .rd_kafka_destroy => [release producer]
  | .pthread_mutex_init => [acquire mutex]
  | .pthread_create ok => if ok then [acquire thread] else []
  | .pthread_join => [release thread]
  | .pthread_mutex_destroy => [release mutex]
  | .pcap_create ok => if ok then [acquire pcap] else []
  | .pcap_set_snaplen | .pcap_set_promisc | .pcap_set_immediate_mode | .pcap_set_timeout
  | .pcap_set_buffer_size | .pcap_activate | .pcap_geterr | .pcap_datalink | .pcap_stats
  | .pcap_breakloop => [use pcap]
  | .pcap_loop => [use pcap, use mutex]
  | .pcap_close => [release pcap]
  | .pcap_lookupnet | .pcap_init | .signal | .rd_kafka_wait_destroyed => []

/-- The effects of some calls. -/
def effects (calls : List Call) : List (Effect Resource) := calls.flatMap Call.effects

/-! ## §2. The program. -/

/-- The number of arguments, and what the calls return. -/
structure Outcomes where
  argc : Nat
  findalldevs : Bool
  bootstrap_servers : Bool
  rd_kafka_new : Bool
  pthread_create : Int
  pcap_init : Int
  pcap_create : Bool
  set_snaplen : Int
  set_promisc : Int
  set_immediate_mode : Int
  set_timeout : Int
  set_buffer_size : Int
  activate : Int
  datalink : Int

def PCAP_ERROR : Int := -1

def DLT_EN10MB : Int := 1

section Program

variable (o : Outcomes)

/-- `list_devs`. -/
def list_devs : List Call :=
  if o.findalldevs then [.pcap_findalldevs true, .pcap_freealldevs]
  else [.pcap_findalldevs false]

/-- `kafka_client_init`, and whether it returns a producer. -/
def kafka_client_init : List Call × Bool :=
  if !o.bootstrap_servers then
    ([.rd_kafka_conf_new, .rd_kafka_conf_set, .rd_kafka_conf_destroy], false)
  else
    -- the results of the other two settings are not looked at
    let calls := [.rd_kafka_conf_new, .rd_kafka_conf_set, .rd_kafka_conf_set, .rd_kafka_conf_set,
      .rd_kafka_conf_set_dr_msg_cb, .rd_kafka_new o.rd_kafka_new]
    if o.rd_kafka_new then (calls, true) else (calls ++ [.rd_kafka_conf_destroy], false)

/-- `kafka_client_cleanup` of a producer. -/
def kafka_client_cleanup : List Call := [.rd_kafka_flush, .rd_kafka_destroy]

/-- The settings of the handle, each with what it returns. -/
def settings : List (Call × Int) :=
  [(.pcap_set_snaplen, o.set_snaplen), (.pcap_set_promisc, o.set_promisc),
   (.pcap_set_immediate_mode, o.set_immediate_mode), (.pcap_set_timeout, o.set_timeout),
   (.pcap_set_buffer_size, o.set_buffer_size)]

/-- One setting after the other; `if (err) goto err_close`. -/
def configure : List (Call × Int) → List Call × Bool
  | [] => ([], true)
  | (call, err) :: rest =>
      if err ≠ 0 then ([call], false) else (call :: (configure rest).1, (configure rest).2)

/-- `setup_pcap` from the first setting on, and whether it gets past every `goto err_close`. -/
def open_handle : List Call × Bool :=
  if !(configure (settings o)).2 then ((configure (settings o)).1, false)
  else
    let calls := (configure (settings o)).1 ++ [.pcap_activate]
    if o.activate < 0 then (calls ++ [.pcap_geterr], false)
    else if 0 < o.activate then
      (calls ++ [.pcap_geterr, .pcap_datalink], decide (o.datalink = DLT_EN10MB))
    else (calls ++ [.pcap_datalink], decide (o.datalink = DLT_EN10MB))

/-- `setup_pcap`, and whether it returns a handle. -/
def setup_pcap : List Call × Bool :=
  if !o.pcap_create then ([.pcap_create false], false)
  else if (open_handle o).2 then (.pcap_create true :: (open_handle o).1, true)
  -- `err_close`
  else (.pcap_create true :: (open_handle o).1 ++ [.pcap_close], false)

/-- From `err_kafka` on. -/
def err_kafka : List Call := .pthread_mutex_destroy :: kafka_client_cleanup

/-- From `err_thread` on. -/
def err_thread : List Call := .pthread_join :: err_kafka

/-- Up to the creation of the flush thread. -/
def prologue : List Call := .pcap_lookupnet :: (kafka_client_init o).1 ++ [.pthread_mutex_init]

/-- From the creation of the flush thread on. -/
def with_thread : List Call := [.pthread_create true, .pcap_init]

/-- What follows the registration of the handler. -/
def capture : List Call :=
  [.pcap_loop, .pcap_stats, .pthread_join, .pthread_mutex_destroy, .pcap_close]
    ++ kafka_client_cleanup ++ [.rd_kafka_wait_destroyed]

/-- `main`: its calls, and the status it returns. -/
def main : List Call × ExitStatus :=
  if o.argc < 2 then (list_devs o, EXIT_FAILURE)
  else if !(kafka_client_init o).2 then (.pcap_lookupnet :: (kafka_client_init o).1, EXIT_FAILURE)
  else if o.pthread_create ≠ 0 then
    (prologue o ++ .pthread_create false :: err_kafka, EXIT_FAILURE)
  else if o.pcap_init = PCAP_ERROR then
    (prologue o ++ with_thread ++ err_thread, EXIT_FAILURE)
  else if !(setup_pcap o).2 then
    (prologue o ++ with_thread ++ (setup_pcap o).1 ++ err_thread, EXIT_FAILURE)
  else
    (prologue o ++ with_thread ++ (setup_pcap o).1 ++ .signal :: capture, EXIT_SUCCESS)

end Program

/-- `handle_sigint`, once the handler is registered: `global_pcap_handle` is not NULL any more. -/
def handle_sigint : List Call := [.pcap_breakloop]

/-! ## §3. One function after the other. -/

open Resource

/-- A running flush thread has its mutex and its producer. -/
def ThreadServed (held : Finset Resource) : Prop :=
  thread ∈ held → mutex ∈ held ∧ producer ∈ held

instance : DecidablePred ThreadServed := fun held =>
  inferInstanceAs (Decidable (thread ∈ held → mutex ∈ held ∧ producer ∈ held))

/-- The calls, with the thread served after each effect. -/
def serve (held : Finset Resource) (calls : List Call) : Option (Finset Resource) :=
  run (guarded ThreadServed) held (effects calls)

theorem serve_append (held : Finset Resource) (calls calls' : List Call) :
    serve held (calls ++ calls') = (serve held calls).bind (fun held => serve held calls') := by
  unfold serve effects
  rw [List.flatMap_append, run_append]

theorem serve_cons (held : Finset Resource) (call : Call) (calls : List Call) :
    serve held (call :: calls) = (serve held [call]).bind (fun held => serve held calls) :=
  serve_append held [call] calls

theorem list_devs_serve (o : Outcomes) : serve ∅ (list_devs o) = some ∅ := by
  unfold list_devs
  cases o.findalldevs <;> rfl

/-- `kafka_client_init` leaves a producer or nothing. -/
theorem kafka_client_init_serve (o : Outcomes) :
    serve ∅ (kafka_client_init o).1
      = some (if (kafka_client_init o).2 then {producer} else ∅) := by
  unfold kafka_client_init
  cases o.bootstrap_servers with
  | false => rfl
  | true => cases o.rd_kafka_new <;> rfl

/-- Calls that only use the handle. -/
theorem serve_uses {held : Finset Resource} (hserved : ThreadServed held) (hpcap : pcap ∈ held)
    {calls : List Call} (h : ∀ call ∈ calls, call.effects = [.use pcap]) :
    serve held calls = some held := by
  induction calls with
  | nil => rfl
  | cons call calls ih =>
      have hcall : serve held [call] = some held := by
        unfold serve effects
        rw [List.flatMap_cons, List.flatMap_nil, h call List.mem_cons_self]
        exact Option.bind_eq_some_iff.mpr
          ⟨held, guarded_eq_some.mpr ⟨touch_use hpcap, hserved⟩, rfl⟩
      rw [serve_cons, hcall, Option.bind_some]
      exact ih (fun other hother => h other (List.mem_cons_of_mem call hother))

theorem configure_uses {settings : List (Call × Int)}
    (h : ∀ setting ∈ settings, setting.1.effects = [.use pcap]) :
    ∀ call ∈ (configure settings).1, call.effects = [.use pcap] := by
  induction settings with
  | nil => exact fun _ h => absurd h List.not_mem_nil
  | cons setting rest ih =>
      obtain ⟨call, err⟩ := setting
      have hcall : call.effects = [.use pcap] := h (call, err) List.mem_cons_self
      have hrest := ih (fun other hother => h other (List.mem_cons_of_mem _ hother))
      intro other hother
      unfold configure at hother
      split at hother
      · rw [List.mem_singleton.mp hother]
        exact hcall
      · rcases List.mem_cons.mp hother with rfl | hother
        · exact hcall
        · exact hrest other hother

/-- Up to its end `setup_pcap` only uses the handle it created. -/
theorem open_handle_uses (o : Outcomes) :
    ∀ call ∈ (open_handle o).1, call.effects = [.use pcap] := by
  have hsettings : ∀ setting ∈ settings o, setting.1.effects = [.use pcap] := by
    intro setting h
    unfold settings at h
    simp only [List.mem_cons, List.not_mem_nil, or_false] at h
    rcases h with rfl | rfl | rfl | rfl | rfl <;> rfl
  have hconfigure := configure_uses hsettings
  have hmore : ∀ more : List Call, (∀ call ∈ more, call.effects = [.use pcap]) →
      ∀ call ∈ (configure (settings o)).1 ++ more, call.effects = [.use pcap] := by
    intro more hmore call h
    rcases List.mem_append.mp h with h | h
    · exact hconfigure call h
    · exact hmore call h
  unfold open_handle
  split
  · exact hconfigure
  · dsimp only
    split
    · rw [List.append_assoc]
      exact hmore _ (by decide)
    · split
      · rw [List.append_assoc]
        exact hmore _ (by decide)
      · rw [List.append_assoc]
        exact hmore _ (by decide)

/-- What `main` holds while the flush thread runs. -/
def threaded : Finset Resource := {producer, mutex, thread}

/-- `setup_pcap` leaves a handle or nothing. -/
theorem setup_pcap_serve (o : Outcomes) :
    serve threaded (setup_pcap o).1
      = some (if (setup_pcap o).2 then insert pcap threaded else threaded) := by
  have hopen : serve (insert pcap threaded) (open_handle o).1 = some (insert pcap threaded) :=
    serve_uses (by decide) (by decide) (open_handle_uses o)
  have hcreate : serve threaded [.pcap_create true] = some (insert pcap threaded) := rfl
  have hclose : serve (insert pcap threaded) [.pcap_close] = some threaded := by decide
  unfold setup_pcap
  split
  · rfl
  · split
    · rw [serve_cons, hcreate, Option.bind_some, hopen]
      rfl
    · rw [serve_append, serve_cons, hcreate, Option.bind_some, hopen, Option.bind_some, hclose]
      rfl

/-- **Whatever the calls return, `main` runs from nothing to nothing**, with the thread served. -/
theorem main_serve (o : Outcomes) : serve ∅ (main o).1 = some ∅ := by
  have hinit := kafka_client_init_serve o
  have hlookup : ∀ calls, serve ∅ (.pcap_lookupnet :: calls) = serve ∅ calls := fun _ => rfl
  unfold main
  split
  · exact list_devs_serve o
  · split
    · next hnone =>
        rw [hlookup, hinit]
        rw [Bool.not_eq_true'] at hnone
        rw [hnone]
        rfl
    · next hsome =>
        rw [Bool.not_eq_true, Bool.not_eq_false'] at hsome
        rw [hsome] at hinit
        have hprologue : serve ∅ (prologue o) = some {producer, mutex} := by
          unfold prologue
          rw [List.cons_append, hlookup, serve_append, hinit]
          decide
        have hthread : serve ∅ (prologue o ++ with_thread) = some threaded := by
          rw [serve_append, hprologue]
          decide
        split
        · rw [serve_append, hprologue]
          decide
        · split
          · rw [serve_append, hthread]
            decide
          · have hsetup := setup_pcap_serve o
            split
            · next hnone =>
                rw [Bool.not_eq_true'] at hnone
                rw [hnone] at hsetup
                rw [serve_append, serve_append, hthread, Option.bind_some, hsetup]
                decide
            · next hsome =>
                rw [Bool.not_eq_true, Bool.not_eq_false'] at hsome
                rw [hsome] at hsetup
                rw [serve_append, serve_append, hthread, Option.bind_some, hsetup]
                decide

/-! ## §4. Before the capture, and the capture. -/

/-- A call that is made before the handler of SIGINT is registered. -/
def Preparing (call : Call) : Prop := call ≠ .signal ∧ call ≠ .pcap_loop

instance : DecidablePred Preparing := fun call =>
  inferInstanceAs (Decidable (call ≠ .signal ∧ call ≠ .pcap_loop))

theorem list_devs_preparing (o : Outcomes) : ∀ call ∈ list_devs o, Preparing call := by
  unfold list_devs
  cases o.findalldevs <;> decide

theorem kafka_client_init_preparing (o : Outcomes) :
    ∀ call ∈ (kafka_client_init o).1, Preparing call := by
  unfold kafka_client_init
  cases o.bootstrap_servers <;> cases o.rd_kafka_new <;> decide

/-- Neither of the two calls only uses the handle. -/
theorem preparing_of_uses {call : Call} (h : call.effects = [.use pcap]) : Preparing call := by
  constructor
  · intro hsignal
    subst hsignal
    cases h
  · intro hloop
    subst hloop
    cases h

theorem preparing_append {calls calls' : List Call} (h : ∀ call ∈ calls, Preparing call)
    (h' : ∀ call ∈ calls', Preparing call) : ∀ call ∈ calls ++ calls', Preparing call := by
  intro call hcall
  rcases List.mem_append.mp hcall with hcall | hcall
  · exact h call hcall
  · exact h' call hcall

theorem setup_pcap_preparing (o : Outcomes) : ∀ call ∈ (setup_pcap o).1, Preparing call := by
  have hopen : ∀ call ∈ (open_handle o).1, Preparing call := fun call h =>
    preparing_of_uses (open_handle_uses o call h)
  have hcreate : ∀ call ∈ [Call.pcap_create true], Preparing call := by decide
  unfold setup_pcap
  split
  · decide
  · split
    · exact preparing_append hcreate hopen
    · exact preparing_append (preparing_append hcreate hopen) (by decide)

theorem prologue_preparing (o : Outcomes) : ∀ call ∈ prologue o, Preparing call := by
  have hlookup : ∀ call ∈ [Call.pcap_lookupnet], Preparing call := by decide
  unfold prologue
  exact preparing_append (preparing_append hlookup (kafka_client_init_preparing o)) (by decide)

/-- **`main` fails before the capture, or it captures and shuts down.** -/
theorem main_cases (o : Outcomes) :
    ((∀ call ∈ (main o).1, Preparing call) ∧ (main o).2 = EXIT_FAILURE) ∨
    (∃ before, (∀ call ∈ before, Preparing call) ∧ (main o).1 = before ++ .signal :: capture ∧
      (main o).2 = EXIT_SUCCESS) := by
  have hthread : ∀ call ∈ prologue o ++ with_thread, Preparing call :=
    preparing_append (prologue_preparing o) (by decide)
  have hsetup := preparing_append hthread (setup_pcap_preparing o)
  have hlookup : ∀ call ∈ [Call.pcap_lookupnet], Preparing call := by decide
  unfold main
  split
  · exact Or.inl ⟨list_devs_preparing o, rfl⟩
  · split
    · exact Or.inl ⟨preparing_append hlookup (kafka_client_init_preparing o), rfl⟩
    · split
      · exact Or.inl ⟨preparing_append (prologue_preparing o) (by decide), rfl⟩
      · split
        · exact Or.inl ⟨preparing_append hthread (by decide), rfl⟩
        · split
          · exact Or.inl ⟨preparing_append hsetup (by decide), rfl⟩
          · exact Or.inr ⟨_, hsetup, rfl, rfl⟩

/-- Once the handler is registered, no handle is created any more. -/
theorem pcap_create_before_signal {o : Outcomes} {pre post : List Call}
    (h : (main o).1 = pre ++ post) (hsignal : Call.signal ∈ pre) :
    Call.pcap_create true ∉ post := by
  rcases main_cases o with ⟨hall, _⟩ | ⟨before, hbefore, hmain, _⟩
  · have hpreparing := hall .signal (h ▸ List.mem_append_left post hsignal)
    exact absurd rfl hpreparing.1
  · rw [hmain] at h
    rcases List.append_eq_append_iff.mp h with ⟨done, hpre, hrest⟩ | ⟨left, hleft, _⟩
    · have hdone : Call.signal ∈ done := by
        rw [hpre] at hsignal
        rcases List.mem_append.mp hsignal with hmem | hmem
        · exact absurd rfl (hbefore _ hmem).1
        · exact hmem
      intro hcreate
      have hmem : Call.pcap_create true ∈ Call.signal :: capture :=
        hrest ▸ List.mem_append_right done hcreate
      exact absurd hmem (by decide)
    · have hmem : Call.signal ∈ before := hleft ▸ List.mem_append_left left hsignal
      exact absurd rfl (hbefore _ hmem).1

/-! ## §5. Nothing leaks, and the interrupt. -/

theorem effects_append (calls calls' : List Call) :
    effects (calls ++ calls') = effects calls ++ effects calls' := List.flatMap_append

/-- Only `pcap_create` acquires a handle. -/
theorem acquire_pcap {calls : List Call} (h : Effect.acquire pcap ∈ effects calls) :
    Call.pcap_create true ∈ calls := by
  obtain ⟨call, hcall, heffect⟩ := List.mem_flatMap.mp h
  cases call with
  | pcap_create ok =>
      cases ok with
      | false => exact absurd heffect (by decide)
      | true => exact hcall
  | pcap_findalldevs ok | rd_kafka_new ok | pthread_create ok =>
      exact absurd heffect (by cases ok <;> decide)
  | _ => exact absurd heffect (by decide)

/-- Only `pcap_close` releases one. -/
theorem release_pcap {calls : List Call} :
    Effect.release pcap ∈ effects calls ↔ Call.pcap_close ∈ calls := by
  constructor
  · intro h
    obtain ⟨call, hcall, heffect⟩ := List.mem_flatMap.mp h
    cases call with
    | pcap_close => exact hcall
    | pcap_create ok | pcap_findalldevs ok | rd_kafka_new ok | pthread_create ok =>
        exact absurd heffect (by cases ok <;> decide)
    | _ => exact absurd heffect (by decide)
  · intro h
    exact List.mem_flatMap.mpr ⟨.pcap_close, h, by decide⟩

/-- At each point of `main`: what is held, that the thread is served, and that the rest runs. -/
theorem main_at {o : Outcomes} {pre post : List Call} (h : (main o).1 = pre ++ post) :
    ∃ held, run touch ∅ (effects pre) = some held ∧ ThreadServed held ∧
      run touch held (effects post) = some ∅ := by
  have hserve := main_serve o
  rw [h] at hserve
  unfold serve at hserve
  rw [effects_append] at hserve
  exact safe_prefix (by decide) hserve

/-- **`main` leaks nothing and uses nothing it does not hold, whatever its calls return**; and it
reports success exactly when it has captured. -/
theorem main_releases (o : Outcomes) :
    run touch ∅ (effects (main o).1) = some ∅ ∧
    (∀ pre post, (main o).1 = pre ++ post → ∃ held, run touch ∅ (effects pre) = some held ∧
      (thread ∈ held → mutex ∈ held ∧ producer ∈ held)) ∧
    ((main o).2 = EXIT_SUCCESS ↔ Call.pcap_loop ∈ (main o).1) := by
  refine ⟨run_touch_of_guarded (main_serve o), ?_, ?_⟩
  · intro pre post h
    obtain ⟨held, hpre, hserved, _⟩ := main_at h
    exact ⟨held, hpre, hserved⟩
  · rcases main_cases o with ⟨hall, hstatus⟩ | ⟨before, _, hmain, hstatus⟩
    · rw [hstatus]
      refine iff_of_false (by decide) ?_
      intro hloop
      exact (hall _ hloop).2 rfl
    · rw [hstatus, hmain]
      refine iff_of_true rfl (List.mem_append_right before ?_)
      decide

/-- **An interrupt is safe exactly as long as the handle is still to be closed.** -/
theorem sigint_safe_iff {o : Outcomes} {pre post : List Call} (h : (main o).1 = pre ++ post)
    (hsignal : Call.signal ∈ pre) :
    (run touch ∅ (effects (pre ++ handle_sigint ++ post))).isSome ↔ Call.pcap_close ∈ post := by
  obtain ⟨held, hpre, _, hpost⟩ := main_at h
  have hinterrupt : effects (pre ++ handle_sigint ++ post)
      = effects pre ++ .use pcap :: effects post := by
    rw [effects_append, effects_append, List.append_assoc]
    rfl
  have hcreate : Effect.acquire pcap ∉ effects post := fun hacquire =>
    pcap_create_before_signal h hsignal (acquire_pcap hacquire)
  calc (run touch ∅ (effects (pre ++ handle_sigint ++ post))).isSome
      ↔ pcap ∈ held := by rw [hinterrupt]; exact run_insert_use hpre hpost
    _ ↔ Effect.release pcap ∈ effects post :=
        held_iff_released hpost (Finset.notMem_empty pcap) hcreate
    _ ↔ Call.pcap_close ∈ post := release_pcap

/-- Every call succeeds. -/
def all_succeed : Outcomes where
  argc := 2
  findalldevs := true
  bootstrap_servers := true
  rd_kafka_new := true
  pthread_create := 0
  pcap_init := 0
  pcap_create := true
  set_snaplen := 0
  set_promisc := 0
  set_immediate_mode := 0
  set_timeout := 0
  set_buffer_size := 0
  activate := 0
  datalink := DLT_EN10MB

/-- A second Ctrl+C while the messages are flushed reaches the closed handle. -/
theorem sigint_during_cleanup :
    ¬ (run touch ∅ (effects ((main all_succeed).1.take 24 ++ handle_sigint
        ++ (main all_succeed).1.drop 24))).isSome := by
  have hsplit : (main all_succeed).1
      = (main all_succeed).1.take 24 ++ (main all_succeed).1.drop 24 :=
    (List.take_append_drop 24 _).symm
  intro hsafe
  exact absurd ((sigint_safe_iff hsplit (by decide)).mp hsafe) (by decide)

end KafKatch.Sniffer.Lifecycle
