/-
  KafKatch.Notification.AnomalyDetector
  ─────────────────────────────────────
  **THE ANOMALY DETECTOR** (`AnomalyDetectorTransformer.java`).

  For each aggregate the detector checks three metrics, each against the rolling window of its
  own state store.  A store access may throw: a `get` or a `put` that fails leaves the store as
  it was, and a `get` hands out a decoded copy.  Actions on a store therefore return a value or
  an exception, and the state in both cases; `transform` catches every exception of its three
  checks.

  A `double` is the rational number it stands for.  A cast or an operation rounds its exact
  result (`toDouble`); an `int` is a `double` as it is.  What the code prints is not modelled.
-/
import KafKatch.Core.AggregatedFlow
import KafKatch.Notification.RollingStats
import Mathlib.Data.Rat.Floor

namespace KafKatch.Notification

open KafKatch.Core

/-! ## §1. Warnings. -/

/-- `Warning`. -/
structure Warning where
  severidade : String
  descricao : String
  deriving Repr, DecidableEq

/-- The parameters of `AnomalyDetectorTransformer`. -/
structure AnomalyDetectorTransformer where
  windowSize : Int32
  ratioRegular : ℚ
  ratioMedia : ℚ
  ratioAlta : ℚ

/-- The parameters `OutputWatcher` sets. -/
def watcher : AnomalyDetectorTransformer := ⟨30, toDouble (12 / 10), 15 / 10, 2⟩

/-- `Math.round`: the floor of `x + 1/2`, saturated to a `long`. -/
def Math_round (x : ℚ) : Int64 := Int64.ofIntClamp ⌊x + 1 / 2⌋

/-- `current / average`. -/
def ratioOf (current : Int64) (average : ℚ) : ℚ := toDouble (toDouble current.toInt / average)

/-- `(int) Math.round((ratio - 1) * 100)`. -/
def percentAcima (ratio : ℚ) : Int32 :=
  (Math_round (toDouble (toDouble (ratio - 1) * 100))).toInt32

/-- The text of a warning. -/
def descricao (current : Int64) (label : String) (average : ℚ) (size : Nat) : String :=
  "O último agregado registrou " ++ toString current.toInt ++ " " ++ label ++ ", "
    ++ decimal (percentAcima (ratioOf current average)) ++ "% acima da média de "
    ++ toString (Math_round average).toInt ++ " nas " ++ toString size
    ++ " amostras anteriores"

/-- The part of `check` between `get` and `add`. -/
def evaluate (cfg : AnomalyDetectorTransformer) (stats : RollingStats) (current : Int64)
    (label : String) : List Warning :=
  if 3 ≤ stats.size then
    let average := stats.doubleAverage
    if 0 < average then
      let ratio := ratioOf current average
      if cfg.ratioAlta ≤ ratio then
        [⟨"alta", descricao current label average stats.size⟩]
      else if cfg.ratioMedia ≤ ratio then
        [⟨"media", descricao current label average stats.size⟩]
      else if cfg.ratioRegular ≤ ratio then
        [⟨"regular", descricao current label average stats.size⟩]
      else []
    else []
  else []

/-! ## §2. Stores. -/

/-- What a check can throw. -/
inductive StoreException where
  | get
  | put
  | removeFirst
  deriving Repr, DecidableEq

/-- Which accesses to a store throw. -/
structure StoreFault where
  get : Bool
  put : Bool
  deriving Repr, DecidableEq

/-- `KeyValueStore<String, RollingStats>`; a missing key is null. -/
abbrev KeyValueStore := String → Option RollingStats

/-- Actions that may throw, on a state that outlives the exception. -/
abbrev StoreM (σ α : Type) := ExceptT StoreException (StateM σ) α

/-- The result of an action, and the state after it. -/
def StoreM.runOn {σ α : Type} (x : StoreM σ α) (s : σ) : Except StoreException α × σ :=
  (ExceptT.run x).run s

section RunOn

variable {σ α β : Type} (s : σ)

/-- An exception skips the rest. -/
theorem runOn_bind_error {x : StoreM σ α} {s' : σ} {e : StoreException}
    (h : x.runOn s = (.error e, s')) (f : α → StoreM σ β) :
    (x >>= f : StoreM σ β).runOn s = (.error e, s') := by
  have hbind : (x >>= f : StoreM σ β).runOn s
      = ExceptT.bindCont f (x.runOn s).1 (x.runOn s).2 := rfl
  rw [hbind, h]
  rfl

theorem runOn_bind_ok {x : StoreM σ α} {s' : σ} {a : α} (h : x.runOn s = (.ok a, s'))
    (f : α → StoreM σ β) : (x >>= f : StoreM σ β).runOn s = (f a).runOn s' := by
  have hbind : (x >>= f : StoreM σ β).runOn s
      = ExceptT.bindCont f (x.runOn s).1 (x.runOn s).2 := rfl
  rw [hbind, h]
  rfl

/-- A handler is not run after a success. -/
theorem runOn_tryCatch_ok {x : StoreM σ α} {s' : σ} {a : α} (h : x.runOn s = (.ok a, s'))
    (f : StoreException → StoreM σ α) : (tryCatch x f : StoreM σ α).runOn s = (.ok a, s') := by
  unfold StoreM.runOn at h ⊢
  rw [ExceptT.run_tryCatch, StateT.run_bind, h]
  rfl

/-- A handler goes on from the state the exception left. -/
theorem runOn_tryCatch_error {x : StoreM σ α} {s' : σ} {e : StoreException}
    (h : x.runOn s = (.error e, s')) (f : StoreException → StoreM σ α) :
    (tryCatch x f : StoreM σ α).runOn s = (f e).runOn s' := by
  unfold StoreM.runOn at h ⊢
  rw [ExceptT.run_tryCatch, StateT.run_bind, h]
  rfl

end RunOn

/-- `store.get`. -/
def store_get (fault : StoreFault) (key : String) : StoreM KeyValueStore (Option RollingStats) := do
  if fault.get then throw .get
  let store ← get
  return store key

/-- `store.put`. -/
def store_put (fault : StoreFault) (key : String) (stats : RollingStats) :
    StoreM KeyValueStore Unit := do
  if fault.put then throw .put
  modify (fun store => Function.update store key (some stats))

theorem store_get_run (fault : StoreFault) (key : String) (store : KeyValueStore) :
    (store_get fault key).runOn store
      = (if fault.get then .error .get else .ok (store key), store) := by
  unfold store_get
  cases fault.get <;> rfl

theorem store_put_run (fault : StoreFault) (key : String) (stats : RollingStats)
    (store : KeyValueStore) :
    (store_put fault key stats).runOn store
      = if fault.put then (.error .put, store)
        else (.ok (), Function.update store key (some stats)) := by
  unfold store_put
  cases fault.put <;> rfl

/-! ## §3. `check`. -/

/-- `check`. -/
def check (cfg : AnomalyDetectorTransformer) (fault : StoreFault) (storeKey : String)
    (current : Int64) (label : String) : StoreM KeyValueStore (List Warning) := do
  let found ← store_get fault storeKey
  -- a missing key starts a new window
  let stats := found.getD (RollingStats.new cfg.windowSize)
  let result := evaluate cfg stats current label
  -- only now does the value enter its window
  match stats.add current with
  | none => throw .removeFirst
  | some stats =>
      store_put fault storeKey stats
      return result

section Check

variable (cfg : AnomalyDetectorTransformer) (fault : StoreFault) (store : KeyValueStore)
  (storeKey : String) (current : Int64) (label : String)

/-- The window `check` works on. -/
def windowAt : RollingStats := (store storeKey).getD (RollingStats.new cfg.windowSize)

/-- **What `check` does**: nothing throws, the sample is recorded, and the warnings are those of
the window without it; or something throws, and the store is as it was. -/
theorem check_run :
    (check cfg fault storeKey current label).runOn store
      = if fault.get then (.error .get, store)
        else
          match (windowAt cfg store storeKey).add current with
          | none => (.error .removeFirst, store)
          | some stats =>
              if fault.put then (.error .put, store)
              else (.ok (evaluate cfg (windowAt cfg store storeKey) current label),
                Function.update store storeKey (some stats)) := by
  have hget := store_get_run fault storeKey store
  by_cases hfault : fault.get = true
  · rw [if_pos hfault] at hget
    rw [if_pos hfault]
    exact runOn_bind_error store hget _
  -- past `get`: the window is known, and `add` and `put` may still throw
  · rw [if_neg hfault] at hget
    rw [if_neg hfault, check, runOn_bind_ok store hget]
    dsimp only
    rw [← windowAt]
    cases (windowAt cfg store storeKey).add current with
    | none => rfl
    | some stats =>
        have hput := store_put_run fault storeKey stats store
        by_cases hfault' : fault.put = true
        · rw [if_pos hfault'] at hput
          dsimp only
          rw [if_pos hfault']
          exact runOn_bind_error store hput _
        · rw [if_neg hfault'] at hput
          dsimp only
          rw [if_neg hfault', runOn_bind_ok store hput]
          rfl

end Check

/-! ## §4. `transform`. -/

/-- The three metrics, in the order in which they are checked. -/
inductive Metric where
  | inbound
  | outbound
  | flows
  deriving Repr, DecidableEq

/-- The three rolling stores. -/
structure Stores where
  inboundStore : KeyValueStore
  outboundStore : KeyValueStore
  flowsStore : KeyValueStore

/-- What throws while one record is processed, store by store. -/
structure Faults where
  inbound : StoreFault
  outbound : StoreFault
  flows : StoreFault
  deriving Repr, DecidableEq

namespace Metric

def store : Metric → Stores → KeyValueStore
  | inbound => Stores.inboundStore
  | outbound => Stores.outboundStore
  | flows => Stores.flowsStore

def setStore : Metric → KeyValueStore → Stores → Stores
  | inbound, store, stores => { stores with inboundStore := store }
  | outbound, store, stores => { stores with outboundStore := store }
  | flows, store, stores => { stores with flowsStore := store }

def fault : Metric → Faults → StoreFault
  | inbound => Faults.inbound
  | outbound => Faults.outbound
  | flows => Faults.flows

/-- The value that is checked. -/
def current : Metric → AggregatedFlow → Int64
  | inbound, value => value.bytes_inbound
  | outbound, value => value.bytes_outbound
  | flows, value => value.unique_flow_count.toInt64

def label : Metric → String
  | inbound => "bytes recebidos"
  | outbound => "bytes enviados"
  | flows => "conexões únicas"

end Metric

/-- An action on the store of one metric. -/
def onStore {α : Type} (m : Metric) (x : StoreM KeyValueStore α) : StoreM Stores α :=
  ExceptT.mk (fun stores =>
    let after := x.runOn (m.store stores)
    (after.1, m.setStore after.2 stores))

/-- `try { warnings.addAll(…) } catch (Exception e) { … }`. -/
def attempt (m : Metric) (x : StoreM KeyValueStore (List Warning)) :
    StoreM Stores (List Warning) :=
  tryCatch (onStore m x) (fun _ => return [])

/-- `transform`. -/
def transform (cfg : AnomalyDetectorTransformer) (faults : Faults) (key : Option String)
    (value : Option AggregatedFlow) : StoreM Stores (List Warning) := do
  match value with
  | none => return []
  | some value =>
      let storeKey := key.getD "global"
      let inbound ← attempt .inbound
        (check cfg faults.inbound storeKey value.bytes_inbound "bytes recebidos")
      let outbound ← attempt .outbound
        (check cfg faults.outbound storeKey value.bytes_outbound "bytes enviados")
      let flows ← attempt .flows
        (check cfg faults.flows storeKey value.unique_flow_count.toInt64 "conexões únicas")
      return inbound ++ outbound ++ flows

/-- What is left of a check after its exception is caught. -/
def caught : Except StoreException (List Warning) → List Warning
  | .ok warnings => warnings
  | .error _ => []

theorem attempt_run (m : Metric) (x : StoreM KeyValueStore (List Warning)) (stores : Stores) :
    (attempt m x).runOn stores
      = (.ok (caught (x.runOn (m.store stores)).1),
          m.setStore (x.runOn (m.store stores)).2 stores) := by
  have hact : (onStore m x).runOn stores
      = ((x.runOn (m.store stores)).1, m.setStore (x.runOn (m.store stores)).2 stores) := rfl
  unfold attempt
  cases hresult : (x.runOn (m.store stores)).1 with
  | ok warnings =>
      rw [hresult] at hact
      exact runOn_tryCatch_ok stores hact _
  | error e =>
      rw [hresult] at hact
      rw [runOn_tryCatch_error stores hact]
      rfl

/-! ## §5. The detector as the product of its metrics. -/

/-- One record of the input topic. -/
structure Record where
  key : Option String
  value : Option AggregatedFlow

/-- The key a record is stored under. -/
def Record.storeKey (r : Record) : String := r.key.getD "global"

/-- One metric's part of `transform`, on its own store. -/
def metricStep (cfg : AnomalyDetectorTransformer) (m : Metric) (fault : StoreFault)
    (store : KeyValueStore) (r : Record) : List Warning × KeyValueStore :=
  match r.value with
  | none => ([], store)
  | some value =>
      let after := (check cfg fault r.storeKey (m.current value) m.label).runOn store
      (caught after.1, after.2)

/-- The warnings a metric contributes to what `transform` returns. -/
def contribution (cfg : AnomalyDetectorTransformer) (faults : Faults) (stores : Stores)
    (r : Record) (m : Metric) : List Warning :=
  (metricStep cfg m (m.fault faults) (m.store stores) r).1

/-- **`transform` never throws, returns the three contributions in order, and each store is the
one its own metric leaves.** -/
theorem transform_run (cfg : AnomalyDetectorTransformer) (faults : Faults) (stores : Stores)
    (r : Record) :
    ((transform cfg faults r.key r.value).runOn stores).1
        = .ok (contribution cfg faults stores r .inbound
            ++ contribution cfg faults stores r .outbound
            ++ contribution cfg faults stores r .flows)
      ∧ ∀ m : Metric, m.store ((transform cfg faults r.key r.value).runOn stores).2
          = (metricStep cfg m (m.fault faults) (m.store stores) r).2 := by
  obtain ⟨key, value⟩ := r
  cases value with
  | none =>
      refine ⟨rfl, ?_⟩
      intro m
      cases m <;> rfl
  | some value =>
      have hrun : (transform cfg faults key (some value)).runOn stores
          = (.ok (contribution cfg faults stores ⟨key, some value⟩ .inbound
              ++ contribution cfg faults stores ⟨key, some value⟩ .outbound
              ++ contribution cfg faults stores ⟨key, some value⟩ .flows),
            { inboundStore := (metricStep cfg .inbound faults.inbound stores.inboundStore
                ⟨key, some value⟩).2
              outboundStore := (metricStep cfg .outbound faults.outbound stores.outboundStore
                ⟨key, some value⟩).2
              flowsStore := (metricStep cfg .flows faults.flows stores.flowsStore
                ⟨key, some value⟩).2 }) := by
        unfold transform
        rw [runOn_bind_ok stores (attempt_run .inbound _ stores),
          runOn_bind_ok _ (attempt_run .outbound _ _), runOn_bind_ok _ (attempt_run .flows _ _)]
        rfl
      rw [hrun]
      refine ⟨rfl, ?_⟩
      intro m
      cases m <;> rfl

/-! ## §6. Runs. -/

/-- The stores before the first record. -/
def emptyStores : Stores := ⟨fun _ => none, fun _ => none, fun _ => none⟩

/-- One step of a run: a record, and what throws while it is processed. -/
structure Step where
  record : Record
  faults : Faults

/-- The stores after a run. -/
def storesAfter (cfg : AnomalyDetectorTransformer) (steps : List Step) : Stores :=
  steps.foldl
    (fun stores s => ((transform cfg s.faults s.record.key s.record.value).runOn stores).2)
    emptyStores

/-- What `transform` returns for a record after a run. -/
def returnedAfter (cfg : AnomalyDetectorTransformer) (past : List Step) (s : Step) :
    Except StoreException (List Warning) :=
  ((transform cfg s.faults s.record.key s.record.value).runOn (storesAfter cfg past)).1

theorem storesAfter_concat (cfg : AnomalyDetectorTransformer) (steps : List Step) (s : Step)
    (m : Metric) :
    m.store (storesAfter cfg (steps ++ [s]))
      = (metricStep cfg m (m.fault s.faults) (m.store (storesAfter cfg steps)) s.record).2 := by
  rw [storesAfter, List.foldl_concat, ← storesAfter]
  exact (transform_run cfg s.faults (storesAfter cfg steps) s.record).2 m

end KafKatch.Notification
