/-
  KafKatch.Notification.Isolation
  ───────────────────────────────
  **A FAILING STORE TOUCHES ITS OWN METRIC ONLY.**

  The detector is the product of its three metrics, so a fault in the store of one of them does
  not reach the others (`store_isolated`, by induction on the run).  Within a metric the sample
  is written last: either the sample is recorded and its warning returned, or neither
  (`metricStep_all_or_nothing`).
-/
import KafKatch.Notification.AnomalyDetector

namespace KafKatch.Notification

open KafKatch.Core

/-! ## §1. Faulty and fault-free runs. -/

def noFault : StoreFault := ⟨false, false⟩

def noFaults : Faults := ⟨noFault, noFault, noFault⟩

@[simp] theorem fault_noFaults (m : Metric) : m.fault noFaults = noFault := by
  cases m <;> rfl

/-- The same record, and nothing throws. -/
def Step.faultFree (s : Step) : Step := { s with faults := noFaults }

/-- Whatever throws during the steps throws in the store of `bad`. -/
def ConfinedTo (bad : Metric) (steps : List Step) : Prop :=
  ∀ s ∈ steps, ∀ m, m ≠ bad → m.fault s.faults = noFault

/-- The warnings a metric contributes to what `transform` returns after a run. -/
def contributionAfter (cfg : AnomalyDetectorTransformer) (past : List Step) (s : Step)
    (m : Metric) : List Warning :=
  contribution cfg s.faults (storesAfter cfg past) s.record m

/-- `transform` does not throw, and returns the contributions in order. -/
theorem returnedAfter_eq (cfg : AnomalyDetectorTransformer) (past : List Step) (s : Step) :
    returnedAfter cfg past s
      = .ok (contributionAfter cfg past s .inbound ++ contributionAfter cfg past s .outbound
          ++ contributionAfter cfg past s .flows) :=
  (transform_run cfg s.faults (storesAfter cfg past) s.record).1

section Isolation

variable (cfg : AnomalyDetectorTransformer)

/-- **The store of a metric without faults is that of the fault-free run.** -/
theorem store_isolated {bad m : Metric} (hm : m ≠ bad) (steps : List Step)
    (hconf : ConfinedTo bad steps) :
    m.store (storesAfter cfg steps) = m.store (storesAfter cfg (steps.map Step.faultFree)) := by
  -- on the last step: the store of `m` depends on nothing but itself and the faults of `m`
  induction steps using List.reverseRecOn with
  | nil => rfl
  | append_singleton steps s ih =>
      have hfault : m.fault s.faults = noFault := hconf s (by simp) m hm
      have hfree : m.fault s.faultFree.faults = noFault := fault_noFaults m
      rw [List.map_append, List.map_singleton, storesAfter_concat, storesAfter_concat, hfault,
        hfree, ih (fun t ht => hconf t (List.mem_append_left _ ht))]
      rfl

/-- So are its warnings. -/
theorem contribution_isolated {bad m : Metric} (hm : m ≠ bad) (past : List Step) (s : Step)
    (hconf : ConfinedTo bad (past ++ [s])) :
    contributionAfter cfg past s m
      = contributionAfter cfg (past.map Step.faultFree) s.faultFree m := by
  have hfault : m.fault s.faults = noFault := hconf s (by simp) m hm
  have hfree : m.fault s.faultFree.faults = noFault := fault_noFaults m
  unfold contributionAfter contribution
  rw [hfault, hfree,
    store_isolated cfg hm past (fun t ht => hconf t (List.mem_append_left _ ht))]
  rfl

/-! ## §2. All or nothing. -/

/-- The sample of `value` is recorded in its window, and the warnings are those of the window
without it. -/
def Recorded (m : Metric) (storeKey : String) (value : AggregatedFlow)
    (before : KeyValueStore) (warnings : List Warning) (after : KeyValueStore) : Prop :=
  ∃ stats, (windowAt cfg before storeKey).add (m.current value) = some stats
    ∧ after = Function.update before storeKey (some stats)
    ∧ warnings = evaluate cfg (windowAt cfg before storeKey) (m.current value) m.label

/-- The store is as it was, and there is no warning. -/
def Untouched (before : KeyValueStore) (warnings : List Warning) (after : KeyValueStore) : Prop :=
  after = before ∧ warnings = []

/-- Without a value nothing is recorded. -/
theorem metricStep_null (m : Metric) (fault : StoreFault) (store : KeyValueStore)
    (key : Option String) :
    Untouched store (metricStep cfg m fault store ⟨key, none⟩).1
      (metricStep cfg m fault store ⟨key, none⟩).2 :=
  ⟨rfl, rfl⟩

/-- **Whatever throws, the sample is recorded with its warnings, or neither.** -/
theorem metricStep_all_or_nothing (m : Metric) (fault : StoreFault) (store : KeyValueStore)
    (key : Option String) (value : AggregatedFlow) :
    Recorded cfg m (key.getD "global") value store
        (metricStep cfg m fault store ⟨key, some value⟩).1
        (metricStep cfg m fault store ⟨key, some value⟩).2
      ∨ Untouched store (metricStep cfg m fault store ⟨key, some value⟩).1
          (metricStep cfg m fault store ⟨key, some value⟩).2 := by
  have hrun := check_run cfg fault store (key.getD "global") (m.current value) m.label
  have hstep : metricStep cfg m fault store ⟨key, some value⟩
      = (caught ((check cfg fault (key.getD "global") (m.current value) m.label).runOn store).1,
          ((check cfg fault (key.getD "global") (m.current value) m.label).runOn store).2) := rfl
  rw [hstep, hrun]
  by_cases hget : fault.get = true
  · rw [if_pos hget]
    exact Or.inr ⟨rfl, rfl⟩
  · rw [if_neg hget]
    cases hadd : (windowAt cfg store (key.getD "global")).add (m.current value) with
    | none => exact Or.inr ⟨rfl, rfl⟩
    | some stats =>
        dsimp only
        by_cases hput : fault.put = true
        · rw [if_pos hput]
          exact Or.inr ⟨rfl, rfl⟩
        · rw [if_neg hput]
          exact Or.inl ⟨stats, hadd, rfl, rfl⟩

end Isolation

/-- **Failures of the stores.**  After every run and whatever throws, `transform` returns the
contributions of its metrics and does not throw; if everything that ever throws is confined to
the store of one metric, the other two contribute and store what they do without faults; and each
metric records its sample and contributes the warnings of it, or does neither. -/
theorem store_failures_isolated (cfg : AnomalyDetectorTransformer) (past : List Step)
    (s : Step) :
    returnedAfter cfg past s
        = .ok (contributionAfter cfg past s .inbound ++ contributionAfter cfg past s .outbound
            ++ contributionAfter cfg past s .flows)
      ∧ (∀ bad, ConfinedTo bad (past ++ [s]) → ∀ m, m ≠ bad →
          contributionAfter cfg past s m
              = contributionAfter cfg (past.map Step.faultFree) s.faultFree m
            ∧ m.store (storesAfter cfg (past ++ [s]))
              = m.store (storesAfter cfg ((past ++ [s]).map Step.faultFree)))
      ∧ ∀ m : Metric,
          (∃ value, s.record.value = some value
              ∧ Recorded cfg m s.record.storeKey value (m.store (storesAfter cfg past))
                  (contributionAfter cfg past s m) (m.store (storesAfter cfg (past ++ [s]))))
            ∨ Untouched (m.store (storesAfter cfg past)) (contributionAfter cfg past s m)
                (m.store (storesAfter cfg (past ++ [s]))) := by
  refine ⟨returnedAfter_eq cfg past s, ?_, ?_⟩
  · intro bad hconf m hm
    exact ⟨contribution_isolated cfg hm past s hconf, store_isolated cfg hm _ hconf⟩
  · intro m
    rw [storesAfter_concat]
    obtain ⟨⟨key, value⟩, faults⟩ := s
    cases value with
    | none => exact Or.inr (metricStep_null cfg m _ _ key)
    | some value =>
        rcases metricStep_all_or_nothing cfg m (m.fault faults) (m.store (storesAfter cfg past))
          key value with h | h
        · exact Or.inl ⟨value, rfl, h⟩
        · exact Or.inr h

/-- A record while the store of the inbound metric refuses every `put`. -/
def refusedStep (bytes : Int64) : Step where
  record := ⟨none, some { AggregatedFlow.fresh none with
    bytes_inbound := bytes, bytes_outbound := bytes }⟩
  faults := { noFaults with inbound := ⟨false, true⟩ }

theorem refusedStep_confined (samples : List Int64) :
    ConfinedTo .inbound (samples.map refusedStep) := by
  intro s hs m hm
  obtain ⟨bytes, -, rfl⟩ := List.mem_map.mp hs
  cases m with
  | inbound => exact absurd rfl hm
  | outbound => rfl
  | flows => rfl

theorem store_failures_isolated_put :
    ∀ m, m ≠ Metric.inbound →
      contributionAfter watcher ([100, 100, 100].map refusedStep) (refusedStep 300) m
          = contributionAfter watcher (([100, 100, 100].map refusedStep).map Step.faultFree)
              (refusedStep 300).faultFree m
        ∧ m.store (storesAfter watcher ([100, 100, 100].map refusedStep ++ [refusedStep 300]))
          = m.store (storesAfter watcher
              (([100, 100, 100].map refusedStep ++ [refusedStep 300]).map Step.faultFree)) :=
  (store_failures_isolated watcher ([100, 100, 100].map refusedStep) (refusedStep 300)).2.1
    .inbound (refusedStep_confined [100, 100, 100, 300])

end KafKatch.Notification
