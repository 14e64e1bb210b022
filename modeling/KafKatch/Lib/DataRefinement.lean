/-
  KafKatch.Lib.DataRefinement — stateful programs over two representations of a state.

  A program that may throw, on concrete states, refines one on abstract states if from related
  states both return the same value or throw the same exception, and leave related states.  The
  rules go through a program line by line, exceptions and handlers included.
-/
import Mathlib.Init

namespace KafKatch.Lib

variable {ε σ τ σ' τ' α β : Type}

/-- The result of a program, and the state after it. -/
def outcome (x : ExceptT ε (StateM σ) α) (s : σ) : Except ε α × σ := (ExceptT.run x).run s

/-- What a handler makes of an outcome. -/
def handled (f : ε → ExceptT ε (StateM σ) α) (r : Except ε α × σ) : Except ε α × σ :=
  match r.1 with
  | .ok a => (.ok a, r.2)
  | .error e => outcome (f e) r.2

theorem outcome_tryCatch (x : ExceptT ε (StateM σ) α) (f : ε → ExceptT ε (StateM σ) α) (s : σ) :
    outcome (MonadExcept.tryCatch x f) s = handled f (outcome x s) := by
  unfold outcome handled outcome
  rw [ExceptT.run_tryCatch, StateT.run_bind]
  rcases (ExceptT.run x).run s with ⟨r, s'⟩
  cases r <;> rfl

/-- **`x` refines `y`**, with states related by `R`. -/
def Refines (R : σ → τ → Prop) (x : ExceptT ε (StateM σ) α) (y : ExceptT ε (StateM τ) α) : Prop :=
  ∀ s t, R s t → (outcome x s).1 = (outcome y t).1 ∧ R (outcome x s).2 (outcome y t).2

namespace Refines

variable {R : σ → τ → Prop}

theorem pure (a : α) : Refines R (Pure.pure a : ExceptT ε (StateM σ) α) (Pure.pure a) :=
  fun _ _ h => ⟨rfl, h⟩

theorem throw (e : ε) : Refines R (throw e : ExceptT ε (StateM σ) α) (MonadExcept.throw e) :=
  fun _ _ h => ⟨rfl, h⟩

/-- One line after the other: an exception skips the rest in both. -/
theorem bind {x : ExceptT ε (StateM σ) α} {y : ExceptT ε (StateM τ) α}
    {f : α → ExceptT ε (StateM σ) β} {g : α → ExceptT ε (StateM τ) β} (h : Refines R x y)
    (hf : ∀ a, Refines R (f a) (g a)) : Refines R (x >>= f) (y >>= g) := by
  intro s t hst
  obtain ⟨hval, hstate⟩ := h s t hst
  have hx : outcome (x >>= f) s = ExceptT.bindCont f (outcome x s).1 (outcome x s).2 := rfl
  have hy : outcome (y >>= g) t = ExceptT.bindCont g (outcome y t).1 (outcome y t).2 := rfl
  rw [hx, hy, hval]
  cases (outcome y t).1 with
  | error e => exact ⟨rfl, hstate⟩
  | ok a => exact hf a _ _ hstate

/-- A handler goes on from the states that the exception left. -/
theorem tryCatch {x : ExceptT ε (StateM σ) α} {y : ExceptT ε (StateM τ) α}
    {f : ε → ExceptT ε (StateM σ) α} {g : ε → ExceptT ε (StateM τ) α} (h : Refines R x y)
    (hf : ∀ e, Refines R (f e) (g e)) :
    Refines R (MonadExcept.tryCatch x f) (MonadExcept.tryCatch y g) := by
  intro s t hst
  obtain ⟨hval, hstate⟩ := h s t hst
  rw [outcome_tryCatch, outcome_tryCatch]
  unfold handled
  rw [hval]
  cases (outcome y t).1 with
  | ok a => exact ⟨rfl, hstate⟩
  | error e => exact hf e _ _ hstate

/-- A program on a part of the state, in a state related part by part. -/
theorem zoom {S : σ' → τ' → Prop} {x : ExceptT ε (StateM σ) α} {y : ExceptT ε (StateM τ) α}
    (h : Refines R x y) {part : σ' → σ} {part' : τ' → τ} {put : σ → σ' → σ'} {put' : τ → τ' → τ'}
    (hpart : ∀ s t, S s t → R (part s) (part' t))
    (hput : ∀ s t p q, S s t → R p q → S (put p s) (put' q t)) :
    Refines S
      (ExceptT.mk (fun s => ((outcome x (part s)).1, put (outcome x (part s)).2 s))
        : ExceptT ε (StateM σ') α)
      (ExceptT.mk (fun t => ((outcome y (part' t)).1, put' (outcome y (part' t)).2 t))) := by
  intro s t hst
  obtain ⟨hval, hstate⟩ := h _ _ (hpart s t hst)
  exact ⟨hval, hput s t _ _ hst hstate⟩

end Refines

end KafKatch.Lib
