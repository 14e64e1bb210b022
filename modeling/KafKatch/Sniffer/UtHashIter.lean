/-
  KafKatch.Sniffer.UtHashIter
  ───────────────────────────
  **DELETING WHILE ITERATING.**

  `HASH_ITER` keeps the element after the current one in `tmp`, so that the body may `HASH_DEL` and
  `free` the current one.  `delete_loop` is the loop with such a body; what the body does with an
  element besides is the parameter `visit`.

    • `Iterating.round` — one round visits the first element and leaves the loop at the second,
    • `delete_loop_spec` — the loop visits the elements in application order, each once, and leaves
      NULL and the memory as it was before the table.
-/
import KafKatch.Sniffer.UtHashIntegrity

namespace KafKatch.Sniffer.UtHash

open KafKatch.Lib

variable {β σ : Type}

/-! ## §1. The loop. -/

/-- The variables of a `HASH_ITER` loop: the table, the current element and the one after it. -/
structure Iter where
  head : Option Nat
  el : Option Nat
  tmp : Option Nat
  deriving Repr, DecidableEq

/-- The initialisation of `HASH_ITER`. -/
def Iter.start (m : Memory β) (head : Option Nat) : Except Stop Iter := do
  let (el, tmp) ← HASH_ITER_at m head
  pure ⟨head, el, tmp⟩

/-- One round: the element is read, deleted and freed, and the loop moves on to `tmp`. -/
def Iter.round (s : Iter) (m : Memory β) (el : Nat) : Except Stop (β × Memory β × Iter) := do
  let e ← m.read el
  let (m, head) ← HASH_DEL m s.head el
  let m ← m.free el
  let (el, tmp) ← HASH_ITER_at m s.tmp
  pure (e, m, ⟨head, el, tmp⟩)

/-- The loop, `out` being what the visits have made so far. -/
def delete_loop (visit : σ → β → σ) : Nat → Iter → Memory β → σ → Except Stop (Memory β × Iter × σ)
  | 0, s, m, out =>
      match s.el with
      | none => pure (m, s, out)
      | some _ => throw .endless
  | fuel + 1, s, m, out =>
      match s.el with
      | none => pure (m, s, out)
      | some el => do
          let (e, m, s) ← s.round m el
          delete_loop visit fuel s m (visit out e)

/-! ## §2. One round. -/

section Round

variable {P : Platform β} {m : Memory β} {s : Iter} {items : List Nat} {tb : Option Nat}
  {es : List β} {a t : Nat} {e : β}

/-- The loop is at the first of the elements that are left, and `tmp` is the one after it. -/
structure Iterating (P : Platform β) (m : Memory β) (s : Iter) (items : List Nat)
    (tb : Option Nat) (es : List β) : Prop where
  holds : Holds P m s.head items tb es
  el : s.el = items.head?
  tmp : s.tmp = items.tail.head?

/-- `HASH_ITER` at the head of a table. -/
theorem hash_iter_at {head : Option Nat} (h : HashOf P m head items tb) :
    HASH_ITER_at m head = .ok (items.head?, items.tail.head?) := by
  cases h with
  | null => rfl
  | @table t tbl head rest h =>
      unfold HASH_ITER_at
      dsimp only
      have hnext : m.link .next head = rest.head? := by
        have happ : DList _ _ (head :: rest).head? tbl.tail ([] ++ head :: rest) := h.app
        exact happ.next_eq
      rw [Memory.load_ok (h.live head List.mem_cons_self), ok_bind, hnext]
      rfl

/-- The start of the loop. -/
theorem Holds.start {head : Option Nat} (h : Holds P m head items tb es) :
    ∃ s, Iter.start m head = .ok s ∧ Iterating P m s items tb es := by
  refine ⟨⟨head, items.head?, items.tail.head?⟩, ?_, ⟨h, rfl, rfl⟩⟩
  unfold Iter.start
  rw [hash_iter_at h.hash, ok_bind]
  rfl

/-- **One round** visits the first element and frees it. -/
theorem Iterating.round (h : Iterating P m s (a :: items) (some t) (e :: es)) :
    ∃ m' s' tb', s.round m a = .ok (e, m', s') ∧ Iterating P m' s' items tb' es
      ∧ Shrunk P m m' s'.head [] items tb' es a t := by
  have hread : m.read a = .ok e := by
    unfold Memory.read
    rw [(List.cons.inj h.holds.contents).1]
    rfl
  obtain ⟨m₁, m₂, head', tb', hdel, hfree, hshrunk⟩ :=
    @Holds.delete β P m s.head a t e [] items [] es h.holds rfl
  -- the element after the deleted one is the new head
  have hiter : HASH_ITER_at m₂ s.tmp = .ok (items.head?, items.tail.head?) := by
    have hat := hash_iter_at hshrunk.holds.hash
    rw [hshrunk.holds.hash.head_eq] at hat
    rw [h.tmp]
    exact hat
  refine ⟨m₂, ⟨head', items.head?, items.tail.head?⟩, tb', ?_, ⟨hshrunk.holds, rfl, rfl⟩, hshrunk⟩
  unfold Iter.round
  rw [hread, ok_bind, hdel, ok_bind]
  dsimp only
  rw [hfree, ok_bind, hiter, ok_bind]
  rfl

end Round

/-! ## §3. The whole loop. -/

/-- **The loop** visits what the table holds in application order, and gives everything back. -/
theorem delete_loop_spec {P : Platform β} {m₀ : Memory β} (visit : σ → β → σ) {items : List Nat} :
    ∀ {fuel : Nat} {m : Memory β} {s : Iter} {tb : Option Nat} {es : List β} {out : σ},
      Iterating P m s items tb es → Owns m₀ m items tb.toList → items.length ≤ fuel →
      ∃ m' s', delete_loop visit fuel s m out = .ok (m', s', es.foldl visit out)
        ∧ s'.head = none ∧ Owns m₀ m' [] [] := by
  induction items with
  | nil =>
      intro fuel m s tb es out h howns _
      have hes : es = [] := List.map_eq_nil_iff.mp h.holds.contents.symm
      have htb : tb = none := h.holds.hash.tb_eq_none_iff.mpr rfl
      have hel : s.el = none := h.el
      subst hes
      subst htb
      refine ⟨m, s, ?_, h.holds.hash.head_eq, howns⟩
      cases fuel with
      | zero =>
          unfold delete_loop
          rw [hel]
          rfl
      | succ fuel =>
          unfold delete_loop
          rw [hel]
          rfl
  | cons a items ih =>
      intro fuel m s tb es out h howns hfuel
      cases es with
      | nil => cases h.holds.contents
      | cons e es =>
          obtain ⟨t, rfl⟩ : ∃ t, tb = some t := by
            refine Option.ne_none_iff_exists'.mp fun hnone => ?_
            cases h.holds.hash.tb_eq_none_iff.mp hnone
          cases fuel with
          | zero => simp at hfuel
          | succ fuel =>
              obtain ⟨m₁, s₁, tb', hround, hiter, hshrunk⟩ := h.round
              obtain ⟨m', s', hloop, hnull, hdone⟩ := @ih fuel m₁ s₁ tb' es (visit out e) hiter
                (hshrunk.owns [] [] howns) (Nat.le_of_succ_le_succ hfuel)
              have hel : s.el = some a := h.el
              refine ⟨m', s', ?_, hnull, hdone⟩
              unfold delete_loop
              rw [hel]
              dsimp only
              rw [hround, ok_bind]
              exact hloop

/-- The loop from its start, over a table that is all that was allocated. -/
theorem Stores.delete_all {P : Platform β} {m₀ m : Memory β} {head : Option Nat} {es : List β}
    (h : Stores P m₀ (m, head) es) {fuel : Nat} (hfuel : es.length ≤ fuel) (visit : σ → β → σ)
    (out : σ) :
    ∃ s m' s', Iter.start m head = .ok s
      ∧ delete_loop visit fuel s m out = .ok (m', s', es.foldl visit out)
      ∧ s'.head = none ∧ Owns m₀ m' [] [] := by
  obtain ⟨items, tb, hholds, howns⟩ := h
  obtain ⟨s, hstart, hiter⟩ := hholds.start
  obtain ⟨m', s', hloop, hnull, hdone⟩ :=
    @delete_loop_spec β σ P m₀ visit items fuel m s tb es out hiter howns
      (hholds.length_eq ▸ hfuel)
  exact ⟨s, m', s', hstart, hloop, hnull, hdone⟩

end KafKatch.Sniffer.UtHash
