/-
  KafKatch.Lib.DataBinding
  ────────────────────────
  **OBJECTS AS JSON, BY A TABLE OF PROPERTIES.**

  A class is bound by the list of its properties: how each is written and, unless it has only a
  getter, how it is read into an object.  A property may be restricted to a view; with an active
  view, a property of another view is neither written nor read, and without one the restrictions
  are off.  Reading starts from an empty object, takes the fields of the document in order, and
  skips every field that names no readable property.

  What is written is read back property by property (`fromTree_toTree`): properties that are not
  written keep the value of the empty object.  A mapper may refuse unknown names instead of
  skipping them; what is written has none (`fromKnownTree_toTree`).
-/
import KafKatch.Lib.Json

namespace KafKatch.Lib

variable {V α : Type} [DecidableEq V]

/-! ## §1. Properties. -/

/-- One property of a class `α` with views `V`; `read := none` for a getter without a field. -/
structure Property (V α : Type) where
  name : String
  view : Option V
  write : α → Json
  read : Option (Json → α → Option α)

namespace Property

/-- The property takes part when `active` is the active view. -/
def included (active : Option V) (p : Property V α) : Bool :=
  active.isNone || p.view.isNone || decide (p.view = active)

/-- Reading the value `v` of the property into an object. -/
def readInto (p : Property V α) (v : Json) (b : α) : Option α :=
  (p.read.map (fun r => r v b)).getD (some b)

/-- Reading what the property writes for `a` into an object. -/
def restore (p : Property V α) (a b : α) : Option α := p.readInto (p.write a) b

variable {β : Type}

/-- The property of a field with a getter and a setter, in every view. -/
def ofField (name : String) (write : β → Json) (read : Json → Option β) (get : α → β)
    (set : α → β → α) : Property V α where
  name := name
  view := none
  write a := write (get a)
  read := some (fun v b => (read v).map (set b))

omit [DecidableEq V] in
/-- A field is restored if its type is. -/
theorem restore_ofField {write : β → Json} {read : Json → Option β}
    (h : ∀ x, read (write x) = some x) (name : String) (get : α → β) (set : α → β → α) (a b : α) :
    (ofField name write read get set : Property V α).restore a b = some (set b (get a)) := by
  show (read (write (get a))).map (set b) = _
  rw [h, Option.map_some]

/-- A value that may be null. -/
def nullable (write : β → Json) (x : Option β) : Json := (x.map write).getD .null

theorem read_nullable {write : β → Json} {read : Json → Option (Option β)}
    (hnull : read .null = some none) (hread : ∀ x, read (write x) = some (some x)) :
    ∀ x, read (nullable write x) = some x := by
  intro x
  cases x with
  | none => exact hnull
  | some x => exact hread x

theorem nullable_distinctNames {write : β → Json} (h : ∀ x, (write x).distinctNames = true) :
    ∀ x, (nullable write x).distinctNames = true := by
  intro x
  cases x with
  | none => rfl
  | some x => exact h x

end Property

/-! ## §2. Writing and reading. -/

section Binding

variable (props : List (Property V α)) (active : Option V)

/-- The document of an object. -/
def toTree (a : α) : Json :=
  .obj ((props.filter (Property.included active)).map (fun p => (p.name, p.write a)))

/-- One field of a document, read into an object; unknown names are skipped. -/
def readField (b : α) (field : String × Json) : Option α :=
  match props.find? (fun p => decide (p.name = field.1)) with
  | some p => if p.included active then p.readInto field.2 b else some b
  | none => some b

/-- The object of a document, starting from `empty`; `none` is an exception. -/
def fromTree (empty : α) : Json → Option α
  | .obj fields => fields.foldlM (readField props active) empty
  | _ => none

variable {props} {active}

omit [DecidableEq V] in
/-- Without repeated names, a name finds its property. -/
theorem find_name (h : (props.map Property.name).Nodup) {p : Property V α} (hp : p ∈ props) :
    props.find? (fun q => decide (q.name = p.name)) = some p := by
  induction props with
  | nil => simp at hp
  | cons q props ih =>
      rw [List.map_cons, List.nodup_cons] at h
      rcases List.mem_cons.mp hp with rfl | hp
      · simp
      · have hne : q.name ≠ p.name := by
          intro e
          exact h.1 (e ▸ List.mem_map_of_mem hp)
        simpa [hne] using ih h.2 hp

/-- **What is written is read back property by property.** -/
theorem fromTree_toTree (h : (props.map Property.name).Nodup) (empty a : α) :
    fromTree props active empty (toTree props active a)
      = (props.filter (Property.included active)).foldlM (fun b p => p.restore a b) empty := by
  -- on the properties still to come; the object read so far is arbitrary
  have hfold : ∀ (ps : List (Property V α)), (∀ p ∈ ps, p ∈ props ∧ p.included active = true) →
      ∀ b, (ps.map (fun p => (p.name, p.write a))).foldlM (readField props active) b
        = ps.foldlM (fun b p => p.restore a b) b := by
    intro ps
    induction ps with
    | nil => exact fun _ _ => rfl
    | cons p ps ih =>
        intro hps b
        obtain ⟨hp, hincl⟩ := hps p List.mem_cons_self
        -- the name leads back to `p`, whatever else has been read already
        have hread : readField props active b (p.name, p.write a) = p.restore a b := by
          unfold readField
          rw [find_name h hp]
          exact if_pos hincl
        rw [List.map_cons, List.foldlM_cons, List.foldlM_cons, hread]
        congr 1
        funext b
        exact ih (fun q hq => hps q (List.mem_cons_of_mem p hq)) b
  exact hfold _ (fun p hp => List.mem_filter.mp hp) empty

/-- A document written by properties with different names has no repeated names. -/
theorem toTree_distinctNames (h : (props.map Property.name).Nodup) (a : α)
    (hvalues : ∀ p ∈ props, (p.write a).distinctNames = true) :
    (toTree props active a).distinctNames = true := by
  have hfields : ∀ ps : List (Property V α), (∀ p ∈ ps, p ∈ props) →
      Json.distinctNamesFields (ps.map (fun p => (p.name, p.write a))) = true := by
    intro ps hps
    induction ps with
    | nil => rfl
    | cons p ps ih =>
        rw [List.map_cons, Json.distinctNamesFields, hvalues p (hps p List.mem_cons_self),
          ih (fun q hq => hps q (List.mem_cons_of_mem p hq))]
        rfl
  have hnames : (((props.filter (Property.included active)).map
      (fun p => (p.name, p.write a))).map Prod.fst).Nodup := by
    rw [List.map_map]
    exact h.sublist (List.filter_sublist.map Property.name)
  rw [toTree, Json.distinctNames, decide_eq_true hnames,
    hfields _ (fun p hp => (List.mem_filter.mp hp).1)]
  rfl

/-! ## §3. Reading without unknown names. -/

variable (props) (active) in
/-- The object of a document in which every name is that of a property; any other name is an
exception. -/
def fromKnownTree (empty : α) : Json → Option α
  | .obj fields =>
      if ∀ field ∈ fields, field.1 ∈ props.map Property.name then
        fromTree props active empty (.obj fields)
      else none
  | _ => none

/-- What is written names properties only. -/
theorem fromKnownTree_toTree (empty a : α) :
    fromKnownTree props active empty (toTree props active a)
      = fromTree props active empty (toTree props active a) := by
  refine if_pos ?_
  intro field hfield
  obtain ⟨p, hp, rfl⟩ := List.mem_map.mp hfield
  exact List.mem_map_of_mem (List.mem_filter.mp hp).1

end Binding

end KafKatch.Lib
