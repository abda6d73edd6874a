import EntityModel.Entity.Basic
import EntityModel.Proofs.Dict

/-!
# What an operation does

An operation first looks for its target, the attribute that it writes, and the search reads nothing
but the schema. A refused operation leaves the entity as it is; any other writes the cell of its
target, and no other cell (`perform_eq`).
-/

namespace EntityModel

/-! ### The shapes that are accepted -/

namespace AttributeType

/-- The elements that a list of this type holds. -/
def AdmitsElement : AttributeType → Value → Prop
  | .list _, v => v.isScalar
  | .entityList key, v => ∃ s store, v = .entity s store ∧ s.key = key
  | _, _ => False

/-- The values that an attribute of this type holds. -/
def Admits : AttributeType → Value → Prop
  | .scalar _, v => v.isScalar
  | .entity key, v => v = .null ∨ ∃ s store, v = .entity s store ∧ s.key = key
  | .list kind, v => ∃ items, v = .list items ∧ ∀ w ∈ items, (list kind).AdmitsElement w
  | .entityList key, v => ∃ items, v = .list items ∧ ∀ w ∈ items, (entityList key).AdmitsElement w

/-- The value that is stored for a given one: null empties a list. -/
def normalize (type : AttributeType) (v : Value) : Value :=
  if type.isList && v.isNull then .list [] else v

lemma admits_iff_of_isList {type : AttributeType} (h : type.isList) {v : Value} :
    type.Admits v ↔ ∃ items, v = .list items ∧ ∀ w ∈ items, type.AdmitsElement w := by
  cases type with
  | scalar kind => cases h
  | entity key => cases h
  | list kind => rfl
  | entityList key => rfl

lemma admits_nil {type : AttributeType} (h : type.isList) : type.Admits (.list []) :=
  (admits_iff_of_isList h).2 ⟨[], rfl, by simp⟩

end AttributeType

namespace Entity

variable {s : Schema} {a : Attribute} {v w : Value}

lemma checkElement_eq_ok_iff :
    checkElement s a v = .ok w ↔ w = v ∧ a.type.AdmitsElement v := by
  unfold checkElement
  cases htype : a.type with
  | scalar kind => cases v <;> simp [AttributeType.AdmitsElement]
  | entity key => cases v <;> simp [AttributeType.AdmitsElement]
  | list kind => cases v <;> simp [AttributeType.AdmitsElement, Value.isScalar, eq_comm]
  | entityList key =>
    cases v with
    | entity t store =>
      by_cases hk : t.key = key
      · simp [AttributeType.AdmitsElement, hk, eq_comm]
      · simp only [AttributeType.AdmitsElement, hk, if_false, reduceCtorEq, false_iff, not_and]
        rintro rfl ⟨_, _, heq, hkey⟩
        cases heq
        exact hk hkey
    | _ => simp [AttributeType.AdmitsElement]

lemma checkElements_eq_ok_iff {vs ws : List Value} :
    checkElements s a vs = .ok ws ↔ ws = vs ∧ ∀ v ∈ vs, a.type.AdmitsElement v := by
  induction vs generalizing ws with
  | nil => simp [checkElements, eq_comm]
  | cons v vs ih =>
    unfold checkElements
    cases hv : checkElement s a v with
    | error err =>
      have hnot : ¬ a.type.AdmitsElement v := fun hadm => by
        rw [checkElement_eq_ok_iff.2 ⟨rfl, hadm⟩] at hv
        cases hv
      simp [bind, Except.bind, hnot]
    | ok v' =>
      obtain ⟨rfl, hadm⟩ := checkElement_eq_ok_iff.1 hv
      cases hvs : checkElements s a vs with
      | error err =>
        have hnot : ¬ ∀ v ∈ vs, a.type.AdmitsElement v := fun hall => by
          rw [ih.2 ⟨rfl, hall⟩] at hvs
          cases hvs
        simp only [bind, Except.bind, reduceCtorEq, List.mem_cons, forall_eq_or_imp, false_iff]
        exact fun h => hnot h.2.2
      | ok vs' =>
        obtain ⟨rfl, hall⟩ := ih.1 hvs
        simp only [bind, Except.bind, Except.ok.injEq, List.mem_cons, forall_eq_or_imp]
        exact ⟨fun h => ⟨h.symm, hadm, hall⟩, fun h => h.1.symm⟩

lemma checkShape_eq_ok_iff_of_isList (hl : a.type.isList) :
    checkShape s a v = .ok w ↔ w = a.type.normalize v ∧ a.type.Admits w := by
  unfold checkShape
  rw [AttributeType.admits_iff_of_isList hl, AttributeType.normalize, if_pos hl, hl]
  cases v with
  | null =>
    simp only [Value.isNull, Bool.and_self, if_true, Except.ok.injEq]
    constructor
    · rintro rfl
      exact ⟨rfl, [], rfl, by simp⟩
    · rintro ⟨rfl, -⟩
      rfl
  | list items =>
    simp only [Value.isNull, Bool.and_false, Bool.false_eq_true, if_false]
    cases hc : checkElements s a items with
    | error err =>
      simp only [Except.map, reduceCtorEq, false_iff]
      rintro ⟨rfl, items', heq, hall⟩
      cases heq
      rw [checkElements_eq_ok_iff.2 ⟨rfl, hall⟩] at hc
      cases hc
    | ok items' =>
      obtain ⟨rfl, hall⟩ := checkElements_eq_ok_iff.1 hc
      simp only [Except.map, Except.ok.injEq]
      constructor
      · rintro rfl
        exact ⟨rfl, items', rfl, hall⟩
      · rintro ⟨rfl, -⟩
        rfl
  | _ =>
    simp only [Value.isNull, Bool.and_false, Bool.false_eq_true, if_false, reduceCtorEq, false_iff]
    rintro ⟨rfl, items, heq, -⟩
    cases heq

lemma checkShape_eq_ok_iff_of_not_isList (hl : ¬ a.type.isList) :
    checkShape s a v = .ok w ↔ w = a.type.normalize v ∧ a.type.Admits w := by
  have hnorm : a.type.normalize v = v := by simp [AttributeType.normalize, hl]
  unfold checkShape
  rw [hnorm, if_neg hl]
  cases htype : a.type with
  | list kind => simp [htype, AttributeType.isList] at hl
  | entityList key => simp [htype, AttributeType.isList] at hl
  | scalar kind =>
    cases v with
    | list items =>
      simp only [Value.isScalar, Bool.false_eq_true, if_false, reduceCtorEq, false_iff]
      rintro ⟨rfl, h⟩
      cases h
    | entity t store =>
      simp only [Value.isScalar, Bool.false_eq_true, if_false, reduceCtorEq, false_iff]
      rintro ⟨rfl, h⟩
      cases h
    | _ =>
      simp only [Value.isScalar, if_true, Except.ok.injEq]
      exact ⟨fun h => ⟨h.symm, h ▸ rfl⟩, fun h => h.1.symm⟩
  | entity key =>
    cases v with
    | null =>
      simp only [Except.ok.injEq]
      exact ⟨fun h => ⟨h.symm, .inl h.symm⟩, fun h => h.1.symm⟩
    | entity t store =>
      by_cases hk : t.key = key
      · simp only [hk, if_true, Except.ok.injEq]
        exact ⟨fun h => ⟨h.symm, .inr ⟨t, store, h.symm, hk⟩⟩, fun h => h.1.symm⟩
      · simp only [hk, if_false, reduceCtorEq, false_iff]
        rintro ⟨rfl, h | ⟨_, _, heq, hkey⟩⟩
        · cases h
        · cases heq
          exact hk hkey
    | _ =>
      simp only [reduceCtorEq, false_iff]
      rintro ⟨rfl, h | ⟨_, _, heq, -⟩⟩
      · cases h
      · cases heq

/-- What passes the check is stored as it is, but for a null that empties a list. -/
lemma checkShape_eq_ok_iff :
    checkShape s a v = .ok w ↔ w = a.type.normalize v ∧ a.type.Admits w := by
  by_cases hl : a.type.isList
  · exact checkShape_eq_ok_iff_of_isList hl
  · exact checkShape_eq_ok_iff_of_not_isList hl

lemma writable_eq_ok_iff {name : String} :
    writable s name = .ok a ↔ s.isComputed name = false ∧ s.attribute? name = some a := by
  unfold writable
  by_cases hc : s.isComputed name
  · simp [hc]
  · cases ha : s.attribute? name <;> simp [hc]

end Entity

/-! ### Targets -/

namespace Operation

open Entity

/-- The attribute that an operation writes, or why it is refused. -/
def target (s : Schema) : Operation → Except EntityError Attribute
  | .set name v => (writable s name).bind fun a => (checkShape s a v).map fun _ => a
  | .add name v =>
    (writable s name).bind fun a =>
      if a.type.isList then (checkElement s a v).map fun _ => a
      else .error (.notAList s.key name a.type)
  | .unset name => writable s name

/-- What an operation stores in the cell of an attribute of a type, given what is stored there. -/
def cell (type : AttributeType) : Operation → Option Value → Option Value
  | .set _ v, _ => some (type.normalize v)
  | .add _ v, stored => some (.list ((stored.bind Value.list?).getD [] ++ [v]))
  | .unset _, _ => if type.isList then some (.list []) else none

end Operation

namespace Entity

/-- Store a value under a name, or nothing. -/
def write (e : Entity) (name : String) : Option Value → Entity
  | some v => { e with store := Dict.insert e.store name v }
  | none => { e with store := Dict.erase e.store name }

@[simp] lemma schema_write (e : Entity) (name : String) (cell : Option Value) :
    (e.write name cell).schema = e.schema := by
  cases cell <;> rfl

lemma stored?_write (e : Entity) (name : String) (cell : Option Value) (other : String) :
    (e.write name cell).stored? other = if name = other then cell else e.stored? other := by
  cases cell with
  | none => exact Dict.get?_erase e.store name other
  | some v => exact Dict.get?_insert e.store name v other

lemma sorted_write {e : Entity} (h : Dict.Sorted e.store) (name : String) (cell : Option Value) :
    Dict.Sorted (e.write name cell).store := by
  cases cell with
  | none => exact Dict.sorted_erase h name
  | some v => exact Dict.sorted_insert h name v

/-! ### Changes step by step -/

lemma run_getThe (f : Entity → Change) (e : Entity) :
    (getThe Entity >>= f : Change).run e = (f e).run e := rfl

lemma run_ok {α : Type} (x : α) (f : α → Change) (e : Entity) :
    ((liftM (Except.ok x : Except EntityError α) : ExceptT EntityError (StateM Entity) α) >>= f :
      Change).run e = (f x).run e := rfl

lemma run_error {α : Type} (cause : EntityError) (f : α → Change) (e : Entity) :
    ((liftM (Except.error cause : Except EntityError α) : ExceptT EntityError (StateM Entity) α)
      >>= f : Change).run e = (.error cause, e) := rfl

lemma run_modifyThe (f : Entity → Entity) (e : Entity) :
    (modifyThe Entity f : Change).run e = (.ok (), f e) := rfl

lemma run_throw (cause : EntityError) (e : Entity) :
    (throw cause : Change).run e = (.error cause, e) := rfl

/-- An operation leaves the entity alone, or writes the cell of its target. -/
theorem perform_eq (e : Entity) (op : Operation) :
    e.perform op = match op.target e.schema with
      | .error cause => (.error cause, e)
      | .ok a => (.ok (), e.write op.name (op.cell a.type (e.stored? op.name))) := by
  unfold perform
  cases op with
  | set name v =>
    simp only [Operation.change, Change.set, Operation.target, run_getThe]
    cases writable e.schema name with
    | error cause => exact run_error cause _ e
    | ok a =>
      simp only [run_ok, Except.bind]
      cases hv : checkShape e.schema a v with
      | error cause => exact run_error cause _ e
      | ok w =>
        obtain ⟨rfl, -⟩ := checkShape_eq_ok_iff.1 hv
        exact run_modifyThe _ e
  | add name v =>
    simp only [Operation.change, Change.add, Operation.target, run_getThe]
    cases writable e.schema name with
    | error cause => exact run_error cause _ e
    | ok a =>
      simp only [run_ok, Except.bind]
      by_cases hl : a.type.isList
      · rw [if_pos hl, if_pos hl]
        cases hv : checkElement e.schema a v with
        | error cause => exact run_error cause _ e
        | ok w =>
          obtain ⟨rfl, -⟩ := checkElement_eq_ok_iff.1 hv
          exact run_modifyThe _ e
      · rw [if_neg hl, if_neg hl]
        exact run_throw _ e
  | unset name =>
    simp only [Operation.change, Change.unset, Operation.target, run_getThe]
    cases writable e.schema name with
    | error cause => exact run_error cause _ e
    | ok a =>
      simp only [run_ok, Operation.cell]
      by_cases hl : a.type.isList
      · rw [if_pos hl, if_pos hl]
        exact run_modifyThe _ e
      · rw [if_neg hl, if_neg hl]
        exact run_modifyThe _ e

lemma perform_of_error {e : Entity} {op : Operation} {cause : EntityError}
    (h : op.target e.schema = .error cause) : e.perform op = (.error cause, e) := by
  rw [perform_eq, h]

lemma perform_of_ok {e : Entity} {op : Operation} {a : Attribute}
    (h : op.target e.schema = .ok a) :
    e.perform op = (.ok (), e.write op.name (op.cell a.type (e.stored? op.name))) := by
  rw [perform_eq, h]

@[simp] lemma schema_perform (e : Entity) (op : Operation) :
    (e.perform op).2.schema = e.schema := by
  cases h : op.target e.schema with
  | error cause => rw [perform_of_error h]
  | ok a => rw [perform_of_ok h, schema_write]

@[simp] lemma after_nil (e : Entity) : e.after [] = e := rfl

lemma after_cons (e : Entity) (op : Operation) (ops : List Operation) :
    e.after (op :: ops) = (e.perform op).2.after ops := rfl

lemma after_append (e : Entity) (ops ops' : List Operation) :
    e.after (ops ++ ops') = (e.after ops).after ops' := by
  simp only [after, List.foldl_append]

@[simp] lemma schema_after (e : Entity) (ops : List Operation) :
    (e.after ops).schema = e.schema := by
  induction ops generalizing e with
  | nil => rfl
  | cons op ops ih => rw [after_cons, ih, schema_perform]

end Entity

/-! ### Accepted operations -/

namespace Operation

open Entity

variable {s : Schema} {op : Operation} {a : Attribute}

/-- Whether an attribute of a type takes what an operation brings. -/
def AcceptedBy (type : AttributeType) : Operation → Prop
  | .set _ v => type.Admits (type.normalize v)
  | .add _ v => type.isList ∧ type.AdmitsElement v
  | .unset _ => True

/-- The target is the stored attribute of the name, if that takes what the operation brings. -/
theorem target_eq_ok_iff :
    op.target s = .ok a ↔
      s.isComputed op.name = false ∧ s.attribute? op.name = some a ∧ op.AcceptedBy a.type := by
  rw [← and_assoc, ← writable_eq_ok_iff]
  cases op with
  | set name v =>
    simp only [target, Operation.name, AcceptedBy]
    cases writable s name with
    | error cause => simp [Except.bind]
    | ok b =>
      simp only [Except.bind, Except.ok.injEq]
      cases hv : checkShape s b v with
      | error cause =>
        simp only [Except.map, reduceCtorEq, false_iff]
        rintro ⟨rfl, hadm⟩
        rw [checkShape_eq_ok_iff.2 ⟨rfl, hadm⟩] at hv
        cases hv
      | ok w =>
        obtain ⟨rfl, hadm⟩ := checkShape_eq_ok_iff.1 hv
        simp only [Except.map, Except.ok.injEq]
        exact ⟨fun h => ⟨h, h ▸ hadm⟩, fun h => h.1⟩
  | add name v =>
    simp only [target, Operation.name, AcceptedBy]
    cases writable s name with
    | error cause => simp [Except.bind]
    | ok b =>
      simp only [Except.bind, Except.ok.injEq]
      split_ifs with hl
      · cases hv : checkElement s b v with
        | error cause =>
          simp only [Except.map, reduceCtorEq, false_iff]
          rintro ⟨rfl, -, hadm⟩
          rw [checkElement_eq_ok_iff.2 ⟨rfl, hadm⟩] at hv
          cases hv
        | ok w =>
          obtain ⟨-, hadm⟩ := checkElement_eq_ok_iff.1 hv
          simp only [Except.map, Except.ok.injEq]
          exact ⟨fun h => ⟨h, h ▸ ⟨hl, hadm⟩⟩, fun h => h.1⟩
      · simp only [false_iff]
        rintro ⟨rfl, hl', -⟩
        exact hl hl'
  | unset name => simp [target, Operation.name, AcceptedBy]

end Operation

end EntityModel
