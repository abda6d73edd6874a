import EntityModel.Proofs.Entity.Operation
import EntityModel.Proofs.Schema.Lookup

/-!
# The shape of entities

Whatever operations are carried out on a new entity, refused ones included, its store keeps to the
schema: it holds values of the declared shapes under names of stored attributes, and a list under
every list attribute. The values that the operations bring are built in the same way, so the shape
goes down to every nested entity.
-/

namespace EntityModel

/-- A value that can come into being: a scalar, a list of such values, or what operations that bring
such values make of a new entity. -/
inductive Value.Built : Value → Prop where
  | scalar {v : Value} (h : v.isScalar) : Built v
  | list {items : List Value} (h : ∀ v ∈ items, Built v) : Built (.list items)
  | entity (s : Schema) (ops : List Operation) (h : ∀ op ∈ ops, ∀ v ∈ op.value?, Built v) :
      Built ((Entity.new s).after ops).toValue

/-- The store of an entity keeps to the schema. -/
structure Entity.Consistent (e : Entity) : Prop where
  /-- The names ascend, so each is there once. -/
  sorted : Dict.Sorted e.store
  /-- Only stored attributes have values. -/
  declared : ∀ name, e.isSet name → ∃ a ∈ e.schema.attributes, a.name = name
  /-- Computed attributes have none. -/
  not_computed : ∀ name, e.isSet name → e.schema.isComputed name = false
  /-- List attributes are always set. -/
  lists : ∀ a ∈ e.schema.attributes, a.type.isList → e.isSet a.name
  /-- Values have the declared shape. -/
  admitted : ∀ a ∈ e.schema.attributes, ∀ v, e.stored? a.name = some v → a.type.Admits v

/-- Every entity in a value keeps to its schema. -/
inductive Value.Shaped : Value → Prop where
  | scalar {v : Value} (h : v.isScalar) : Shaped v
  | list {items : List Value} (h : ∀ v ∈ items, Shaped v) : Shaped (.list items)
  | entity {s : Schema} {store : Dict Value} (h : Entity.Consistent ⟨s, store⟩)
      (values : ∀ name v, Dict.get? store name = some v → Shaped v) : Shaped (.entity s store)

lemma Value.shaped_list_iff {items : List Value} :
    (Value.list items).Shaped ↔ ∀ v ∈ items, v.Shaped := by
  constructor
  · intro h
    cases h with
    | scalar h => cases h
    | list h => exact h
  · exact .list

lemma Entity.shaped_iff {e : Entity} :
    e.toValue.Shaped ↔ e.Consistent ∧ ∀ name v, e.stored? name = some v → v.Shaped := by
  constructor
  · intro h
    cases h with
    | scalar h => cases h
    | entity h values => exact ⟨h, values⟩
  · rintro ⟨h, values⟩
    exact .entity h values

/-! ### New entities -/

/-- What is stored under a name of a new entity. -/
def Schema.start? (s : Schema) (name : String) : Option Value :=
  (s.attribute? name).bind fun a => if a.type.isList then some (.list []) else none

namespace Entity

theorem stored?_new (s : Schema) (name : String) : (new s).stored? name = s.start? name := by
  have hmap : (s.attributes.filter fun a => a.type.isList).map (fun a => (a.name, Value.list [])) =
      ((s.attributes.filter fun a => a.type.isList).map (·.name)).map fun k => (k, .list []) := by
    simp
  have hmem : name ∈ (s.attributes.filter fun a => a.type.isList).map (·.name) ↔
      ∃ a, s.attribute? name = some a ∧ a.type.isList := by
    simp only [List.mem_map, List.mem_filter, Schema.attribute?_eq_some_iff]
    exact exists_congr fun a => and_right_comm
  simp only [stored?, new, Dict.ofList]
  rw [hmap, Dict.get?_foldl_insert_const, Schema.start?]
  simp only [hmem]
  cases ha : s.attribute? name with
  | none => simp
  | some a => by_cases hl : a.type.isList <;> simp [hl]

lemma schema_new (s : Schema) : (new s).schema = s := rfl

lemma exists_isList_of_isSet_new {s : Schema} {name : String} (h : (new s).isSet name) :
    ∃ a ∈ s.attributes, a.name = name ∧ a.type.isList := by
  rw [isSet, stored?_new, Schema.start?] at h
  cases ha : s.attribute? name with
  | none => simp [ha] at h
  | some a =>
    obtain ⟨hmem, hname⟩ := Schema.attribute?_eq_some_iff.1 ha
    refine ⟨a, hmem, hname, ?_⟩
    by_contra hl
    simp [ha, hl] at h

lemma consistent_new (s : Schema) : (new s).Consistent := by
  have hvalue (a : Attribute) (ha : a ∈ s.attributes) :
      (new s).stored? a.name = if a.type.isList then some (.list []) else none := by
    rw [stored?_new, Schema.start?, Schema.attribute?_eq_some_iff.2 ⟨ha, rfl⟩]
    rfl
  constructor
  case sorted => exact Dict.sorted_ofList _
  case declared =>
    intro name h
    obtain ⟨a, ha, hname, -⟩ := exists_isList_of_isSet_new h
    exact ⟨a, ha, hname⟩
  case not_computed =>
    intro name h
    obtain ⟨a, ha, rfl, -⟩ := exists_isList_of_isSet_new h
    exact Schema.isComputed_of_mem ha
  case lists =>
    intro a ha hl
    rw [isSet, hvalue a ha, if_pos hl]
    rfl
  case admitted =>
    intro a ha v hv
    rw [hvalue a ha] at hv
    split_ifs at hv with hl
    cases hv
    exact AttributeType.admits_nil hl

end Entity

/-! ### One operation -/

namespace Operation

variable {type : AttributeType} {op : Operation} {stored : Option Value}

/-- What an accepted operation stores has the shape of the attribute, if what was stored has it. -/
lemma admits_cell (h : op.AcceptedBy type) (hs : ∀ u, stored = some u → type.Admits u) {v : Value}
    (hv : op.cell type stored = some v) : type.Admits v := by
  cases op with
  | set name w =>
    cases hv
    exact h
  | add name w =>
    cases hv
    obtain ⟨hl, hw⟩ := h
    refine (AttributeType.admits_iff_of_isList hl).2 ⟨_, rfl, fun u hu => ?_⟩
    rcases List.mem_append.1 hu with hu | hu
    · cases stored with
      | none => cases hu
      | some old =>
        obtain ⟨items, rfl, hitems⟩ := (AttributeType.admits_iff_of_isList hl).1 (hs old rfl)
        exact hitems u hu
    · rw [List.mem_singleton.1 hu]
      exact hw
  | unset name =>
    simp only [cell] at hv
    split_ifs at hv with hl
    cases hv
    exact AttributeType.admits_nil hl

/-- An operation on a list attribute leaves something in its cell. -/
lemma isSome_cell (hl : type.isList) : (op.cell type stored).isSome := by
  cases op with
  | set name v => rfl
  | add name v => rfl
  | unset name => simp [cell, hl]

lemma shaped_cell (hop : ∀ v ∈ op.value?, v.Shaped) (hs : ∀ u, stored = some u → u.Shaped)
    {v : Value} (hv : op.cell type stored = some v) : v.Shaped := by
  cases op with
  | set name w =>
    cases hv
    rw [AttributeType.normalize]
    split_ifs
    · exact .list (by simp)
    · exact hop w rfl
  | add name w =>
    cases hv
    refine .list fun u hu => ?_
    rcases List.mem_append.1 hu with hu | hu
    · cases stored with
      | none => cases hu
      | some old =>
        cases old with
        | list items => exact Value.shaped_list_iff.1 (hs _ rfl) u hu
        | _ => cases hu
    · rw [List.mem_singleton.1 hu]
      exact hop w rfl
  | unset name =>
    simp only [cell] at hv
    split_ifs at hv
    cases hv
    exact .list (by simp)

end Operation

namespace Entity

variable {e : Entity}

lemma consistent_write {op : Operation} {a : Attribute} (h : e.Consistent)
    (ht : op.target e.schema = .ok a) :
    (e.write op.name (op.cell a.type (e.stored? op.name))).Consistent := by
  obtain ⟨hc, ha, hacc⟩ := Operation.target_eq_ok_iff.1 ht
  obtain ⟨hmem, hname⟩ := Schema.attribute?_eq_some_iff.1 ha
  have hthe (b : Attribute) (hb : b ∈ e.schema.attributes) (heq : op.name = b.name) : b = a :=
    Option.some.inj ((Schema.attribute?_eq_some_iff.2 ⟨hb, heq.symm⟩).symm.trans ha)
  constructor
  case sorted => exact sorted_write h.sorted _ _
  case declared =>
    intro name hset
    rw [isSet, stored?_write] at hset
    rw [schema_write]
    split_ifs at hset with heq
    · exact ⟨a, hmem, hname.trans heq⟩
    · exact h.declared name hset
  case not_computed =>
    intro name hset
    rw [isSet, stored?_write] at hset
    rw [schema_write]
    split_ifs at hset with heq
    · exact heq ▸ hc
    · exact h.not_computed name hset
  case lists =>
    intro b hb hl
    rw [schema_write] at hb
    rw [isSet, stored?_write]
    split_ifs with heq
    · exact Operation.isSome_cell (hthe b hb heq ▸ hl)
    · exact h.lists b hb hl
  case admitted =>
    intro b hb v hv
    rw [schema_write] at hb
    rw [stored?_write] at hv
    split_ifs at hv with heq
    · obtain rfl := hthe b hb heq
      refine Operation.admits_cell hacc (fun u hu => ?_) hv
      exact h.admitted b hb u (heq ▸ hu)
    · exact h.admitted b hb v hv

lemma consistent_perform (h : e.Consistent) (op : Operation) : (e.perform op).2.Consistent := by
  cases ht : op.target e.schema with
  | error cause =>
    rw [perform_of_error ht]
    exact h
  | ok a =>
    rw [perform_of_ok ht]
    exact consistent_write h ht

/-- An operation keeps the shape of an entity, whether it succeeds or not. -/
theorem shaped_perform (h : e.toValue.Shaped) {op : Operation} (hop : ∀ v ∈ op.value?, v.Shaped) :
    (e.perform op).2.toValue.Shaped := by
  cases ht : op.target e.schema with
  | error cause =>
    rw [perform_of_error ht]
    exact h
  | ok a =>
    rw [shaped_iff] at h ⊢
    refine ⟨consistent_perform h.1 op, fun name v hv => ?_⟩
    rw [perform_of_ok ht, stored?_write] at hv
    split_ifs at hv with heq
    · exact Operation.shaped_cell hop (h.2 op.name) hv
    · exact h.2 name v hv

/-! ### Runs -/

lemma consistent_after (h : e.Consistent) (ops : List Operation) : (e.after ops).Consistent := by
  induction ops generalizing e with
  | nil => exact h
  | cons op ops ih =>
    rw [after_cons]
    exact ih (consistent_perform h op)

theorem shaped_after_of_shaped (h : e.toValue.Shaped) {ops : List Operation}
    (hops : ∀ op ∈ ops, ∀ v ∈ op.value?, v.Shaped) : (e.after ops).toValue.Shaped := by
  induction ops generalizing e with
  | nil => exact h
  | cons op ops ih =>
    rw [after_cons]
    exact ih (shaped_perform h (hops op List.mem_cons_self))
      fun op' hop' => hops op' (List.mem_cons_of_mem op hop')

lemma shaped_new (s : Schema) : (new s).toValue.Shaped := by
  refine shaped_iff.2 ⟨consistent_new s, fun name v hv => ?_⟩
  rw [stored?_new, Schema.start?] at hv
  cases ha : s.attribute? name with
  | none => simp [ha] at hv
  | some a =>
    rw [ha, Option.bind_some] at hv
    split_ifs at hv
    cases hv
    exact .list (by simp)

end Entity

/-- All that can come into being is well shaped. -/
theorem Value.Built.shaped {v : Value} (h : v.Built) : v.Shaped := by
  induction h with
  | scalar h => exact .scalar h
  | list h ih => exact .list ih
  | entity s ops h ih => exact Entity.shaped_after_of_shaped (Entity.shaped_new s) ih

/-- After any operations on a new entity, it and every entity in it keep to their schemas. -/
theorem Entity.shaped_after_new (s : Schema) {ops : List Operation}
    (h : ∀ op ∈ ops, ∀ v ∈ op.value?, v.Built) : ((new s).after ops).toValue.Shaped :=
  shaped_after_of_shaped (shaped_new s) fun op hop v hv => (h op hop v hv).shaped

/-! ### An example -/

/-- The schema of addresses. -/
def exampleAddress : Schema where
  id := none
  key := "address"
  name := "address"
  description := none
  attributes := [⟨"city", .scalar .string⟩, ⟨"since", .scalar .date⟩]
  computed := [⟨"label", .scalar .string, "city"⟩]
  configurations := []
  audit := {}
  names_nodup := by decide
  acyclic := by decide +kernel

/-- The schema of persons, who have addresses. -/
def examplePerson : Schema where
  id := none
  key := "person"
  name := "person"
  description := none
  attributes :=
    [⟨"name", .scalar .string⟩, ⟨"home", .entity "address"⟩, ⟨"others", .entityList "address"⟩,
      ⟨"tags", .list .string⟩, ⟨"height", .scalar .decimal⟩]
  computed := [⟨"label", .scalar .string, "town"⟩, ⟨"town", .scalar .string, "home.label"⟩]
  configurations := []
  audit := {}
  names_nodup := by decide
  acyclic := by decide +kernel

/-- An address with a city; the second operation is refused. -/
def exampleHome : Entity :=
  (Entity.new exampleAddress).after [.set "city" (.string "Oslo"), .set "label" (.string "home")]

/-- Operations on a person; half of them are refused. -/
def exampleOperations : List Operation :=
  [.set "home" exampleHome.toValue, .add "others" exampleHome.toValue, .add "others" .null,
    .set "tags" .null, .add "tags" .null, .set "name" (.list []), .add "name" (.string "Ann"),
    .set "name" (.string "Ann"), .unset "label", .set "surname" .null, .unset "others"]

lemma built_exampleHome : exampleHome.toValue.Built := by
  refine .entity exampleAddress _ ?_
  simp only [List.forall_mem_cons, Operation.value?, Option.mem_some_iff, forall_eq']
  exact ⟨.scalar rfl, .scalar rfl, by simp⟩

lemma built_exampleOperations : ∀ op ∈ exampleOperations, ∀ v ∈ op.value?, v.Built := by
  have hnil : (Value.list []).Built := .list (by simp)
  simp only [exampleOperations, List.forall_mem_cons, Operation.value?, Option.mem_some_iff,
    forall_eq']
  exact ⟨built_exampleHome, built_exampleHome, .scalar rfl, .scalar rfl, .scalar rfl, hnil,
    .scalar rfl, .scalar rfl, by simp, .scalar rfl, by simp, by simp⟩

theorem shaped_after_exampleOperations :
    (∀ op ∈ exampleOperations, ∀ v ∈ op.value?, v.Built) ∧
      ((Entity.new examplePerson).after exampleOperations).toValue.Shaped :=
  ⟨built_exampleOperations, Entity.shaped_after_new examplePerson built_exampleOperations⟩

end EntityModel
