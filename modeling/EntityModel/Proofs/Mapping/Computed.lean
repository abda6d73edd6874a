import EntityModel.Proofs.Dict
import EntityModel.Proofs.Mapping.Conformance

/-!
# Fields of computed attributes do not count

A generic form may carry fields of computed attributes at every level: in itself, in the objects of
nested entities and in the items of lists of entities. Reading it gives what reading it without
these fields gives, entity or error, so two forms that differ in nothing else cannot be told apart
by what is read from them. Which schema governs a level is known from the look-up alone.
-/

namespace EntityModel

namespace Mapping

mutual

/-- The fields of a level and of all levels below it, but for those of computed attributes. -/
def dropComputed (lookup : SchemaLookup) (s : Schema) :
    List (String × Json) → List (String × Json)
  | [] => []
  | (name, v) :: rest =>
    if s.isComputed name then dropComputed lookup s rest
    else
      (name, (s.attribute? name).elim v fun a => dropComputedIn lookup a.type v) ::
        dropComputed lookup s rest

/-- The value of an attribute type, with the levels below it cut down. -/
def dropComputedIn (lookup : SchemaLookup) : AttributeType → Json → Json
  | .entity key, .object fields =>
    .object (match lookup key with
      | some s => dropComputed lookup s fields
      | none => fields)
  | .entityList key, .array items => .array (dropComputedItems lookup key items)
  | _, v => v

/-- The items of a list of entities, with the levels below them cut down. -/
def dropComputedItems (lookup : SchemaLookup) (key : String) : List Json → List Json
  | [] => []
  | v :: vs => dropComputedIn lookup (.entity key) v :: dropComputedItems lookup key vs

end

/-! ### What is left of the fields -/

section Fields

variable {lookup : SchemaLookup} {s : Schema} {name : String} {v : Json}
  {rest : List (String × Json)}

lemma dropComputed_cons_of_computed (h : s.isComputed name) :
    dropComputed lookup s ((name, v) :: rest) = dropComputed lookup s rest := by
  rw [dropComputed, if_pos h]

lemma dropComputed_cons_of_not_computed (h : s.isComputed name = false) :
    dropComputed lookup s ((name, v) :: rest) =
      (name, (s.attribute? name).elim v fun a => dropComputedIn lookup a.type v) ::
        dropComputed lookup s rest := by
  rw [dropComputed, if_neg (by simp [h])]

lemma keys_dropComputed (lookup : SchemaLookup) (s : Schema) (fields : Dict Json) :
    Dict.keys (dropComputed lookup s fields) =
      (Dict.keys fields).filter fun name => !s.isComputed name := by
  induction fields with
  | nil => rfl
  | cons p fields ih =>
    obtain ⟨name, v⟩ := p
    cases h : s.isComputed name with
    | true => simpa [dropComputed_cons_of_computed h, Dict.keys, h] using ih
    | false => simpa [dropComputed_cons_of_not_computed h, Dict.keys, h] using ih

lemma sorted_dropComputed {fields : Dict Json} (h : Dict.Sorted fields) :
    Dict.Sorted (dropComputed lookup s fields) := by
  have hkeys : (Dict.keys fields).Pairwise (· < ·) := List.pairwise_map.2 h
  refine Dict.sorted_of_keys ?_
  rw [keys_dropComputed]
  exact hkeys.filter _

lemma get?_dropComputed (lookup : SchemaLookup) (s : Schema) (fields : Dict Json) (name : String) :
    Dict.get? (dropComputed lookup s fields) name =
      if s.isComputed name then none
      else (Dict.get? fields name).map fun v =>
        (s.attribute? name).elim v fun a => dropComputedIn lookup a.type v := by
  induction fields with
  | nil => simp [dropComputed]
  | cons p fields ih =>
    obtain ⟨other, v⟩ := p
    cases h : s.isComputed other with
    | true =>
      rw [dropComputed_cons_of_computed h, ih, Dict.get?_cons]
      split_ifs with hname heq
      · rfl
      · subst heq
        exact absurd h hname
      · rfl
    | false =>
      rw [dropComputed_cons_of_not_computed h, Dict.get?_cons, Dict.get?_cons, ih]
      by_cases heq : other = name
      · subst heq
        simp [h]
      · simp [heq]

/-- The same is left of two JSON objects if and only if they hold the same under every name that is
not that of a computed attribute, up to the levels below, of which the same has to be left. -/
theorem dropComputed_eq_iff {fields fields' : Dict Json} (h : Dict.Sorted fields)
    (h' : Dict.Sorted fields') :
    dropComputed lookup s fields = dropComputed lookup s fields' ↔
      ∀ name, s.isComputed name = false →
        (Dict.get? fields name).map (fun v =>
          (s.attribute? name).elim v fun a => dropComputedIn lookup a.type v) =
        (Dict.get? fields' name).map fun v =>
          (s.attribute? name).elim v fun a => dropComputedIn lookup a.type v := by
  constructor
  · intro heq name hname
    have hget := congrArg (Dict.get? · name) heq
    simpa only [get?_dropComputed, hname, Bool.false_eq_true, if_false] using hget
  · intro hall
    refine Dict.ext_get? (sorted_dropComputed h) (sorted_dropComputed h') fun name => ?_
    rw [get?_dropComputed, get?_dropComputed]
    split_ifs with hname
    · rfl
    · exact hall name (by simpa using hname)

end Fields

/-! ### Reading without them -/

section Reading

variable {m : Mapping} {schema : Schema} {a : Attribute}

/-- A nested entity is read alike if its fields are, on whatever they are set. -/
lemma nested_dropComputed {key : String} {fields : List (String × Json)}
    (h : ∀ e : Entity, (m.readFields e (dropComputed m.lookup e.schema fields)).result =
      (m.readFields e fields).result) :
    (do
      let s ← .ofExcept (m.nested schema a key)
      let e ← m.readFields (.new s) (match m.lookup key with
        | some s => dropComputed m.lookup s fields
        | none => fields)
      pure e.toValue : Logged MappingError Value).result =
    (do
      let s ← .ofExcept (m.nested schema a key)
      let e ← m.readFields (.new s) fields
      pure e.toValue : Logged MappingError Value).result := by
  refine Logged.result_bind_congr rfl fun s hs => ?_
  rw [lookup_of_nested hs]
  exact Logged.result_bind_congr (h (.new s)) fun _ _ => rfl

mutual

/-- The fields of computed attributes are passed over wherever they are. -/
theorem readFields_dropComputed : (fields : List (String × Json)) → (e : Entity) →
    (m.readFields e (dropComputed m.lookup e.schema fields)).result = (m.readFields e fields).result
  | [], e => by rw [dropComputed]
  | (name, v) :: rest, e => by
    cases ha : e.schema.attribute? name with
    | some a =>
      have hcomputed : e.schema.isComputed name = false := by
        obtain ⟨hmem, rfl⟩ := Schema.attribute?_eq_some_iff.1 ha
        exact Schema.isComputed_of_mem hmem
      rw [dropComputed_cons_of_not_computed hcomputed, readFields, readFields]
      simp only [ha, Option.elim_some]
      refine Logged.result_bind_congr (readAttribute_dropComputed v) fun value _ => ?_
      refine Logged.result_bind_congr rfl fun e' hset => ?_
      have hschema : e'.schema = e.schema := by
        obtain ⟨-, -, -, -, rfl⟩ := Entity.set_eq_ok_iff.1
          ((Logged.result_mapError_eq_ok_iff (x := .ofExcept (e.set name value))).1 hset)
        exact Entity.schema_write _ _ _
      rw [← hschema]
      exact readFields_dropComputed rest e'
    | none =>
      by_cases hcomputed : e.schema.isComputed name
      · rw [dropComputed_cons_of_computed hcomputed, readFields_cons_of_computed ha hcomputed]
        exact readFields_dropComputed rest e
      · rw [dropComputed_cons_of_not_computed (by simpa using hcomputed), readFields, readFields]
        simp only [ha, hcomputed]
        rfl

theorem readAttribute_dropComputed {schema : Schema} {a : Attribute} : (v : Json) →
    (m.readAttribute schema a (dropComputedIn m.lookup a.type v)).result =
      (m.readAttribute schema a v).result
  | .null => by cases a.type <;> rw [dropComputedIn] <;> simp
  | .bool _ => by cases a.type <;> rw [dropComputedIn] <;> simp
  | .number _ => by cases a.type <;> rw [dropComputedIn] <;> simp
  | .string _ => by cases a.type <;> rw [dropComputedIn] <;> simp
  | .array items => by
    cases htype : a.type with
    | entityList key =>
      rw [dropComputedIn, readAttribute, readAttribute]
      simp only [htype, AttributeType.isList, if_true]
      exact Logged.result_bind_congr (readItems_dropComputed htype items) fun _ _ => rfl
    | _ => rw [dropComputedIn] <;> simp
  | .object fields => by
    cases htype : a.type with
    | entity key =>
      rw [dropComputedIn, readAttribute, readAttribute]
      simp only [htype]
      exact nested_dropComputed (readFields_dropComputed fields)
    | _ => rw [dropComputedIn] <;> simp

theorem readItem_dropComputed {schema : Schema} {a : Attribute} {key : String}
    (htype : a.type = .entityList key) : (v : Json) →
    (m.readItem schema a (dropComputedIn m.lookup (.entity key) v)).result =
      (m.readItem schema a v).result
  | .null => by rw [dropComputedIn] <;> simp
  | .bool _ => by rw [dropComputedIn] <;> simp
  | .number _ => by rw [dropComputedIn] <;> simp
  | .string _ => by rw [dropComputedIn] <;> simp
  | .array _ => by rw [dropComputedIn] <;> simp
  | .object fields => by
    rw [dropComputedIn, readItem, readItem]
    simp only [htype]
    exact nested_dropComputed (readFields_dropComputed fields)

theorem readItems_dropComputed {schema : Schema} {a : Attribute} {key : String}
    (htype : a.type = .entityList key) : (items : List Json) →
    (m.readItems schema a (dropComputedItems m.lookup key items)).result =
      (m.readItems schema a items).result
  | [] => by rw [dropComputedItems]
  | v :: items => by
    rw [dropComputedItems, readItems, readItems]
    refine Logged.result_bind_congr (readItem_dropComputed htype v) fun _ _ => ?_
    exact Logged.result_bind_congr (readItems_dropComputed htype items) fun _ _ => rfl

end

end Reading

/-- Two generic forms that differ only in fields of computed attributes, at any level, are read
alike: as the same entity or with the same error, whatever these fields hold in one form or the
other. -/
theorem ofMap_eq_of_dropComputed_eq (m : Mapping) (s : Schema) {fields fields' : Dict Json}
    (h : dropComputed m.lookup s fields = dropComputed m.lookup s fields') :
    (m.ofMap s fields).result = (m.ofMap s fields').result := by
  calc (m.ofMap s fields).result
      = (m.ofMap s (dropComputed m.lookup s fields)).result :=
        (readFields_dropComputed fields (.new s)).symm
    _ = (m.ofMap s (dropComputed m.lookup s fields')).result := by rw [h]
    _ = (m.ofMap s fields').result := readFields_dropComputed fields' (.new s)

end Mapping

/-! ### An example -/

/-- The generic form of `exampleFields` with other fields of computed attributes: another label of
the address, none of the person, and a town. -/
def exampleOtherFields : Dict Json :=
  [("height", .number (.integer 7)),
    ("others", .array [.object [("city", .string "Oslo"), ("label", .array [.null])]]),
    ("town", .object [("label", .null)])]

theorem ofMap_exampleOtherFields :
    (Mapping.ofMap { lookup := exampleLookup } examplePerson exampleOtherFields).result =
      .ok ⟨examplePerson, [("height", .decimal ⟨7, 0, by decide, by decide⟩),
        ("others", .list [.entity exampleAddress [("city", .string "Oslo")]]),
        ("tags", .list [])]⟩ ∧
    (Mapping.ofMap { lookup := exampleLookup } examplePerson
      [("label", .null), ("surname", .null)]).result = .error (.unknownKey "person" "surname") := by
  have hdrop : Mapping.dropComputed exampleLookup examplePerson exampleOtherFields =
      Mapping.dropComputed exampleLookup examplePerson exampleFields := rfl
  have hfails : Mapping.dropComputed exampleLookup examplePerson
      [("label", .null), ("surname", .null)] =
      Mapping.dropComputed exampleLookup examplePerson [("surname", .null)] := rfl
  constructor
  · rw [Mapping.ofMap_eq_of_dropComputed_eq { lookup := exampleLookup } examplePerson hdrop]
    exact ofMap_exampleFields
  · rw [Mapping.ofMap_eq_of_dropComputed_eq { lookup := exampleLookup } examplePerson hfails]
    rfl

end EntityModel
