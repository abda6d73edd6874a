import EntityModel.Proofs.Mapping.Conformance

/-!
# Where a mapping fails

With a look-up that is closed under the references between schemas, a mapping fails at a field that
is not declared, or at a value of a field, in the entity itself or in one nested in it: the value
has no place in the declared type or is not converted to it. No nested schema is missing, and what
has been read is never refused by the entity.
-/

namespace EntityModel

/-- The schemas that the stored attributes of a schema refer to are found. -/
def Schema.Resolved (s : Schema) (lookup : SchemaLookup) : Prop :=
  ∀ a ∈ s.attributes, ∀ key, a.type.schemaKey? = some key → ∃ t, lookup key = some t

/-- A look-up that finds schemas under their own keys, and with a schema those that it refers to. -/
structure SchemaLookup.Closed (lookup : SchemaLookup) : Prop where
  key : ∀ {key s}, lookup key = some s → s.key = key
  resolved : ∀ {key s}, lookup key = some s → s.Resolved lookup

/-- The kinds of JSON values that have a place in a type. -/
def AttributeType.takes : AttributeType → JsonKind → Bool
  | .scalar _, kind => kind ≠ .array
  | .entity _, kind => kind = .object
  | _, kind => kind = .array

/-- In the field of an attribute, a value is read as one of a type: the field itself, unless it is
null, or an item of it. -/
inductive AttributeType.Reads : AttributeType → Json → AttributeType → Json → Prop
  | field {type : AttributeType} {j : Json} (h : j ≠ .null) : Reads type j type j
  | item {type element : AttributeType} {items : List Json} {v : Json}
      (helement : type.element? = some element) (hv : v ∈ items) :
      Reads type (.array items) element v

namespace AttributeType

lemma isList_eq_isSome_element? (type : AttributeType) : type.isList = type.element?.isSome := by
  cases type <;> rfl

lemma takes_array (type : AttributeType) : type.takes .array = type.isList := by
  cases type <;> rfl

end AttributeType

mutual

/-- An error is about one of the fields of an entity of a schema, at any depth. -/
inductive MappingError.OfFields (lookup : SchemaLookup) :
    Schema → List (String × Json) → MappingError → Prop
  | undeclared {s : Schema} {fields : List (String × Json)} {name : String}
      (hname : name ∈ Dict.keys fields) (h : s.isDeclared name = false) :
      MappingError.OfFields lookup s fields (.unknownKey s.key name)
  | value {s : Schema} {fields : List (String × Json)} {a : Attribute} {j v : Json}
      {type : AttributeType} {cause : MappingError} (ha : a ∈ s.attributes)
      (hj : (a.name, j) ∈ fields) (hv : a.type.Reads j type v)
      (h : MappingError.OfValue lookup s a type v cause) :
      MappingError.OfFields lookup s fields cause

/-- An error is about a value that is read as one of a type for an attribute of a schema. -/
inductive MappingError.OfValue (lookup : SchemaLookup) :
    Schema → Attribute → AttributeType → Json → MappingError → Prop
  | shape {s : Schema} {a : Attribute} {type : AttributeType} {v : Json}
      (h : type.takes v.kind = false) :
      MappingError.OfValue lookup s a type v (.invalidShape s.key a.name a.type v.kind)
  | conversion {s : Schema} {a : Attribute} {kind : ScalarKind} {v : Json}
      {cause : ConversionError} (h : (Conversions.builtin.convert v kind).result = .error cause) :
      MappingError.OfValue lookup s a (.scalar kind) v (.conversion s.key a.name cause)
  | nested {s t : Schema} {a : Attribute} {key : String} {fields : List (String × Json)}
      {cause : MappingError} (ht : lookup key = some t)
      (h : MappingError.OfFields lookup t fields cause) :
      MappingError.OfValue lookup s a (.entity key) (.object fields) cause

end

namespace MappingError

variable {lookup : SchemaLookup} {s : Schema} {fields fields' : List (String × Json)}
  {cause : MappingError}

lemma OfFields.mono (h : OfFields lookup s fields cause) (hsub : fields ⊆ fields') :
    OfFields lookup s fields' cause := by
  cases h with
  | undeclared hname h => exact .undeclared (List.map_subset _ hsub hname) h
  | value ha hj hv h => exact .value ha (hsub hj) hv h

/-- A value that has no place in the type of its attribute. -/
lemma OfValue.of_type {a : Attribute} {type : AttributeType} {v : Json} (htype : a.type = type)
    (h : type.takes v.kind = false) :
    OfValue lookup s a type v (.invalidShape s.key a.name type v.kind) := by
  subst htype
  exact .shape h

mutual

/-- No error about fields is about a missing schema or comes from setting an attribute. -/
theorem OfFields.ne {cause : MappingError} : {s : Schema} → {fields : List (String × Json)} →
    OfFields lookup s fields cause →
    (∀ schema name key, cause ≠ .missingSchema schema name key) ∧ ∀ inner, cause ≠ .entity inner
  | _, _, .undeclared .. => ⟨by simp, by simp⟩
  | _, _, .value _ _ _ h => h.ne

theorem OfValue.ne {cause : MappingError} : {s : Schema} → {a : Attribute} →
    {type : AttributeType} → {v : Json} → OfValue lookup s a type v cause →
    (∀ schema name key, cause ≠ .missingSchema schema name key) ∧ ∀ inner, cause ≠ .entity inner
  | _, _, _, _, .shape .. => ⟨by simp, by simp⟩
  | _, _, _, _, .conversion .. => ⟨by simp, by simp⟩
  | _, _, _, _, .nested _ h => h.ne

end

end MappingError

namespace Mapping

open Entity MappingError

variable {lookup : SchemaLookup} {schema : Schema} {a : Attribute} {j : Json} {v : Value}
  {cause : MappingError}

/-! ### What was read is admitted -/

/-- A nested entity that was read is of the referenced schema. -/
lemma exists_entity_of_nested {key : String} {fields : List (String × Json)}
    (hlookup : lookup.Closed)
    (h : (do
      let s ← .ofExcept (nested { lookup } schema a key)
      let e ← readFields { lookup } (.new s) fields
      pure e.toValue : Logged MappingError Value).result = .ok v) :
    ∃ s store, v = .entity s store ∧ s.key = key := by
  obtain ⟨s, hs, h⟩ := Logged.result_bind_eq_ok_iff.1 h
  obtain ⟨e, he, h⟩ := Logged.result_bind_eq_ok_iff.1 h
  cases h
  obtain ⟨-, hschema⟩ := conforms_of_readFields fields (conforms_new lookup s) he
  refine ⟨e.schema, e.store, rfl, ?_⟩
  rw [hschema]
  exact hlookup.key (lookup_of_nested hs)

lemma admitsElement_of_readItem (hlookup : lookup.Closed)
    (h : (readItem { lookup } schema a j).result = .ok v) : a.type.AdmitsElement v := by
  cases htype : a.type with
  | list kind =>
    have hj : ∀ items, j ≠ .array items := by
      rintro items rfl
      rw [readItem] at h
      cases h
    rw [readItem_of_list htype hj] at h
    exact (hasKind_of_readScalar h).isScalar
  | entityList key =>
    cases j with
    | object fields =>
      simp only [readItem, htype] at h
      exact exists_entity_of_nested hlookup h
    | _ =>
      simp only [readItem, htype] at h
      cases h
  | _ => cases j <;> simp only [readItem, htype] at h <;> cases h

lemma admitsElement_of_readItems (hlookup : lookup.Closed) {items : List Json}
    {values : List Value} (h : (readItems { lookup } schema a items).result = .ok values) :
    ∀ w ∈ values, a.type.AdmitsElement w := by
  induction items generalizing values with
  | nil =>
    rw [readItems] at h
    cases h
    simp
  | cons j items ih =>
    rw [readItems] at h
    obtain ⟨w, hw, h⟩ := Logged.result_bind_eq_ok_iff.1 h
    obtain ⟨ws, hws, h⟩ := Logged.result_bind_eq_ok_iff.1 h
    cases h
    exact List.forall_mem_cons.2 ⟨admitsElement_of_readItem hlookup hw, ih hws⟩

/-- An attribute can be set to what was read for it. -/
theorem admits_of_readAttribute (hlookup : lookup.Closed)
    (h : (readAttribute { lookup } schema a j).result = .ok v) : a.type.Admits v := by
  cases htype : a.type with
  | scalar kind =>
    have hj : ∀ items, j ≠ .array items := by
      rintro items rfl
      simp only [readAttribute, htype, AttributeType.isList] at h
      cases h
    rw [readAttribute_of_scalar htype hj] at h
    exact (hasKind_of_readScalar h).isScalar
  | entity key =>
    cases j with
    | null =>
      simp only [readAttribute, htype] at h
      cases h
      exact .inl rfl
    | object fields =>
      simp only [readAttribute, htype] at h
      exact .inr (exists_entity_of_nested hlookup h)
    | _ =>
      simp only [readAttribute, htype, AttributeType.isList] at h
      cases h
  | list | entityList =>
    rw [← htype]
    have hl : a.type.isList := by
      rw [htype]
      rfl
    cases j with
    | null =>
      simp only [readAttribute, htype] at h
      cases h
      exact AttributeType.admits_nil hl
    | array items =>
      rw [readAttribute, if_pos hl] at h
      obtain ⟨values, hvalues, h⟩ := Logged.result_bind_eq_ok_iff.1 h
      cases h
      exact (AttributeType.admits_iff_of_isList hl).2
        ⟨values, rfl, admitsElement_of_readItems hlookup hvalues⟩
    | _ =>
      simp only [readAttribute, htype] at h
      cases h

/-! ### Where reading fails -/

lemma ofValue_of_readScalar {kind : ScalarKind}
    (h : (readScalar { lookup } schema a kind j).result = .error cause) :
    OfValue lookup schema a (.scalar kind) j cause := by
  obtain ⟨inner, hinner, rfl⟩ := Logged.result_mapError_eq_error_iff.1 h
  exact .conversion hinner

/-- With a schema that is found, reading a nested entity fails at its own fields. -/
lemma error_of_nested {key : String} {t : Schema} (ht : lookup key = some t)
    {fields : List (String × Json)}
    (h : (do
      let s ← .ofExcept (nested { lookup } schema a key)
      let e ← readFields { lookup } (.new s) fields
      pure e.toValue : Logged MappingError Value).result = .error cause) :
    (readFields { lookup } (.new t) fields).result = .error cause := by
  have hnested : nested { lookup } schema a key = .ok t := by
    rw [nested]
    simp only [ht, Option.elim_some]
  rw [hnested, Logged.result_bind_of_ok (Logged.result_ofExcept _)] at h
  rcases Logged.result_bind_eq_error_iff.1 h with h | ⟨e, -, h⟩
  · exact h
  · cases h

/-- A value that holds no others fails as it is. -/
lemma ofValue_of_readAttribute_leaf (hitems : ∀ items, j ≠ .array items)
    (hfields : ∀ fields, j ≠ .object fields)
    (h : (readAttribute { lookup } schema a j).result = .error cause) :
    ∃ type v, a.type.Reads j type v ∧ OfValue lookup schema a type v cause := by
  cases j with
  | array items => exact absurd rfl (hitems items)
  | object fields => exact absurd rfl (hfields fields)
  | null => cases htype : a.type <;> simp only [readAttribute, htype] at h <;> cases h
  | _ =>
    refine ⟨a.type, _, .field (by simp), ?_⟩
    cases htype : a.type with
    | scalar kind =>
      simp only [readAttribute, htype] at h
      exact ofValue_of_readScalar h
    | _ =>
      simp only [readAttribute, htype] at h
      cases h
      exact .of_type htype rfl

lemma ofValue_of_readItem_leaf {element : AttributeType} (helement : a.type.element? = some element)
    (hfields : ∀ fields, j ≠ .object fields)
    (h : (readItem { lookup } schema a j).result = .error cause) :
    OfValue lookup schema a element j cause := by
  cases j with
  | object fields => exact absurd rfl (hfields fields)
  | array items =>
    rw [readItem] at h
    cases h
    refine .shape ?_
    rcases AttributeType.element?_eq_some helement with ⟨kind, -, rfl⟩ | ⟨key, -, rfl⟩ <;> rfl
  | _ =>
    rcases AttributeType.element?_eq_some helement with ⟨kind, htype, rfl⟩ | ⟨key, htype, rfl⟩
    · simp only [readItem, htype] at h
      exact ofValue_of_readScalar h
    · simp only [readItem, htype] at h
      cases h
      rw [← htype]
      exact .shape rfl

mutual

/-- Reading fields fails at one of them. -/
theorem ofFields_of_readFields (hlookup : lookup.Closed) : (fields : List (String × Json)) →
    {e : Entity} → {cause : MappingError} → e.schema.Resolved lookup →
    (readFields { lookup } e fields).result = .error cause →
    OfFields lookup e.schema fields cause
  | [], e, cause, hs, h => by
    rw [readFields] at h
    cases h
  | (name, j) :: rest, e, cause, hs, h => by
    have hrest {e' : Entity} (hschema : e'.schema = e.schema)
        (h : (readFields { lookup } e' rest).result = .error cause) :
        OfFields lookup e.schema ((name, j) :: rest) cause := by
      rw [← hschema] at hs ⊢
      exact (ofFields_of_readFields hlookup rest hs h).mono (List.subset_cons_self _ _)
    rw [readFields] at h
    split at h
    · rename_i a hattribute
      obtain ⟨ha, rfl⟩ := Schema.attribute?_eq_some_iff.1 hattribute
      rcases Logged.result_bind_eq_error_iff.1 h with h | ⟨v, hv, h⟩
      · obtain ⟨type, v, hreads, h⟩ := ofValue_of_readAttribute hlookup (hs a ha) j h
        exact .value ha List.mem_cons_self hreads h
      · -- what was read can be set, so it is a later field that fails
        rw [set_of_admits ha (admits_of_readAttribute hlookup hv)] at h
        exact hrest (schema_write _ _ _) h
    · rename_i hattribute
      split at h
      · exact hrest rfl h
      · rename_i hcomputed
        cases h
        refine .undeclared (by simp [Dict.keys]) ?_
        rw [Schema.isDeclared, hattribute, Option.isSome_none, Bool.false_or]
        exact Bool.eq_false_iff.2 hcomputed

/-- Reading the field of an attribute fails at the field itself or at an item of it. -/
theorem ofValue_of_readAttribute (hlookup : lookup.Closed) {schema : Schema} {a : Attribute}
    (ha : ∀ key, a.type.schemaKey? = some key → ∃ t, lookup key = some t) : (j : Json) →
    {cause : MappingError} → (readAttribute { lookup } schema a j).result = .error cause →
    ∃ type v, a.type.Reads j type v ∧ OfValue lookup schema a type v cause
  | .null, _, h => ofValue_of_readAttribute_leaf (by simp) (by simp) h
  | .bool _, _, h => ofValue_of_readAttribute_leaf (by simp) (by simp) h
  | .number _, _, h => ofValue_of_readAttribute_leaf (by simp) (by simp) h
  | .string _, _, h => ofValue_of_readAttribute_leaf (by simp) (by simp) h
  | .array items, cause, h => by
    have hl := a.type.isList_eq_isSome_element?
    rw [readAttribute] at h
    cases helement : a.type.element? with
    | some element =>
      rw [helement, Option.isSome_some] at hl
      rw [if_pos hl] at h
      rcases Logged.result_bind_eq_error_iff.1 h with h | ⟨values, -, h⟩
      · obtain ⟨v, hv, h⟩ := ofValue_of_readItems hlookup ha helement items h
        exact ⟨element, v, .item helement hv, h⟩
      · cases h
    | none =>
      rw [helement, Option.isSome_none] at hl
      rw [if_neg (Bool.eq_false_iff.1 hl)] at h
      cases h
      exact ⟨a.type, .array items, .field (by simp), .shape (a.type.takes_array.trans hl)⟩
  | .object fields, cause, h => by
    refine ⟨a.type, .object fields, .field (by simp), ?_⟩
    cases htype : a.type with
    | scalar kind =>
      simp only [readAttribute, htype] at h
      exact ofValue_of_readScalar h
    | entity key =>
      simp only [readAttribute, htype] at h
      obtain ⟨t, ht⟩ := ha key (by rw [htype]; rfl)
      have herror := error_of_nested ht h
      exact .nested ht (ofFields_of_readFields hlookup fields (e := .new t)
        (hlookup.resolved ht) herror)
    | _ =>
      simp only [readAttribute, htype] at h
      cases h
      exact .of_type htype rfl

/-- Reading an item fails at it. -/
theorem ofValue_of_readItem (hlookup : lookup.Closed) {schema : Schema} {a : Attribute}
    (ha : ∀ key, a.type.schemaKey? = some key → ∃ t, lookup key = some t)
    {element : AttributeType} (helement : a.type.element? = some element) : (j : Json) →
    {cause : MappingError} → (readItem { lookup } schema a j).result = .error cause →
    OfValue lookup schema a element j cause
  | .null, _, h => ofValue_of_readItem_leaf helement (by simp) h
  | .bool _, _, h => ofValue_of_readItem_leaf helement (by simp) h
  | .number _, _, h => ofValue_of_readItem_leaf helement (by simp) h
  | .string _, _, h => ofValue_of_readItem_leaf helement (by simp) h
  | .array _, _, h => ofValue_of_readItem_leaf helement (by simp) h
  | .object fields, cause, h => by
    rcases AttributeType.element?_eq_some helement with ⟨kind, htype, rfl⟩ | ⟨key, htype, rfl⟩
    · simp only [readItem, htype] at h
      exact ofValue_of_readScalar h
    · simp only [readItem, htype] at h
      obtain ⟨t, ht⟩ := ha key (by rw [htype]; rfl)
      have herror := error_of_nested ht h
      exact .nested ht (ofFields_of_readFields hlookup fields (e := .new t)
        (hlookup.resolved ht) herror)

theorem ofValue_of_readItems (hlookup : lookup.Closed) {schema : Schema} {a : Attribute}
    (ha : ∀ key, a.type.schemaKey? = some key → ∃ t, lookup key = some t)
    {element : AttributeType} (helement : a.type.element? = some element) : (items : List Json) →
    {cause : MappingError} → (readItems { lookup } schema a items).result = .error cause →
    ∃ v ∈ items, OfValue lookup schema a element v cause
  | [], cause, h => by
    rw [readItems] at h
    cases h
  | j :: items, cause, h => by
    rw [readItems] at h
    rcases Logged.result_bind_eq_error_iff.1 h with h | ⟨v, -, h⟩
    · exact ⟨j, List.mem_cons_self, ofValue_of_readItem hlookup ha helement j h⟩
    · rcases Logged.result_bind_eq_error_iff.1 h with h | ⟨vs, -, h⟩
      · obtain ⟨w, hw, h⟩ := ofValue_of_readItems hlookup ha helement items h
        exact ⟨w, List.mem_cons_of_mem _ hw, h⟩
      · cases h

end

end Mapping

end EntityModel
