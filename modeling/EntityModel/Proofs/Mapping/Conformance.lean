import EntityModel.Proofs.Conversion.Kind
import EntityModel.Proofs.Mapping.RoundTrip

/-!
# The mapper enforces declared types

Setting an attribute checks no scalar kinds and does not look into nested entities, yet an entity
that is made from its generic form has them right at every depth: the conversions keep to the
declared kinds, and every nested entity is made of the schema that was found. The invariant is on
the fields read so far, one field at a time.
-/

namespace EntityModel

mutual

/-- A value is of a declared type, as it was read from a JSON value. -/
inductive Value.Conforms (lookup : SchemaLookup) : AttributeType → Json → Value → Prop
  | scalar {kind : ScalarKind} {j : Json} {v : Value} (h : v.HasKind kind) :
      Value.Conforms lookup (.scalar kind) j v
  | null (key : String) : Value.Conforms lookup (.entity key) .null .null
  | entity {key : String} {s : Schema} {store : Dict Value} {fields : List (String × Json)}
      (hs : lookup key = some s) (hkey : s.key = key)
      (h : Entity.Conforms lookup fields ⟨s, store⟩) :
      Value.Conforms lookup (.entity key) (.object fields) (.entity s store)
  | nil {type : AttributeType} (h : type.isList) : Value.Conforms lookup type .null (.list [])
  | list {kind : ScalarKind} {items : List Json} {values : List Value}
      (hlength : values.length = items.length) (h : ∀ v ∈ values, v.HasKind kind) :
      Value.Conforms lookup (.list kind) (.array items) (.list values)
  | entityList {key : String} {items : List Json} {values : List Value}
      (hlength : values.length = items.length) (hnull : .null ∉ values)
      (h : ∀ p ∈ items.zip values, Value.Conforms lookup (.entity key) p.1 p.2) :
      Value.Conforms lookup (.entityList key) (.array items) (.list values)

/-- The value of an attribute comes from a field of its name; without one it is the empty list. -/
inductive Attribute.Conforms (lookup : SchemaLookup) :
    List (String × Json) → Attribute → Value → Prop
  | read {fields : List (String × Json)} {a : Attribute} {j : Json} {v : Value}
      (hj : (a.name, j) ∈ fields) (h : Value.Conforms lookup a.type j v) :
      Attribute.Conforms lookup fields a v
  | start {fields : List (String × Json)} {a : Attribute} (hname : a.name ∉ Dict.keys fields)
      (h : a.type.isList) : Attribute.Conforms lookup fields a (.list [])

/-- All fields are declared; those of stored attributes are set, list attributes are set anyway, and
nothing else is; and every value conforms to its attribute. -/
inductive Entity.Conforms (lookup : SchemaLookup) : List (String × Json) → Entity → Prop
  | intro {fields : List (String × Json)} {e : Entity}
      (declared : ∀ name ∈ Dict.keys fields, e.schema.isDeclared name)
      (set : ∀ name, e.isSet name ↔ ∃ a ∈ e.schema.attributes,
        a.name = name ∧ (name ∈ Dict.keys fields ∨ a.type.isList))
      (values : ∀ a ∈ e.schema.attributes, ∀ v, e.stored? a.name = some v →
        Attribute.Conforms lookup fields a v) :
      Entity.Conforms lookup fields e

end

lemma Value.Conforms.hasKind {lookup : SchemaLookup} {kind : ScalarKind} {j : Json} {v : Value}
    (h : v.Conforms lookup (.scalar kind) j) : v.HasKind kind := by
  cases h with
  | scalar h => exact h
  | nil h => cases h

section Fields

variable {lookup : SchemaLookup} {fields : List (String × Json)} {name : String} {j : Json}

lemma Dict.mem_keys_append_singleton {other : String} :
    other ∈ Dict.keys (fields ++ [(name, j)]) ↔ other ∈ Dict.keys fields ∨ other = name := by
  simp [Dict.keys]

/-- What an attribute was read from is still there when another field has been read. -/
lemma Attribute.Conforms.append {a : Attribute} {v : Value}
    (h : Attribute.Conforms lookup fields a v) (hne : a.name ≠ name) :
    Attribute.Conforms lookup (fields ++ [(name, j)]) a v := by
  cases h with
  | read hj h => exact .read (List.mem_append_left _ hj) h
  | start hname h =>
    refine .start ?_ h
    rw [Dict.mem_keys_append_singleton, not_or]
    exact ⟨hname, hne⟩

end Fields

namespace Entity

variable {lookup : SchemaLookup} {fields : List (String × Json)} {e e' : Entity} {name : String}
  {j : Json} {v : Value}

lemma set_eq_ok_iff : e.set name v = .ok e' ↔
    ∃ a, e.schema.isComputed name = false ∧ e.schema.attribute? name = some a ∧
      a.type.Admits (a.type.normalize v) ∧ e' = e.write name (some (a.type.normalize v)) := by
  have hrun : (Change.set name v).run e = e.perform (.set name v) := rfl
  have htarget {a : Attribute} : (Operation.set name v).target e.schema = .ok a ↔
      e.schema.isComputed name = false ∧ e.schema.attribute? name = some a ∧
        a.type.Admits (a.type.normalize v) := Operation.target_eq_ok_iff
  rw [set, Change.outcome, hrun, perform_eq]
  constructor
  · intro h
    cases ht : (Operation.set name v).target e.schema with
    | error cause =>
      rw [ht] at h
      cases h
    | ok a =>
      rw [ht] at h
      cases h
      obtain ⟨hcomputed, ha, hadm⟩ := htarget.1 ht
      exact ⟨a, hcomputed, ha, hadm, rfl⟩
  · rintro ⟨a, hcomputed, ha, hadm, rfl⟩
    rw [htarget.2 ⟨hcomputed, ha, hadm⟩]
    rfl

/-- A value that is stored as it is has the declared shape. -/
lemma admits_and_eq_of_set {a : Attribute} (ha : e.schema.attribute? name = some a)
    (hnorm : a.type.normalize v = v) (h : e.set name v = .ok e') :
    a.type.Admits v ∧ e' = e.write name (some v) := by
  obtain ⟨b, -, hb, hadm, rfl⟩ := set_eq_ok_iff.1 h
  obtain rfl := Option.some.inj (hb.symm.trans ha)
  rw [hnorm] at hadm ⊢
  exact ⟨hadm, rfl⟩

/-! ### One field after the other -/

lemma conforms_new (lookup : SchemaLookup) (s : Schema) : (new s).Conforms lookup [] := by
  refine .intro ?_ ?_ ?_
  · intro name hname
    cases hname
  · intro name
    constructor
    · intro h
      obtain ⟨a, ha, hname, hl⟩ := exists_isList_of_isSet_new h
      exact ⟨a, ha, hname, .inr hl⟩
    · rintro ⟨a, ha, rfl, hname | hl⟩
      · cases hname
      · exact (consistent_new s).lists a ha hl
  · intro a ha v hv
    have hattribute : s.attribute? a.name = some a := Schema.attribute?_eq_some_iff.2 ⟨ha, rfl⟩
    rw [stored?_new, Schema.start?, hattribute, Option.bind_some] at hv
    split_ifs at hv with hl
    cases hv
    exact .start (by simp [Dict.keys]) hl

/-- Setting an attribute to a value that conforms to it reads its field. -/
lemma Conforms.write {a : Attribute} (h : e.Conforms lookup fields)
    (ha : e.schema.attribute? name = some a) (hv : v.Conforms lookup a.type j) :
    (e.write name (some v)).Conforms lookup (fields ++ [(name, j)]) := by
  obtain ⟨declared, set, values⟩ := h
  obtain ⟨hmem, rfl⟩ := Schema.attribute?_eq_some_iff.1 ha
  have hthe {b : Attribute} (hb : b ∈ e.schema.attributes) (heq : a.name = b.name) : b = a :=
    Option.some.inj ((Schema.attribute?_eq_some_iff.2 ⟨hb, heq.symm⟩).symm.trans ha)
  refine .intro ?_ ?_ ?_
  · intro other hother
    rw [schema_write]
    rcases Dict.mem_keys_append_singleton.1 hother with hother | rfl
    · exact declared other hother
    · rw [Schema.isDeclared, ha]
      rfl
  · intro other
    rw [schema_write, isSet, stored?_write]
    simp only [Dict.mem_keys_append_singleton]
    split_ifs with heq
    · subst heq
      exact iff_of_true rfl ⟨a, hmem, rfl, .inl (.inr rfl)⟩
    · rw [← isSet, set]
      simp only [Ne.symm heq, or_false]
  · intro b hb w hw
    rw [schema_write] at hb
    rw [stored?_write] at hw
    split_ifs at hw with heq
    · cases hw
      obtain rfl := hthe hb heq
      exact .read (by simp) hv
    · exact (values b hb w hw).append (Ne.symm heq)

/-- The field of a computed attribute is passed over. -/
lemma Conforms.skip (h : e.Conforms lookup fields) (ha : e.schema.attribute? name = none)
    (hcomputed : e.schema.isComputed name) : e.Conforms lookup (fields ++ [(name, j)]) := by
  obtain ⟨declared, set, values⟩ := h
  have hne {a : Attribute} (hmem : a ∈ e.schema.attributes) : a.name ≠ name := by
    intro heq
    rw [Schema.attribute?_eq_some_iff.2 ⟨hmem, heq⟩] at ha
    cases ha
  refine .intro ?_ ?_ ?_
  · intro other hother
    rcases Dict.mem_keys_append_singleton.1 hother with hother | rfl
    · exact declared other hother
    · rw [Schema.isDeclared, hcomputed, Bool.or_true]
  · intro other
    rw [set]
    simp only [Dict.mem_keys_append_singleton]
    constructor
    · rintro ⟨a, hmem, hname, h | h⟩
      · exact ⟨a, hmem, hname, .inl (.inl h)⟩
      · exact ⟨a, hmem, hname, .inr h⟩
    · rintro ⟨a, hmem, rfl, (h | h) | h⟩
      · exact ⟨a, hmem, rfl, .inl h⟩
      · exact absurd h (hne hmem)
      · exact ⟨a, hmem, rfl, .inr h⟩
  · intro a hmem v hv
    exact (values a hmem v hv).append (hne hmem)

end Entity

namespace Mapping

open Entity

variable {lookup : SchemaLookup} {schema : Schema} {a : Attribute}

lemma hasKind_of_readScalar {kind : ScalarKind} {j : Json} {v : Value}
    (h : (readScalar { lookup } schema a kind j).result = .ok v) : v.HasKind kind :=
  Conversions.hasKind_of_convert Conversions.keeps_builtin (Logged.result_mapError_eq_ok_iff.1 h)

/-- A list attribute is read as a list, also from null. -/
lemma exists_list_of_readAttribute {m : Mapping} {j : Json} {v : Value} (hl : a.type.isList)
    (h : (m.readAttribute schema a j).result = .ok v) : ∃ values, v = .list values := by
  cases j with
  | array items =>
    rw [readAttribute, if_pos hl] at h
    obtain ⟨values, -, h⟩ := Logged.result_bind_eq_ok_iff.1 h
    cases h
    exact ⟨values, rfl⟩
  | null =>
    cases htype : a.type with
    | list | entityList =>
      simp only [readAttribute, htype] at h
      cases h
      exact ⟨[], rfl⟩
    | scalar | entity =>
      rw [htype] at hl
      cases hl
  | _ =>
    cases htype : a.type with
    | list | entityList =>
      simp only [readAttribute, htype] at h
      cases h
    | scalar | entity =>
      rw [htype] at hl
      cases hl

lemma normalize_of_readAttribute {m : Mapping} {j : Json} {v : Value}
    (h : (m.readAttribute schema a j).result = .ok v) : a.type.normalize v = v := by
  rw [AttributeType.normalize, if_neg]
  rw [Bool.and_eq_true]
  rintro ⟨hl, hnull⟩
  obtain ⟨values, rfl⟩ := exists_list_of_readAttribute hl h
  cases hnull

/-! ### Values that hold no others -/

lemma conforms_of_readAttribute_leaf {j : Json} {v : Value} (hitems : ∀ items, j ≠ .array items)
    (hfields : ∀ fields, j ≠ .object fields)
    (h : (readAttribute { lookup } schema a j).result = .ok v) : v.Conforms lookup a.type j := by
  cases j with
  | array items => exact absurd rfl (hitems items)
  | object fields => exact absurd rfl (hfields fields)
  | null =>
    cases htype : a.type with
    | scalar kind =>
      simp only [readAttribute, htype] at h
      exact .scalar (hasKind_of_readScalar h)
    | entity key =>
      simp only [readAttribute, htype] at h
      cases h
      exact .null key
    | _ =>
      simp only [readAttribute, htype] at h
      cases h
      exact .nil rfl
  | _ =>
    cases htype : a.type with
    | scalar kind =>
      simp only [readAttribute, htype] at h
      exact .scalar (hasKind_of_readScalar h)
    | _ =>
      simp only [readAttribute, htype] at h
      cases h

lemma conforms_of_readItem_leaf {element : AttributeType} {j : Json} {v : Value}
    (helement : a.type.element? = some element) (hfields : ∀ fields, j ≠ .object fields)
    (h : (readItem { lookup } schema a j).result = .ok v) : v.Conforms lookup element j := by
  cases j with
  | array items =>
    rw [readItem] at h
    cases h
  | object fields => exact absurd rfl (hfields fields)
  | _ =>
    rcases AttributeType.element?_eq_some helement with ⟨kind, htype, rfl⟩ | ⟨key, htype, rfl⟩
    · simp only [readItem, htype] at h
      exact .scalar (hasKind_of_readScalar h)
    · simp only [readItem, htype] at h
      cases h

/-! ### Values of all depths -/

lemma lookup_of_nested {m : Mapping} {key : String} {s : Schema}
    (h : m.nested schema a key = .ok s) : m.lookup key = some s := by
  rw [nested] at h
  cases hfound : m.lookup key with
  | none =>
    rw [hfound] at h
    cases h
  | some t =>
    rw [hfound] at h
    cases h
    rfl

/-- An entity that was read for a key conforms if it is of a schema with that key. -/
lemma conforms_toValue {key : String} {fields : List (String × Json)} {e : Entity}
    (hs : lookup key = some e.schema) (h : e.Conforms lookup fields)
    (hkey : ∃ s store, e.toValue = .entity s store ∧ s.key = key) :
    e.toValue.Conforms lookup (.entity key) (.object fields) := by
  obtain ⟨s, store, heq, hkey⟩ := hkey
  cases heq
  exact .entity hs hkey h

/-- A list conforms if its items do, each for itself. -/
lemma conforms_list {items : List Json} {values : List Value} (hl : a.type.isList)
    (hadm : a.type.Admits (.list values)) (hlength : values.length = items.length)
    (h : ∀ element, a.type.element? = some element →
      ∀ p ∈ items.zip values, a.type.AdmitsElement p.2 → p.2.Conforms lookup element p.1) :
    Value.Conforms lookup a.type (.array items) (.list values) := by
  obtain ⟨values, heq, hadm⟩ := (AttributeType.admits_iff_of_isList hl).1 hadm
  cases heq
  cases htype : a.type with
  | list kind =>
    rw [htype] at h hadm
    refine .list hlength fun v hv => ?_
    rw [← List.map_snd_zip (Nat.le_of_eq hlength)] at hv
    obtain ⟨p, hp, rfl⟩ := List.mem_map.1 hv
    exact (h _ rfl p hp (hadm p.2 (List.of_mem_zip hp).2)).hasKind
  | entityList key =>
    rw [htype] at h hadm
    refine .entityList hlength ?_ fun p hp => h _ rfl p hp (hadm p.2 (List.of_mem_zip hp).2)
    intro hnull
    obtain ⟨s, store, heq, -⟩ := hadm _ hnull
    cases heq
  | scalar | entity =>
    rw [htype] at hl
    cases hl

mutual

/-- Reading further fields keeps an entity in keeping with the fields read. -/
theorem conforms_of_readFields : (fields : List (String × Json)) →
    {done : List (String × Json)} → {e e' : Entity} → e.Conforms lookup done →
    (readFields { lookup } e fields).result = .ok e' →
    e'.Conforms lookup (done ++ fields) ∧ e'.schema = e.schema
  | [], done, e, e', he, h => by
    rw [readFields] at h
    cases h
    rw [List.append_nil]
    exact ⟨he, rfl⟩
  | (name, j) :: rest, done, e, e', he, h => by
    have hsplit : done ++ (name, j) :: rest = (done ++ [(name, j)]) ++ rest := by simp
    rw [hsplit]
    rw [readFields] at h
    split at h
    · rename_i a ha
      obtain ⟨v, hv, h⟩ := Logged.result_bind_eq_ok_iff.1 h
      obtain ⟨e₁, hset, hrest⟩ := Logged.result_bind_eq_ok_iff.1 h
      have hset : e.set name v = .ok e₁ :=
        (Logged.result_mapError_eq_ok_iff (x := .ofExcept (e.set name v))).1 hset
      obtain ⟨hadm, rfl⟩ := admits_and_eq_of_set ha (normalize_of_readAttribute hv) hset
      have hw := he.write ha (conforms_of_readAttribute j hv hadm)
      obtain ⟨hconforms, hschema⟩ := conforms_of_readFields rest hw hrest
      exact ⟨hconforms, hschema.trans (schema_write _ _ _)⟩
    · rename_i ha
      split at h
      · rename_i hcomputed
        obtain ⟨-, -, h⟩ := Logged.result_bind_eq_ok_iff.1 h
        exact conforms_of_readFields rest (he.skip ha hcomputed) h
      · cases h

/-- What is read for an attribute conforms to it, if it can be set. -/
theorem conforms_of_readAttribute {schema : Schema} {a : Attribute} : (j : Json) → {v : Value} →
    (readAttribute { lookup } schema a j).result = .ok v → a.type.Admits v →
    v.Conforms lookup a.type j
  | .null, _, h, _ => conforms_of_readAttribute_leaf (by simp) (by simp) h
  | .bool _, _, h, _ => conforms_of_readAttribute_leaf (by simp) (by simp) h
  | .number _, _, h, _ => conforms_of_readAttribute_leaf (by simp) (by simp) h
  | .string _, _, h, _ => conforms_of_readAttribute_leaf (by simp) (by simp) h
  | .array items, v, h, hadm => by
    rw [readAttribute] at h
    split at h
    · rename_i hl
      obtain ⟨values, hvalues, h⟩ := Logged.result_bind_eq_ok_iff.1 h
      cases h
      obtain ⟨hlength, hitems⟩ := conforms_of_readItems items hvalues
      exact conforms_list hl hadm hlength hitems
    · cases h
  | .object fields, v, h, hadm => by
    cases htype : a.type with
    | scalar kind =>
      simp only [readAttribute, htype] at h
      exact .scalar (hasKind_of_readScalar h)
    | entity key =>
      simp only [readAttribute, htype] at h
      rw [htype] at hadm
      obtain ⟨s, hs, h⟩ := Logged.result_bind_eq_ok_iff.1 h
      obtain ⟨e, he, h⟩ := Logged.result_bind_eq_ok_iff.1 h
      cases h
      obtain ⟨hconforms, rfl⟩ := conforms_of_readFields fields (conforms_new lookup s) he
      refine conforms_toValue (lookup_of_nested hs) hconforms (hadm.resolve_left ?_)
      intro heq
      cases heq
    | _ =>
      simp only [readAttribute, htype] at h
      cases h

/-- What is read for an item conforms to the type of elements, if it can be set. -/
theorem conforms_of_readItem {schema : Schema} {a : Attribute} {element : AttributeType}
    (helement : a.type.element? = some element) : (j : Json) → {v : Value} →
    (readItem { lookup } schema a j).result = .ok v → a.type.AdmitsElement v →
    v.Conforms lookup element j
  | .null, _, h, _ => conforms_of_readItem_leaf helement (by simp) h
  | .bool _, _, h, _ => conforms_of_readItem_leaf helement (by simp) h
  | .number _, _, h, _ => conforms_of_readItem_leaf helement (by simp) h
  | .string _, _, h, _ => conforms_of_readItem_leaf helement (by simp) h
  | .array _, _, h, _ => conforms_of_readItem_leaf helement (by simp) h
  | .object fields, v, h, hadm => by
    rcases AttributeType.element?_eq_some helement with ⟨kind, htype, rfl⟩ | ⟨key, htype, rfl⟩
    · simp only [readItem, htype] at h
      exact .scalar (hasKind_of_readScalar h)
    · simp only [readItem, htype] at h
      rw [htype] at hadm
      obtain ⟨s, hs, h⟩ := Logged.result_bind_eq_ok_iff.1 h
      obtain ⟨e, he, h⟩ := Logged.result_bind_eq_ok_iff.1 h
      cases h
      obtain ⟨hconforms, rfl⟩ := conforms_of_readFields fields (conforms_new lookup s) he
      exact conforms_toValue (lookup_of_nested hs) hconforms hadm

/-- The values of a list stand for its items one by one. -/
theorem conforms_of_readItems {schema : Schema} {a : Attribute} : (items : List Json) →
    {values : List Value} → (readItems { lookup } schema a items).result = .ok values →
    values.length = items.length ∧ ∀ element, a.type.element? = some element →
      ∀ p ∈ items.zip values, a.type.AdmitsElement p.2 → p.2.Conforms lookup element p.1
  | [], values, h => by
    rw [readItems] at h
    cases h
    exact ⟨rfl, by simp⟩
  | j :: items, values, h => by
    rw [readItems] at h
    obtain ⟨v, hv, h⟩ := Logged.result_bind_eq_ok_iff.1 h
    obtain ⟨vs, hvs, h⟩ := Logged.result_bind_eq_ok_iff.1 h
    cases h
    obtain ⟨hlength, hitems⟩ := conforms_of_readItems items hvs
    refine ⟨by rw [List.length_cons, List.length_cons, hlength], ?_⟩
    intro element helement
    rw [List.zip_cons_cons, List.forall_mem_cons]
    exact ⟨conforms_of_readItem helement j hv, hitems element helement⟩

end

end Mapping

/-- An entity that is made from a generic form, with the builtin rules and any look-up of schemas,
is of the schema that was asked for and conforms to it field by field, at every depth. -/
theorem Mapping.conforms_of_ofMap {lookup : SchemaLookup} {s : Schema} {fields : Dict Json}
    {e : Entity} (h : (Mapping.ofMap { lookup } s fields).result = .ok e) :
    e.schema = s ∧ e.Conforms lookup fields := by
  obtain ⟨hconforms, hschema⟩ := conforms_of_readFields fields (Entity.conforms_new lookup s) h
  exact ⟨hschema, hconforms⟩

/-! ### An example -/

namespace Mapping

variable {m : Mapping} {e : Entity} {j : Json} {rest : List (String × Json)}

lemma readFields_cons_of_ok {a : Attribute} {v : Value} (ha : a ∈ e.schema.attributes)
    (hv : (m.readAttribute e.schema a j).result = .ok v) (hadm : a.type.Admits v) :
    (m.readFields e ((a.name, j) :: rest)).result =
      (m.readFields (e.write a.name (some v)) rest).result := by
  have hattribute : e.schema.attribute? a.name = some a :=
    Schema.attribute?_eq_some_iff.2 ⟨ha, rfl⟩
  rw [readFields]
  simp only [hattribute]
  rw [Logged.result_bind_of_ok hv, Entity.set_of_admits ha hadm]
  rfl

lemma readFields_cons_of_computed {name : String} (ha : e.schema.attribute? name = none)
    (hcomputed : e.schema.isComputed name) :
    (m.readFields e ((name, j) :: rest)).result = (m.readFields e rest).result := by
  rw [readFields]
  simp only [ha, hcomputed, if_true]
  rfl

end Mapping

/-- The generic form of an address, with a field of a computed attribute. -/
def exampleAddressFields : List (String × Json) :=
  [("city", .string "Oslo"), ("label", .null)]

/-- The generic form of a person with that address. -/
def exampleFields : Dict Json :=
  [("height", .number (.integer 7)), ("label", .bool true),
    ("others", .array [.object exampleAddressFields])]

lemma readFields_exampleAddressFields : (Mapping.readFields { lookup := exampleLookup }
    (.new exampleAddress) exampleAddressFields).result =
      .ok ⟨exampleAddress, [("city", .string "Oslo")]⟩ := by
  rw [exampleAddressFields]
  have hcity : (Mapping.readAttribute { lookup := exampleLookup } exampleAddress
      ⟨"city", .scalar .string⟩ (.string "Oslo")).result = .ok (.string "Oslo") := by
    rw [Mapping.readAttribute_of_scalar rfl (by simp)]
    rfl
  rw [Mapping.readFields_cons_of_ok (a := ⟨"city", .scalar .string⟩) (by decide) hcity
      (by exact rfl), Mapping.readFields_cons_of_computed rfl rfl]
  rfl

lemma ofMap_exampleFields :
    (Mapping.ofMap { lookup := exampleLookup } examplePerson exampleFields).result =
      .ok ⟨examplePerson, [("height", .decimal ⟨7, 0, by decide, by decide⟩),
        ("others", .list [.entity exampleAddress [("city", .string "Oslo")]]),
        ("tags", .list [])]⟩ := by
  have hheight : (Mapping.readAttribute { lookup := exampleLookup } examplePerson
      ⟨"height", .scalar .decimal⟩ (.number (.integer 7))).result =
        .ok (.decimal ⟨7, 0, by decide, by decide⟩) := by
    rw [Mapping.readAttribute_of_scalar rfl (by simp)]
    rfl
  have hothers : (Mapping.readAttribute { lookup := exampleLookup } examplePerson
      ⟨"others", .entityList "address"⟩ (.array [.object exampleAddressFields])).result =
        .ok (.list [.entity exampleAddress [("city", .string "Oslo")]]) := by
    have hitem : (Mapping.readItem { lookup := exampleLookup } examplePerson
        ⟨"others", .entityList "address"⟩ (.object exampleAddressFields)).result =
          .ok (.entity exampleAddress [("city", .string "Oslo")]) :=
      Mapping.readItem_of_entityList rfl rfl readFields_exampleAddressFields
    rw [Mapping.readAttribute, if_pos (by decide), Mapping.readItems,
      Logged.result_bind_of_ok (Logged.result_bind_of_ok hitem _)]
    rfl
  have hadm : (AttributeType.entityList "address").Admits
      (.list [.entity exampleAddress [("city", .string "Oslo")]]) :=
    ⟨_, rfl, List.forall_mem_singleton.2 ⟨exampleAddress, _, rfl, rfl⟩⟩
  rw [Mapping.ofMap, exampleFields, Mapping.readFields_cons_of_ok
      (a := ⟨"height", .scalar .decimal⟩) (by decide) hheight (by exact rfl),
    Mapping.readFields_cons_of_computed rfl rfl,
    Mapping.readFields_cons_of_ok (a := ⟨"others", .entityList "address"⟩) (by decide) hothers hadm]
  rfl

theorem conforms_of_exampleFields :
    ∃ e, (Mapping.ofMap { lookup := exampleLookup } examplePerson exampleFields).result = .ok e ∧
      e.schema = examplePerson ∧ e.Conforms exampleLookup exampleFields :=
  ⟨_, ofMap_exampleFields, Mapping.conforms_of_ofMap ofMap_exampleFields⟩

end EntityModel
