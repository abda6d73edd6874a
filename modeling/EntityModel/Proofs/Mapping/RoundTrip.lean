import EntityModel.Mapping
import EntityModel.Proofs.Conversion.RoundTrip
import EntityModel.Proofs.Entity.Shape
import EntityModel.Proofs.Log
import EntityModel.Proofs.Value

/-!
# Entities read back

The generic form of an entity is read back as the entity that it shows, if the scalars in it are of
the declared kinds and the nested entities have the schemas that are found for the declared keys.
The same attributes are set, nulls stay nulls, and lists keep their order. What is read back at
every level has the shape of the attribute, so setting it is not refused. The entity comes back as
it was if and only if all times in it are regular.
-/

namespace EntityModel

/-- A value suits a declared type: the scalars in it are null or of the declared kinds, and the
entities in it have the schemas that are found for the declared keys. -/
inductive Value.Suits (lookup : SchemaLookup) : AttributeType → Value → Prop
  | null (type : AttributeType) : Suits lookup type .null
  | scalar {kind : ScalarKind} {v : Value} (h : v.type = .scalar kind) :
      Suits lookup (.scalar kind) v
  | list {kind : ScalarKind} {items : List Value}
      (h : ∀ v ∈ items, Suits lookup (.scalar kind) v) : Suits lookup (.list kind) (.list items)
  | entity {key : String} {s : Schema} {store : Dict Value} (hs : lookup key = some s)
      (h : ∀ a ∈ s.attributes, ∀ v, Dict.get? store a.name = some v → Suits lookup a.type v) :
      Suits lookup (.entity key) (.entity s store)
  | entityList {key : String} {items : List Value}
      (h : ∀ v ∈ items, Suits lookup (.entity key) v) :
      Suits lookup (.entityList key) (.list items)

/-- The type of the elements of a list type. -/
def AttributeType.element? : AttributeType → Option AttributeType
  | .list kind => some (.scalar kind)
  | .entityList key => some (.entity key)
  | _ => none

lemma AttributeType.element?_eq_some {type element : AttributeType}
    (h : type.element? = some element) :
    (∃ kind, type = .list kind ∧ element = .scalar kind) ∨
      ∃ key, type = .entityList key ∧ element = .entity key := by
  cases type with
  | scalar kind => cases h
  | entity key => cases h
  | list kind =>
    cases h
    exact .inl ⟨kind, rfl, rfl⟩
  | entityList key =>
    cases h
    exact .inr ⟨key, rfl, rfl⟩

/-! ### Setting what was read -/

namespace AttributeType

variable {type : AttributeType} {v w : Value}

lemma admitsElement_of_same (h : w.same v.shown) (hv : type.AdmitsElement v) :
    type.AdmitsElement w := by
  have htype := Value.type_eq_of_same_shown h
  cases type with
  | scalar kind => exact hv
  | entity key => exact hv
  | list kind => exact (Value.isScalar_eq_of_type_eq htype).trans hv
  | entityList key =>
    obtain ⟨s, store, rfl, rfl⟩ := hv
    cases w with
    | entity t store' => exact ⟨t, store', rfl, ValueType.entity.inj htype⟩
    | _ => cases htype

lemma admitsElement_of_forall₂ {vs ws : List Value}
    (h : List.Forall₂ (fun w v => w.same v.shown = true) ws vs)
    (hv : ∀ v ∈ vs, type.AdmitsElement v) : ∀ w ∈ ws, type.AdmitsElement w := by
  induction h with
  | nil =>
    intro w hw
    cases hw
  | @cons w v ws vs hsame _ ih =>
    obtain ⟨hfirst, hrest⟩ := List.forall_mem_cons.1 hv
    exact List.forall_mem_cons.2 ⟨admitsElement_of_same hsame hfirst, ih hrest⟩

end AttributeType

namespace Entity

/-- A value of the declared shape is stored as it is. -/
lemma set_of_admits {e : Entity} {a : Attribute} (ha : a ∈ e.schema.attributes) {v : Value}
    (hv : a.type.Admits v) : e.set a.name v = .ok (e.write a.name (some v)) := by
  have hnorm : a.type.normalize v = v := by
    rw [AttributeType.normalize]
    split_ifs with h
    · rw [Bool.and_eq_true] at h
      obtain ⟨items, rfl, -⟩ := (AttributeType.admits_iff_of_isList h.1).1 hv
      exact absurd h.2 Bool.false_ne_true
    · rfl
  have htarget : (Operation.set a.name v).target e.schema = .ok a := by
    refine Operation.target_eq_ok_iff.2 ⟨Schema.isComputed_of_mem ha, ?_, ?_⟩
    · exact Schema.attribute?_eq_some_iff.2 ⟨ha, rfl⟩
    · rw [Operation.AcceptedBy, hnorm]
      exact hv
  have hperform := perform_of_ok htarget
  rw [Operation.cell, hnorm] at hperform
  have hrun : (Change.set a.name v).run e = (.ok (), e.write a.name (some v)) := hperform
  rw [set, Change.outcome, hrun]

end Entity

namespace Mapping

open Entity

variable {m : Mapping}

/-! ### Fields -/

/-- Reading fields, each of which is read back as the value of an attribute, sets these attributes
and no others. -/
lemma readFields_storeJson {e : Entity} {store : Dict Value} (hsorted : Dict.Sorted store)
    (h : ∀ name v, (name, v) ∈ store → ∃ a ∈ e.schema.attributes, a.name = name ∧
      ∃ w, (m.readAttribute e.schema a v.toJson).result = .ok w ∧ a.type.Admits w ∧
        w.same v.shown) :
    ∃ e', (m.readFields e (Value.storeJson store)).result = .ok e' ∧ e'.schema = e.schema ∧
      (Dict.Sorted e.store → Dict.Sorted e'.store) ∧
      (∀ name v, Dict.get? store name = some v → ∃ w, e'.stored? name = some w ∧ w.same v.shown) ∧
      ∀ name, Dict.get? store name = none → e'.stored? name = e.stored? name := by
  induction store generalizing e with
  | nil =>
    refine ⟨e, ?_, rfl, fun he => he, ?_, fun _ _ => rfl⟩
    · rw [Value.storeJson, readFields]
      rfl
    · intro name v hv
      cases hv
  | cons p store ih =>
    obtain ⟨name, v⟩ := p
    obtain ⟨a, ha, rfl, w, hread, hadm, hsame⟩ := h name v List.mem_cons_self
    have hfresh : Dict.get? store a.name = none := by
      rw [Dict.get?_tail hsorted a.name, if_pos rfl]
    obtain ⟨e', hrest, hschema, hsorted', hset, hkept⟩ :=
      ih (e := e.write a.name (some w)) (List.pairwise_cons.1 hsorted).2 fun name' v' hmem => by
        rw [schema_write]
        exact h name' v' (List.mem_cons_of_mem _ hmem)
    rw [schema_write] at hschema
    refine ⟨e', ?_, hschema, fun he => hsorted' (sorted_write he _ _), ?_, ?_⟩
    · have hattribute : e.schema.attribute? a.name = some a :=
        Schema.attribute?_eq_some_iff.2 ⟨ha, rfl⟩
      rw [Value.storeJson, readFields]
      simp only [hattribute]
      rw [Logged.result_bind_of_ok hread, set_of_admits ha hadm]
      exact hrest
    · intro name' v' hv'
      rw [Dict.get?_cons] at hv'
      split_ifs at hv' with heq
      · cases hv'
        subst heq
        refine ⟨w, ?_, hsame⟩
        rw [hkept a.name hfresh, stored?_write, if_pos rfl]
      · exact hset name' v' hv'
    · intro name' hnone
      rw [Dict.get?_cons] at hnone
      split_ifs at hnone with heq
      rw [hkept name' hnone, stored?_write, if_neg heq]

/-- An entity is read back if the values stored on it are. -/
lemma readFields_toMap {e : Entity} (hc : e.Consistent)
    (h : ∀ a ∈ e.schema.attributes, ∀ v, e.stored? a.name = some v →
      ∃ w, (m.readAttribute e.schema a v.toJson).result = .ok w ∧ a.type.Admits w ∧
        w.same v.shown) :
    ∃ e', (m.readFields (.new e.schema) e.toMap).result = .ok e' ∧ e'.schema = e.schema ∧
      e'.same e.shown ∧
      ∀ name, Option.Rel (fun w v => w.same v.shown = true) (e'.stored? name) (e.stored? name) := by
  have hfields : ∀ name v, (name, v) ∈ e.store → ∃ a ∈ (new e.schema).schema.attributes,
      a.name = name ∧ ∃ w, (m.readAttribute (new e.schema).schema a v.toJson).result = .ok w ∧
        a.type.Admits w ∧ w.same v.shown := by
    intro name v hmem
    have hv : e.stored? name = some v := Dict.get?_eq_some_of_mem hc.sorted hmem
    obtain ⟨a, ha, rfl⟩ := hc.declared name (by rw [isSet, hv]; rfl)
    exact ⟨a, ha, rfl, h a ha v hv⟩
  obtain ⟨e', hread, hschema, hsorted, hset, hkept⟩ := readFields_storeJson hc.sorted hfields
  have hrel (name : String) :
      Option.Rel (fun w v => w.same v.shown = true) (e'.stored? name) (e.stored? name) := by
    cases hv : e.stored? name with
    | some v =>
      obtain ⟨w, hw, hsame⟩ := hset name v hv
      rw [hw]
      exact .some hsame
    | none =>
      -- what a new entity stores is under list attributes, which are always set
      rw [hkept name hv]
      cases hstart : (new e.schema).stored? name with
      | none => exact .none
      | some v =>
        have hnew : (new e.schema).isSet name := by
          rw [isSet, hstart]
          rfl
        obtain ⟨a, ha, rfl, hl⟩ := exists_isList_of_isSet_new hnew
        have hset := hc.lists a ha hl
        rw [isSet, hv] at hset
        cases hset
  refine ⟨e', hread, hschema, ?_, hrel⟩
  have hstore := Dict.forall₂_of_get? (hsorted (consistent_new _).sorted) hc.sorted hrel
  have hsame : e'.schema.same e.schema := by
    rw [hschema]
    exact Schema.same_refl _
  rw [Entity.same, shown, toValue, toValue, Value.same, hsame, Bool.true_and,
    Value.shownStore_eq_map]
  exact Value.sameStore_of_forall₂ (List.forall₂_map_right_iff.2 hstore)

/-! ### Attributes and items -/

variable {schema s : Schema} {a : Attribute} {kind : ScalarKind} {key : String}

lemma readAttribute_of_scalar (htype : a.type = .scalar kind) {j : Json}
    (hj : ∀ items, j ≠ .array items) :
    m.readAttribute schema a j = m.readScalar schema a kind j := by
  cases j with
  | array items => exact absurd rfl (hj items)
  | _ => simp only [readAttribute, htype]

lemma readItem_of_list (htype : a.type = .list kind) {j : Json} (hj : ∀ items, j ≠ .array items) :
    m.readItem schema a j = m.readScalar schema a kind j := by
  cases j with
  | array items => exact absurd rfl (hj items)
  | _ => simp only [readItem, htype]

lemma readAttribute_of_entity (htype : a.type = .entity key) (hs : m.lookup key = some s)
    {fields : List (String × Json)} {e : Entity}
    (h : (m.readFields (.new s) fields).result = .ok e) :
    (m.readAttribute schema a (.object fields)).result = .ok e.toValue := by
  rw [readAttribute]
  simp only [htype, nested, hs, Option.elim_some]
  rw [Logged.result_bind_of_ok (Logged.result_ofExcept _), Logged.result_bind_of_ok h]
  rfl

lemma readItem_of_entityList (htype : a.type = .entityList key) (hs : m.lookup key = some s)
    {fields : List (String × Json)} {e : Entity}
    (h : (m.readFields (.new s) fields).result = .ok e) :
    (m.readItem schema a (.object fields)).result = .ok e.toValue := by
  rw [readItem]
  simp only [htype, nested, hs, Option.elim_some]
  rw [Logged.result_bind_of_ok (Logged.result_ofExcept _), Logged.result_bind_of_ok h]
  rfl

/-- A list is read back item by item. -/
lemma readItems_listJson {items : List Value}
    (h : ∀ v ∈ items, ∃ w, (m.readItem schema a v.toJson).result = .ok w ∧ w.same v.shown) :
    ∃ ws, (m.readItems schema a (Value.listJson items)).result = .ok ws ∧
      List.Forall₂ (fun w v => w.same v.shown = true) ws items := by
  induction items with
  | nil =>
    refine ⟨[], ?_, .nil⟩
    rw [Value.listJson, readItems]
    rfl
  | cons v items ih =>
    obtain ⟨w, hw, hsame⟩ := h v List.mem_cons_self
    obtain ⟨ws, hws, hall⟩ := ih fun v' hv' => h v' (List.mem_cons_of_mem _ hv')
    refine ⟨w :: ws, ?_, .cons hsame hall⟩
    rw [Value.listJson, readItems, Logged.result_bind_of_ok hw, Logged.result_bind_of_ok hws]
    rfl

end Mapping

lemma Value.toJson_ne_array {v : Value} (h : v.isScalar = true) (items : List Json) :
    v.toJson ≠ .array items := by
  cases v with
  | list => cases h
  | entity => cases h
  | decimal d =>
    rw [toJson, decimalJson]
    intro heq
    cases hn : d.toInt? with
    | none => cases hx : d.exactDouble? <;> simp only [hn, hx] at heq <;> cases heq
    | some n =>
      simp only [hn] at heq
      split_ifs at heq
      cases hx : d.exactDouble? <;> simp only [hx] at heq <;> cases heq
  | document d =>
    rw [toJson, documentJson]
    cases d.filename <;> (intro heq; cases heq)
  | _ =>
    intro heq
    rw [toJson] at heq
    cases heq

namespace Mapping

open Entity

/-! ### Values of all types -/

variable {lookup : SchemaLookup}

/-- A value is read back, as that of an attribute of a type and as an item of a list attribute. -/
structure ReadsBack (m : Mapping) (type : AttributeType) (v : Value) : Prop where
  whole : ∀ schema (a : Attribute), a.type = type → type.Admits v →
    ∃ w, (m.readAttribute schema a v.toJson).result = .ok w ∧ type.Admits w ∧ w.same v.shown
  item : ∀ schema (a : Attribute), a.type.element? = some type → a.type.AdmitsElement v →
    ∃ w, (m.readItem schema a v.toJson).result = .ok w ∧ w.same v.shown

lemma readsBack_null (m : Mapping) (type : AttributeType) : m.ReadsBack type .null := by
  constructor
  · intro schema a htype hadm
    refine ⟨.null, ?_, hadm, rfl⟩
    rw [Value.toJson, readAttribute]
    cases type with
    | scalar kind =>
      simp only [htype]
      rfl
    | entity key =>
      simp only [htype]
      rfl
    | list kind =>
      obtain ⟨items, heq, -⟩ := hadm
      cases heq
    | entityList key =>
      obtain ⟨items, heq, -⟩ := hadm
      cases heq
  · intro schema a helement hadm
    refine ⟨.null, ?_, rfl⟩
    rcases AttributeType.element?_eq_some helement with ⟨kind, htype, rfl⟩ | ⟨key, htype, rfl⟩
    · have hnull (items : List Json) : Json.null ≠ .array items := by
        intro heq
        cases heq
      rw [Value.toJson, readItem_of_list htype hnull]
      rfl
    · rw [htype] at hadm
      obtain ⟨s, store, heq, -⟩ := hadm
      cases heq

lemma readsBack_scalar {kind : ScalarKind} {v : Value} (hv : v.type = .scalar kind)
    (hd : ∀ d, v = .decimal d → d.Survives) : ReadsBack { lookup } (.scalar kind) v := by
  have hscalar : v.isScalar = true := by
    cases v with
    | list => cases hv
    | entity => cases hv
    | _ => rfl
  obtain ⟨w, hw, hsame⟩ := Conversions.convert_toJson hv hd
  have hread (schema : Schema) (a : Attribute) :
      (readScalar { lookup } schema a kind v.toJson).result = .ok w :=
    Logged.result_mapError_eq_ok_iff.2 hw
  constructor
  · intro schema a htype hadm
    refine ⟨w, ?_, ?_, hsame⟩
    · rw [readAttribute_of_scalar htype (Value.toJson_ne_array hscalar)]
      exact hread schema a
    · exact (Value.isScalar_eq_of_type_eq (Value.type_eq_of_same_shown hsame)).trans hscalar
  · intro schema a helement _
    rcases AttributeType.element?_eq_some helement with ⟨kind', htype, heq⟩ | ⟨key, htype, heq⟩
    · cases heq
      refine ⟨w, ?_, hsame⟩
      rw [readItem_of_list htype (Value.toJson_ne_array hscalar)]
      exact hread schema a
    · cases heq

/-- A list is read back if its items are. -/
lemma readsBack_list {m : Mapping} {type element : AttributeType} (hl : type.isList)
    (helement : type.element? = some element) {items : List Value}
    (h : ∀ v ∈ items, m.ReadsBack element v) : m.ReadsBack type (.list items) := by
  constructor
  · intro schema a htype hadm
    subst htype
    obtain ⟨items', heq, hall⟩ := (AttributeType.admits_iff_of_isList hl).1 hadm
    cases heq
    have hitems (v : Value) (hv : v ∈ items) :
        ∃ w, (m.readItem schema a v.toJson).result = .ok w ∧ w.same v.shown :=
      (h v hv).item schema a helement (hall v hv)
    obtain ⟨ws, hws, hsame⟩ := readItems_listJson hitems
    refine ⟨.list ws, ?_, ?_, ?_⟩
    · rw [Value.toJson, readAttribute, if_pos hl, Logged.result_bind_of_ok hws]
      rfl
    · exact (AttributeType.admits_iff_of_isList hl).2
        ⟨ws, rfl, AttributeType.admitsElement_of_forall₂ hsame hall⟩
    · rw [Value.shown, Value.same, Value.shownList_eq_map]
      exact Value.sameList_of_forall₂ (List.forall₂_map_right_iff.2 hsame)
  · intro schema a helement' _
    exfalso
    rcases AttributeType.element?_eq_some helement' with ⟨kind, -, rfl⟩ | ⟨key, -, rfl⟩
    · cases hl
    · cases hl

/-- An entity is read back if the values stored on it are. -/
lemma readsBack_entity {m : Mapping} {key : String} {s : Schema} (hs : m.lookup key = some s)
    {store : Dict Value} (hc : Consistent ⟨s, store⟩)
    (h : ∀ a ∈ s.attributes, ∀ v, Dict.get? store a.name = some v → m.ReadsBack a.type v) :
    m.ReadsBack (.entity key) (.entity s store) := by
  obtain ⟨e', hread, hschema, hsame, -⟩ := readFields_toMap hc fun a ha v hv =>
    (h a ha v hv).whole s a rfl (hc.admitted a ha v hv)
  constructor
  · intro schema a htype hadm
    refine ⟨e'.toValue, readAttribute_of_entity htype hs hread, .inr ?_, hsame⟩
    rcases hadm with heq | ⟨t, store', heq, hkey⟩
    · cases heq
    · cases heq
      exact ⟨e'.schema, e'.store, rfl, hschema ▸ hkey⟩
  · intro schema a helement _
    rcases AttributeType.element?_eq_some helement with ⟨kind, -, heq⟩ | ⟨key', htype, heq⟩
    · cases heq
    · cases heq
      exact ⟨e'.toValue, readItem_of_entityList htype hs hread, hsame⟩

/-- Values that suit their types are read back. -/
theorem readsBack_of_suits {type : AttributeType} {v : Value} (h : v.Suits lookup type)
    (hv : v.Shaped) (hd : ∀ d, (Value.decimal d).Within v → d.Survives) :
    ReadsBack { lookup } type v := by
  induction h with
  | null type => exact readsBack_null _ type
  | scalar h => exact readsBack_scalar h fun d heq => hd d (heq ▸ .refl _)
  | list h ih =>
    refine readsBack_list rfl rfl fun v hmem => ih v hmem ?_ fun d hd' => hd d (.item hmem hd')
    exact Value.shaped_list_iff.1 hv v hmem
  | entityList h ih =>
    refine readsBack_list rfl rfl fun v hmem => ih v hmem ?_ fun d hd' => hd d (.item hmem hd')
    exact Value.shaped_list_iff.1 hv v hmem
  | @entity key s store hs h ih =>
    obtain ⟨hc, hvalues⟩ := Entity.shaped_iff (e := ⟨s, store⟩) |>.1 hv
    refine readsBack_entity hs hc fun a ha v hget => ih a ha v hget (hvalues a.name v hget) ?_
    intro d hd'
    exact hd d (.stored (Dict.mem_of_get?_eq_some hget) hd')

end Mapping

/-- The schemas that are known. -/
def exampleLookup : SchemaLookup :=
  fun key => if key = "address" then some exampleAddress else none

/-- An address from a year before the first one, in a city that is null. -/
def exampleFormer : Entity :=
  (Entity.new exampleAddress).after
    [.set "city" .null, .set "since" (.date ⟨-44, 3, 15, by decide⟩)]

/-- Operations on a person with a former address. -/
def exampleHistory : List Operation :=
  [.add "others" exampleFormer.toValue, .add "tags" .null, .add "tags" (.string ""),
    .set "name" .null, .set "home" .null, .unset "home",
    .set "height" (.decimal ⟨300, 2, by decide, by decide⟩)]

example : ((Entity.new examplePerson).after exampleHistory).toMap =
    [("height", .number (.integer 3)), ("name", .null),
      ("others", .array [.object [("city", .null), ("since", .string "-0044-03-15")]]),
      ("tags", .array [.null, .string ""])] := rfl

lemma toValue_exampleFormer : exampleFormer.toValue =
    .entity exampleAddress [("city", .null), ("since", .date ⟨-44, 3, 15, by decide⟩)] := rfl

lemma after_exampleHistory : (Entity.new examplePerson).after exampleHistory =
    ⟨examplePerson, [("height", .decimal ⟨300, 2, by decide, by decide⟩), ("name", .null),
      ("others", .list [exampleFormer.toValue]), ("tags", .list [.null, .string ""])]⟩ := rfl

lemma built_exampleHistory : ∀ op ∈ exampleHistory, ∀ v ∈ op.value?, v.Built := by
  have hformer : exampleFormer.toValue.Built := by
    refine .entity exampleAddress _ ?_
    simp only [List.forall_mem_cons, Operation.value?, Option.mem_some_iff, forall_eq']
    exact ⟨.scalar rfl, .scalar rfl, by simp⟩
  simp only [exampleHistory, List.forall_mem_cons, Operation.value?, Option.mem_some_iff,
    forall_eq']
  exact ⟨hformer, .scalar rfl, .scalar rfl, .scalar rfl, .scalar rfl, by simp, .scalar rfl,
    by simp⟩

lemma suits_exampleFormer : exampleFormer.toValue.Suits exampleLookup (.entity "address") := by
  rw [toValue_exampleFormer]
  refine .entity rfl fun a ha v hv => ?_
  have hmem : a ∈ [⟨"city", .scalar .string⟩, ⟨"since", .scalar .date⟩] := ha
  simp only [List.mem_cons, List.not_mem_nil, or_false] at hmem
  rcases hmem with rfl | rfl
  · cases hv
    exact .null _
  · cases hv
    exact .scalar rfl

lemma suits_exampleHistory : ∀ a ∈ examplePerson.attributes, ∀ v,
    ((Entity.new examplePerson).after exampleHistory).stored? a.name = some v →
      v.Suits exampleLookup a.type := by
  intro a ha v hv
  rw [after_exampleHistory] at hv
  have hmem : a ∈ [⟨"name", .scalar .string⟩, ⟨"home", .entity "address"⟩,
    ⟨"others", .entityList "address"⟩, ⟨"tags", .list .string⟩, ⟨"height", .scalar .decimal⟩] := ha
  simp only [List.mem_cons, List.not_mem_nil, or_false] at hmem
  rcases hmem with rfl | rfl | rfl | rfl | rfl
  · cases hv
    exact .null _
  · cases hv
  · cases hv
    exact .entityList (List.forall_mem_singleton.2 suits_exampleFormer)
  · cases hv
    refine .list (List.forall_mem_cons.2 ⟨.null _, List.forall_mem_singleton.2 ?_⟩)
    exact .scalar rfl
  · cases hv
    exact .scalar rfl

lemma survives_exampleHistory : ∀ d,
    (Value.decimal d).Within ((Entity.new examplePerson).after exampleHistory).toValue →
      d.Survives := by
  intro d h
  rw [after_exampleHistory] at h
  obtain ⟨name, w, hw, hin⟩ := h.exists_stored rfl
  simp only [List.mem_cons, List.not_mem_nil, or_false, Prod.mk.injEq] at hw
  rcases hw with ⟨-, rfl⟩ | ⟨-, rfl⟩ | ⟨-, rfl⟩ | ⟨-, rfl⟩
  · cases hin.eq_of_isScalar rfl
    exact ⟨⟨3, 0, by decide, by decide⟩, rfl, by decide⟩
  · cases hin.eq_of_isScalar rfl
  · obtain ⟨u, hu, hin⟩ := hin.exists_item rfl
    rw [List.mem_singleton.1 hu, toValue_exampleFormer] at hin
    obtain ⟨name, w, hw, hin⟩ := hin.exists_stored rfl
    simp only [List.mem_cons, List.not_mem_nil, or_false, Prod.mk.injEq] at hw
    rcases hw with ⟨-, rfl⟩ | ⟨-, rfl⟩
    · cases hin.eq_of_isScalar rfl
    · cases hin.eq_of_isScalar rfl
  · obtain ⟨u, hu, hin⟩ := hin.exists_item rfl
    simp only [List.mem_cons, List.not_mem_nil, or_false] at hu
    rcases hu with rfl | rfl
    · cases hin.eq_of_isScalar rfl
    · cases hin.eq_of_isScalar rfl

/-- The schema of alarms, which go off at a time. -/
def exampleAlarm : Schema where
  id := none
  key := "alarm"
  name := "alarm"
  description := none
  attributes := [⟨"at", .scalar .time⟩]
  computed := []
  configurations := []
  audit := {}
  names_nodup := by decide
  acyclic := findCycle_nil

/-- A leap second that does not come after the second `59`. -/
def exampleLeap : Time :=
  ⟨23, 56, 4, 1333333333, by decide⟩

end EntityModel
