import EntityModel.AttributeType
import EntityModel.Calendar.Timestamp
import EntityModel.Dict
import EntityModel.Log
import EntityModel.Schema.Cycle

/-!
# Schemas

A schema is the structural type of an entity: stored attributes, computed attributes, their
configurations and audit data. It is made from a draft, which is checked in a fixed order; the first
fault found is the error. What the checks establish and the rest of the library relies on is part of
the type: names are declared once, and no computed attribute depends on itself.
-/

namespace EntityModel

/-! ### Parts -/

/-- A stored attribute. -/
structure Attribute where
  name : String
  type : AttributeType
deriving DecidableEq, Repr

/-- Advice for the consumers of an attribute. -/
inductive Configuration where
  /-- The classifier for documents of the attribute. -/
  | documentClassifier (classifierName : String)
  /-- The processor for documents of the attribute. -/
  | documentProcessing (processorId : String)
deriving DecidableEq, Repr

/-- The kinds of configurations. -/
inductive ConfigurationKind where
  | documentClassifier
  | documentProcessing
deriving DecidableEq, Repr

/-- The word for a kind. -/
def ConfigurationKind.word : ConfigurationKind → String
  | .documentClassifier => "documentClassifier"
  | .documentProcessing => "documentProcessing"

namespace Configuration

/-- The kind of a configuration. -/
def kind : Configuration → ConfigurationKind
  | .documentClassifier _ => .documentClassifier
  | .documentProcessing _ => .documentProcessing

/-- The classifier that a configuration names. -/
def classifierName? : Configuration → Option String
  | .documentClassifier name => some name
  | .documentProcessing _ => none

/-- The processor that a configuration names. -/
def processorId? : Configuration → Option String
  | .documentClassifier _ => none
  | .documentProcessing id => some id

end Configuration

/-- Who created and last changed a schema, and when. -/
structure Audit where
  createdBy : Option String := none
  lastUpdatedBy : Option String := none
  created : Option Timestamp := none
  lastUpdated : Option Timestamp := none
deriving DecidableEq, Repr

/-! ### Errors -/

/-- Why a draft is not a schema. -/
inductive SchemaError where
  | emptyKey
  | emptyAttributeName (schema : String)
  | duplicateAttribute (schema name : String)
  | nameCollision (schema name : String)
  | emptySchemaReference (schema name : String)
  | unsupportedType (schema name typeName : String)
  | missingTypeParameter (schema name typeName field : String)
  | configurationForUnknownAttribute (schema name : String)
  | computedCycle (schema : String) (cycle : List String)
deriving DecidableEq, Repr

/-- The wording of an error. -/
def SchemaError.message : SchemaError → String
  | .emptyKey => "schema key must not be empty"
  | .emptyAttributeName s => s!"schema '{s}' declares an attribute with an empty name"
  | .duplicateAttribute s a => s!"schema '{s}' declares attribute '{a}' more than once"
  | .nameCollision s a =>
    s!"attribute '{a}' on schema '{s}' is declared both as stored and as computed"
  | .emptySchemaReference s a =>
    s!"attribute '{a}' on schema '{s}' references a nested schema with an empty key"
  | .unsupportedType s a t => s!"attribute '{a}' on schema '{s}' has unsupported type '{t}'"
  | .missingTypeParameter s a t f =>
    s!"attribute '{a}' on schema '{s}' of type '{t}' requires '{f}'"
  | .configurationForUnknownAttribute s a => s!"schema '{s}' configures undeclared attribute '{a}'"
  | .computedCycle s cycle =>
    let way := String.intercalate " -> " cycle
    s!"computed attributes on schema '{s}' form a cycle: {way}"

/-! ### Schemas -/

/-- The names of stored and computed attributes. -/
def declaredNames (attributes : List Attribute) (computed : List ComputedAttribute) :
    List String :=
  attributes.map (·.name) ++ computed.map (·.name)

/-- The structural type of an entity. -/
structure Schema where
  id : Option Uuid
  key : String
  name : String
  description : Option String
  attributes : List Attribute
  computed : List ComputedAttribute
  configurations : Dict (List Configuration)
  audit : Audit
  /-- No name is declared twice. -/
  names_nodup : (declaredNames attributes computed).Nodup
  /-- No computed attribute depends on itself. -/
  acyclic : findCycle computed = none
deriving DecidableEq

namespace Schema

/-- The stored attribute of a name. -/
def attribute? (s : Schema) (name : String) : Option Attribute :=
  s.attributes.find? fun a => a.name = name

/-- The computed attribute of a name. -/
def computed? (s : Schema) (name : String) : Option ComputedAttribute :=
  s.computed.find? fun c => c.name = name

/-- Whether a name is that of a computed attribute. -/
def isComputed (s : Schema) (name : String) : Bool :=
  (s.computed? name).isSome

/-- Whether a name is declared at all. -/
def isDeclared (s : Schema) (name : String) : Bool :=
  (s.attribute? name).isSome || s.isComputed name

/-- The keys of nested schemas, by stored attribute. -/
def related (s : Schema) : Dict String :=
  Dict.ofList (s.attributes.filterMap fun a => a.type.schemaKey?.map fun key => (a.name, key))

/-- The configurations of an attribute, in the order of their declaration. -/
def configurationsOf (s : Schema) (name : String) : List Configuration :=
  (Dict.get? s.configurations name).getD []

/-- The configurations of an attribute that are of a kind. -/
def configurationsOfKind (s : Schema) (name : String) (kind : ConfigurationKind) :
    List Configuration :=
  (s.configurationsOf name).filter fun c => c.kind = kind

/-- Structural equality. The display name and the computed attributes do not count. -/
def same (s t : Schema) : Bool :=
  s.id = t.id && s.key = t.key && s.description = t.description && s.attributes = t.attributes &&
    s.configurations = t.configurations && s.audit = t.audit

theorem same_refl (s : Schema) : s.same s := by simp [same]

theorem key_eq_of_same {s t : Schema} (h : s.same t) : s.key = t.key := by
  simp only [same, Bool.and_eq_true, decide_eq_true_eq] at h
  exact h.1.1.1.1.2

end Schema

/-! ### Drafts -/

/-- What a schema is made from. -/
structure Draft where
  key : String
  id : Option Uuid := none
  name : Option String := none
  description : Option String := none
  attributes : List Attribute := []
  computed : List ComputedAttribute := []
  configurations : List (String × Configuration) := []
  audit : Audit := {}
deriving DecidableEq, Repr

namespace Draft

/-- Declare a stored attribute. -/
def addAttribute (d : Draft) (name : String) (type : AttributeType) : Draft :=
  { d with attributes := d.attributes ++ [⟨name, type⟩] }

/-- Declare a computed attribute. -/
def addComputed (d : Draft) (name : String) (type : AttributeType) (expression : String) : Draft :=
  { d with computed := d.computed ++ [⟨name, type, expression⟩] }

/-- Configure an attribute. -/
def configure (d : Draft) (name : String) (configuration : Configuration) : Draft :=
  { d with configurations := d.configurations ++ [(name, configuration)] }

/-- The fault of a single declaration: an empty name or an empty reference. -/
def declarationFault? (key name : String) (type : AttributeType) : Option SchemaError :=
  if name = "" then some (.emptyAttributeName key)
  else if type.schemaKey? = some "" then some (.emptySchemaReference key name)
  else none

/-- The first fault of stored attributes; `seen` are the names before them. -/
def attributesFault? (key : String) (seen : List String) : List Attribute → Option SchemaError
  | [] => none
  | a :: rest =>
    match declarationFault? key a.name a.type with
    | some e => some e
    | none =>
      if a.name ∈ seen then some (.duplicateAttribute key a.name)
      else attributesFault? key (a.name :: seen) rest

/-- The first fault of computed attributes; `seen` are the names before them. -/
def computedFault? (key : String) (stored seen : List String) :
    List ComputedAttribute → Option SchemaError
  | [] => none
  | c :: rest =>
    match declarationFault? key c.name c.type with
    | some e => some e
    | none =>
      if c.name ∈ stored then some (.nameCollision key c.name)
      else if c.name ∈ seen then some (.duplicateAttribute key c.name)
      else computedFault? key stored (c.name :: seen) rest

/-- The first configuration of an attribute that is not declared. -/
def configurationsFault? (key : String) (declared : List String)
    (configurations : List (String × Configuration)) : Option SchemaError :=
  (configurations.find? fun c => c.1 ∉ declared).map fun c =>
    .configurationForUnknownAttribute key c.1

/-- The first fault of a draft. -/
def fault? (d : Draft) : Option SchemaError :=
  if d.key = "" then some .emptyKey
  else
    (attributesFault? d.key [] d.attributes).or <|
      (computedFault? d.key (d.attributes.map (·.name)) [] d.computed).or <|
        (configurationsFault? d.key (declaredNames d.attributes d.computed) d.configurations).or <|
          (findCycle d.computed).map (.computedCycle d.key)

/-- The configurations of each attribute, in the order of their declaration. -/
def groupConfigurations (configurations : List (String × Configuration)) :
    Dict (List Configuration) :=
  configurations.foldl
    (fun d c => Dict.insert d c.1 ((Dict.get? d c.1).getD [] ++ [c.2])) []

/-! ### What the absence of a fault means -/

theorem nodup_of_attributesFault?_eq_none {key : String} {seen : List String}
    {attributes : List Attribute} (h : attributesFault? key seen attributes = none) :
    (attributes.map (·.name)).Nodup ∧ ∀ a ∈ attributes, a.name ∉ seen := by
  induction attributes generalizing seen with
  | nil => simp
  | cons a rest ih =>
    unfold attributesFault? at h
    split at h
    · simp at h
    · split at h
      · simp at h
      · rename_i hseen
        obtain ⟨hnodup, hnot⟩ := ih h
        refine ⟨?_, ?_⟩
        · simp only [List.map_cons, List.nodup_cons, List.mem_map, not_exists, not_and]
          refine ⟨fun b hb heq => hnot b hb ?_, hnodup⟩
          simp [heq]
        · intro b hb
          rcases List.mem_cons.1 hb with rfl | hb
          · exact hseen
          · exact fun hmem => hnot b hb (List.mem_cons_of_mem _ hmem)

theorem nodup_of_computedFault?_eq_none {key : String} {stored seen : List String}
    {computed : List ComputedAttribute} (h : computedFault? key stored seen computed = none) :
    (computed.map (·.name)).Nodup ∧ ∀ c ∈ computed, c.name ∉ stored ∧ c.name ∉ seen := by
  induction computed generalizing seen with
  | nil => simp
  | cons c rest ih =>
    unfold computedFault? at h
    split at h
    · simp at h
    · split at h
      · simp at h
      · rename_i hstored
        split at h
        · simp at h
        · rename_i hseen
          obtain ⟨hnodup, hnot⟩ := ih h
          refine ⟨?_, ?_⟩
          · simp only [List.map_cons, List.nodup_cons, List.mem_map, not_exists, not_and]
            refine ⟨fun b hb heq => (hnot b hb).2 ?_, hnodup⟩
            simp [heq]
          · intro b hb
            rcases List.mem_cons.1 hb with rfl | hb
            · exact ⟨hstored, hseen⟩
            · exact ⟨(hnot b hb).1, fun hmem => (hnot b hb).2 (List.mem_cons_of_mem _ hmem)⟩

theorem names_nodup_of_fault?_eq_none {d : Draft} (h : d.fault? = none) :
    (declaredNames d.attributes d.computed).Nodup := by
  unfold fault? at h
  split at h
  · simp at h
  · simp only [Option.or_eq_none_iff] at h
    obtain ⟨ha, hc, -, -⟩ := h
    have hc := nodup_of_computedFault?_eq_none hc
    refine List.nodup_append.2 ⟨(nodup_of_attributesFault?_eq_none ha).1, hc.1, ?_⟩
    intro n hn m hm heq
    obtain ⟨c, hmem, rfl⟩ := List.mem_map.1 hm
    exact (hc.2 c hmem).1 (heq ▸ hn)

theorem acyclic_of_fault?_eq_none {d : Draft} (h : d.fault? = none) :
    findCycle d.computed = none := by
  unfold fault? at h
  split at h
  · simp at h
  · simp only [Option.or_eq_none_iff, Option.map_eq_none_iff] at h
    exact h.2.2.2

/-! ### Building -/

/-- The schema of a draft, or the first fault of the draft. -/
def toSchema (d : Draft) : Except SchemaError Schema :=
  match h : d.fault? with
  | some e => .error e
  | none => .ok
    { id := d.id
      key := d.key
      name := d.name.getD d.key
      description := d.description
      attributes := d.attributes
      computed := d.computed
      configurations := groupConfigurations d.configurations
      audit := d.audit
      names_nodup := names_nodup_of_fault?_eq_none h
      acyclic := acyclic_of_fault?_eq_none h }

/-- Build the schema of a draft. -/
def build (d : Draft) : Logged SchemaError Schema := do
  let s ← .ofExcept d.toSchema
  let n := s.attributes.length
  let m := s.computed.length
  .report .debug s!"Built schema '{s.key}' with {n} attributes and {m} computed attributes"
  pure s

end Draft

end EntityModel
