import EntityModel.Schema.Basic

/-!
# Schema definitions

A definition is the source form of a schema: types are given by name, with the content of a list and
the key of a nested schema beside them. Resolving the types, those of stored attributes first, gives
the draft that the schema is built from.
-/

namespace EntityModel

/-- A type by name, with its parameters. -/
structure NamedType where
  typeName : String
  contentType : Option String := none
  entitySchema : Option String := none
deriving DecidableEq, Repr

/-- An entry for a stored attribute. -/
structure AttributeEntry where
  name : String
  type : NamedType
  configurations : List Configuration := []
deriving DecidableEq, Repr

/-- An entry for a computed attribute. -/
structure ComputedEntry where
  name : String
  type : NamedType
  expression : String
deriving DecidableEq, Repr

/-- The source form of a schema. -/
structure Definition where
  id : Option Uuid := none
  key : String
  name : Option String := none
  description : Option String := none
  attributes : List AttributeEntry := []
  computed : List ComputedEntry := []
  audit : Audit := {}
deriving DecidableEq, Repr

namespace NamedType

/-- The type that the name in an entry means. -/
def resolve (t : NamedType) (schema name : String) : Except SchemaError AttributeType :=
  let missing (field : String) : Except SchemaError AttributeType :=
    .error (.missingTypeParameter schema name t.typeName field)
  let scalar (kind : String) : Except SchemaError ScalarKind :=
    (ScalarKind.ofName? kind).elim (.error (.unsupportedType schema name kind)) .ok
  if t.typeName = "Entity" then
    match t.entitySchema with
    | some key => .ok (.entity key)
    | none => missing "entitySchema"
  else if t.typeName = "List" then
    match t.contentType, t.entitySchema with
    | none, some key => .ok (.entityList key)
    | none, none => missing "contentType"
    | some content, key? =>
      if content = "Entity" then
        match key? with
        | some key => .ok (.entityList key)
        | none => missing "entitySchema"
      else (scalar content).map .list
  else (scalar t.typeName).map .scalar

end NamedType

namespace Definition

/-- Declare stored attributes on a draft, in order. -/
def addAttributes (schema : String) : Draft → List AttributeEntry → Except SchemaError Draft
  | d, [] => .ok d
  | d, a :: rest => do
    let type ← a.type.resolve schema a.name
    let configured := a.configurations.foldl (fun d c => d.configure a.name c) d
    addAttributes schema (configured.addAttribute a.name type) rest

/-- Declare computed attributes on a draft, in order. -/
def addComputed (schema : String) : Draft → List ComputedEntry → Except SchemaError Draft
  | d, [] => .ok d
  | d, c :: rest => do
    let type ← c.type.resolve schema c.name
    addComputed schema (d.addComputed c.name type c.expression) rest

/-- The draft that a definition describes. -/
def toDraft (d : Definition) : Except SchemaError Draft := do
  let start : Draft :=
    { key := d.key, id := d.id, name := d.name, description := d.description, audit := d.audit }
  let draft ← addAttributes d.key start d.attributes
  addComputed d.key draft d.computed

/-- The schema of a definition. -/
def toSchema (d : Definition) : Logged SchemaError Schema := do
  let draft ← .ofExcept d.toDraft
  draft.build

end Definition

end EntityModel
