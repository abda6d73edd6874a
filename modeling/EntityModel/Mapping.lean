import EntityModel.Conversion.Builtin
import EntityModel.Entity.Basic

/-!
# Mapping

A mapping makes an entity from its generic form, a JSON object. Every field must be declared; the
fields of computed attributes are skipped. Scalars are converted to their declared kinds, objects
become entities of the schema that a look-up finds for the referenced key, and arrays become lists
item by item. Fields are taken in the order of their names, and the first fault ends the mapping.
-/

namespace EntityModel

/-- A way to find schemas by key. -/
abbrev SchemaLookup := String → Option Schema

/-- Why a generic form is not an entity. -/
inductive MappingError where
  | unknownKey (schema key : String)
  | missingSchema (schema name key : String)
  | invalidShape (schema name : String) (declared : AttributeType) (found : JsonKind)
  | conversion (schema name : String) (cause : ConversionError)
  | notAnObject (schema : String) (found : JsonKind)
  | entity (cause : EntityError)
deriving DecidableEq, Repr

/-- The wording of an error. -/
def MappingError.message : MappingError → String
  | .unknownKey s k => s!"key '{k}' is not declared on schema '{s}'"
  | .missingSchema s a k =>
    s!"attribute '{a}' on schema '{s}' references schema '{k}', which could not be found"
  | .invalidShape s a declared found =>
    s!"attribute '{a}' on schema '{s}' is declared as {declared.text} but the source holds " ++
      found.words
  | .conversion s a cause => s!"attribute '{a}' on schema '{s}': {cause.message}"
  | .notAnObject s found => s!"expected a JSON object for schema '{s}', found {found.words}"
  | .entity cause => cause.message

/-- What a mapping works with: the rules for scalars and the look-up of nested schemas. -/
structure Mapping where
  conversions : Conversions := .builtin
  lookup : SchemaLookup

namespace Mapping

/-- Convert a scalar of an attribute. -/
def readScalar (m : Mapping) (schema : Schema) (a : Attribute) (kind : ScalarKind) (v : Json) :
    Logged MappingError Value :=
  (m.conversions.convert v kind).mapError (.conversion schema.key a.name)

/-- The schema that a nested entity of an attribute is made of. -/
def nested (m : Mapping) (schema : Schema) (a : Attribute) (key : String) :
    Except MappingError Schema :=
  (m.lookup key).elim (.error (.missingSchema schema.key a.name key)) .ok

mutual

/-- Set the attributes of an entity from fields, in order. -/
def readFields (m : Mapping) (e : Entity) : List (String × Json) → Logged MappingError Entity
  | [] => pure e
  | (name, v) :: rest =>
    match e.schema.attribute? name with
    | some a => do
      let value ← readAttribute m e.schema a v
      let e ← .ofExcept ((e.set name value).mapError .entity)
      readFields m e rest
    | none =>
      if e.schema.isComputed name then do
        .report .debug
          s!"Skipping computed attribute '{name}' of schema '{e.schema.key}' in generic map"
        readFields m e rest
      else .fail (.unknownKey e.schema.key name)

/-- The value of an attribute. -/
def readAttribute (m : Mapping) (schema : Schema) (a : Attribute) :
    Json → Logged MappingError Value
  | .null =>
    match a.type with
    | .scalar kind => readScalar m schema a kind .null
    | .entity _ => pure .null
    | .list _ => pure (.list [])
    | .entityList _ => pure (.list [])
  | .array items =>
    if a.type.isList then do
      let values ← readItems m schema a items
      pure (.list values)
    else .fail (.invalidShape schema.key a.name a.type .array)
  | .object fields =>
    match a.type with
    | .scalar kind => readScalar m schema a kind (.object fields)
    | .entity key => do
      let s ← .ofExcept (m.nested schema a key)
      let e ← readFields m (.new s) fields
      pure e.toValue
    | _ => .fail (.invalidShape schema.key a.name a.type .object)
  | v =>
    match a.type with
    | .scalar kind => readScalar m schema a kind v
    | _ => .fail (.invalidShape schema.key a.name a.type v.kind)

/-- The value of an item of a list attribute. -/
def readItem (m : Mapping) (schema : Schema) (a : Attribute) : Json → Logged MappingError Value
  | .array _ => .fail (.invalidShape schema.key a.name a.type .array)
  | .object fields =>
    match a.type with
    | .list kind => readScalar m schema a kind (.object fields)
    | .entityList key => do
      let s ← .ofExcept (m.nested schema a key)
      let e ← readFields m (.new s) fields
      pure e.toValue
    | _ => .fail (.invalidShape schema.key a.name a.type .object)
  | v =>
    match a.type with
    | .list kind => readScalar m schema a kind v
    | _ => .fail (.invalidShape schema.key a.name a.type v.kind)

/-- The values of the items of a list attribute, in order. -/
def readItems (m : Mapping) (schema : Schema) (a : Attribute) :
    List Json → Logged MappingError (List Value)
  | [] => pure []
  | v :: vs => do
    let value ← readItem m schema a v
    let values ← readItems m schema a vs
    pure (value :: values)

end

/-- The entity of a schema with the given generic form. -/
def ofMap (m : Mapping) (schema : Schema) (fields : Dict Json) : Logged MappingError Entity :=
  readFields m (.new schema) fields

/-- The entity of a schema with the given generic form, which must be an object. -/
def ofJson (m : Mapping) (schema : Schema) : Json → Logged MappingError Entity
  | .object fields => ofMap m schema fields
  | v => .fail (.notAnObject schema.key v.kind)

end Mapping

end EntityModel
