import EntityModel.Uuid

/-!
# Attribute types

An attribute holds a scalar of one of seven kinds, an entity of a named schema, or a list of
either. A nested schema is referred to by its key, so schemas may refer to one another.
-/

namespace EntityModel

/-- The kinds of scalars. -/
inductive ScalarKind where
  | string
  | integer
  | decimal
  | boolean
  | date
  | time
  | document
deriving DecidableEq, Repr

namespace ScalarKind

/-- All kinds. -/
def all : List ScalarKind :=
  [.string, .integer, .decimal, .boolean, .date, .time, .document]

/-- The name of a kind in schema documents. -/
def name : ScalarKind → String
  | .string => "String"
  | .integer => "Integer"
  | .decimal => "Decimal"
  | .boolean => "Boolean"
  | .date => "Date"
  | .time => "Time"
  | .document => "Document"

/-- The kind of a name. -/
def ofName? (s : String) : Option ScalarKind :=
  all.find? fun k => k.name = s

theorem ofName?_name (k : ScalarKind) : ofName? k.name = some k := by
  cases k <;> decide +kernel

theorem name_of_ofName? {s : String} {k : ScalarKind} (h : ofName? s = some k) : k.name = s := by
  simpa using List.find?_some h

end ScalarKind

/-- The declared type of an attribute. -/
inductive AttributeType where
  | scalar (kind : ScalarKind)
  | list (kind : ScalarKind)
  | entity (schemaKey : String)
  | entityList (schemaKey : String)
deriving DecidableEq, Repr

namespace AttributeType

/-- Whether the attribute holds a list. -/
def isList : AttributeType → Bool
  | .list _ => true
  | .entityList _ => true
  | _ => false

/-- The key of the nested schema, if there is one. -/
def schemaKey? : AttributeType → Option String
  | .entity key => some key
  | .entityList key => some key
  | _ => none

/-- The text of a type. -/
def text : AttributeType → String
  | .scalar kind => kind.name
  | .list kind => s!"List<{kind.name}>"
  | .entity key => s!"Entity<{key}>"
  | .entityList key => s!"List<Entity<{key}>>"

end AttributeType

/-- A reference to a stored document. -/
structure DocumentReference where
  documentId : Uuid
  filename : Option String := none
deriving DecidableEq, Repr

end EntityModel
