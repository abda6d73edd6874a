import EntityModel.Json.Printer
import EntityModel.Number.Decimal
import EntityModel.Schema.Basic

/-!
# Values

What an entity holds for an attribute: a scalar, a list of values, or a nested entity, which is a
schema together with the values stored under its attributes. Values have a JSON form, in which they
are kept, and a text. Two values are the same if they have one kind and one content; decimals are
compared as numbers and entities by their schemas and stored values.
-/

namespace EntityModel

/-- A value of an attribute. -/
inductive Value where
  | null
  | string (s : String)
  | integer (n : Int64)
  | decimal (d : Decimal)
  | boolean (b : Bool)
  | date (d : Date)
  | time (t : Time)
  | document (d : DocumentReference)
  | list (items : List Value)
  | entity (schema : Schema) (store : List (String × Value))

/-- An instance of a schema: the values stored under its attributes. -/
structure Entity where
  schema : Schema
  store : Dict Value

/-- The type of a value at run time. -/
inductive ValueType where
  | null
  | scalar (kind : ScalarKind)
  | list
  | entity (schemaKey : String)
deriving DecidableEq, Repr

namespace ValueType

/-- The name of a type. -/
def name : ValueType → String
  | .null => "null"
  | .scalar kind => kind.name
  | .list => "List"
  | .entity _ => "Entity"

/-- The name of a type, with the schema of an entity. -/
def description : ValueType → String
  | .entity key => s!"Entity<{key}>"
  | t => t.name

end ValueType

/-- An entity as a value. -/
def Entity.toValue (e : Entity) : Value :=
  .entity e.schema e.store

/-- The value of a constant. -/
def Literal.toValue : Literal → Value
  | .null => .null
  | .boolean b => .boolean b
  | .integer n => .integer n
  | .string s => .string s

namespace Value

/-- The type of a value. -/
def type : Value → ValueType
  | .null => .null
  | .string _ => .scalar .string
  | .integer _ => .scalar .integer
  | .decimal _ => .scalar .decimal
  | .boolean _ => .scalar .boolean
  | .date _ => .scalar .date
  | .time _ => .scalar .time
  | .document _ => .scalar .document
  | .list _ => .list
  | .entity schema _ => .entity schema.key

/-- Whether a value is null. -/
def isNull : Value → Bool
  | .null => true
  | _ => false

/-- Whether a value is neither a list nor an entity. -/
def isScalar : Value → Bool
  | .list _ => false
  | .entity _ _ => false
  | _ => true

/-- The text of a string value. -/
def string? : Value → Option String
  | .string s => some s
  | _ => none

/-- The items of a list. -/
def list? : Value → Option (List Value)
  | .list items => some items
  | _ => none

/-- The entity that a value is. -/
def entity? : Value → Option Entity
  | .entity schema store => some ⟨schema, store⟩
  | _ => none

/-! ### JSON form -/

/-- The JSON form of a decimal: an integer of 64 bits if it is one, else a double if that is exact,
else a string. -/
def decimalJson (d : Decimal) : Json :=
  let fraction : Json :=
    match d.exactDouble? with
    | some x => .number (.double x)
    | none => .string d.text
  match d.toInt? with
  | some n => if JsonNumber.isSigned n then .number (.integer n) else fraction
  | none => fraction

/-- The JSON form of a document reference. -/
def documentJson (d : DocumentReference) : Json :=
  let id : String × Json := ("documentId", .string d.documentId.text)
  match d.filename with
  | none => .object [id]
  | some name => .object [id, ("filename", .string name)]

mutual

/-- The JSON form of a value. -/
def toJson : Value → Json
  | .null => .null
  | .string s => .string s
  | .integer n => .ofInt64 n
  | .decimal d => decimalJson d
  | .boolean b => .bool b
  | .date d => .string d.text
  | .time t => .string t.text
  | .document d => documentJson d
  | .list items => .array (listJson items)
  | .entity _ store => .object (storeJson store)

/-- The JSON forms of list items. -/
def listJson : List Value → List Json
  | [] => []
  | v :: vs => toJson v :: listJson vs

/-- The JSON forms of stored values. -/
def storeJson : List (String × Value) → List (String × Json)
  | [] => []
  | (name, v) :: rest => (name, toJson v) :: storeJson rest

end

/-- The text of a value. -/
def text : Value → String
  | .null => "null"
  | .string s => s
  | .integer n => int64Text n
  | .decimal d => d.text
  | .boolean b => if b then "true" else "false"
  | .date d => d.text
  | .time t => t.text
  | .document d => d.filename.getD d.documentId.text
  | .list items => (toJson (.list items)).compact
  | .entity schema store => (toJson (.entity schema store)).compact

/-! ### Equality -/

mutual

/-- Whether two values are the same. -/
def same : Value → Value → Bool
  | .null, .null => true
  | .string s, .string t => s = t
  | .integer m, .integer n => m = n
  | .decimal c, .decimal d => c.same d
  | .boolean a, .boolean b => a = b
  | .date c, .date d => c = d
  | .time s, .time t => s = t
  | .document c, .document d => c = d
  | .list xs, .list ys => sameList xs ys
  | .entity s xs, .entity t ys => s.same t && sameStore xs ys
  | _, _ => false

/-- Whether two lists are the same item by item. -/
def sameList : List Value → List Value → Bool
  | [], [] => true
  | x :: xs, y :: ys => same x y && sameList xs ys
  | _, _ => false

/-- Whether two stores have the same values under the same names. -/
def sameStore : List (String × Value) → List (String × Value) → Bool
  | [], [] => true
  | (m, x) :: xs, (n, y) :: ys => m = n && same x y && sameStore xs ys
  | _, _ => false

end

mutual

theorem same_refl : (v : Value) → same v v
  | .null => rfl
  | .string s => by simp [same]
  | .integer n => by simp [same]
  | .decimal d => by simp [same, Decimal.same_refl]
  | .boolean b => by simp [same]
  | .date d => by simp [same]
  | .time t => by simp [same]
  | .document d => by simp [same]
  | .list items => by simpa [same] using sameList_refl items
  | .entity s store => by simpa [same, Schema.same_refl] using sameStore_refl store

theorem sameList_refl : (vs : List Value) → sameList vs vs
  | [] => by simp [sameList]
  | v :: vs => by simp [sameList, same_refl v, sameList_refl vs]

theorem sameStore_refl : (store : List (String × Value)) → sameStore store store
  | [] => by simp [sameStore]
  | (name, v) :: rest => by simp [sameStore, same_refl v, sameStore_refl rest]

end

end Value

namespace Entity

/-- The generic form of an entity: the JSON forms of the values that are set. -/
def toMap (e : Entity) : Dict Json :=
  Value.storeJson e.store

/-- The generic form as a JSON object. -/
def toJson (e : Entity) : Json :=
  .object e.toMap

/-- Equality of entities. -/
def same (a b : Entity) : Bool :=
  Value.same a.toValue b.toValue

end Entity

end EntityModel
