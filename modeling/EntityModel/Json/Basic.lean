import EntityModel.Dict
import EntityModel.Number.Shortest

/-!
# JSON values

The tree of a JSON document. A number keeps whether it was written as an integer; the fields of an
object are a dictionary, so their order is that of their names.
-/

namespace EntityModel

/-- A JSON number: an integer of 64 bits, signed or unsigned, or a double. -/
inductive JsonNumber where
  | integer (n : Int)
  | double (x : Double)
deriving DecidableEq, Repr

/-- A JSON value. -/
inductive Json where
  | null
  | bool (b : Bool)
  | number (n : JsonNumber)
  | string (s : String)
  | array (items : List Json)
  | object (fields : List (String × Json))
deriving Repr

/-- The kinds of JSON values. -/
inductive JsonKind where
  | null
  | bool
  | number
  | string
  | array
  | object
deriving DecidableEq, Repr

/-- The words for a kind. -/
def JsonKind.words : JsonKind → String
  | .null => "null"
  | .bool => "a boolean"
  | .number => "a number"
  | .string => "a string"
  | .array => "an array"
  | .object => "an object"

namespace JsonNumber

/-- The range of signed integers. -/
def isSigned (n : Int) : Bool :=
  Int64.minValue.toInt ≤ n && n ≤ Int64.maxValue.toInt

/-- The range of integers, signed or unsigned. -/
def isInteger (n : Int) : Bool :=
  Int64.minValue.toInt ≤ n && n < UInt64.size

/-- The number as a signed integer, if it is one. -/
def int64? : JsonNumber → Option Int64
  | .integer n => if isSigned n then some (Int64.ofInt n) else none
  | .double _ => none

end JsonNumber

namespace Json

/-- An integer as a JSON value. -/
def ofInt64 (n : Int64) : Json :=
  .number (.integer n.toInt)

/-- A natural number as a JSON value. -/
def ofNat (n : Nat) : Json :=
  .number (.integer n)

/-- An optional value, `null` if there is none. -/
def ofOption (x : Option Json) : Json :=
  x.getD .null

/-- An optional text. -/
def ofText? (s : Option String) : Json :=
  ofOption (s.map .string)

/-- An object of fields in any order. -/
def ofFields (fields : List (String × Json)) : Json :=
  .object (Dict.ofList fields)

/-- The field of an object. -/
def field? : Json → String → Option Json
  | .object fields, name => Dict.get? fields name
  | _, _ => none

/-- The text of a string value. -/
def text? : Json → Option String
  | .string s => some s
  | _ => none

/-- The kind of a value. -/
def kind : Json → JsonKind
  | .null => .null
  | .bool _ => .bool
  | .number _ => .number
  | .string _ => .string
  | .array _ => .array
  | .object _ => .object

end Json

end EntityModel
