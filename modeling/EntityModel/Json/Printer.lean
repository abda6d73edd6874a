import EntityModel.Json.Basic
import EntityModel.Text.Hex

/-!
# Writing JSON

The compact form has no blanks. The indented form puts every item and field on a line of its own,
two spaces deeper than its container; an empty container stays on one line. In strings only the
quote, the backslash and the control characters below the space are escaped, so neither a string
nor the compact form holds a line break.
-/

namespace EntityModel

/-- A character of a string, escaped if need be. -/
def escapeChar (c : Char) : List Char :=
  if c = '"' then ['\\', '"']
  else if c = '\\' then ['\\', '\\']
  else if c = '\n' then ['\\', 'n']
  else if c = '\r' then ['\\', 'r']
  else if c = '\t' then ['\\', 't']
  else if c.toNat = 8 then ['\\', 'b']
  else if c.toNat = 12 then ['\\', 'f']
  else if c.toNat < 32 then
    ['\\', 'u', '0', '0', hexDigit (c.toNat / 16), hexDigit (c.toNat % 16)]
  else [c]

/-- A string in quotes. -/
def quoted (s : String) : List Char :=
  '"' :: s.toList.flatMap escapeChar ++ ['"']

/-- The text of a number. -/
def JsonNumber.chars : JsonNumber → List Char
  | .integer n => n.repr.toList
  | .double x => x.json.toList

/-- A line break and the indentation of a depth. -/
def newline (depth : Nat) : List Char :=
  '\n' :: List.replicate (2 * depth) ' '

namespace Json

mutual

/-- The compact form. -/
def chars : Json → List Char
  | .null => ['n', 'u', 'l', 'l']
  | .bool true => ['t', 'r', 'u', 'e']
  | .bool false => ['f', 'a', 'l', 's', 'e']
  | .number n => n.chars
  | .string s => quoted s
  | .array items => '[' :: itemsChars items ++ [']']
  | .object fields => '{' :: fieldsChars fields ++ ['}']

/-- Items with commas between them. -/
def itemsChars : List Json → List Char
  | [] => []
  | [v] => chars v
  | v :: vs => chars v ++ ',' :: itemsChars vs

/-- Fields with commas between them. -/
def fieldsChars : List (String × Json) → List Char
  | [] => []
  | [(k, v)] => quoted k ++ ':' :: chars v
  | (k, v) :: fs => quoted k ++ ':' :: chars v ++ ',' :: fieldsChars fs

end

mutual

/-- The indented form at a depth. -/
def indented (depth : Nat) : Json → List Char
  | .null => ['n', 'u', 'l', 'l']
  | .bool true => ['t', 'r', 'u', 'e']
  | .bool false => ['f', 'a', 'l', 's', 'e']
  | .number n => n.chars
  | .string s => quoted s
  | .array [] => ['[', ']']
  | .array items => '[' :: indentedItems (depth + 1) items ++ newline depth ++ [']']
  | .object [] => ['{', '}']
  | .object fields => '{' :: indentedFields (depth + 1) fields ++ newline depth ++ ['}']

/-- Items on lines of a depth. -/
def indentedItems (depth : Nat) : List Json → List Char
  | [] => []
  | [v] => newline depth ++ indented depth v
  | v :: vs => newline depth ++ indented depth v ++ ',' :: indentedItems depth vs

/-- Fields on lines of a depth. -/
def indentedFields (depth : Nat) : List (String × Json) → List Char
  | [] => []
  | [(k, v)] => newline depth ++ quoted k ++ ':' :: ' ' :: indented depth v
  | (k, v) :: fs =>
    newline depth ++ quoted k ++ ':' :: ' ' :: indented depth v ++ ',' :: indentedFields depth fs

end

/-- The compact text of a value. -/
def compact (v : Json) : String :=
  String.ofList v.chars

/-- The indented text of a value. -/
def pretty (v : Json) : String :=
  String.ofList (v.indented 0)

end Json

end EntityModel
