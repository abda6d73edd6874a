import EntityModel.Json.Basic
import EntityModel.Number.Scaling
import EntityModel.Text.Hex

/-!
# Reading JSON

A reader for JSON documents. Of two fields with one name the later one counts. An integer within
64 bits, signed or unsigned, stays an integer; any other number, and `-0`, becomes a double by
scaling its leading digits, and a number above all doubles is refused. Containers nest at most 127
deep.
-/

namespace EntityModel

namespace Json

/-- Blanks between tokens. -/
def isSpace (c : Char) : Bool :=
  c = ' ' || c = '\t' || c = '\n' || c = '\r'

/-- Skip the blanks between tokens. -/
def skipSpace (cs : List Char) : List Char :=
  cs.dropWhile isSpace

/-- How deep containers may nest. -/
def maxDepth : Nat := 127

/-! ### Strings -/

/-- The code unit of four hexadecimal digits. -/
def codeUnit? (a b c d : Char) : Option Nat :=
  hexNumber? [a, b, c, d]

/-- The character of an escape of one letter. -/
def escape? (c : Char) : Option Char :=
  match c with
  | '"' => some '"'
  | '\\' => some '\\'
  | '/' => some '/'
  | 'b' => some (Char.ofNat 8)
  | 'f' => some (Char.ofNat 12)
  | 'n' => some '\n'
  | 'r' => some '\r'
  | 't' => some '\t'
  | _ => none

/-- Read a string up to its closing quote; `acc` holds what was read, in reverse. -/
def readString (acc : List Char) : List Char → Option (String × List Char)
  | [] => none
  | '"' :: cs => some (String.ofList acc.reverse, cs)
  | '\\' :: 'u' :: a :: b :: c :: d :: cs =>
    match codeUnit? a b c d with
    | none => none
    | some unit =>
      if 0xDC00 ≤ unit ∧ unit < 0xE000 then none
      else if 0xD800 ≤ unit ∧ unit < 0xDC00 then
        match cs with
        | '\\' :: 'u' :: e :: f :: g :: h :: cs =>
          match codeUnit? e f g h with
          | none => none
          | some low =>
            if 0xDC00 ≤ low ∧ low < 0xE000 then
              readString (Char.ofNat (0x10000 + (unit - 0xD800) * 0x400 + (low - 0xDC00)) :: acc) cs
            else none
        | _ => none
      else readString (Char.ofNat unit :: acc) cs
  | '\\' :: c :: cs =>
    match escape? c with
    | none => none
    | some e => readString (e :: acc) cs
  | c :: cs => if c.toNat < 32 then none else readString (c :: acc) cs

/-! ### Numbers -/

/-- Append a digit to a number, if the result has at most 64 bits. -/
def appendDigit? (n : Nat) (c : Char) : Option Nat :=
  let next := 10 * n + (c.toNat - '0'.toNat)
  if next < UInt64.size then some next else none

/-- The number of the digits before the point, as far as they fit; each of the others counts as a
power of ten. -/
def leadingDigits (n : Nat) : List Char → Scientific
  | [] => ⟨n, 0⟩
  | c :: cs =>
    match appendDigit? n c with
    | some next => leadingDigits next cs
    | none => ⟨n, (c :: cs).length⟩

/-- A number with digits behind the point, as far as they fit; the others are dropped. -/
def appendFraction (s : Scientific) : List Char → Scientific
  | [] => s
  | c :: cs =>
    match appendDigit? s.digits c with
    | some next => appendFraction ⟨next, s.exponent - 1⟩ cs
    | none => s

/-- Read the exponent of a number, if there is one. -/
def readExponent : List Char → Option (Option Int × List Char)
  | c :: cs =>
    if c = 'e' ∨ c = 'E' then
      let (sign, cs) : Int × List Char :=
        match cs with
        | '+' :: cs => (1, cs)
        | '-' :: cs => (-1, cs)
        | cs => (1, cs)
      let digits := cs.takeWhile Char.isDigit
      if digits.isEmpty then none
      else some (some (sign * Decimals.value digits), cs.drop digits.length)
    else some (none, c :: cs)
  | [] => some (none, [])

/-- Read the fraction of a number, if there is one. -/
def readFraction : List Char → Option (Option (List Char) × List Char)
  | '.' :: cs =>
    let digits := cs.takeWhile Char.isDigit
    if digits.isEmpty then none else some (some digits, cs.drop digits.length)
  | cs => some (none, cs)

/-- Read a number after its sign. -/
def readNumber (negative : Bool) (cs : List Char) : Option (JsonNumber × List Char) := do
  let whole := cs.takeWhile Char.isDigit
  if whole.isEmpty || (whole.head? = some '0' && 1 < whole.length) then none
  else
    let (fraction, cs) ← readFraction (cs.drop whole.length)
    let (exponent, cs) ← readExponent cs
    let n := Decimals.value whole
    let signed : Int := if negative then -n else n
    if fraction.isNone && exponent.isNone && JsonNumber.isInteger signed &&
        !(negative && n = 0) then
      some (.integer signed, cs)
    else
      let s := appendFraction (leadingDigits 0 whole) (fraction.getD [])
      let x ← Scientific.scaled? ⟨s.digits, s.exponent + exponent.getD 0⟩
      some (.double { x with negative := negative }, cs)

/-! ### Values -/

mutual

/-- Read a value; `fuel` bounds the steps and `depth` the nesting. -/
def readValue : Nat → Nat → List Char → Option (Json × List Char)
  | 0, _, _ => none
  | fuel + 1, depth, cs =>
    match skipSpace cs with
    | 'n' :: 'u' :: 'l' :: 'l' :: cs => some (.null, cs)
    | 't' :: 'r' :: 'u' :: 'e' :: cs => some (.bool true, cs)
    | 'f' :: 'a' :: 'l' :: 's' :: 'e' :: cs => some (.bool false, cs)
    | '"' :: cs => (readString [] cs).map fun (s, cs) => (.string s, cs)
    | '-' :: cs => (readNumber true cs).map fun (n, cs) => (.number n, cs)
    | '[' :: cs =>
      match depth, skipSpace cs with
      | 0, _ => none
      | _ + 1, ']' :: cs => some (.array [], cs)
      | depth + 1, cs => readItems fuel depth [] cs
    | '{' :: cs =>
      match depth, skipSpace cs with
      | 0, _ => none
      | _ + 1, '}' :: cs => some (.object [], cs)
      | depth + 1, cs => readFields fuel depth [] cs
    | cs => (readNumber false cs).map fun (n, cs) => (.number n, cs)

/-- Read the items of an array; `acc` holds those before, in reverse. -/
def readItems : Nat → Nat → List Json → List Char → Option (Json × List Char)
  | 0, _, _, _ => none
  | fuel + 1, depth, acc, cs =>
    match readValue fuel depth cs with
    | none => none
    | some (v, cs) =>
      match skipSpace cs with
      | ']' :: cs => some (.array (v :: acc).reverse, cs)
      | ',' :: cs => readItems fuel depth (v :: acc) cs
      | _ => none

/-- Read the fields of an object; `acc` holds those before. -/
def readFields : Nat → Nat → Dict Json → List Char → Option (Json × List Char)
  | 0, _, _, _ => none
  | fuel + 1, depth, acc, cs =>
    match skipSpace cs with
    | '"' :: cs =>
      match readString [] cs with
      | none => none
      | some (name, cs) =>
        match skipSpace cs with
        | ':' :: cs =>
          match readValue fuel depth cs with
          | none => none
          | some (v, cs) =>
            match skipSpace cs with
            | '}' :: cs => some (.object (Dict.insert acc name v), cs)
            | ',' :: cs => readFields fuel depth (Dict.insert acc name v) cs
            | _ => none
        | _ => none
    | _ => none

end

/-- Read a whole document. -/
def parse? (text : String) : Option Json :=
  let cs := text.toList
  match readValue (2 * cs.length + 2) maxDepth cs with
  | some (v, rest) => if (skipSpace rest).isEmpty then some v else none
  | none => none

end Json

end EntityModel
