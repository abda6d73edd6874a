import EntityModel.Json.Reader

/-!
# Plain scalars

A scalar without quotes may be read as text, or by what it looks like: nothing, a truth value or a
number. Digits after a leading zero are no number, unless `0x`, `0o` or `0b` announces another base.
-/

namespace EntityModel

namespace Plain

/-- Whether a scalar stands for nothing. -/
def isNull (s : String) : Bool :=
  s = "" || s = "~" || s = "null" || s = "Null" || s = "NULL"

/-- The truth value of a scalar. -/
def bool? (s : String) : Option Bool :=
  if s = "true" || s = "True" || s = "TRUE" then some true
  else if s = "false" || s = "False" || s = "FALSE" then some false
  else none

/-- Characters without a plus sign in front. -/
def dropPlus : List Char → List Char
  | '+' :: cs => cs
  | cs => cs

/-- Characters without a sign in front. -/
def dropSign : List Char → List Char
  | '-' :: cs => cs
  | cs => dropPlus cs

/-- Whether the digits of a number start with a zero too many. -/
def hasLeadingZero (cs : List Char) : Bool :=
  match dropSign cs with
  | '0' :: c :: cs => (c :: cs).all Char.isDigit
  | _ => false

/-- The number that digits of a base denote. -/
def digitsValue? (base : Nat) (cs : List Char) : Option Nat :=
  if cs.isEmpty then none
  else
    cs.foldl (fun acc c => acc.bind fun n =>
      (hexValue? c).bind fun d => if d < base then some (base * n + d) else none) (some 0)

/-- The magnitude of an integer after its sign. -/
def magnitude? : List Char → Option Nat
  | '0' :: 'x' :: cs => digitsValue? 16 cs
  | '0' :: 'o' :: cs => digitsValue? 8 cs
  | '0' :: 'b' :: cs => digitsValue? 2 cs
  | cs => digitsValue? 10 cs

/-- The integer that a scalar denotes, in 128 bits. -/
def integer? (s : String) : Option Int :=
  if hasLeadingZero s.toList then none
  else
    match s.toList with
    | '-' :: cs =>
      (magnitude? cs).bind fun n => if n ≤ Nat.pow 2 127 then some (-(n : Int)) else none
    | cs =>
      (magnitude? (dropPlus cs)).bind fun n => if n < Nat.pow 2 128 then some (n : Int) else none

/-- The natural number of 64 bits that a scalar denotes without a minus sign. -/
def natural? (s : String) : Option Nat :=
  if s.toList.head? = some '-' then none
  else (integer? s).bind fun n => if n < Nat.pow 2 64 then some n.toNat else none

/-- Whether a scalar is an integer of more than 64 bits. -/
def isWideInteger (s : String) : Bool :=
  (integer? s).any fun n => !JsonNumber.isInteger n

/-- Whether characters are a finite number in decimal notation. -/
def isDecimal (cs : List Char) : Bool :=
  let whole := cs.takeWhile Char.isDigit
  let rest := cs.drop whole.length
  let fraction :=
    match rest with
    | '.' :: cs => cs.takeWhile Char.isDigit
    | _ => []
  let rest :=
    match rest with
    | '.' :: cs => cs.drop fraction.length
    | rest => rest
  if whole.isEmpty && fraction.isEmpty then false
  else
    match Json.readExponent rest with
    | some (exponent, []) =>
      (Scientific.nearest?
        ⟨Decimals.value (whole ++ fraction), exponent.getD 0 - fraction.length⟩).isSome
    | _ => false

/-- Whether a scalar denotes a real number, infinity or no number. -/
def isReal (s : String) : Bool :=
  let cs := s.toList
  if hasLeadingZero cs then false
  else
    let unsigned := String.ofList (dropSign cs)
    unsigned = ".inf" || unsigned = ".Inf" || unsigned = ".INF" ||
      s = ".nan" || s = ".NaN" || s = ".NAN" || isDecimal (dropSign cs)

/-- Whether a scalar looks like something else than text. -/
def isTyped (s : String) : Bool :=
  isNull s || (bool? s).isSome || (integer? s).isSome || isReal s

end Plain

end EntityModel
