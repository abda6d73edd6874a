import EntityModel.Number.Shortest

/-!
# Decimals

A decimal is a whole number below `2^96` in magnitude together with a scale, the number of its
digits behind the point, at most 28. Decimals are compared as numbers, while their text keeps the
scale: `12.50` and `12.5` are equal and written differently.

A text is read exactly (`Decimal.ofText .exact`) or with rounding of what does not fit
(`Decimal.ofText .rounded`). The scientific form `baseEexponent` reads its base with rounding.
-/

namespace EntityModel

/-- A decimal number `mantissa / 10 ^ scale`. -/
structure Decimal where
  mantissa : Int
  scale : Nat
  mantissa_lt : mantissa.natAbs < Nat.pow 2 96
  scale_le : scale ≤ 28
deriving DecidableEq, Repr

/-- Why a text is not a decimal. -/
inductive DecimalFault where
  /-- There is no character at all. -/
  | empty
  /-- There is no digit. -/
  | noDigits
  /-- A second point. -/
  | twoPoints
  /-- A separator before the first digit. -/
  | leadingSeparator
  /-- A character that no decimal has. -/
  | unknownCharacter
  /-- The whole part does not fit the mantissa. -/
  | tooManyDigits
  /-- The mantissa overflows when it is rounded. -/
  | roundedOut
  /-- Digits behind the point do not fit. -/
  | underflow
  /-- The scale is above 28. -/
  | scale (n : Nat)
  /-- The number does not fit the mantissa. -/
  | tooLarge
  /-- The text has no scientific form. -/
  | malformed
deriving DecidableEq, Repr

/-- The wording of a fault. -/
def DecimalFault.message : DecimalFault → String
  | .empty => "Invalid decimal: empty"
  | .noDigits => "Invalid decimal: no digits found"
  | .twoPoints => "Invalid decimal: two decimal points"
  | .leadingSeparator => "Invalid decimal: must start lead with a number"
  | .unknownCharacter => "Invalid decimal: unknown character"
  | .tooManyDigits => "Invalid decimal: overflow from too many digits"
  | .roundedOut => "Invalid decimal: overflow from mantissa after rounding"
  | .underflow => "Number has a high precision that can not be represented."
  | .scale n => s!"Scale exceeds the maximum precision allowed: {n} > 28"
  | .tooLarge => "Number exceeds maximum value that can be represented."
  | .malformed => "Failed to parse"

namespace Decimal

/-- The largest scale. -/
def maxScale : Nat := 28

/-- Magnitudes of mantissas are below this. -/
def mantissaLimit : Nat := Nat.pow 2 96

/-- The decimal of a mantissa and a scale, if both fit. -/
def ofParts? (mantissa : Int) (scale : Nat) : Option Decimal :=
  if h : mantissa.natAbs < Nat.pow 2 96 ∧ scale ≤ 28 then some ⟨mantissa, scale, h.1, h.2⟩ else none

/-- Equality of the numbers, whatever the scales. -/
def same (a b : Decimal) : Bool :=
  a.mantissa * Nat.pow 10 b.scale = b.mantissa * Nat.pow 10 a.scale

/-- The text: all digits of the scale are written, and at least one before the point. -/
def text (d : Decimal) : String :=
  let digits := Decimals.padded (d.scale + 1) d.mantissa.natAbs
  let whole := digits.length - d.scale
  let body := if d.scale = 0 then digits else digits.take whole ++ '.' :: digits.drop whole
  String.ofList (if d.mantissa < 0 then '-' :: body else body)

/-! ### Reading -/

/-- What becomes of digits that do not fit. -/
inductive Mode where
  /-- They are refused. -/
  | exact
  /-- They are rounded, halves upwards in magnitude. -/
  | rounded
deriving DecidableEq, Repr

/-- The state of the reader: the digits so far as a number, the scale, whether the point was seen,
whether a digit was, and whether a separator has put off the rounding. -/
structure Scan where
  mantissa : Nat := 0
  scale : Nat := 0
  point : Bool := false
  digit : Bool := false
  deferred : Bool := false
deriving DecidableEq, Repr

/-- From this mantissa on, a separator in the place of the digit that decides the rounding is passed
over; before it, the separator counts as a zero. -/
def deferLimit : Nat := 18446744073709549060

/-- Round by the next character, a separator or a point counting as zero. Digits and separators may
follow it. -/
def Scan.round (s : Scan) (next : Char) (rest : List Char) : Except DecimalFault (Nat × Nat) :=
  if !(next.isDigit || next = '_' || next = '.') then .error .unknownCharacter
  else
    match rest.find? fun c => !(c.isDigit || c = '_') with
    | some c => .error (if c = '.' then .twoPoints else .unknownCharacter)
    | none =>
      let m := if next.isDigit && '5' ≤ next then s.mantissa + 1 else s.mantissa
      if m < mantissaLimit then .ok (m, s.scale)
      else if s.scale = 0 then .error .roundedOut
      else .ok ((m + 4) / 10, s.scale - 1)

/-- Read the characters after the sign into a mantissa and a scale. -/
def scan (mode : Mode) : Scan → List Char → Except DecimalFault (Nat × Nat)
  | s, [] => if s.digit then .ok (s.mantissa, s.scale) else .error .noDigits
  | s, c :: cs =>
    let full : Except DecimalFault (Nat × Nat) :=
      match mode with
      | .exact => .error .underflow
      | .rounded => s.round c cs
    if maxScale ≤ s.scale && !s.deferred then
      if mode = .rounded && c = '_' && deferLimit ≤ s.mantissa then
        scan mode { s with deferred := true } cs
      else full
    else if c.isDigit then
      let next := 10 * s.mantissa + (c.toNat - '0'.toNat)
      if next < mantissaLimit then
        scan mode
          { s with mantissa := next, scale := s.scale + s.point.toNat, digit := true
                   deferred := false }
          cs
      else if s.point then full
      else .error .tooManyDigits
    else if c = '.' && !s.point then scan mode { s with point := true } cs
    else if c = '_' && s.digit then scan mode s cs
    else if c = '.' then .error .twoPoints
    else if c = '_' then .error .leadingSeparator
    else .error .unknownCharacter

/-- Give a scanned number its sign. A scale that a deferred rounding took above the largest one
starts again at zero. -/
def ofScan (negative : Bool) (parts : Nat × Nat) : Except DecimalFault Decimal :=
  let mantissa : Int := if negative then -(parts.1 : Int) else parts.1
  (ofParts? mantissa (parts.2 % (maxScale + 1))).elim (.error .tooLarge) .ok

/-- Read a decimal: an optional sign, digits, at most one point, and separators after the first
digit. -/
def ofText (mode : Mode) : List Char → Except DecimalFault Decimal
  | [] => .error .empty
  | '-' :: cs => (scan mode {} cs).bind (ofScan true)
  | '+' :: cs => (scan mode {} cs).bind (ofScan false)
  | cs => (scan mode {} cs).bind (ofScan false)

/-- The decimal with a mantissa and another scale. -/
def withScale (d : Decimal) (scale : Nat) : Except DecimalFault Decimal :=
  (ofParts? d.mantissa scale).elim (.error (.scale scale)) .ok

/-- Multiply by a power of ten that leaves no fraction. -/
def shift (d : Decimal) (exponent : Nat) : Except DecimalFault Decimal :=
  if maxScale < exponent then .error (.scale exponent)
  else (ofParts? (d.mantissa * Nat.pow 10 (exponent - d.scale)) 0).elim (.error .tooLarge) .ok

/-- Read the scientific form: a base, `e` or `E`, and an exponent with an optional sign. -/
def ofScientific (text : List Char) : Except DecimalFault Decimal :=
  let isMark (c : Char) : Bool := c = 'e' || c = 'E'
  match text.dropWhile fun c => !isMark c with
  | [] => .error .malformed
  | _ :: exponent => do
    let base ← ofText .rounded (text.takeWhile fun c => !isMark c)
    match exponent with
    | '-' :: ds =>
      match readNatural 32 ds with
      | .error _ => .error .malformed
      | .ok n => if maxScale < n then .error (.scale n) else base.withScale (base.scale + n)
    | ds =>
      match readNatural 32 ds with
      | .error _ => .error .malformed
      | .ok n => if n ≤ base.scale then base.withScale (base.scale - n) else base.shift n

/-- Read a decimal in either form. -/
def ofString (s : String) : Except DecimalFault Decimal :=
  match ofText .exact s.toList with
  | .ok d => .ok d
  | .error _ => ofScientific s.toList

/-- The decimal that the shortest text of a double denotes. -/
def ofDouble (x : Double) : Except DecimalFault Decimal :=
  ofText .exact x.plain.toList

/-! ### Conversion to other numbers -/

/-- The integer that the decimal is, if it has no fraction. -/
def toInt? (d : Decimal) : Option Int :=
  let unit := Nat.pow 10 d.scale
  if d.mantissa.natAbs % unit = 0 then some (d.mantissa / unit) else none

/-- A nearby double. The whole part and the fraction are converted on their own and added; the sum
is then rounded to the scale. -/
def toDouble (d : Decimal) : Double :=
  let m := d.mantissa.natAbs
  let magnitude : Double :=
    if d.scale = 0 then .ofNat m
    else
      let unit := Nat.pow 10 d.scale
      let whole := Double.ofNat (m / unit)
      let fraction := (Double.ofNat (m % unit)).div (.ofNat unit)
      if fraction.isZero then whole
      else
        let grid := (Double.ofNat 10).pow d.scale
        ((whole.add fraction).mul grid).round.div grid
  { magnitude with negative := d.mantissa < 0 }

/-- The double near the decimal, if its shortest text reads back as the decimal. -/
def exactDouble? (d : Decimal) : Option Double :=
  match ofText .rounded d.toDouble.plain.toList with
  | .ok back => if back.same d then some d.toDouble else none
  | .error _ => none

theorem same_refl (d : Decimal) : d.same d := by simp [same]

end Decimal

end EntityModel
