import EntityModel.Text.Hex

/-!
# Identifiers

A universally unique identifier is a number of 128 bits. It is written as 32 hexadecimal digits
in lower case with hyphens after the digits 8, 12, 16 and 20. It is read with or without the
hyphens, with them also in braces or after the label `urn:uuid:`; letters count in either case.
-/

namespace EntityModel

/-- An identifier of 128 bits. -/
structure Uuid where
  bits : BitVec 128
deriving DecidableEq, Repr

namespace Uuid

/-- The lengths of the groups of digits. -/
def groups : List Nat := [8, 4, 4, 4, 12]

/-- The identifier of 32 hexadecimal digits. -/
def ofDigits? (cs : List Char) : Option Uuid :=
  if cs.length = 32 then (hexNumber? cs).map fun n => ⟨BitVec.ofNat 128 n⟩ else none

/-- Take the hyphens out of a text in groups of the given lengths. -/
def ungroup? : List Nat → List Char → Option (List Char)
  | [], cs => if cs.isEmpty then some [] else none
  | [n], cs => if cs.length = n then some cs else none
  | n :: ns, cs =>
    match cs.drop n with
    | '-' :: rest => (ungroup? ns rest).map (cs.take n ++ ·)
    | _ => none

/-- Join groups of digits of the given lengths by hyphens. -/
def group : List Nat → List Char → List Char
  | [], cs => cs
  | [_], cs => cs
  | n :: ns, cs => cs.take n ++ '-' :: group ns (cs.drop n)

/-- The identifier of a text with hyphens. -/
def ofHyphenated? (cs : List Char) : Option Uuid :=
  (ungroup? groups cs).bind ofDigits?

/-- The label that may stand before an identifier. -/
def label : List Char := "urn:uuid:".toList

/-- Take a label off a text; its letters may have either case. -/
def unlabel? (cs : List Char) : Option (List Char) :=
  if (cs.take label.length).map Char.toLower = label then some (cs.drop label.length) else none

/-- Read an identifier in any of its forms. -/
def ofText? (s : String) : Option Uuid :=
  match s.toList with
  | '{' :: cs => if cs.getLast? = some '}' then ofHyphenated? cs.dropLast else none
  | cs =>
    match unlabel? cs with
    | some rest => ofHyphenated? rest
    | none => if cs.length = 32 then ofDigits? cs else ofHyphenated? cs

/-- The digits of an identifier. -/
def digits (u : Uuid) : List Char :=
  let ds := Nat.toDigits 16 u.bits.toNat
  List.replicate (32 - ds.length) '0' ++ ds

/-- The text of an identifier. -/
def text (u : Uuid) : String :=
  String.ofList (group groups u.digits)

end Uuid

end EntityModel
