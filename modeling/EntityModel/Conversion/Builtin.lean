import EntityModel.Conversion.Basic

/-!
# Builtin conversions

Numbers become decimals, strings become any kind but documents, and objects become document
references. The empty string is null. A string that is no boolean or no date becomes null with a
warning, and so does an object without the identifier of a document; whatever else cannot be
converted is an error. A number becomes the decimal of its shortest text, never a rounded one.
-/

namespace EntityModel

namespace Converter

/-- Convert a string; the empty one is null. -/
def ofString (f : String → Logged ConversionError Value) : Converter
  | .string s => if s = "" then pure .null else f s
  | _ => pure .null

/-- The decimal of a double, written with as few digits as tell it from other doubles. -/
def decimalOfDouble (x : Double) : Except ConversionError Value :=
  match Decimal.ofDouble x with
  | .ok d => .ok (.decimal d)
  | .error fault =>
    .error (.invalidValue (Json.number (.double x)).compact .decimal (.decimal fault))

/-- The decimal of an integer of 64 bits. -/
def decimalOfInteger (n : Int) : Except ConversionError Value :=
  match Decimal.ofParts? n 0 with
  | some d => .ok (.decimal d)
  | none => .error (.invalidValue n.repr .decimal (.decimal .tooLarge))

/-- The decimal of a number. -/
def numberToDecimal : Converter
  | .number (.integer n) => .ofExcept (decimalOfInteger n)
  | .number (.double x) => .ofExcept (decimalOfDouble x)
  | v => .fail (.invalidValue v.compact .decimal .notANumber)

/-- The decimal of a text, plain or in the scientific form. -/
def stringToDecimal : Converter :=
  ofString fun s =>
    match Decimal.ofString s with
    | .ok d => pure (.decimal d)
    | .error fault => .fail (.invalidValue s .decimal (.decimal fault))

/-- The integer of a text. -/
def stringToInteger : Converter :=
  ofString fun s =>
    match readInt64 s.toList with
    | .ok n => pure (.integer n)
    | .error fault => .fail (.invalidValue s .integer (.integer fault))

/-- The truth value of a word, in any case of the letters. -/
def truthOf? (s : String) : Option Bool :=
  let word := String.ofList (s.toList.map Char.toLower)
  if word = "true" || word = "yes" then some true
  else if word = "false" || word = "no" then some false
  else none

/-- The truth value of a text. -/
def stringToBoolean : Converter :=
  ofString fun s =>
    match truthOf? s with
    | some b => pure (.boolean b)
    | none => do
      .report .warn s!"Cannot read '{s}' as a boolean, using null"
      pure .null

/-- The date of a text. -/
def stringToDate : Converter :=
  ofString fun s =>
    match Date.ofText? s with
    | some d => pure (.date d)
    | none => do
      .report .warn s!"Cannot read '{s}' as a date, using null"
      pure .null

/-- The time of a text. -/
def stringToTime : Converter :=
  ofString fun s =>
    match Time.ofText s with
    | .ok t => pure (.time t)
    | .error fault => .fail (.invalidValue s .time (.time fault))

/-- The document reference of an object. -/
def objectToDocument : Converter := fun v =>
  match ((v.field? "documentId").bind Json.text?).bind Uuid.ofText? with
  | some id => pure (.document ⟨id, (v.field? "filename").bind Json.text?⟩)
  | none => do
    .report .error s!"Document reference without a valid documentId: {v.compact}"
    pure .null

end Converter

/-- The builtin rules. -/
def Conversions.builtin : Conversions :=
  ⟨[⟨.number, .decimal, Converter.numberToDecimal⟩,
    ⟨.string, .decimal, Converter.stringToDecimal⟩,
    ⟨.string, .integer, Converter.stringToInteger⟩,
    ⟨.string, .boolean, Converter.stringToBoolean⟩,
    ⟨.string, .date, Converter.stringToDate⟩,
    ⟨.string, .time, Converter.stringToTime⟩,
    ⟨.object, .document, Converter.objectToDocument⟩]⟩

end EntityModel
