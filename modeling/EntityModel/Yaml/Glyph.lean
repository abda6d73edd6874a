/-!
# Characters of YAML text

YAML tells nesting by columns, so a text is read as glyphs: characters that know the line and the
column in which they stand. A line ends with a line feed, a carriage return, both, or a next-line
character, which all count as a line feed, or with a line or paragraph separator.
-/

namespace EntityModel.Yaml

/-- A character and its place. -/
structure Glyph where
  char : Char
  line : Nat
  column : Nat
deriving DecidableEq, Repr

/-- Whether a character ends a line. -/
def isBreak (c : Char) : Bool :=
  c = '\n' || c.toNat = 0x2028 || c.toNat = 0x2029

/-- Spaces and tabs. -/
def isGap (c : Char) : Bool :=
  c = ' ' || c = '\t'

/-- Whether a character may stand in a text. -/
def isPrintable (c : Char) : Bool :=
  let n := c.toNat
  n = 0x09 || n = 0x0A || n = 0x0D || (0x20 ≤ n && n ≤ 0x7E) || n = 0x85 ||
    (0xA0 ≤ n && n ≤ 0xFFFD) || 0x10000 ≤ n

/-- The text with a line feed for every line end but the separators. -/
def unifyBreaks : List Char → List Char
  | [] => []
  | '\r' :: '\n' :: cs => '\n' :: unifyBreaks cs
  | c :: cs => (if c = '\r' || c.toNat = 0x85 then '\n' else c) :: unifyBreaks cs

/-- Give characters their places, starting at the given one. -/
def place (line column : Nat) : List Char → List Glyph
  | [] => []
  | c :: cs =>
    ⟨c, line, column⟩ :: if isBreak c then place (line + 1) 0 cs else place line (column + 1) cs

/-- The glyphs of a text, if it holds printable characters only. -/
def glyphs? (text : String) : Option (List Glyph) :=
  let cs := text.toList
  if cs.all isPrintable then some (place 0 0 (unifyBreaks cs)) else none

/-! ### What glyphs start with -/

/-- Whether glyphs start with a blank or a line end, or are at their end. -/
def startsBlank : List Glyph → Bool
  | [] => true
  | g :: _ => isGap g.char || isBreak g.char

/-- Whether glyphs are the start of a line that has a character three times and then a blank. -/
def startsRule (c : Char) : List Glyph → Bool
  | g :: h :: i :: rest =>
    g.column = 0 && g.char = c && h.char = c && i.char = c && startsBlank rest
  | _ => false

/-- Whether a document starts or ends here. -/
def startsBoundary (gs : List Glyph) : Bool :=
  startsRule '-' gs || startsRule '.' gs

end EntityModel.Yaml
