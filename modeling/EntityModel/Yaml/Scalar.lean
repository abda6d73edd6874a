import EntityModel.Text.Hex
import EntityModel.Yaml.Glyph

/-!
# YAML scalars

A scalar is plain, in quotes, or a block. In a plain or quoted scalar a line break between words is
a space, and of several one after the other the first is dropped; blanks around them are dropped. A
plain scalar goes on only on lines that are indented enough. A block has its own lines: a literal
one keeps their breaks, a folded one joins the lines that start with no blank.
-/

namespace EntityModel.Yaml

/-- What separates two words of a scalar. -/
inductive Gap where
  /-- Spaces and tabs on a line, perhaps none. -/
  | blanks (chars : List Char)
  /-- Line breaks: the first, unless it is escaped, and the others. -/
  | breaks (first : Option Char) (others : List Char)
deriving DecidableEq, Repr

namespace Gap

/-- Whether there is a line break. -/
def isBroken : Gap → Bool
  | .blanks _ => false
  | .breaks _ _ => true

/-- Whether there is nothing. -/
def isEmpty : Gap → Bool
  | .blanks chars => chars.isEmpty
  | .breaks _ _ => false

/-- Extend by a blank or a line break. Blanks before and after a line break are dropped. -/
def add (c : Char) : Gap → Gap
  | .blanks chars => if isBreak c then .breaks (some c) [] else .blanks (chars ++ [c])
  | .breaks first others =>
    if isBreak c then .breaks first (others ++ [c]) else .breaks first others

/-- The text that stands for it. -/
def text : Gap → List Char
  | .blanks chars => chars
  | .breaks (some '\n') [] => [' ']
  | .breaks (some '\n') others => others
  | .breaks first others => first.toList ++ others

end Gap

/-- A scalar that was read: its text, whether a line break follows, and what is left. -/
structure Scanned where
  text : List Char
  broken : Bool
  rest : List Glyph
deriving Repr

/-! ### Plain scalars -/

/-- The marks of flow collections. -/
def isFlowMark (c : Char) : Bool :=
  c = ',' || c = '[' || c = ']' || c = '{' || c = '}'

/-- The characters that start something else than a plain scalar. -/
def isIndicator (c : Char) : Bool :=
  isFlowMark c || "-?:#&*!|>'\"%@".toList.contains c || c.toNat = 0x60

/-- Whether a plain scalar starts here. -/
def startsPlain (flow : Bool) : List Glyph → Bool
  | [] => false
  | g :: gs =>
    if g.char = '-' then !startsBlank gs
    else if g.char = '?' || g.char = ':' then !flow && !startsBlank gs
    else !isGap g.char && !isIndicator g.char

/-- Read a plain scalar on; the text before is in reverse. In block style it ends where a line is
not indented by `least`; in a flow collection a colon must not stand before a mark. -/
def plainFrom (flow : Bool) (least : Nat) : List Char → Gap → List Glyph → Option Scanned
  | text, gap, [] => some ⟨text.reverse, gap.isBroken, []⟩
  | text, gap, g :: gs =>
    let ended : Option Scanned := some ⟨text.reverse, gap.isBroken, g :: gs⟩
    if isGap g.char || isBreak g.char then
      if gap.isBroken && g.char = '\t' && g.column < least then none
      else plainFrom flow least text (gap.add g.char) gs
    else if !gap.isEmpty &&
        (g.char = '#' || startsBoundary (g :: gs) || (!flow && g.column < least)) then ended
    else if flow && g.char = ':' &&
        gs.head?.any fun h => isFlowMark h.char || h.char = '?' then none
    else if (g.char = ':' && startsBlank gs) || (flow && isFlowMark g.char) then ended
    else plainFrom flow least (g.char :: (gap.text.reverse ++ text)) (.blanks []) gs

/-- Read a plain scalar. -/
def plain (flow : Bool) (least : Nat) (gs : List Glyph) : Option Scanned :=
  plainFrom flow least [] (.blanks []) gs

/-! ### Quoted scalars -/

/-- The character of an escape of one letter. -/
def escape? (c : Char) : Option Char :=
  match c with
  | '0' => some (Char.ofNat 0)
  | 'a' => some (Char.ofNat 7)
  | 'b' => some (Char.ofNat 8)
  | 't' => some '\t'
  | '\t' => some '\t'
  | 'n' => some '\n'
  | 'v' => some (Char.ofNat 11)
  | 'f' => some (Char.ofNat 12)
  | 'r' => some '\r'
  | 'e' => some (Char.ofNat 27)
  | ' ' => some ' '
  | '"' => some '"'
  | '/' => some '/'
  | '\\' => some '\\'
  | 'N' => some (Char.ofNat 0x85)
  | '_' => some (Char.ofNat 0xA0)
  | 'L' => some (Char.ofNat 0x2028)
  | 'P' => some (Char.ofNat 0x2029)
  | _ => none

/-- How many hexadecimal digits follow the letter of an escape. -/
def codeLength? (c : Char) : Option Nat :=
  if c = 'x' then some 2 else if c = 'u' then some 4 else if c = 'U' then some 8 else none

/-- The character of the given number of hexadecimal digits. -/
def codeChar? (length : Nat) (gs : List Glyph) : Option Char :=
  let digits := (gs.take length).map Glyph.char
  if digits.length = length then
    (hexNumber? digits).bind fun n => if n.isValidChar then some (Char.ofNat n) else none
  else none

/-- Read a quoted scalar on; `skip` glyphs are read already and the text before is in reverse.
Between single quotes a quote is written twice, between double ones a backslash starts an escape. -/
def quotedFrom (double : Bool) : Nat → List Char → Gap → List Glyph → Option Scanned
  | _, _, _, [] => none
  | skip + 1, text, gap, _ :: gs => quotedFrom double skip text gap gs
  | 0, text, gap, g :: gs =>
    let joined := gap.text.reverse ++ text
    if startsBoundary (g :: gs) then none
    else if isGap g.char || isBreak g.char then quotedFrom double 0 text (gap.add g.char) gs
    else if !double && g.char = '\'' && gs.head?.any fun h => h.char = '\'' then
      quotedFrom double 1 ('\'' :: joined) (.blanks []) gs
    else if g.char = if double then '"' else '\'' then some ⟨joined.reverse, false, gs⟩
    else if double && g.char = '\\' then
      match gs with
      | [] => none
      | h :: hs =>
        if isBreak h.char then quotedFrom double 0 joined (.breaks none []) hs
        else
          match escape? h.char, codeLength? h.char with
          | some c, _ => quotedFrom double 0 (c :: joined) (.blanks []) hs
          | none, none => none
          | none, some n =>
            match codeChar? n hs with
            | some c => quotedFrom double n (c :: joined) (.blanks []) hs
            | none => none
    else quotedFrom double 0 (g.char :: joined) (.blanks []) gs

/-- Read a quoted scalar after its opening quote. -/
def quoted (double : Bool) (gs : List Glyph) : Option Scanned :=
  quotedFrom double 0 [] (.blanks []) gs

/-! ### Blocks -/

/-- What becomes of the line breaks at the end of a block. -/
inductive Chomping where
  /-- None is kept. -/
  | strip
  /-- One is kept. -/
  | clip
  /-- All are kept. -/
  | keep
deriving DecidableEq, Repr

/-- The chomping that a sign asks for. -/
def chomping? (g : Glyph) : Option Chomping :=
  if g.char = '-' then some .strip else if g.char = '+' then some .keep else none

/-- The indentation that a digit gives. -/
def indentation? (g : Glyph) : Option Nat :=
  if '1' ≤ g.char ∧ g.char ≤ '9' then some (g.char.toNat - '0'.toNat) else none

/-- The chomping and the indentation at the head of a block, in either order, and what follows. -/
def blockMarks (gs : List Glyph) : Option Chomping × Option Nat × List Glyph :=
  match gs.head?.bind chomping?, gs.head?.bind indentation? with
  | some c, _ =>
    match (gs.drop 1).head?.bind indentation? with
    | some n => (some c, some n, gs.drop 2)
    | none => (some c, none, gs.drop 1)
  | none, some n =>
    match (gs.drop 1).head?.bind chomping? with
    | some c => (some c, some n, gs.drop 2)
    | none => (none, some n, gs.drop 1)
  | none, none => (none, none, gs)

/-- The lines below the head of a block, which may have a comment. -/
def belowHead? (gs : List Glyph) : Option (List Glyph) :=
  let rest := gs.dropWhile fun g => isGap g.char
  match if rest.head?.any fun g => g.char = '#' then rest.dropWhile fun g => !isBreak g.char
    else rest with
  | [] => some []
  | g :: gs => if isBreak g.char then some gs else none

/-- The indentation of lines that do not give it: that of the first one with text, or of a longer
blank one before. No tab may stand before the text. -/
def detectIndent (longest : Nat) : List Glyph → Option Nat
  | [] => some longest
  | g :: gs =>
    if g.char = ' ' then detectIndent (max longest (g.column + 1)) gs
    else if g.char = '\t' then none
    else if isBreak g.char then detectIndent longest gs
    else some longest

/-- A block that is being read. -/
structure Block where
  /-- The text before, in reverse. -/
  text : List Char := []
  /-- The line break after the last line with text. -/
  first : Option Char := none
  /-- The line breaks after that one. -/
  others : List Char := []
  /-- Whether the reader is inside a line. -/
  inside : Bool := false
  /-- Whether the last line with text starts with a blank. -/
  blank : Bool := false
deriving Repr

namespace Block

/-- Start a line with a character. -/
def startLine (b : Block) (literal : Bool) (c : Char) : Block :=
  let joint :=
    if !literal && b.first = some '\n' && !b.blank && !isGap c then
      if b.others.isEmpty then [' '] else b.others
    else b.first.toList ++ b.others
  { text := c :: (joint.reverse ++ b.text), inside := true, blank := isGap c }

/-- The text of a block that ends. -/
def result (b : Block) (chomping : Chomping) : List Char :=
  let tail :=
    match chomping with
    | .strip => []
    | .clip => b.first.toList
    | .keep => b.first.toList ++ b.others
  b.text.reverse ++ tail

/-- Read the lines of a block of an indentation; what is left starts with a line that has less. -/
def scan (literal : Bool) (indent : Nat) : Block → List Glyph → Option (Block × List Glyph)
  | b, [] => some (b, [])
  | b, g :: gs =>
    if b.inside then
      if isBreak g.char then scan literal indent { b with inside := false, first := some g.char } gs
      else scan literal indent { b with text := g.char :: b.text } gs
    else if isBreak g.char then scan literal indent { b with others := b.others ++ [g.char] } gs
    else if indent ≤ g.column then scan literal indent (b.startLine literal g.char) gs
    else if g.char = ' ' then scan literal indent b gs
    else if g.char = '\t' then none
    else some (b, g :: gs)

end Block

/-- Read a block after its mark; `least` is the least column of what is nested here. -/
def block (literal : Bool) (least : Nat) (gs : List Glyph) : Option Scanned := do
  let (chomping, given, rest) := blockMarks gs
  let below ← belowHead? rest
  let indent ←
    match given with
    | some n => some (least - 1 + n)
    | none => (detectIndent 0 below).map fun n => max (max n least) 1
  let (b, rest) ← Block.scan literal indent {} below
  some ⟨b.result (chomping.getD .clip), true, rest⟩

end EntityModel.Yaml
