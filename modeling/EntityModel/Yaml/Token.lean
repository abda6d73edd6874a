import EntityModel.Node.Basic
import EntityModel.Yaml.Scalar

/-!
# YAML tokens

The tokens of a text are its scalars and marks, and marks for the start and the end of the
collections that indentation makes. A mapping without braces starts where its first key does, which
shows only at the colon behind that key: a key has to stand on one line and to be at most 1024
characters away from its colon. Anchors, aliases, tags and directives are refused.
-/

namespace EntityModel.Yaml

/-- A token. -/
inductive Token where
  | documentStart
  | documentEnd
  /-- The start of a list of dashes. -/
  | blockList
  /-- The start of a mapping without braces. -/
  | blockMapping
  /-- The end of either. -/
  | blockEnd
  | flowList
  | flowListEnd
  | flowMapping
  | flowMappingEnd
  | dash
  | comma
  /-- What follows is a key. -/
  | key
  /-- What follows is the value of a key. -/
  | colon
  | scalar (n : Node)
deriving Repr

/-- A place where a key may start. -/
structure KeyStart where
  /-- How many tokens are before it. -/
  count : Nat
  line : Nat
  column : Nat
  /-- Whether nothing but a key may start there. -/
  required : Bool
deriving Repr

/-- How far a key may be away from its colon. -/
def KeyStart.reach : Nat := 1024

/-- Whether a colon at a glyph is too far away to follow the key. -/
def KeyStart.isPast (k : KeyStart) (g : Glyph) : Bool :=
  k.line < g.line || k.column + reach < g.column

/-- The tokens so far and what the next ones depend on. -/
structure Outline where
  /-- The tokens so far, the last one first. -/
  tokens : List Token := []
  /-- The columns of the open block collections, the innermost first. -/
  blocks : List Nat := []
  /-- Where the key of the next colon may start. -/
  keyStart : Option KeyStart := none
  /-- The same for the collections around the open flow collections, the innermost first. -/
  outer : List (Option KeyStart) := []
  /-- Whether a key may start at the next token. -/
  keyAllowed : Bool := true
deriving Repr

namespace Outline

/-- Whether a flow collection is open. -/
def inFlow (o : Outline) : Bool :=
  !o.outer.isEmpty

/-- The least column of what is nested in the innermost block collection. -/
def least (o : Outline) : Nat :=
  match o.blocks with
  | [] => 0
  | column :: _ => column + 1

/-- Add a token. -/
def push (o : Outline) (t : Token) : Outline :=
  { o with tokens := t :: o.tokens }

/-! ### Block collections -/

/-- Open a block collection in a column, unless it is open there. -/
def openBlock (o : Outline) (column : Nat) (t : Token) : Outline :=
  if !o.inFlow && o.least ≤ column then { o.push t with blocks := column :: o.blocks } else o

/-- End the block collections that are in a column on the right of the given one. -/
def closeRight (o : Outline) (column : Nat) : Outline :=
  if o.inFlow then o
  else
    let closed := o.blocks.takeWhile fun c => column < c
    { o with
      tokens := closed.map (fun _ => .blockEnd) ++ o.tokens
      blocks := o.blocks.drop closed.length }

/-- End all block collections. -/
def closeAll (o : Outline) : Outline :=
  if o.inFlow then o
  else { o with tokens := o.blocks.map (fun _ => .blockEnd) ++ o.tokens, blocks := [] }

/-! ### Keys -/

/-- Drop the places of keys that a colon at a glyph would be too far away from, unless a key is
required there. -/
def dropPast (o : Outline) (g : Glyph) : Option Outline :=
  let isPast (k : Option KeyStart) : Bool := k.any fun k => k.isPast g
  let isLost (k : Option KeyStart) : Bool := k.any fun k => k.isPast g && k.required
  if isLost o.keyStart || o.outer.any isLost then none
  else
    some { o with
      keyStart := if isPast o.keyStart then none else o.keyStart
      outer := o.outer.map fun k => if isPast k then none else k }

/-- Drop the place of a key, unless a key is required there. -/
def dropKey (o : Outline) : Option Outline :=
  if o.keyStart.any KeyStart.required then none else some { o with keyStart := none }

/-- Remember that a key may start at a glyph, if it may. -/
def saveKey (o : Outline) (g : Glyph) : Option Outline :=
  if o.keyAllowed then
    o.dropKey.map fun o =>
      { o with
        keyStart :=
          some ⟨o.tokens.length, g.line, g.column, !o.inFlow && o.blocks.head? = some g.column⟩ }
  else some o

/-! ### Marks -/

/-- A mark that separates documents. -/
def boundary (o : Outline) (t : Token) : Option Outline :=
  o.closeAll.dropKey.map fun o => { o with keyAllowed := false }.push t

/-- The opening of a flow collection. -/
def openFlow (o : Outline) (g : Glyph) (t : Token) : Option Outline :=
  (o.saveKey g).map fun o =>
    { o with keyStart := none, outer := o.keyStart :: o.outer, keyAllowed := true }.push t

/-- The closing of a flow collection. -/
def closeFlow (o : Outline) (t : Token) : Option Outline :=
  o.dropKey.map fun o =>
    { o with
      keyStart := o.outer.head?.getD o.keyStart
      outer := o.outer.drop 1
      keyAllowed := false }.push t

/-- A comma of a flow collection. -/
def comma (o : Outline) : Option Outline :=
  o.dropKey.map fun o => { o with keyAllowed := true }.push .comma

/-- The dash before an item. -/
def dash (o : Outline) (g : Glyph) : Option Outline :=
  if o.inFlow || o.keyAllowed then
    (o.openBlock g.column .blockList).dropKey.map fun o =>
      { o with keyAllowed := true }.push .dash
  else none

/-- The question mark before a key. -/
def question (o : Outline) (g : Glyph) : Option Outline :=
  if o.inFlow || o.keyAllowed then
    (o.openBlock g.column .blockMapping).dropKey.map fun o =>
      { o with keyAllowed := !o.inFlow }.push .key
  else none

/-- The colon before a value. A key that started before is marked as such now. -/
def colon (o : Outline) (g : Glyph) : Option Outline :=
  match o.keyStart with
  | some k =>
    let opens := !o.inFlow && o.least ≤ k.column
    let after := o.tokens.length - k.count
    some { o with
      tokens :=
        .colon :: o.tokens.take after ++ .key ::
          (if opens then [.blockMapping] else []) ++ o.tokens.drop after
      blocks := if opens then k.column :: o.blocks else o.blocks
      keyStart := none
      keyAllowed := false }
  | none =>
    if o.inFlow then some ({ o with keyAllowed := false }.push .colon)
    else if o.keyAllowed then some ((o.openBlock g.column .blockMapping).push .colon)
    else none

/-! ### Scalars -/

/-- Add a scalar that may be a key; one that is followed by a line break may be followed by a
key. -/
def addScalar (o : Outline) (g : Glyph) (node : String → Node) (scanned : Option Scanned) :
    Option (Outline × List Glyph) := do
  let o ← o.saveKey g
  let s ← scanned
  some ({ o with keyAllowed := s.broken }.push (.scalar (node (String.ofList s.text))), s.rest)

/-- Add a block, which is no key. -/
def addBlock (o : Outline) (scanned : Option Scanned) : Option (Outline × List Glyph) := do
  let o ← o.dropKey
  let s ← scanned
  some ({ o with keyAllowed := true }.push (.scalar (.text (String.ofList s.text))), s.rest)

/-! ### Reading -/

/-- Skip blanks, comments, line ends and a byte order mark at the start of a line. A new line in
block style may start with a key; tabs may stand only where no key may start. -/
def seek (flow : Bool) : Bool → Bool → List Glyph → Bool × List Glyph
  | _, keyAllowed, [] => (keyAllowed, [])
  | comment, keyAllowed, g :: gs =>
    if isBreak g.char then seek flow false (keyAllowed || !flow) gs
    else if comment || g.char = '#' then seek flow true keyAllowed gs
    else if g.char = ' ' || (g.char = '\t' && (flow || !keyAllowed)) ||
        (g.column = 0 && g.char.toNat = 0xFEFF) then seek flow false keyAllowed gs
    else (keyAllowed, g :: gs)

/-- Read the token that starts with a glyph. -/
def next (o : Outline) (g : Glyph) (gs : List Glyph) : Option (Outline × List Glyph) :=
  let mark (o : Option Outline) : Option (Outline × List Glyph) := o.map (·, gs)
  let c := g.char
  if g.column = 0 && c = '%' then none
  else if startsRule '-' (g :: gs) then (o.boundary .documentStart).map (·, gs.drop 2)
  else if startsRule '.' (g :: gs) then (o.boundary .documentEnd).map (·, gs.drop 2)
  else if c = '[' then mark (o.openFlow g .flowList)
  else if c = '{' then mark (o.openFlow g .flowMapping)
  else if c = ']' then mark (o.closeFlow .flowListEnd)
  else if c = '}' then mark (o.closeFlow .flowMappingEnd)
  else if c = ',' then mark o.comma
  else if c = '-' && startsBlank gs then mark (o.dash g)
  else if c = '?' && (o.inFlow || startsBlank gs) then mark (o.question g)
  else if c = ':' && (o.inFlow || startsBlank gs) then mark (o.colon g)
  else if c = '|' && !o.inFlow then o.addBlock (block true o.least gs)
  else if c = '>' && !o.inFlow then o.addBlock (block false o.least gs)
  else if c = '\'' then o.addScalar g .text (quoted false gs)
  else if c = '"' then o.addScalar g .text (quoted true gs)
  else if startsPlain o.inFlow (g :: gs) then
    o.addScalar g .plain (plain o.inFlow o.least (g :: gs))
  else none

/-- The tokens of a text that ends. -/
def finish (o : Outline) : Option (List Token) :=
  o.closeAll.dropKey.map fun o => o.tokens.reverse

/-- Read tokens up to the end; `fuel` bounds their number. -/
def scan : Nat → Outline → List Glyph → Option (List Token)
  | 0, _, _ => none
  | fuel + 1, o, gs =>
    match seek o.inFlow false o.keyAllowed gs with
    | (keyAllowed, []) => { o with keyAllowed }.finish
    | (keyAllowed, g :: gs) => do
      let o ← { o with keyAllowed }.dropPast g
      let (o, gs) ← (o.closeRight g.column).next g gs
      scan fuel o gs

end Outline

/-- The tokens of a text. -/
def tokens? (text : String) : Option (List Token) :=
  (glyphs? text).bind fun gs => Outline.scan (gs.length + 1) {} gs

end EntityModel.Yaml
