import EntityModel.Number.Integer

/-!
# Paths

A path leads into an entity: attribute names separated by points, each followed by any number of
list indices in brackets, as in `office.address[0].city`. A path keeps the text it was read from.
-/

namespace EntityModel

/-- A step of a path. -/
inductive Segment where
  | field (name : String)
  | index (i : Nat)
deriving DecidableEq, Repr

/-- A path, with its text. -/
structure Path where
  text : String
  segments : List Segment
deriving DecidableEq, Repr

/-- Why a text is not a path. -/
inductive PathFault where
  | empty
  | missingName
  | invalidName (name : String)
  | unterminatedIndex (part : String)
  | notAnIndex (index : String)
  | trailing (rest : String)
deriving DecidableEq, Repr

/-- The wording of a fault. -/
def PathFault.message : PathFault → String
  | .empty => "path is empty"
  | .missingName => "every segment must start with an attribute name"
  | .invalidName name => s!"'{name}' is not a valid attribute name"
  | .unterminatedIndex part => s!"unterminated index in '{part}'"
  | .notAnIndex index => s!"'{index}' is not a list index"
  | .trailing rest => s!"unexpected '{rest}' after index"

/-- A text that is not a path, and why. -/
structure PathError where
  path : String
  fault : PathFault
deriving DecidableEq, Repr

/-- The wording of an error. -/
def PathError.message (e : PathError) : String :=
  s!"malformed path '{e.path}': {e.fault.message}"

/-- The characters of names in paths and expressions: ASCII letters, digits and the underscore. -/
def isIdentifierChar (c : Char) : Bool :=
  c.isAlphanum || c = '_'

/-- Split characters at every occurrence of a separator. -/
def splitAt (separator : Char) : List Char → List (List Char)
  | [] => [[]]
  | c :: cs =>
    match splitAt separator cs with
    | [] => [[c]]
    | part :: parts => if c = separator then [] :: part :: parts else (c :: part) :: parts

namespace Path

/-- Indices have at most this many bits. -/
def indexBits : Nat := 64

/-- Read the indices that follow a name. -/
def readIndices (part : List Char) (rest : List Char) : Except PathFault (List Segment) :=
  match rest with
  | [] => .ok []
  | _ :: cs =>
    let inside := cs.takeWhile (· ≠ ']')
    match _h : cs.dropWhile (· ≠ ']') with
    | [] => .error (.unterminatedIndex (String.ofList part))
    | _ :: after =>
      match readNatural indexBits inside with
      | .error _ => .error (.notAnIndex (String.ofList inside))
      | .ok i =>
        match after with
        | [] => .ok [.index i]
        | c :: cs' =>
          if c = '[' then (readIndices part (c :: cs')).map (.index i :: ·)
          else .error (.trailing (String.ofList (c :: cs')))
termination_by rest.length
decreasing_by
  have hle := (List.dropWhile_suffix (l := cs) (· ≠ ']')).length_le
  rw [_h] at hle
  simp only [List.length_cons] at hle ⊢
  omega

/-- Read one part of a path: a name and its indices. -/
def readPart (part : List Char) : Except PathFault (List Segment) :=
  let name := part.takeWhile (· ≠ '[')
  if name.isEmpty then .error .missingName
  else if !name.all isIdentifierChar then .error (.invalidName (String.ofList name))
  else (readIndices part (part.drop name.length)).map (.field (String.ofList name) :: ·)

/-- Read the parts of a path, in order. -/
def readParts : List (List Char) → Except PathFault (List Segment)
  | [] => .ok []
  | part :: parts => do
    let segments ← readPart part
    let others ← readParts parts
    .ok (segments ++ others)

/-- Read a path. -/
def parse (text : String) : Except PathError Path :=
  if text = "" then .error ⟨text, .empty⟩
  else
    match readParts (splitAt '.' text.toList) with
    | .ok segments => .ok ⟨text, segments⟩
    | .error fault => .error ⟨text, fault⟩

/-- The canonical characters of segments after some text. -/
def segmentChars (started : Bool) : List Segment → List Char
  | [] => []
  | .field name :: segments =>
    (if started then ['.'] else []) ++ name.toList ++
      segmentChars (started || !name.toList.isEmpty) segments
  | .index i :: segments => '[' :: Decimals.digits i ++ ']' :: segmentChars true segments

/-- The path of segments, with its canonical text. -/
def ofSegments (segments : List Segment) : Path :=
  ⟨String.ofList (segmentChars false segments), segments⟩

/-- The name that a path starts at. -/
def root (p : Path) : String :=
  match p.segments with
  | .field name :: _ => name
  | _ => ""

end Path

end EntityModel
