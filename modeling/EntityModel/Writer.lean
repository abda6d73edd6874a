import EntityModel.Json.Printer
import EntityModel.Value

/-!
# Writing entities

Entities are written in their generic form, one to a line or as a JSON array, which may be indented.
The output is made of pieces: records, each the compact text of an entity, and the frame around
them, to which indented entities belong as well. A sink that is full takes the bytes it has room for
and refuses the rest; the piece of the first byte refused tells the kind of the failure.
-/

namespace EntityModel

/-- The layouts of the output. -/
inductive Layout where
  /-- One entity to a line. -/
  | lines
  /-- A compact array. -/
  | array
  /-- An indented array. -/
  | pretty
deriving DecidableEq, Repr

/-- A piece of the output. -/
structure Piece where
  isRecord : Bool
  chars : List Char
deriving DecidableEq, Repr

namespace Piece

/-- A record. -/
def record (e : Entity) : Piece :=
  ⟨true, e.toJson.chars⟩

/-- A piece of the frame. -/
def frame (chars : List Char) : Piece :=
  ⟨false, chars⟩

/-- The bytes of a piece. -/
def bytes (p : Piece) : List UInt8 :=
  p.chars.flatMap String.utf8EncodeChar

end Piece

/-- Move the lines of a text, but for the first one, two columns to the right. -/
def shiftLines (cs : List Char) : List Char :=
  cs.flatMap fun c => if c = '\n' then ['\n', ' ', ' '] else [c]

/-! ### Arrays -/

/-- A writer of an array that is open: whether it indents, whether it still waits for the first
entity, and the pieces that it has written. -/
structure ArrayWriter where
  isPretty : Bool
  isFirst : Bool
  written : List Piece
deriving DecidableEq, Repr

namespace ArrayWriter

/-- Open an array. -/
def new (isPretty : Bool) : ArrayWriter :=
  ⟨isPretty, true, [.frame ['[']]⟩

/-- The piece of an entity. -/
def entityPiece (isPretty : Bool) (e : Entity) : Piece :=
  if isPretty then .frame (['\n', ' ', ' '] ++ shiftLines (e.toJson.indented 0)) else .record e

/-- Write an entity, after a comma unless it is the first one. -/
def write (w : ArrayWriter) (e : Entity) : ArrayWriter :=
  let comma : List Piece := if w.isFirst then [] else [.frame [',']]
  { w with isFirst := false, written := w.written ++ comma ++ [entityPiece w.isPretty e] }

/-- Close the array; what is written is complete. -/
def finish (w : ArrayWriter) : List Piece :=
  let last : List Piece := if w.isPretty && !w.isFirst then [.frame ['\n']] else []
  w.written ++ last ++ [.frame [']', '\n']]

end ArrayWriter

/-! ### Layouts -/

namespace Layout

/-- The pieces of entities in a layout. -/
def pieces (layout : Layout) (es : List Entity) : List Piece :=
  match layout with
  | .lines => es.flatMap fun e => [.record e, .frame ['\n']]
  | .array => (es.foldl ArrayWriter.write (.new false)).finish
  | .pretty => (es.foldl ArrayWriter.write (.new true)).finish

/-- The output for entities. -/
def chars (layout : Layout) (es : List Entity) : List Char :=
  (layout.pieces es).flatMap Piece.chars

/-- The text of the output for entities. -/
def text (layout : Layout) (es : List Entity) : String :=
  String.ofList (layout.chars es)

end Layout

/-! ### Sinks of limited size -/

/-- Why writing fails: within a record, or elsewhere. -/
inductive WriteError where
  | json (reason : String)
  | io (reason : String)
deriving DecidableEq, Repr

/-- The wording of an error. -/
def WriteError.message : WriteError → String
  | .json reason => s!"JSON error: {reason}"
  | .io reason => s!"IO error: {reason}"

/-- What a sink has taken, and the failure that ended the writing. -/
structure Delivery where
  written : List UInt8
  error : Option WriteError
deriving DecidableEq, Repr

/-- The failure of a sink within a piece. -/
def Piece.failure (p : Piece) (reason : String) : WriteError :=
  if p.isRecord then .json reason else .io reason

/-- Deliver pieces to a sink that takes so many bytes and then fails for a reason. -/
def deliver (reason : String) : Nat → List Piece → Delivery
  | _, [] => ⟨[], none⟩
  | limit, p :: ps =>
    if p.bytes.length ≤ limit then
      let rest := deliver reason (limit - p.bytes.length) ps
      ⟨p.bytes ++ rest.written, rest.error⟩
    else ⟨p.bytes.take limit, some (p.failure reason)⟩

end EntityModel
