import EntityModel.Node.Scalar

/-!
# Document nodes

The common tree of JSON and YAML documents from which schemas and settings are read. A JSON value
has a type. A YAML scalar without quotes is plain: a reader that wants text takes it as it stands,
one that wants a truth value reads it as such.

A record is read from a mapping of field names, which are scalars. Fields that the record does not
know are dropped, a known field must not occur twice, and an empty plain scalar is a record without
fields. JSON also writes a record as a row: the list of its fields in order, of which the last may
be missing. Where scalars are read by what they look like, a plain number is a key too: the place of
a field in that order.
-/

namespace EntityModel

/-- A node of a document. -/
inductive Node where
  | null
  | bool (b : Bool)
  | number
  | text (s : String)
  /-- A scalar without quotes. -/
  | plain (s : String)
  | list (items : List Node)
  | mapping (entries : List (Node × Node))
deriving Repr

/-- The formats of documents. -/
inductive DocumentFormat where
  | json
  | yaml
deriving DecidableEq, Repr

namespace DocumentFormat

/-- Whether a record may be a row. -/
def hasRows : DocumentFormat → Bool
  | .json => true
  | .yaml => false

/-- How deep collections may be nested in a node, if its format does not limit that itself. -/
def maxDepth? : DocumentFormat → Option Nat
  | .json => none
  | .yaml => some 128

end DocumentFormat

namespace Node

/-! ### JSON documents -/

mutual

/-- The node of a JSON value. -/
def ofJson : Json → Node
  | .null => .null
  | .bool b => .bool b
  | .number _ => .number
  | .string s => .text s
  | .array items => .list (ofItems items)
  | .object fields => .mapping (ofFields fields)

/-- The nodes of JSON values. -/
def ofItems : List Json → List Node
  | [] => []
  | v :: vs => ofJson v :: ofItems vs

/-- The nodes of the fields of a JSON object. -/
def ofFields : List (String × Json) → List (Node × Node)
  | [] => []
  | (k, v) :: fs => (.text k, ofJson v) :: ofFields fs

end

/-! ### Measures -/

mutual

/-- Whether an integer of more than 64 bits occurs in a node. -/
def hasWideInteger : Node → Bool
  | .plain s => Plain.isWideInteger s
  | .list items => anyWideInteger items
  | .mapping entries => anyWideEntry entries
  | _ => false

/-- Whether an integer of more than 64 bits occurs in nodes. -/
def anyWideInteger : List Node → Bool
  | [] => false
  | n :: ns => hasWideInteger n || anyWideInteger ns

/-- Whether an integer of more than 64 bits occurs in keys or values. -/
def anyWideEntry : List (Node × Node) → Bool
  | [] => false
  | (k, v) :: rest => hasWideInteger k || hasWideInteger v || anyWideEntry rest

end

mutual

/-- How deep collections are nested in a node. -/
def depth : Node → Nat
  | .list items => depthOfItems items + 1
  | .mapping entries => depthOfEntries entries + 1
  | _ => 0

/-- How deep collections are nested in nodes. -/
def depthOfItems : List Node → Nat
  | [] => 0
  | n :: ns => max (depth n) (depthOfItems ns)

/-- How deep collections are nested in keys and values. -/
def depthOfEntries : List (Node × Node) → Nat
  | [] => 0
  | (k, v) :: rest => max (max (depth k) (depth v)) (depthOfEntries rest)

end

/-- Whether a node that stands below some collections can be read whatever it is: it has no integer
of more than 64 bits and is not nested too deep. -/
def isReadable (format : DocumentFormat) (above : Nat) (n : Node) : Bool :=
  !n.hasWideInteger && format.maxDepth?.all fun limit => above + n.depth ≤ limit

/-! ### Scalars and lists -/

/-- Whether a node stands for nothing. -/
def isAbsent : Node → Bool
  | .null => true
  | .plain s => Plain.isNull s
  | _ => false

/-- The text of a scalar, a plain one as it stands. -/
def text? : Node → Option String
  | .text s => some s
  | .plain s => some s
  | _ => none

/-- The text of a scalar, unless it is plain and looks like something else. -/
def typedText? : Node → Option String
  | .text s => some s
  | .plain s => if Plain.isTyped s then none else some s
  | _ => none

/-- The truth value of a scalar. -/
def bool? : Node → Option Bool
  | .bool b => some b
  | .plain s => Plain.bool? s
  | _ => none

/-- The items of a list; an empty plain scalar is the empty list. -/
def items? : Node → Option (List Node)
  | .list items => some items
  | .plain s => if s = "" then some [] else none
  | _ => none

/-- The items of a list, each read in the same way. -/
def listOf {α : Type} (read : Node → Option α) (n : Node) : Option (List α) :=
  n.items?.bind fun items => items.mapM read

end Node

/-! ### Records -/

/-- The fields of a record that are present, by name. -/
abbrev Record := List (String × Node)

namespace Record

/-- The field of a name. -/
def get? (r : Record) (name : String) : Option Node :=
  (r.find? fun f => f.1 = name).map (·.2)

/-- A field that must be present. -/
def required {α : Type} (r : Record) (name : String) (read : Node → Option α) : Option α :=
  (r.get? name).bind read

/-- A field that may be missing or null. -/
def optional {α : Type} (r : Record) (name : String) (read : Node → Option α) :
    Option (Option α) :=
  match r.get? name with
  | none => some none
  | some n => if n.isAbsent then some none else (read n).map some

/-- A field that may be missing. -/
def withDefault {α : Type} (r : Record) (name : String) (default : α) (read : Node → Option α) :
    Option α :=
  match r.get? name with
  | none => some default
  | some n => read n

/-- A way to find the field that a key names, if it is one of the known ones; a key may be
refused. -/
abbrev Naming := List String → Node → Option (Option String)

/-- Keys are texts. -/
def byText : Naming := fun names key =>
  key.text?.map fun s => names.find? (· = s)

/-- Keys are texts, or plain natural numbers below `2^64` that count the fields. -/
def byType : Naming := fun names key =>
  match key with
  | .plain s =>
    if Plain.isTyped s then (Plain.natural? s).map fun i => names[i]?
    else some (names.find? (· = s))
  | key => byText names key

/-- The fields of known names, of which none may occur twice. -/
def ofEntries? (naming : Naming) (names : List String) (entries : List (Node × Node)) :
    Option Record := do
  let fields ← entries.mapM fun (k, v) => (naming names k).map fun name? => name?.map (·, v)
  let known := fields.filterMap id
  if (known.map (·.1)).Nodup then some known else none

end Record

namespace Node

/-- The record that a mapping is. -/
def mapping? (naming : Record.Naming) (names : List String) : Node → Option Record
  | .mapping entries => Record.ofEntries? naming names entries
  | .plain s => if s = "" then some [] else none
  | _ => none

/-- The record that a row is. -/
def row? (names : List String) : Node → Option Record
  | .list items => if items.length ≤ names.length then some (names.zip items) else none
  | _ => none

/-- The record that a mapping is or, if the format has rows, a row. -/
def record? (format : DocumentFormat) (names : List String) (n : Node) : Option Record :=
  (mapping? Record.byText names n).or (if format.hasRows then row? names n else none)

/-- The record of a node that holds no other fields. -/
def closedRecord? (format : DocumentFormat) (names : List String) (n : Node) : Option Record :=
  let closed :=
    match n with
    | .mapping entries => entries.all fun (k, _) => k.text?.any names.contains
    | _ => true
  if closed then record? format names n else none

end Node

end EntityModel
