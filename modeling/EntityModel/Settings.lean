import EntityModel.Json.Basic
import EntityModel.Node.Basic

/-!
# Settings

Where schema documents are found, how entities are written and what is logged. Settings come from a
document, whose every field has a default and which must not hold any other. Overrides, as the
environment gives them, win over the document unless they are empty.
-/

namespace EntityModel

/-- The settings of the program. -/
structure Settings where
  /-- The directory of the schema documents. -/
  directory : String := "config/schemas"
  /-- Whether entities are written as an indented array. -/
  pretty : Bool := false
  /-- What is logged. -/
  logFilter : String := "info"
deriving DecidableEq, Repr

/-- Values from the environment that replace settings. -/
structure Overrides where
  directory : Option String := none
  logFilter : Option String := none
deriving DecidableEq, Repr

namespace Settings

/-- A setting, or the override of it that is not empty. -/
def choose (setting : String) (override : Option String) : String :=
  match override with
  | some s => if s = "" then setting else s
  | none => setting

/-- Settings with overrides. -/
def override (s : Settings) (o : Overrides) : Settings :=
  { s with
    directory := choose s.directory o.directory
    logFilter := choose s.logFilter o.logFilter }

/-- Read the section on schemas: the directory. -/
def directoryOf? (format : DocumentFormat) (n : Node) : Option String := do
  let r ← n.closedRecord? format ["directory"]
  r.withDefault "directory" ({} : Settings).directory Node.text?

/-- Read the section on the output: whether it is indented. -/
def prettyOf? (format : DocumentFormat) (n : Node) : Option Bool := do
  let r ← n.closedRecord? format ["pretty"]
  r.withDefault "pretty" ({} : Settings).pretty Node.bool?

/-- Read settings. -/
def ofNode? (format : DocumentFormat) (n : Node) : Option Settings := do
  let default : Settings := {}
  let r ← n.closedRecord? format ["schemas", "output", "log_filter"]
  let directory ← r.withDefault "schemas" default.directory (directoryOf? format)
  let pretty ← r.withDefault "output" default.pretty (prettyOf? format)
  let logFilter ← r.withDefault "log_filter" default.logFilter Node.text?
  some ⟨directory, pretty, logFilter⟩

/-- The settings that a JSON value shows. -/
def ofJson? (v : Json) : Option Settings :=
  ofNode? .json (.ofJson v)

/-- The JSON form of settings. -/
def toJson (s : Settings) : Json :=
  .object
    [("log_filter", .string s.logFilter),
      ("output", .object [("pretty", .bool s.pretty)]),
      ("schemas", .object [("directory", .string s.directory)])]

end Settings

end EntityModel
