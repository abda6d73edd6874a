import EntityModel.Entity.Read
import EntityModel.Json.Reader
import EntityModel.Registry
import EntityModel.Writer

/-!
# Commands

The command line validates the schemas of a directory, converts records to entities, or shows the
computed attributes of entities. A command is a function of the files it sees: it reports events and
yields an exit status and what it writes. Conversion writes all records or nothing.
-/

namespace EntityModel

/-- What entities are read from. -/
structure Source where
  /-- The directory of the schemas, if it is not the one in the settings. -/
  directory : Option String := none
  schemaKey : String
  /-- The path of the JSON document, a record or an array of records. -/
  input : String
deriving DecidableEq, Repr

/-- What the command line can do. -/
inductive Command where
  /-- Check that the schemas of a directory refer to one another only. -/
  | validate (directory : Option String)
  /-- Write entities in their generic form. -/
  | convert (source : Source) (pretty : Bool)
  /-- Show the computed attributes of entities. -/
  | eval (source : Source)
deriving DecidableEq, Repr

/-- A command with the path of the settings, if there is one. -/
structure Invocation where
  config : Option String := none
  command : Command
deriving DecidableEq, Repr

/-- What a command leaves behind. -/
structure Outcome where
  exit : Nat
  out : String
  /-- What is written to standard error, beside what logging writes there. -/
  err : String
deriving DecidableEq, Repr

/-- A run of a command. -/
structure CommandRun where
  /-- The events for logging, which writes those that pass its filter to standard error. -/
  events : List Event
  outcome : Outcome
deriving DecidableEq, Repr

/-! ### Errors -/

/-- Why a command fails; the reasons are those of the system and of the parsers. -/
inductive CommandError where
  | unreadableSettings (path reason : String)
  | malformedSettings (path reason : String)
  | registry (cause : RegistryError)
  | unresolved (count : Nat)
  | unknownSchema (key : String)
  | unreadableInput (path reason : String)
  | malformedInput (path reason : String)
  | mapping (cause : MappingError)
  | entity (cause : EntityError)
deriving DecidableEq, Repr

/-- The wording of an error. -/
def CommandError.message : CommandError → String
  | .unreadableSettings path reason => s!"failed to read {path}: {reason}"
  | .malformedSettings path reason => s!"failed to parse {path}: {reason}"
  | .registry cause => cause.message
  | .unresolved count => s!"{count} unresolved schema references"
  | .unknownSchema key => s!"Schema '{key}' not found"
  | .unreadableInput path reason => s!"Failed to read {path}: {reason}"
  | .malformedInput path reason => s!"Failed to parse {path}: {reason}"
  | .mapping cause => cause.message
  | .entity cause => cause.message

namespace Outcome

/-- Success, with some output. -/
def success (out : String) : Outcome :=
  ⟨0, out, ""⟩

/-- Failure after some output; `notes` are written before the error. -/
def failure (out notes : String) (e : CommandError) : Outcome :=
  ⟨1, out, notes ++ s!"Error: {e.message}\n"⟩

end Outcome

/-! ### Steps -/

/-- Read settings from a file. -/
def readSettings (files : Files) (path : String) : Except CommandError Settings :=
  match files.text path with
  | .error reason => .error (.unreadableSettings path reason)
  | .ok text => (files.settings text).mapError (.malformedSettings path)

/-- The registry of the schemas in a directory. -/
def loadRegistry (files : Files) (directory : String) : Logged CommandError Registry :=
  let (r, load) := Registry.loadDirectory files {} directory
  do
    let _ ← load.mapError .registry
    pure r

/-- Read a JSON document. -/
def readInput (files : Files) (path : String) : Except CommandError Json :=
  match files.text path with
  | .error reason => .error (.unreadableInput path reason)
  | .ok text => (Json.parse? text).elim (.error (.malformedInput path (files.jsonFault text))) .ok

/-- The records of a document: the items of an array, or the document itself. -/
def records : Json → List Json
  | .array items => items
  | v => [v]

/-- Read the entities of a source, with the schemas of a registry. -/
def readEntities (files : Files) (r : Registry) (source : Source) :
    Logged CommandError (List Entity) :=
  match r.get? source.schemaKey with
  | none => .fail (.unknownSchema source.schemaKey)
  | some schema => do
    let document ← .ofExcept (readInput files source.input)
    let mapping : Mapping := { lookup := r.get? }
    let read (v : Json) : Logged CommandError Entity :=
      (mapping.ofJson schema v).mapError .mapping
    let entities ← Logged.mapList read (records document)
    .report .info s!"Read {entities.length} '{source.schemaKey}' entities from {source.input}"
    pure entities

/-- Load the schemas of a directory and read the entities of a source. -/
def loadEntities (files : Files) (directory : String) (source : Source) :
    Logged CommandError (List Entity) := do
  let r ← loadRegistry files directory
  readEntities files r source

/-! ### Commands -/

/-- The lines that validation writes for the keys of a registry. -/
def keyLines (r : Registry) : String :=
  String.join (r.keys.map fun key => s!"  ✓ {key}\n")

/-- The lines that validation writes for unresolved references. -/
def unresolvedLines (refs : List UnresolvedReference) : String :=
  String.join <| refs.map fun u =>
    s!"  ✗ {u.schema}.{u.name} references unknown schema '{u.missing}'\n"

/-- Validate the schemas of a directory. -/
def validation (files : Files) (directory : String) : CommandRun :=
  let title := s!"🔍 Validating schemas in {directory}...\n"
  let load := loadRegistry files directory
  match load.result with
  | .error e => ⟨load.events, .failure title "" e⟩
  | .ok r =>
    let out := title ++ keyLines r
    let refs := r.unresolved
    if refs.isEmpty then ⟨load.events, .success (out ++ s!"✅ {r.size} schemas are valid\n")⟩
    else ⟨load.events, .failure out (unresolvedLines refs) (.unresolved refs.length)⟩

/-- Write the entities of a source in a layout. -/
def conversion (files : Files) (directory : String) (source : Source) (layout : Layout) :
    CommandRun :=
  let load := loadEntities files directory source
  match load.result with
  | .error e => ⟨load.events, .failure "" "" e⟩
  | .ok entities => ⟨load.events, .success (layout.text entities)⟩

/-- The lines for the computed attributes of an entity. -/
def computedLines (values : List (String × Value)) : String :=
  String.join (values.map fun p => s!"{p.1} = {p.2.text}\n")

/-- Show the computed attributes of entities in order, after the events and the output before. -/
def showComputed (events : List Event) (out : String) : List Entity → CommandRun
  | [] => ⟨events, .success out⟩
  | e :: es =>
    let values := e.computedValues
    match values.result with
    | .error cause => ⟨events ++ values.events, .failure out "" (.entity cause)⟩
    | .ok computed => showComputed (events ++ values.events) (out ++ computedLines computed) es

/-- Show the computed attributes of the entities of a source. -/
def evaluation (files : Files) (directory : String) (source : Source) : CommandRun :=
  let load := loadEntities files directory source
  match load.result with
  | .error e => ⟨load.events, .failure "" "" e⟩
  | .ok entities => showComputed load.events "" entities

namespace Command

/-- The directory whose schemas a command uses. -/
def directory (settings : Settings) : Command → String
  | .validate directory => directory.getD settings.directory
  | .convert source _ => source.directory.getD settings.directory
  | .eval source => source.directory.getD settings.directory

/-- The path of the document that a command reads. -/
def input? : Command → Option String
  | .validate _ => none
  | .convert source _ => some source.input
  | .eval source => some source.input

/-- Run a command with settings. -/
def run (files : Files) (settings : Settings) (c : Command) : CommandRun :=
  let directory := c.directory settings
  match c with
  | .validate _ => validation files directory
  | .convert source pretty =>
    conversion files directory source (if pretty || settings.pretty then .pretty else .lines)
  | .eval source => evaluation files directory source

end Command

namespace Invocation

/-- The settings of an invocation: those of its file, if it names one, with overrides. -/
def settings (files : Files) (overrides : Overrides) (i : Invocation) :
    Except CommandError Settings :=
  match i.config with
  | none => .ok (({} : Settings).override overrides)
  | some path => (readSettings files path).map fun s => s.override overrides

/-- Run a command with the settings of the invocation and of the environment. -/
def run (files : Files) (overrides : Overrides) (i : Invocation) : CommandRun :=
  match i.settings files overrides with
  | .error e => ⟨[], .failure "" "" e⟩
  | .ok settings => i.command.run files settings

end Invocation

end EntityModel
