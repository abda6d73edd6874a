import EntityModel.Files
import EntityModel.Mapping

/-!
# Registries

A registry holds schemas in the order of their registration, one for each key. Schemas are added
directly or from documents, in YAML or JSON, of which a directory is read in the order of the file
names. An operation that fails keeps the registry, but for the files of a directory that were read
before the failure. A registry is the look-up of nested schemas in mappings.
-/

namespace EntityModel

/-- Why an operation on a registry fails; the reasons are those of the system and of the parser. -/
inductive RegistryError where
  | unreadable (path reason : String)
  | malformed (path reason : String)
  | invalidSchema (path : String) (cause : SchemaError)
  | duplicate (key : String)
  | missingDirectory (path : String)
deriving DecidableEq, Repr

/-- The wording of an error. -/
def RegistryError.message : RegistryError → String
  | .unreadable path reason => s!"failed to read {path}: {reason}"
  | .malformed path reason => s!"failed to parse {path}: {reason}"
  | .invalidSchema path cause => s!"invalid schema in {path}: {cause.message}"
  | .duplicate key => s!"schema '{key}' is already registered"
  | .missingDirectory path => s!"schema directory does not exist: {path}"

/-- A nested schema that is referred to but not registered. -/
structure UnresolvedReference where
  schema : String
  name : String
  missing : String
deriving DecidableEq, Repr

/-- Schemas in the order of their registration. -/
structure Registry where
  schemas : List Schema := []

namespace Registry

/-- The schema of a key. -/
def get? (r : Registry) (key : String) : Option Schema :=
  r.schemas.find? fun s => s.key = key

/-- Whether a key is registered. -/
def contains (r : Registry) (key : String) : Bool :=
  (r.get? key).isSome

/-- The registered keys, in order. -/
def keys (r : Registry) : List String :=
  r.schemas.map (·.key)

/-- The number of schemas. -/
def size (r : Registry) : Nat :=
  r.schemas.length

/-- Register a schema under its key, which must be new. -/
def register (r : Registry) (s : Schema) : Logged RegistryError Registry :=
  if r.contains s.key then .fail (.duplicate s.key)
  else do
    .report .debug s!"Registered schema '{s.key}'"
    pure ⟨r.schemas ++ [s]⟩

/-- The references to schemas that are not registered, by schema and name. -/
def unresolved (r : Registry) : List UnresolvedReference :=
  r.schemas.flatMap fun s =>
    (s.related.filter fun p => !r.contains p.2).map fun p => ⟨s.key, p.1, p.2⟩

/-! ### Schema documents -/

/-- Read the schema of a file. -/
def readSchema (files : Files) (path : String) : Logged RegistryError Schema :=
  match files.text path with
  | .error reason => .fail (.unreadable path reason)
  | .ok text =>
    match files.definition text with
    | .error reason => .fail (.malformed path reason)
    | .ok definition => definition.toSchema.mapError (.invalidSchema path)

/-- Register the schema of a file; the result is the registry and the key. -/
def loadFile (files : Files) (r : Registry) (path : String) :
    Logged RegistryError (Registry × String) := do
  let s ← readSchema files path
  let r ← r.register s
  pure (r, s.key)

/-- Register the schemas of files in order; the registry holds those before the first failure. -/
def loadFiles (files : Files) : Registry → List String → Registry × Logged RegistryError Unit
  | r, [] => (r, pure ())
  | r, path :: paths =>
    let step := r.loadFile files path
    match step.result with
    | .error e => (r, ⟨.error e, step.events⟩)
    | .ok (r, _) =>
      let (r, rest) := loadFiles files r paths
      (r, ⟨rest.result, step.events ++ rest.events⟩)

/-- The part of a file name after its last point, unless that is its first character. -/
def extension? (name : String) : Option String :=
  let cs := name.toList.reverse
  let ext := cs.takeWhile (· ≠ '.')
  match cs.drop ext.length with
  | [] => none
  | ['.'] => none
  | _ => some (String.ofList ext.reverse)

/-- Whether a file name is that of a schema document. -/
def isSchemaName (name : String) : Bool :=
  match extension? name with
  | some ext => ext = "yaml" || ext = "yml" || ext = "json"
  | none => false

/-- The path of a file in a directory. -/
def join (directory name : String) : String :=
  if directory.toList.getLast? = some '/' then directory ++ name else directory ++ "/" ++ name

/-- The paths of the schema documents in a directory, in the order of their names. -/
def schemaPaths (directory : String) (names : List String) : List String :=
  ((names.filter isSchemaName).mergeSort fun a b => a ≤ b).map (join directory)

/-- Register the schemas of the documents in a directory; the result is their number. -/
def loadDirectory (files : Files) (r : Registry) (directory : String) :
    Registry × Logged RegistryError Nat :=
  match files.names? directory with
  | none => (r, .fail (.missingDirectory directory))
  | some (.error reason) => (r, .fail (.unreadable directory reason))
  | some (.ok names) =>
    let paths := schemaPaths directory names
    let (r, load) := loadFiles files r paths
    let report : Logged RegistryError Nat := do
      load
      .report .info s!"Loaded {paths.length} schemas from {directory}"
      pure paths.length
    (r, report)

end Registry

end EntityModel
