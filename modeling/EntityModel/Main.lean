import EntityModel.Arguments

/-!
# The program

The program reads the files that the command line asks for, runs the command on them and writes what
it yields. It does no logging, so the events of the run are dropped.
-/

namespace EntityModel

/-- The text of a file, or why it cannot be read. -/
def readText (path : String) : IO (Except String String) := do
  try
    return .ok (← IO.FS.readFile path)
  catch e =>
    return .error (toString e)

/-- The names of the regular files in a directory, or why they cannot be listed; nothing if there is
no directory. -/
def readNames (path : String) : IO (Option (Except String (List String))) := do
  if path = "" then
    return none
  let place := (← IO.currentDir) / path
  if !(← place.isDir) then
    return none
  try
    let mut names : List String := []
    for entry in ← place.readDir do
      if (← entry.path.metadata).type == .file then
        names := entry.fileName :: names
    return some (.ok names)
  catch e =>
    return some (.error (toString e))

/-- What is known of the files that are asked for. -/
def knownFiles (texts : List (String × Except String String))
    (names : List (String × Option (Except String (List String)))) : Files where
  toParsers := .plain fun _ => "no such document"
  text path := (texts.lookup path).getD (.error "no such file")
  names? path := (names.lookup path).join

/-- Read the texts of files. -/
def readTexts (paths : List String) : IO (List (String × Except String String)) :=
  paths.mapM fun path => do return (path, ← readText path)

/-- Read the files that an invocation asks for. -/
def readFiles (i : Invocation) (overrides : Overrides) : IO Files := do
  let config ← readTexts i.config.toList
  match i.settings (knownFiles config []) overrides with
  | .error _ => return knownFiles config []
  | .ok settings =>
    let directory := i.command.directory settings
    let listing ← readNames directory
    let names : List String :=
      match listing with
      | some (.ok names) => names
      | _ => []
    let documents ← readTexts (Registry.schemaPaths directory names)
    let input ← readTexts i.command.input?.toList
    return knownFiles (config ++ documents ++ input) [(directory, listing)]

/-- Run the program. -/
def runProgram (args : List String) : IO UInt32 := do
  match Invocation.ofTexts? args with
  | none =>
    IO.eprintln "usage: [--config FILE] validate|convert|eval [OPTIONS]"
    return 2
  | some i =>
    let overrides : Overrides :=
      { directory := ← IO.getEnv "CASESCHEMA_SCHEMA_DIR",
        logFilter := ← IO.getEnv "CASESCHEMA_LOG" }
    let outcome := (i.run (← readFiles i overrides) overrides).outcome
    IO.print outcome.out
    IO.eprint outcome.err
    return UInt32.ofNat outcome.exit

end EntityModel

/-- The entry point. -/
def main (args : List String) : IO UInt32 :=
  EntityModel.runProgram args
