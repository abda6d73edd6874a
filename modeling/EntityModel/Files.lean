import EntityModel.Parsers

/-!
# Files

What a program sees of a file system: the texts of files and the names of the files in directories,
each by path, and what parsers make of the texts. The system words why a file or a directory cannot
be read. A file tree is a file system in memory: files and directories by the parts of their paths,
below a current directory. Directories on the way to a file are implied.
-/

namespace EntityModel

/-- A view of a file system and of the documents in it. -/
structure Files extends Parsers where
  /-- The text of the file at a path, or the reason why none can be read. -/
  text : String → Except String String
  /-- The names of the regular files in the directory at a path, or the reason why they cannot be
  listed; nothing if there is no directory. -/
  names? : String → Option (Except String (List String))

/-- What stands at a place of a file tree. -/
inductive FileEntry where
  /-- A file, with its text unless its bytes are none. -/
  | file (text : Option String)
  | directory
deriving DecidableEq, Repr

/-- The entries of a file system by the parts of their paths; of two the later one counts. -/
abbrev FileTree := List (List String × FileEntry)

namespace FileTree

/-- The parts of a path. -/
def parts (path : String) : List String :=
  (splitChars path.toList).map String.ofList
where
  /-- Characters between slashes. -/
  splitChars : List Char → List (List Char)
    | [] => [[]]
    | c :: cs =>
      match splitChars cs with
      | [] => [[c]]
      | part :: rest => if c = '/' then [] :: part :: rest else (c :: part) :: rest

/-- The entry at a place. -/
def entry? (t : FileTree) (place : List String) : Option FileEntry :=
  match (t.reverse.find? fun e => e.1 = place).map (·.2) with
  | some e => some e
  | none =>
    if place.isEmpty || t.any fun e => place.isPrefixOf e.1 then some .directory else none

/-- Whether there is a directory at a place. -/
def isDirectory (t : FileTree) (place : List String) : Bool :=
  t.entry? place = some .directory

/-- Follow the parts of a path from a place. An empty part and a point stay there, two points lead
to the parent, and each of them wants a directory. -/
def follow (t : FileTree) : List String → List String → Option (List String)
  | place, [] => some place
  | place, part :: rest =>
    if !t.isDirectory place then none
    else if part = "" || part = "." then follow t place rest
    else if part = ".." then if place.isEmpty then none else follow t place.dropLast rest
    else follow t (place ++ [part]) rest

/-- The place of a path below the current directory. -/
def place? (t : FileTree) (path : String) : Option (List String) :=
  match parts path with
  | [] => none
  | [""] => none
  | "" :: _ => none
  | ps => t.follow [] ps

/-- The text of the file at a path. -/
def text? (t : FileTree) (path : String) : Option String :=
  match (t.place? path).bind t.entry? with
  | some (.file text) => text
  | _ => none

/-- The names of the files in the directory at a path. -/
def names? (t : FileTree) (path : String) : Option (List String) :=
  (t.place? path).bind fun place =>
    if t.isDirectory place then
      let names := t.filterMap fun e =>
        match e.1.getLast?, t.entry? e.1 with
        | some name, some (.file _) => if e.1.dropLast = place then some name else none
        | _, _ => none
      some names.eraseDups
    else none

/-- The file system that a tree is; `reason` words why there is no text at a path. -/
def view (t : FileTree) (parsers : Parsers) (reason : String → String) : Files where
  toParsers := parsers
  text path := (t.text? path).elim (.error (reason path)) .ok
  names? path := (t.names? path).map .ok

end FileTree

end EntityModel
