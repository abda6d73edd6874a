import EntityModel.Command

/-!
# Arguments

The arguments of the command line: a command word and options, in any order but for those that only
the command knows. The value of an option follows as an argument of its own or after an equals sign,
that of a short option also directly. Short options may share a dash.
-/

namespace EntityModel

/-- The options of the command line. -/
inductive Flag where
  | config
  | schemas
  | schema
  | input
  | pretty
deriving DecidableEq, Repr

namespace Flag

/-- The long name of an option. -/
def long? (name : String) : Option Flag :=
  if name = "config" then some .config
  else if name = "schemas" then some .schemas
  else if name = "schema" then some .schema
  else if name = "input" then some .input
  else if name = "pretty" then some .pretty
  else none

/-- The option of a letter. -/
def short? (c : Char) : Option Flag :=
  if c = 's' then some .schemas
  else if c = 'k' then some .schema
  else if c = 'i' then some .input
  else if c = 'p' then some .pretty
  else none

end Flag

/-- An argument that was understood. -/
inductive Argument where
  | word (s : String)
  | flag (f : Flag)
  | option (f : Flag) (value : String)
deriving DecidableEq, Repr

namespace Argument

/-- Characters without an equals sign in front. -/
def dropEquals : List Char → List Char
  | '=' :: cs => cs
  | cs => cs

/-- The options that share a dash; the last one may still want its value. -/
def ofLetters? : List Char → Option (List Argument × Option Flag)
  | [] => some ([], none)
  | c :: cs =>
    match Flag.short? c with
    | none => none
    | some .pretty => (ofLetters? cs).map fun (args, open?) => (.flag .pretty :: args, open?)
    | some f =>
      if cs.isEmpty then some ([], some f)
      else some ([.option f (String.ofList (dropEquals cs))], none)

/-- Understand one argument, which may still want a value. -/
def ofText? (s : String) : Option (List Argument × Option Flag) :=
  match s.toList with
  | '-' :: '-' :: cs =>
    let name := cs.takeWhile (· ≠ '=')
    match Flag.long? (String.ofList name), cs.drop name.length with
    | some .pretty, [] => some ([.flag .pretty], none)
    | some .pretty, _ => none
    | some f, [] => some ([], some f)
    | some f, _ :: value => some ([.option f (String.ofList value)], none)
    | none, _ => none
  | '-' :: c :: cs => ofLetters? (c :: cs)
  | _ => some ([.word s], none)

/-- Understand arguments in order. -/
def ofTexts? : List String → Option (List Argument)
  | [] => some []
  | s :: rest =>
    match ofText? s, rest with
    | some (args, none), rest => (ofTexts? rest).map (args ++ ·)
    | some (args, some f), value :: rest =>
      if value.startsWith "-" then none
      else (ofTexts? rest).map (args ++ .option f value :: ·)
    | _, _ => none

end Argument

namespace Invocation

/-- The value of an option, which is given at most once. -/
def value? (args : List Argument) (f : Flag) : Option (Option String) :=
  let values := args.filterMap fun a =>
    match a with
    | .option g v => if g = f then some v else none
    | _ => none
  match values with
  | [] => some none
  | [v] => some (some v)
  | _ => none

/-- Whether only the given options occur. -/
def onlyHas (flags : List Flag) (args : List Argument) : Bool :=
  args.all fun a =>
    match a with
    | .option f _ => flags.contains f
    | .flag f => flags.contains f
    | .word _ => false

/-- The invocation that understood arguments make. -/
def ofArguments? (args : List Argument) : Option Invocation := do
  let isWord (a : Argument) : Bool :=
    match a with
    | .word _ => true
    | _ => false
  let global := args.takeWhile fun a => !isWord a
  match args.drop global.length with
  | .word name :: rest =>
    if !onlyHas [.config] global then none
    else
      let config ← value? args .config
      let directory ← value? rest .schemas
      let source : Option Source := do
        let key ← value? rest .schema
        let input ← value? rest .input
        match key, input with
        | some key, some input => some ⟨directory, key, input⟩
        | _, _ => none
      if name = "validate" then
        if onlyHas [.config, .schemas] rest then some ⟨config, .validate directory⟩ else none
      else if name = "convert" then
        let pretty := rest.contains (.flag .pretty)
        if onlyHas [.config, .schemas, .schema, .input, .pretty] rest then
          source.map fun s => ⟨config, .convert s pretty⟩
        else none
      else if name = "eval" then
        if onlyHas [.config, .schemas, .schema, .input] rest then
          source.map fun s => ⟨config, .eval s⟩
        else none
      else none
  | _ => none

/-- The invocation of a command line, if it makes one. -/
def ofTexts? (args : List String) : Option Invocation :=
  (Argument.ofTexts? args).bind ofArguments?

end Invocation

end EntityModel
