import EntityModel.Path

/-!
# Expressions

The value of a computed attribute is given by an expression: a literal, a path read from the owning
entity, or a call of one of a closed set of functions. An expression names no type, calls no method
and reaches nothing but the entity it is evaluated on.
-/

namespace EntityModel

/-- A constant in an expression. -/
inductive Literal where
  | null
  | boolean (b : Bool)
  | integer (n : Int64)
  | string (s : String)
deriving DecidableEq, Repr

/-- The functions that expressions can call. -/
inductive Builtin where
  /-- Join the texts of the values that are not null, with a delimiter between them. -/
  | concat
deriving DecidableEq, Repr

namespace Builtin

/-- The name of a function in expressions. -/
def name : Builtin → String
  | .concat => "concat"

/-- The function of a name. -/
def lookup? (s : String) : Option Builtin :=
  if s = "concat" then some .concat else none

theorem lookup?_eq_some_iff {s : String} {f : Builtin} : lookup? s = some f ↔ s = f.name := by
  cases f; simp [lookup?, name]

end Builtin

/-- An expression. -/
inductive Expression where
  | literal (l : Literal)
  | path (p : Path)
  | call (function : Builtin) (args : List Expression)
deriving Repr

namespace Expression

mutual

/-- The paths that an expression reads, from left to right. -/
def paths : Expression → List Path
  | .literal _ => []
  | .path p => [p]
  | .call _ args => argumentPaths args

/-- The paths that arguments read, from left to right. -/
def argumentPaths : List Expression → List Path
  | [] => []
  | arg :: args => paths arg ++ argumentPaths args

end

mutual

/-- How deep the calls of an expression nest. -/
def depth : Expression → Nat
  | .literal _ => 0
  | .path _ => 0
  | .call _ args => argumentDepth args + 1

/-- How deep the calls of arguments nest. -/
def argumentDepth : List Expression → Nat
  | [] => 0
  | arg :: args => max (depth arg) (argumentDepth args)

end

end Expression

end EntityModel
