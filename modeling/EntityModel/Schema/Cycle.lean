import EntityModel.AttributeType
import EntityModel.Expression.Parser

/-!
# Cycles of computed attributes

A computed attribute depends on those computed attributes of its schema at which the paths of its
expression start. The search follows the dependencies depth first, attribute by attribute in the
order of their declaration; the first attribute met twice on the way closes the reported cycle. An
expression that cannot be read has no dependencies.
-/

namespace EntityModel

/-- An attribute derived from an expression on every read. -/
structure ComputedAttribute where
  name : String
  type : AttributeType
  expression : String
deriving DecidableEq, Repr

/-- The names at which the paths of a text's expression start; none if the text is no expression. -/
def rootsOf (source : String) : List String :=
  match Expression.parse source with
  | .ok e => e.paths.map Path.root
  | .error _ => []

/-- The computed attributes that a computed attribute depends on, in the order of reading. -/
def dependencies (computed : List ComputedAttribute) (name : String) : List String :=
  match computed.find? fun c => c.name = name with
  | none => []
  | some c => (rootsOf c.expression).filter fun r => computed.any fun c => c.name = r

/-- Search for a cycle from a name on. `way` are the names that lead to it, outermost first, and
`cleared` those from which no cycle can be reached; `fuel` bounds the length of the way. The result
is a cycle, or the names cleared so far. -/
def searchCycle (next : String → List String) :
    Nat → List String → List String → String → Except (List String) (List String)
  | 0, _, cleared, _ => .ok cleared
  | fuel + 1, way, cleared, name =>
    if name ∈ cleared then .ok cleared
    else if name ∈ way then .error (way.dropWhile (· ≠ name) ++ [name])
    else do
      let cleared ← (next name).foldlM (searchCycle next fuel (way ++ [name])) cleared
      .ok (name :: cleared)

/-- The first cycle of computed attributes: the names on it, the first of them again at the end. -/
def findCycle (computed : List ComputedAttribute) : Option (List String) :=
  let search := searchCycle (dependencies computed) (computed.length + 1) []
  match (computed.map (·.name)).foldlM search [] with
  | .ok _ => none
  | .error cycle => some cycle

theorem findCycle_nil : findCycle [] = none :=
  rfl

end EntityModel
