import EntityModel.Entity.Basic

/-!
# Reading entities

A stored attribute reads as its value, or as null when it is not set. A computed attribute is
evaluated on every read: its expression may read other attributes, computed ones among them, and
follow paths into nested entities. A path that meets null has the value null.

Evaluation is given as many nested computations as the entity and the entities in it have computed
attributes on any way down (`Value.depthBudget`).
-/

namespace EntityModel

/-! ### Functions -/

namespace Builtin

/-- The texts of arguments that are not null, from the argument of an index on. -/
def concatTexts : Nat → List Value → Except ExpressionError (List String)
  | _, [] => .ok []
  | i, v :: vs =>
    if v.isNull then concatTexts (i + 1) vs
    else if v.isScalar then (concatTexts (i + 1) vs).map (v.text :: ·)
    else .error (.invalidArgument .concat i (.notAScalar v.type))

/-- Apply a function to the values of its arguments. -/
def apply : Builtin → List Value → Except ExpressionError Value
  | .concat, [] => .error (.invalidArgument .concat 0 .missingDelimiter)
  | .concat, delimiter :: args =>
    if delimiter.isNull then .error (.invalidArgument .concat 0 .nullDelimiter)
    else if !delimiter.isScalar then
      .error (.invalidArgument .concat 0 (.notAString delimiter.type))
    else (concatTexts 1 args).map fun texts => .string (String.intercalate delimiter.text texts)

end Builtin

/-! ### Evaluation -/

namespace Expression

mutual

/-- Evaluate an expression, given the values of paths. -/
def evaluate (resolve : Path → Logged EntityError Value) :
    Expression → Logged ExpressionError Value
  | .literal l => pure l.toValue
  | .path p => (resolve p).mapError (.resolution p.text)
  | .call function args => do
    let values ← evaluateArguments resolve args
    .ofExcept (function.apply values)

/-- Evaluate arguments from left to right. -/
def evaluateArguments (resolve : Path → Logged EntityError Value) :
    List Expression → Logged ExpressionError (List Value)
  | [] => pure []
  | arg :: args => do
    let v ← evaluate resolve arg
    let vs ← evaluateArguments resolve args
    pure (v :: vs)

end

end Expression

namespace Entity

/-- A way of computing the attributes of entities. -/
abbrev Computation := Entity → ComputedAttribute → Logged EntityError Value

/-- Read the attribute of a name on the way of a path. -/
def lookup (compute : Computation) (path : String) (e : Entity) (name : String) :
    Logged EntityError Value :=
  match e.schema.computed? name with
  | some c => compute e c
  | none =>
    if (e.schema.attribute? name).isSome then pure ((e.stored? name).getD .null)
    else .fail (.invalidPath path (.undeclared name e.schema.key))

/-- Take one step from a value. -/
def step (compute : Computation) (path : String) (v : Value) : Segment → Logged EntityError Value
  | .field name =>
    match v.entity? with
    | some e => lookup compute path e name
    | none => .fail (.invalidPath path (.notAnEntity name v.type))
  | .index i =>
    match v.list? with
    | some items =>
      match items[i]? with
      | some item => pure item
      | none => .fail (.invalidPath path (.outOfRange i items.length))
    | none => .fail (.invalidPath path (.notAList v.type))

/-- Take steps from a value; null leads to null. -/
def walk (compute : Computation) (path : String) : Value → List Segment → Logged EntityError Value
  | v, [] => pure v
  | v, s :: segments =>
    if v.isNull then pure .null
    else do
      let next ← step compute path v s
      walk compute path next segments

/-- Follow a path from an entity. -/
def follow (compute : Computation) (e : Entity) (p : Path) : Logged EntityError Value :=
  match p.segments with
  | .field name :: segments => do
    let v ← lookup compute p.text e name
    walk compute p.text v segments
  | _ => .fail (.invalidPath p.text .noRoot)

/-- Evaluate the text of an expression on an entity. -/
def evaluateWith (compute : Computation) (source : String) (e : Entity) :
    Logged ExpressionError Value := do
  .report .debug s!"Evaluating '{source}' on schema '{e.schema.key}'"
  match Expression.parse source with
  | .ok x => x.evaluate (follow compute e)
  | .error error => .fail (.unreadable source error)

/-- Compute an attribute with so many nested computations. -/
def computeWithin : Nat → Computation
  | 0, _, c => .fail (.tooDeep c.name)
  | n + 1, e, c => (evaluateWith (computeWithin n) c.expression e).mapError (.expression c.name)

end Entity

namespace Value

mutual

/-- How many nested computations reading a value can take. -/
def depthBudget : Value → Nat
  | .list items => listBudget items
  | .entity schema store => schema.computed.length + storeBudget store
  | _ => 0

/-- The largest budget of list items. -/
def listBudget : List Value → Nat
  | [] => 0
  | v :: vs => max (depthBudget v) (listBudget vs)

/-- The largest budget of stored values. -/
def storeBudget : List (String × Value) → Nat
  | [] => 0
  | (_, v) :: rest => max (depthBudget v) (storeBudget rest)

end

end Value

namespace Entity

/-- Compute an attribute of an entity. -/
def compute : Computation :=
  fun e c => computeWithin e.toValue.depthBudget e c

/-- Evaluate the text of an expression on an entity. -/
def evaluate (source : String) (e : Entity) : Logged ExpressionError Value :=
  evaluateWith compute source e

/-- Follow a path from an entity. -/
def resolve (e : Entity) (p : Path) : Logged EntityError Value :=
  follow compute e p

/-- Read an attribute. -/
def get (e : Entity) (name : String) : Logged EntityError Value :=
  match e.schema.computed? name with
  | some c => compute e c
  | none =>
    if (e.schema.attribute? name).isSome then pure ((e.stored? name).getD .null)
    else .fail (.unknownAttribute e.schema.key name)

/-- All computed attributes with their values, in the order of declaration. -/
def computedValues (e : Entity) : Logged EntityError (List (String × Value)) :=
  Logged.mapList (fun c => do let v ← compute e c; pure (c.name, v)) e.schema.computed

end Entity

/-! ### Typed reading -/

/-- The type that a reader of a path wants. -/
inductive WantedType where
  | any
  | scalar (kind : ScalarKind)
  | list
  | entity
deriving DecidableEq, Repr

namespace WantedType

/-- The name of a wanted type. -/
def name : WantedType → String
  | .any => "Value"
  | .scalar kind => kind.name
  | .list => "List"
  | .entity => "Entity"

/-- Whether a value type is the wanted one. -/
def admits : WantedType → ValueType → Bool
  | .any, _ => true
  | .scalar k, .scalar l => k = l
  | .list, .list => true
  | .entity, .entity _ => true
  | _, _ => false

end WantedType

/-- Read a path from its text. The result is nothing where the path meets null, and an error where
it ends at a value of another type than the wanted one. -/
def Entity.getByPath (e : Entity) (wanted : WantedType) (text : String) :
    Logged EntityError (Option Value) :=
  match Path.parse text with
  | .error error => .fail (.invalidPath text (.malformed error.fault))
  | .ok p => do
    let v ← e.resolve p
    if v.isNull then pure none
    else if wanted.admits v.type then pure (some v)
    else .fail (.invalidPath text (.wrongType wanted.name v.type))

end EntityModel
