import EntityModel.Calendar.Reader
import EntityModel.Value

/-!
# Conversions

A conversion turns a JSON value into a value of a scalar kind. Null becomes null, and a value that
already is of the wanted kind is taken as it is. For any other value a rule is looked up: rules
belong to a pair of a source kind and a target kind, and of those that take the value the one with
the most specific source kind is applied. A registration replaces the rule of the same pair, in its
place, so no pair occurs twice (`nodup_pairs_register`).
-/

namespace EntityModel

/-! ### Source kinds -/

/-- The kinds of sources that rules are declared for. -/
inductive SourceKind where
  /-- Every value but null. -/
  | any
  | boolean
  /-- Integers and doubles. -/
  | number
  | integer
  | float
  | string
  | array
  | object
deriving DecidableEq, Repr

namespace SourceKind

/-- All kinds. -/
def all : List SourceKind :=
  [.any, .boolean, .number, .integer, .float, .string, .array, .object]

/-- The name of a kind. -/
def name : SourceKind → String
  | .any => "any"
  | .boolean => "boolean"
  | .number => "number"
  | .integer => "integer"
  | .float => "float"
  | .string => "string"
  | .array => "array"
  | .object => "object"

/-- The name of a kind as a heading. -/
def title (k : SourceKind) : String :=
  match k.name.toList with
  | [] => ""
  | c :: cs => String.ofList (c.toUpper :: cs)

/-- The kind of a name. -/
def ofName? (s : String) : Option SourceKind :=
  all.find? fun k => k.name = s

/-- The most specific kind of a JSON value; null has none. -/
def of? : Json → Option SourceKind
  | .null => none
  | .bool _ => some .boolean
  | .number (.integer _) => some .integer
  | .number (.double _) => some .float
  | .string _ => some .string
  | .array _ => some .array
  | .object _ => some .object

/-- Whether a rule for a kind takes a value whose most specific kind is `actual`. -/
def accepts (declared actual : SourceKind) : Bool :=
  match declared with
  | .any => true
  | .number => actual = .number || actual = .integer || actual = .float
  | k => k = actual

/-- The kinds whose rules take a value of a kind, the most specific first. -/
def accepting (actual : SourceKind) : List SourceKind :=
  [actual, .number, .any].filter fun k => k.accepts actual

theorem mem_accepting_iff {declared actual : SourceKind} :
    declared ∈ accepting actual ↔ declared.accepts actual := by
  cases declared <;> cases actual <;> decide

end SourceKind

/-! ### Errors -/

/-- Why a value cannot be converted. -/
inductive ConversionFault where
  | decimal (fault : DecimalFault)
  | integer (fault : IntegerFault)
  | time (fault : CalendarFault)
  | notANumber
  /-- A reason of the rule's own. -/
  | refused (reason : String)
deriving DecidableEq, Repr

/-- The wording of a fault. -/
def ConversionFault.message : ConversionFault → String
  | .decimal fault => fault.message
  | .integer fault => fault.message
  | .time fault => fault.message
  | .notANumber => "not a number"
  | .refused reason => reason

/-- Why a conversion fails. -/
inductive ConversionError where
  | noConverter (source : SourceKind) (target : ScalarKind)
  | invalidValue (text : String) (target : ScalarKind) (fault : ConversionFault)
deriving DecidableEq, Repr

/-- The wording of an error. -/
def ConversionError.message : ConversionError → String
  | .noConverter source target =>
    s!"no converter registered from {source.name} to {target.name}"
  | .invalidValue text target fault =>
    s!"cannot convert '{text}' to {target.name}: {fault.message}"

/-! ### Rules -/

/-- A way to convert JSON values. -/
abbrev Converter := Json → Logged ConversionError Value

/-- A conversion from a source kind to a scalar kind. -/
structure ConversionRule where
  source : SourceKind
  target : ScalarKind
  convert : Converter

/-- The pair that a rule is declared for. -/
def ConversionRule.pair (r : ConversionRule) : SourceKind × ScalarKind :=
  (r.source, r.target)

/-- Rules in the order of the first registration of their pairs. -/
structure Conversions where
  rules : List ConversionRule := []

namespace Conversions

/-- Put a rule in the place of the rule of its pair, or at the end. -/
def place (rule : ConversionRule) : List ConversionRule → List ConversionRule
  | [] => [rule]
  | r :: rs => if r.pair = rule.pair then rule :: rs else r :: place rule rs

/-- Register a rule. -/
def register (c : Conversions) (rule : ConversionRule) : Conversions :=
  ⟨place rule c.rules⟩

/-- Register rules in order. -/
def registerAll (c : Conversions) (rules : List ConversionRule) : Conversions :=
  rules.foldl register c

/-- The rule of a pair. -/
def rule? (c : Conversions) (source : SourceKind) (target : ScalarKind) : Option ConversionRule :=
  c.rules.find? fun r => r.pair = (source, target)

/-- The pairs that have rules, in order. -/
def pairs (c : Conversions) : List (SourceKind × ScalarKind) :=
  c.rules.map ConversionRule.pair

/-- Whether a pair has a rule. -/
def hasRule (c : Conversions) (source : SourceKind) (target : ScalarKind) : Bool :=
  (c.rule? source target).isSome

/-- The rule for values of a kind: that of the most specific kind that accepts them. -/
def best? (c : Conversions) (actual : SourceKind) (target : ScalarKind) : Option ConversionRule :=
  actual.accepting.findSome? fun k => c.rule? k target

/-- A value that already is of the wanted kind. -/
def native? : Json → ScalarKind → Option Value
  | .string s, .string => some (.string s)
  | .bool b, .boolean => some (.boolean b)
  | .number n, .integer => n.int64?.map .integer
  | _, _ => none

/-- Convert a JSON value to a scalar kind. -/
def convert (c : Conversions) (v : Json) (target : ScalarKind) : Logged ConversionError Value :=
  match SourceKind.of? v with
  | none => pure .null
  | some actual =>
    match native? v target with
    | some value => pure value
    | none =>
      match c.best? actual target with
      | some rule => rule.convert v
      | none => .fail (.noConverter actual target)

/-- A listing of the pairs. -/
def summary (c : Conversions) : String :=
  let pairs := c.pairs.map fun p => s!"({p.1.title}, {p.2.name})"
  "ConversionRegistry \x7b rules: [" ++ String.intercalate ", " pairs ++ "] \x7d"

/-! ### Registration -/

theorem find?_place (rule : ConversionRule) (rules : List ConversionRule)
    (pair : SourceKind × ScalarKind) :
    (place rule rules).find? (fun r => r.pair = pair) =
      if rule.pair = pair then some rule else rules.find? fun r => r.pair = pair := by
  induction rules with
  | nil => by_cases h : rule.pair = pair <;> simp [place, h]
  | cons r rs ih =>
    unfold place
    by_cases hr : r.pair = rule.pair
    · by_cases h : rule.pair = pair <;> simp [hr, h]
    · by_cases h : r.pair = pair
      · subst h
        simp [hr, Ne.symm hr]
      · simp only [hr, if_false, List.find?_cons, h, decide_false]
        exact ih

theorem rule?_register (c : Conversions) (rule : ConversionRule) (source : SourceKind)
    (target : ScalarKind) :
    (c.register rule).rule? source target =
      if rule.pair = (source, target) then some rule else c.rule? source target :=
  find?_place rule c.rules (source, target)

theorem mem_pairs_place {rule : ConversionRule} {rules : List ConversionRule}
    {pair : SourceKind × ScalarKind} :
    pair ∈ (place rule rules).map ConversionRule.pair ↔
      pair = rule.pair ∨ pair ∈ rules.map ConversionRule.pair := by
  induction rules with
  | nil => simp [place]
  | cons r rs ih =>
    unfold place
    by_cases hr : r.pair = rule.pair
    · simp [hr]
    · simp only [hr, if_false, List.map_cons, List.mem_cons, ih]
      exact or_left_comm

theorem nodup_pairs_register {c : Conversions} (h : c.pairs.Nodup) (rule : ConversionRule) :
    (c.register rule).pairs.Nodup := by
  have step (rules : List ConversionRule) (h : (rules.map ConversionRule.pair).Nodup) :
      ((place rule rules).map ConversionRule.pair).Nodup := by
    induction rules with
    | nil => simp [place]
    | cons r rs ih =>
      simp only [List.map_cons, List.nodup_cons] at h
      unfold place
      by_cases hr : r.pair = rule.pair
      · simp only [hr, if_true, List.map_cons, List.nodup_cons]
        exact ⟨hr ▸ h.1, h.2⟩
      · simp only [hr, if_false, List.map_cons, List.nodup_cons]
        exact ⟨fun hmem => (mem_pairs_place.1 hmem).elim hr h.1, ih h.2⟩
  exact step c.rules h

end Conversions

end EntityModel
