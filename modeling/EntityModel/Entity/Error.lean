import EntityModel.Value

/-!
# Errors of entities and expressions

Reading a computed attribute evaluates an expression, and evaluating an expression reads attributes,
so the two kinds of errors contain each other.
-/

namespace EntityModel

/-- Why a path cannot be followed from an entity. -/
inductive ResolutionFault where
  /-- The text is not a path. -/
  | malformed (fault : PathFault)
  /-- The path does not start with a name. -/
  | noRoot
  | undeclared (name schemaKey : String)
  | notAnEntity (name : String) (found : ValueType)
  | notAList (found : ValueType)
  | outOfRange (index length : Nat)
  /-- The path ends at a value of another type than the wanted one. -/
  | wrongType (wanted : String) (found : ValueType)
deriving DecidableEq, Repr

/-- The wording of a fault. -/
def ResolutionFault.message : ResolutionFault → String
  | .malformed fault => fault.message
  | .noRoot => "a path must start with an attribute name"
  | .undeclared name key => s!"'{name}' is not declared on schema '{key}'"
  | .notAnEntity name found => s!"cannot read '{name}' from a {found.name} value"
  | .notAList found => s!"cannot index into a {found.name} value"
  | .outOfRange i length => s!"index {i} is out of range for a list of {length}"
  | .wrongType wanted found => s!"expected {wanted}, found {found.name}"

/-- Why an argument of a function is refused. -/
inductive ArgumentFault where
  | missingDelimiter
  | nullDelimiter
  | notAString (found : ValueType)
  | notAScalar (found : ValueType)
deriving DecidableEq, Repr

/-- The wording of a fault. -/
def ArgumentFault.message : ArgumentFault → String
  | .missingDelimiter => "a delimiter is required"
  | .nullDelimiter => "the delimiter must not be null"
  | .notAString found => s!"expected a string, got {found.name}"
  | .notAScalar found => s!"expected a scalar, got {found.name}"

/-- A value of the wrong shape: a whole value, or an element of a list. -/
inductive ShapeFound where
  | value (type : ValueType)
  | element (type : ValueType)
deriving DecidableEq, Repr

/-- The words for a wrong shape. -/
def ShapeFound.words : ShapeFound → String
  | .value type => type.description
  | .element type => s!"an element of type {type.description}"

mutual

/-- Why an operation on an entity fails. -/
inductive EntityError where
  | unknownAttribute (schema name : String)
  | computedAttributeWrite (schema name : String)
  | notAList (schema name : String) (declared : AttributeType)
  | invalidShape (schema name : String) (declared : AttributeType) (found : ShapeFound)
  | invalidPath (path : String) (fault : ResolutionFault)
  | expression (name : String) (cause : ExpressionError)
  /-- The depth allowed for computed attributes is used up. -/
  | tooDeep (name : String)

/-- Why an expression has no value. -/
inductive ExpressionError where
  | unreadable (source : String) (error : ParseError)
  | invalidArgument (function : Builtin) (index : Nat) (fault : ArgumentFault)
  | resolution (path : String) (cause : EntityError)

end

deriving instance DecidableEq, Repr for EntityError, ExpressionError

mutual

/-- The wording of an error. -/
def EntityError.message : EntityError → String
  | .unknownAttribute s a => s!"attribute '{a}' is not declared on schema '{s}'"
  | .computedAttributeWrite s a =>
    s!"attribute '{a}' on schema '{s}' is computed and cannot be written"
  | .notAList s a declared =>
    s!"attribute '{a}' on schema '{s}' is declared as {declared.text}, which is not a list"
  | .invalidShape s a declared found =>
    s!"attribute '{a}' on schema '{s}' is declared as {declared.text} but got {found.words}"
  | .invalidPath p fault => s!"invalid path '{p}': {fault.message}"
  | .expression a cause => s!"failed to compute attribute '{a}': {cause.message}"
  | .tooDeep a => s!"attribute '{a}' is computed from too many others"

/-- The wording of an error. -/
def ExpressionError.message : ExpressionError → String
  | .unreadable source error => error.message source
  | .invalidArgument f i fault => s!"argument {i} of {f.name}() is invalid: {fault.message}"
  | .resolution p cause => s!"failed to read '{p}': {cause.message}"

end

end EntityModel
