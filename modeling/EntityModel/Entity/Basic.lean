import EntityModel.Entity.Error

/-!
# Entities

An entity stores a value per set attribute of its schema. Computed attributes are never stored, and
an attribute of a list type always holds a list. A value that is set must have the declared shape: a
list for a list type, an entity of the referenced schema for an entity type, a scalar otherwise, and
null for any of them; the kind of a scalar is not checked here. Operations change an entity in place
and check before they write.
-/

namespace EntityModel

namespace Entity

/-- An entity on which nothing is set but its lists, which are empty. -/
def new (schema : Schema) : Entity :=
  let lists := schema.attributes.filter fun a => a.type.isList
  ⟨schema, Dict.ofList (lists.map fun a => (a.name, .list []))⟩

/-- The value stored under a name. -/
def stored? (e : Entity) (name : String) : Option Value :=
  Dict.get? e.store name

/-- Whether an attribute is set. -/
def isSet (e : Entity) (name : String) : Bool :=
  (e.stored? name).isSome

/-- The stored attribute of a name, if it can be written. -/
def writable (schema : Schema) (name : String) : Except EntityError Attribute :=
  if schema.isComputed name then .error (.computedAttributeWrite schema.key name)
  else (schema.attribute? name).elim (.error (.unknownAttribute schema.key name)) .ok

/-- Check an element of a list attribute. -/
def checkElement (schema : Schema) (a : Attribute) (v : Value) : Except EntityError Value :=
  let refused : Except EntityError Value :=
    .error (.invalidShape schema.key a.name a.type (.element v.type))
  match a.type, v with
  | .entityList key, .entity s _ => if s.key = key then .ok v else refused
  | .list _, v => if v.isScalar then .ok v else refused
  | _, _ => refused

/-- Check elements of a list attribute, in order. -/
def checkElements (schema : Schema) (a : Attribute) : List Value → Except EntityError (List Value)
  | [] => .ok []
  | v :: vs => do
    let v ← checkElement schema a v
    let vs ← checkElements schema a vs
    .ok (v :: vs)

/-- Check a value for an attribute; null becomes the empty list of a list attribute. -/
def checkShape (schema : Schema) (a : Attribute) (v : Value) : Except EntityError Value :=
  let refused : Except EntityError Value :=
    .error (.invalidShape schema.key a.name a.type (.value v.type))
  if a.type.isList then
    match v with
    | .null => .ok (.list [])
    | .list items => (checkElements schema a items).map .list
    | _ => refused
  else
    match a.type, v with
    | _, .null => .ok .null
    | .entity key, .entity s _ => if s.key = key then .ok v else refused
    | .scalar _, v => if v.isScalar then .ok v else refused
    | _, _ => refused

/-! ### Operations -/

end Entity

/-- A change of an entity in place. What it changed before it fails stays changed. -/
abbrev Change := ExceptT EntityError (StateM Entity) Unit

namespace Change

open Entity

/-- Overwrite a stored attribute. -/
def set (name : String) (v : Value) : Change := do
  let e ← getThe Entity
  let a ← writable e.schema name
  let v ← checkShape e.schema a v
  modifyThe Entity fun e => { e with store := Dict.insert e.store name v }

/-- Append an element to a list attribute. -/
def add (name : String) (v : Value) : Change := do
  let e ← getThe Entity
  let a ← writable e.schema name
  if a.type.isList then
    let v ← checkElement e.schema a v
    modifyThe Entity fun e =>
      let items := ((e.stored? name).bind Value.list?).getD []
      { e with store := Dict.insert e.store name (.list (items ++ [v])) }
  else throw (.notAList e.schema.key name a.type)

/-- Clear a stored attribute; a list becomes empty. -/
def unset (name : String) : Change := do
  let e ← getThe Entity
  let a ← writable e.schema name
  if a.type.isList then
    modifyThe Entity fun e => { e with store := Dict.insert e.store name (.list []) }
  else modifyThe Entity fun e => { e with store := Dict.erase e.store name }

/-- The changed entity, unless the change fails. -/
def outcome (c : Change) (e : Entity) : Except EntityError Entity :=
  match c.run e with
  | (.ok (), e) => .ok e
  | (.error cause, _) => .error cause

end Change

/-- An operation on an entity. -/
inductive Operation where
  | set (name : String) (value : Value)
  | add (name : String) (value : Value)
  | unset (name : String)

namespace Operation

/-- The attribute that an operation is about. -/
def name : Operation → String
  | .set name _ => name
  | .add name _ => name
  | .unset name => name

/-- The value that an operation brings. -/
def value? : Operation → Option Value
  | .set _ v => some v
  | .add _ v => some v
  | .unset _ => none

/-- The change that an operation makes. -/
def change : Operation → Change
  | .set name v => .set name v
  | .add name v => .add name v
  | .unset name => .unset name

end Operation

namespace Entity

/-- Carry out an operation: its answer, and the entity that it leaves. -/
def perform (e : Entity) (op : Operation) : Except EntityError Unit × Entity :=
  op.change.run e

/-- The entity after operations in order, whether they fail or not. -/
def after (e : Entity) (ops : List Operation) : Entity :=
  ops.foldl (fun e op => (e.perform op).2) e

/-- Overwrite a stored attribute. -/
def set (e : Entity) (name : String) (v : Value) : Except EntityError Entity :=
  (Change.set name v).outcome e

/-- Append an element to a list attribute. -/
def add (e : Entity) (name : String) (v : Value) : Except EntityError Entity :=
  (Change.add name v).outcome e

/-- Clear a stored attribute; a list becomes empty. -/
def unset (e : Entity) (name : String) : Except EntityError Entity :=
  (Change.unset name).outcome e

end Entity

end EntityModel
