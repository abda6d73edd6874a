import EntityModel.Json.Basic
import EntityModel.Node.Basic
import EntityModel.Schema.Definition

/-!
# Schema documents

Reading and writing of definitions and their parts. Writing shows every field, with null for what is
missing; reading fills in what a document leaves out. Audit data stand beside the other fields of a
definition and, like configurations, take no plain scalar that looks like something else than text.
-/

namespace EntityModel

/-! ### Scalars -/

namespace Node

/-- The identifier that a scalar shows. -/
def uuid? (n : Node) : Option Uuid :=
  n.text?.bind Uuid.ofText?

/-- The timestamp that a scalar shows. -/
def timestamp? (n : Node) : Option Timestamp :=
  n.typedText?.bind fun s => (Timestamp.ofText s).toOption

end Node

/-- The scalar kind of a JSON value: its name, or an object from its name to null. -/
def ScalarKind.ofJson? : Json → Option ScalarKind
  | .string s => ScalarKind.ofName? s
  | .object [(s, .null)] => ScalarKind.ofName? s
  | _ => none

/-! ### Document references -/

namespace DocumentReference

/-- Read a reference. -/
def ofNode? (format : DocumentFormat) (n : Node) : Option DocumentReference := do
  let r ← n.record? format ["documentId", "filename"]
  let id ← r.required "documentId" Node.uuid?
  let filename ← r.optional "filename" Node.text?
  some ⟨id, filename⟩

/-- The reference that a JSON value shows. -/
def ofJson? (v : Json) : Option DocumentReference :=
  ofNode? .json (.ofJson v)

end DocumentReference

/-! ### Configurations -/

namespace Configuration

/-- The field that tells the kind of a configuration. -/
def kindField : String := "kind"

/-- How many collections there are above a configuration in a document. -/
def above : Nat := 4

/-- Read the only field of a configuration. -/
def field? (name : String) (rest : Node) : Option String := do
  let r ← (rest.mapping? Record.byType [name]).or (rest.row? [name])
  r.required name Node.typedText?

/-- Read the rest of a configuration of a kind. -/
def ofRest? (kind : String) (rest : Node) : Option Configuration :=
  if kind = ConfigurationKind.documentClassifier.word then
    (field? "classifierName" rest).map .documentClassifier
  else if kind = ConfigurationKind.documentProcessing.word then
    (field? "processorId" rest).map .documentProcessing
  else none

/-- Whether a key is that of the kind. -/
def isKindKey (key : Node) : Bool :=
  key.text? = some kindField

/-- Read a configuration: a mapping or a row, either with its kind. -/
def ofNode? (format : DocumentFormat) : Node → Option Configuration
  | .mapping entries => do
    let [(_, tag)] := entries.filter fun (k, _) => isKindKey k | none
    let kind ← tag.text?
    let rest := Node.mapping (entries.filter fun (k, _) => !isKindKey k)
    if rest.isReadable format above then ofRest? kind rest else none
  | .list (tag :: rest) => do
    let kind ← tag.text?
    let rest := Node.list rest
    if rest.isReadable format above then ofRest? kind rest else none
  | _ => none

/-- The configuration that a JSON value shows. -/
def ofJson? (v : Json) : Option Configuration :=
  ofNode? .json (.ofJson v)

/-- The JSON form of a configuration. -/
def toJson (c : Configuration) : Json :=
  let kind : String × Json := (kindField, .string c.kind.word)
  match c with
  | .documentClassifier name => .object [("classifierName", .string name), kind]
  | .documentProcessing id => .object [kind, ("processorId", .string id)]

end Configuration

/-! ### Audit data -/

namespace Audit

/-- The fields of audit data, in order. -/
def fieldNames : List String :=
  ["createdBy", "lastUpdatedBy", "createdTimestamp", "lastUpdatedTimestamp"]

/-- Read audit data from fields. -/
def ofRecord? (r : Record) : Option Audit := do
  let createdBy ← r.optional "createdBy" Node.typedText?
  let lastUpdatedBy ← r.optional "lastUpdatedBy" Node.typedText?
  let created ← r.optional "createdTimestamp" Node.timestamp?
  let lastUpdated ← r.optional "lastUpdatedTimestamp" Node.timestamp?
  some ⟨createdBy, lastUpdatedBy, created, lastUpdated⟩

/-- The audit data that a JSON value shows. -/
def ofJson? (v : Json) : Option Audit :=
  ((Node.ofJson v).record? .json fieldNames).bind ofRecord?

/-- The JSON form of a timestamp, if there is one. -/
def timestampJson (t : Option Timestamp) : Json :=
  .ofText? (t.map Timestamp.text)

/-- The JSON form of audit data. -/
def toJson (a : Audit) : Json :=
  .object
    [("createdBy", .ofText? a.createdBy),
      ("createdTimestamp", timestampJson a.created),
      ("lastUpdatedBy", .ofText? a.lastUpdatedBy),
      ("lastUpdatedTimestamp", timestampJson a.lastUpdated)]

end Audit

/-! ### Attributes -/

/-- Read a type from the fields of an attribute. -/
def NamedType.ofRecord? (r : Record) : Option NamedType := do
  let typeName ← r.required "type" Node.text?
  let contentType ← r.optional "contentType" Node.text?
  let entitySchema ← r.optional "entitySchema" Node.text?
  some ⟨typeName, contentType, entitySchema⟩

namespace AttributeEntry

/-- The fields of a stored attribute, in order. -/
def fieldNames : List String :=
  ["name", "type", "contentType", "entitySchema", "attributeConfigurations"]

/-- Read a stored attribute. -/
def ofNode? (format : DocumentFormat) (n : Node) : Option AttributeEntry := do
  let r ← n.record? format fieldNames
  let name ← r.required "name" Node.text?
  let type ← NamedType.ofRecord? r
  let configurations ←
    r.withDefault "attributeConfigurations" [] (Node.listOf (Configuration.ofNode? format))
  some ⟨name, type, configurations⟩

/-- The JSON form of a stored attribute. -/
def toJson (a : AttributeEntry) : Json :=
  .object
    [("attributeConfigurations", .array (a.configurations.map Configuration.toJson)),
      ("contentType", .ofText? a.type.contentType),
      ("entitySchema", .ofText? a.type.entitySchema),
      ("name", .string a.name),
      ("type", .string a.type.typeName)]

end AttributeEntry

namespace ComputedEntry

/-- The fields of a computed attribute, in order. -/
def fieldNames : List String :=
  ["name", "type", "contentType", "entitySchema", "expression"]

/-- Read a computed attribute. -/
def ofNode? (format : DocumentFormat) (n : Node) : Option ComputedEntry := do
  let r ← n.record? format fieldNames
  let name ← r.required "name" Node.text?
  let type ← NamedType.ofRecord? r
  let expression ← r.required "expression" Node.text?
  some ⟨name, type, expression⟩

/-- The JSON form of a computed attribute. -/
def toJson (c : ComputedEntry) : Json :=
  .object
    [("contentType", .ofText? c.type.contentType),
      ("entitySchema", .ofText? c.type.entitySchema),
      ("expression", .string c.expression),
      ("name", .string c.name),
      ("type", .string c.type.typeName)]

end ComputedEntry

/-! ### Definitions -/

namespace Definition

/-- The fields of a definition but for its audit data. -/
def fieldNames : List String :=
  ["id", "key", "name", "description", "attributes", "computedAttributes"]

/-- Whether what a node has beside the fields of a definition can be read. -/
def hasReadableExtras (format : DocumentFormat) : Node → Bool
  | .mapping entries =>
    entries.all fun (k, v) => k.text?.any fieldNames.contains || v.isReadable format 1
  | _ => true

/-- Read a definition, which is no row, though its attributes may be. -/
def ofNode? (format : DocumentFormat) (n : Node) : Option Definition := do
  let r ← n.mapping? Record.byText (fieldNames ++ Audit.fieldNames)
  let id ← r.optional "id" Node.uuid?
  let key ← r.required "key" Node.text?
  let name ← r.optional "name" Node.text?
  let description ← r.optional "description" Node.text?
  let attributes ← r.withDefault "attributes" [] (Node.listOf (AttributeEntry.ofNode? format))
  let computed ← r.withDefault "computedAttributes" [] (Node.listOf (ComputedEntry.ofNode? format))
  let audit ← Audit.ofRecord? r
  if hasReadableExtras format n then
    some ⟨id, key, name, description, attributes, computed, audit⟩
  else none

/-- The definition that a JSON value shows. -/
def ofJson? (v : Json) : Option Definition :=
  ofNode? .json (.ofJson v)

/-- The JSON form of a definition. -/
def toJson (d : Definition) : Json :=
  .object
    [("attributes", .array (d.attributes.map AttributeEntry.toJson)),
      ("computedAttributes", .array (d.computed.map ComputedEntry.toJson)),
      ("createdBy", .ofText? d.audit.createdBy),
      ("createdTimestamp", Audit.timestampJson d.audit.created),
      ("description", .ofText? d.description),
      ("id", .ofText? (d.id.map Uuid.text)),
      ("key", .string d.key),
      ("lastUpdatedBy", .ofText? d.audit.lastUpdatedBy),
      ("lastUpdatedTimestamp", Audit.timestampJson d.audit.lastUpdated),
      ("name", .ofText? d.name)]

end Definition

end EntityModel
