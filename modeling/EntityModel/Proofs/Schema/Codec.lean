import EntityModel.Proofs.Calendar.Timestamp
import EntityModel.Proofs.Json.Text
import EntityModel.Proofs.Uuid
import EntityModel.Schema.Codec

/-!
# Definitions read back

Reading a record takes every field from the object that was written for it, whatever order the
fields have there, and a missing value from null. So each part of a definition is read back from its
JSON form, and with them the definition.
-/

namespace EntityModel

/-! ### JSON values as nodes -/

namespace Node

mutual

/-- Integers in JSON have at most 64 bits. -/
lemma hasWideInteger_ofJson (v : Json) : (ofJson v).hasWideInteger = false := by
  match v with
  | .null | .bool _ | .number _ | .string _ => rfl
  | .array items => exact anyWideInteger_ofItems items
  | .object fields => exact anyWideEntry_ofFields fields

lemma anyWideInteger_ofItems (items : List Json) : anyWideInteger (ofItems items) = false := by
  match items with
  | [] => rfl
  | v :: vs =>
    rw [ofItems, anyWideInteger, hasWideInteger_ofJson v, anyWideInteger_ofItems vs]
    rfl

lemma anyWideEntry_ofFields (fields : List (String × Json)) :
    anyWideEntry (ofFields fields) = false := by
  match fields with
  | [] => rfl
  | (k, v) :: fs =>
    rw [ofFields, anyWideEntry, hasWideInteger_ofJson v, anyWideEntry_ofFields fs]
    rfl

end

lemma isReadable_ofJson (above : Nat) (v : Json) : (ofJson v).isReadable .json above = true := by
  rw [isReadable, hasWideInteger_ofJson]
  rfl

lemma ofItems_eq_map (items : List Json) : ofItems items = items.map ofJson := by
  induction items with
  | nil => rfl
  | cons v vs ih => rw [ofItems, ih, List.map_cons]

lemma ofFields_eq_map (fields : List (String × Json)) :
    ofFields fields = fields.map fun f => (.text f.1, ofJson f.2) := by
  induction fields with
  | nil => rfl
  | cons f fs ih => rw [ofFields, ih, List.map_cons]

/-! ### Readers and writers -/

/-- A reader gives back what a writer has written. -/
def Inverts {α : Type} (read : Node → Option α) (write : α → Json) : Prop :=
  ∀ a, read (ofJson (write a)) = some a

lemma inverts_text : Inverts text? .string := fun _ => rfl

lemma inverts_typedText : Inverts typedText? .string := fun _ => rfl

lemma inverts_uuid : Inverts uuid? fun u => .string u.text := fun u => Uuid.ofText?_text u

lemma inverts_timestamp : Inverts timestamp? fun t => .string t.text := by
  intro t
  show (Timestamp.ofText t.text).toOption = some t
  rw [t.ofText_text]
  rfl

section Inverts

variable {α : Type} {read : Node → Option α} {write : α → Json}

lemma Inverts.listOf (h : Inverts read write) :
    Inverts (listOf read) fun as => .array (as.map write) := by
  intro as
  show (ofItems (as.map write)).mapM read = some as
  rw [ofItems_eq_map]
  induction as with
  | nil => rfl
  | cons a as ih =>
    rw [List.map_cons, List.map_cons, List.mapM_cons, h a, ih]
    rfl

end Inverts

end Node

/-! ### Records -/

namespace Record

/-- The record of the fields of an object. -/
def ofObject (fields : List (String × Json)) : Record :=
  fields.map fun f => (f.1, .ofJson f.2)

section OfObject

variable {names : List String} {fields : List (String × Json)}

lemma find?_eq_self {s : String} (h : s ∈ names) : names.find? (· = s) = some s := by
  induction names with
  | nil => cases h
  | cons name names ih =>
    by_cases hname : name = s
    · simp [hname]
    · rw [List.find?_cons_of_neg (by simpa using hname)]
      exact ih ((List.mem_cons.1 h).resolve_left (Ne.symm hname))

lemma byText_text {s : String} (h : s ∈ names) : byText names (.text s) = some (some s) :=
  congrArg some (find?_eq_self h)

/-- An object whose fields are known and different is read as their record. -/
lemma ofEntries?_ofFields {naming : Naming}
    (hnaming : ∀ f ∈ fields, naming names (.text f.1) = some (some f.1))
    (hnodup : (fields.map (·.1)).Nodup) :
    ofEntries? naming names (Node.ofFields fields) = some (ofObject fields) := by
  have hread : ((Node.ofFields fields).mapM fun f =>
      (naming names f.1).map fun name? => name?.map (·, f.2)) =
        some ((ofObject fields).map some) := by
    rw [Node.ofFields_eq_map]
    clear hnodup
    induction fields with
    | nil => rfl
    | cons f fs ih =>
      obtain ⟨hf, hfs⟩ := List.forall_mem_cons.1 hnaming
      rw [List.map_cons, List.mapM_cons, ih hfs, hf]
      rfl
  have hknown : ((ofObject fields).map some).filterMap id = ofObject fields := by
    rw [List.filterMap_map]
    exact List.filterMap_some
  have hkeys : (ofObject fields).map (·.1) = fields.map (·.1) := by
    rw [ofObject, List.map_map]
    rfl
  calc
    ofEntries? naming names (Node.ofFields fields) =
        ((Node.ofFields fields).mapM fun f =>
          (naming names f.1).map fun name? => name?.map (·, f.2)).bind fun fs =>
            if ((fs.filterMap id).map (·.1)).Nodup then some (fs.filterMap id) else none := rfl
    _ = some (ofObject fields) := by
      rw [hread, Option.bind_some, hknown, hkeys, if_pos hnodup]

/-- A field of an object's record is the node of the field. -/
lemma get?_ofObject (name : String) :
    (ofObject fields).get? name = (Dict.get? fields name).map .ofJson := by
  induction fields with
  | nil => rfl
  | cons f fs ih =>
    by_cases hf : f.1 = name
    · simp [get?, ofObject, Dict.get?, hf]
    · simpa [get?, ofObject, Dict.get?, hf] using ih

variable {α : Type} {read : Node → Option α} {write : α → Json} {name : String}

lemma required_ofObject (h : Node.Inverts read write) {a : α}
    (hget : Dict.get? fields name = some (write a)) :
    (ofObject fields).required name read = some a := by
  rw [required, get?_ofObject, hget]
  exact h a

lemma withDefault_ofObject (h : Node.Inverts read write) {a default : α}
    (hget : Dict.get? fields name = some (write a)) :
    (ofObject fields).withDefault name default read = some a := by
  rw [withDefault, get?_ofObject, hget]
  exact h a

/-- A field that may be null is read back, if null is no value. -/
lemma optional_ofObject (h : Node.Inverts read write) (hnull : read .null = none) {x : Option α}
    (hget : Dict.get? fields name = some (.ofOption (x.map write))) :
    (ofObject fields).optional name read = some x := by
  rw [optional, get?_ofObject, hget]
  cases x with
  | none => rfl
  | some a =>
    have hpresent : (Node.ofJson (write a)).isAbsent = false := by
      cases hwrite : write a with
      | null =>
        have hread := h a
        rw [hwrite] at hread
        exact absurd (hnull.symm.trans hread) (by simp)
      | _ => rfl
    show (if (Node.ofJson (write a)).isAbsent then _
      else (read (Node.ofJson (write a))).map some) = _
    rw [hpresent, h a]
    rfl

end OfObject

end Record

namespace Node

variable {names : List String} {fields : List (String × Json)}

lemma mapping?_ofJson_object (hnames : ∀ f ∈ fields, f.1 ∈ names)
    (hnodup : (fields.map (·.1)).Nodup) :
    mapping? Record.byText names (ofJson (.object fields)) = some (.ofObject fields) :=
  Record.ofEntries?_ofFields (fun f hf => Record.byText_text (hnames f hf)) hnodup

lemma record?_ofJson_object (hnames : ∀ f ∈ fields, f.1 ∈ names)
    (hnodup : (fields.map (·.1)).Nodup) (format : DocumentFormat) :
    record? format names (ofJson (.object fields)) = some (.ofObject fields) := by
  rw [record?, mapping?_ofJson_object hnames hnodup]
  rfl

end Node

/-! ### The parts of a definition -/

lemma Json.ofText?_map {α : Type} (text : α → String) (x : Option α) :
    ofText? (x.map text) = ofOption (x.map fun a => .string (text a)) := by
  rw [ofText?, Option.map_map]
  rfl

lemma Configuration.inverts : Node.Inverts (ofNode? .json) toJson := by
  intro c
  cases c with
  | documentClassifier name => rfl
  | documentProcessing id => rfl

section Parts

variable {fields : List (String × Json)}

lemma NamedType.ofRecord?_ofObject {t : NamedType}
    (htype : Dict.get? fields "type" = some (.string t.typeName))
    (hcontent : Dict.get? fields "contentType" = some (.ofText? t.contentType))
    (hschema : Dict.get? fields "entitySchema" = some (.ofText? t.entitySchema)) :
    ofRecord? (.ofObject fields) = some t := by
  rw [ofRecord?, Record.required_ofObject Node.inverts_text htype,
    Record.optional_ofObject Node.inverts_text rfl hcontent,
    Record.optional_ofObject Node.inverts_text rfl hschema]
  rfl

lemma Audit.ofRecord?_ofObject {a : Audit}
    (hcreatedBy : Dict.get? fields "createdBy" = some (.ofText? a.createdBy))
    (hlastUpdatedBy : Dict.get? fields "lastUpdatedBy" = some (.ofText? a.lastUpdatedBy))
    (hcreated : Dict.get? fields "createdTimestamp" = some (timestampJson a.created))
    (hlastUpdated :
      Dict.get? fields "lastUpdatedTimestamp" = some (timestampJson a.lastUpdated)) :
    ofRecord? (.ofObject fields) = some a := by
  rw [timestampJson, Json.ofText?_map] at hcreated hlastUpdated
  rw [ofRecord?, Record.optional_ofObject Node.inverts_typedText rfl hcreatedBy,
    Record.optional_ofObject Node.inverts_typedText rfl hlastUpdatedBy,
    Record.optional_ofObject Node.inverts_timestamp rfl hcreated,
    Record.optional_ofObject Node.inverts_timestamp rfl hlastUpdated]
  rfl

end Parts

lemma AttributeEntry.inverts : Node.Inverts (ofNode? .json) toJson := by
  intro a
  rw [ofNode?, toJson, Node.record?_ofJson_object (by simp [fieldNames]) (by simp),
    Option.bind_eq_bind, Option.bind_some,
    Record.required_ofObject (a := a.name) Node.inverts_text (by simp [Dict.get?]),
    Option.bind_eq_bind, Option.bind_some,
    NamedType.ofRecord?_ofObject (t := a.type) (by simp [Dict.get?]) (by simp [Dict.get?])
      (by simp [Dict.get?]),
    Option.bind_eq_bind, Option.bind_some,
    Record.withDefault_ofObject (a := a.configurations) Configuration.inverts.listOf
      (by simp [Dict.get?])]
  rfl

lemma ComputedEntry.inverts : Node.Inverts (ofNode? .json) toJson := by
  intro c
  rw [ofNode?, toJson, Node.record?_ofJson_object (by simp [fieldNames]) (by simp),
    Option.bind_eq_bind, Option.bind_some,
    Record.required_ofObject (a := c.name) Node.inverts_text (by simp [Dict.get?]),
    Option.bind_eq_bind, Option.bind_some,
    NamedType.ofRecord?_ofObject (t := c.type) (by simp [Dict.get?]) (by simp [Dict.get?])
      (by simp [Dict.get?]),
    Option.bind_eq_bind, Option.bind_some,
    Record.required_ofObject (a := c.expression) Node.inverts_text (by simp [Dict.get?])]
  rfl

/-! ### Definitions -/

namespace Definition

lemma hasReadableExtras_ofJson (v : Json) : hasReadableExtras .json (.ofJson v) = true := by
  match v with
  | .null | .bool _ | .number _ | .string _ | .array _ => rfl
  | .object fields =>
    show (Node.ofFields fields).all _ = true
    rw [Node.ofFields_eq_map, List.all_map, List.all_eq_true]
    intro f _
    show (_ || (Node.ofJson f.2).isReadable .json 1) = true
    rw [Node.isReadable_ofJson, Bool.or_true]

lemma inverts : Node.Inverts (ofNode? .json) toJson := by
  intro d
  rw [ofNode?, hasReadableExtras_ofJson, toJson,
    Node.mapping?_ofJson_object (by simp [fieldNames, Audit.fieldNames]) (by simp),
    Option.bind_eq_bind, Option.bind_some,
    Record.optional_ofObject (x := d.id) Node.inverts_uuid rfl
      (by simp [Dict.get?, Json.ofText?_map]),
    Option.bind_eq_bind, Option.bind_some,
    Record.required_ofObject (a := d.key) Node.inverts_text (by simp [Dict.get?]),
    Option.bind_eq_bind, Option.bind_some,
    Record.optional_ofObject (x := d.name) Node.inverts_text rfl
      (by simp [Dict.get?, Json.ofText?]),
    Option.bind_eq_bind, Option.bind_some,
    Record.optional_ofObject (x := d.description) Node.inverts_text rfl
      (by simp [Dict.get?, Json.ofText?]),
    Option.bind_eq_bind, Option.bind_some,
    Record.withDefault_ofObject (a := d.attributes) AttributeEntry.inverts.listOf
      (by simp [Dict.get?]),
    Option.bind_eq_bind, Option.bind_some,
    Record.withDefault_ofObject (a := d.computed) ComputedEntry.inverts.listOf
      (by simp [Dict.get?]),
    Option.bind_eq_bind, Option.bind_some,
    Audit.ofRecord?_ofObject (a := d.audit) (by simp [Dict.get?]) (by simp [Dict.get?])
      (by simp [Dict.get?]) (by simp [Dict.get?])]
  rfl

end Definition

/-! ### Texts of definitions -/

section Readable

variable (depth : Nat)

lemma Json.readable_ofText? (s : Option String) : Readable depth (ofText? s) := by
  cases s with
  | none => exact .null depth
  | some s => exact .string depth s

lemma Json.readable_array_map {α : Type} {write : α → Json} {depth : Nat}
    (h : ∀ a, Readable depth (write a)) (as : List α) :
    Readable (depth + 1) (.array (as.map write)) := by
  refine .array fun v hv => ?_
  obtain ⟨a, -, rfl⟩ := List.mem_map.1 hv
  exact h a

lemma Configuration.readable_toJson (c : Configuration) : Json.Readable (depth + 1) c.toJson := by
  cases c
  all_goals
    refine .object (Dict.sorted_of_keys ?_) (by simp [Json.Readable.string])
    simp only [Dict.keys, List.map_cons, List.map_nil]
    decide

lemma AttributeEntry.readable_toJson (a : AttributeEntry) :
    Json.Readable (depth + 3) a.toJson := by
  have hconfigurations := Json.readable_array_map (Configuration.readable_toJson depth)
    a.configurations
  refine .object (Dict.sorted_of_keys ?_) ?_
  · simp only [Dict.keys, List.map_cons, List.map_nil]
    decide
  · simp [Json.Readable.string, Json.readable_ofText?, hconfigurations]

lemma ComputedEntry.readable_toJson (c : ComputedEntry) :
    Json.Readable (depth + 1) c.toJson := by
  refine .object (Dict.sorted_of_keys ?_) ?_
  · simp only [Dict.keys, List.map_cons, List.map_nil]
    decide
  · simp [Json.Readable.string, Json.readable_ofText?]

lemma Definition.readable_toJson (d : Definition) : Json.Readable (depth + 5) d.toJson := by
  have hattributes := Json.readable_array_map (AttributeEntry.readable_toJson depth) d.attributes
  have hcomputed := Json.readable_array_map (ComputedEntry.readable_toJson (depth + 2)) d.computed
  refine .object (Dict.sorted_of_keys ?_) ?_
  · simp only [Dict.keys, List.map_cons, List.map_nil]
    decide
  · simp [Json.Readable.string, Json.readable_ofText?, Audit.timestampJson, hattributes,
      hcomputed]

end Readable

/-- A definition is read back from its JSON form and from every text of that, to which belong both
forms of writing; so the schema it describes, or the error, is the same. -/
theorem Definition.reads_toJson (d : Definition) :
    ofJson? d.toJson = some d ∧ (ofJson? d.toJson).map toSchema = some d.toSchema ∧
      (∀ text, d.toJson.HasText text → (Json.parse? text).bind ofJson? = some d) ∧
      d.toJson.HasText d.toJson.compact ∧ d.toJson.HasText d.toJson.pretty := by
  have hread : ofJson? d.toJson = some d := inverts d
  have hreadable : Json.Readable Json.maxDepth d.toJson := readable_toJson 122 d
  refine ⟨hread, ?_, ?_, Json.hasText_compact hreadable, Json.hasText_pretty hreadable⟩
  · rw [hread]
    rfl
  · intro text htext
    rw [Json.parse?_of_hasText htext]
    exact hread

/-- Tickets, with a description missing and half of the audit data. -/
def exampleTicket : Definition where
  key := "ticket"
  name := some "Ticket"
  attributes :=
    [{ name := "scan", type := { typeName := "Document" },
        configurations := [.documentProcessing "ocr", .documentClassifier "paper"] }]
  computed := [{ name := "label", type := { typeName := "String" }, expression := "scan.name" }]
  audit :=
    { createdBy := some "desk \"A\""
      created := some ⟨⟨2024, 2, 29, by decide⟩, ⟨23, 59, 59, 1000000000, by decide⟩, by decide⟩ }

theorem Definition.reads_toJson_exampleTicket :
    exampleTicket.toJson.HasText exampleTicket.toJson.compact ∧
      (Json.parse? exampleTicket.toJson.compact).bind ofJson? = some exampleTicket := by
  have htext := Json.hasText_compact (readable_toJson 122 exampleTicket)
  obtain ⟨-, -, hread, -⟩ := reads_toJson exampleTicket
  exact ⟨htext, hread _ htext⟩

end EntityModel
