import EntityModel.Proofs.Mapping.Fault
import EntityModel.Proofs.Registry.Run

/-!
# Registries without unresolved references

The references that a registry is searched for are those of the stored attributes of its schemas. If
none of them is unresolved, the registry is a closed look-up, so mappings with it only fail at their
fields.
-/

namespace EntityModel

namespace Registry

variable {r : Registry} {s : Schema}

lemma unresolved_eq_nil_iff :
    r.unresolved = [] ↔ ∀ s ∈ r.schemas, ∀ p ∈ s.related, p.2 ∈ r.keys := by
  rw [unresolved, List.flatMap_eq_nil_iff]
  simp only [List.map_eq_nil_iff, List.filter_eq_nil_iff, Bool.not_eq_true, Bool.not_eq_false',
    contains_iff]

/-- Without unresolved references the schemas of a registry only refer to each other. -/
lemma resolved_of_mem (h : r.unresolved = []) (hs : s ∈ r.schemas) : s.Resolved r.get? := by
  intro a ha key hkey
  have hrelated := Schema.get?_related_eq_some_iff.2 ⟨a, ha, rfl, hkey⟩
  have hmem := unresolved_eq_nil_iff.1 h s hs _ (Dict.mem_of_get?_eq_some hrelated)
  exact Option.isSome_iff_exists.1 (contains_iff.2 hmem)

theorem closed_of_unresolved (h : r.unresolved = []) : SchemaLookup.Closed r.get? where
  key := key_of_get?
  resolved hs := resolved_of_mem h (List.mem_of_find?_eq_some hs)

/-- After any calls on an empty registry that leave no reference unresolved, a mapping to one of its
schemas fails at its fields only: one is not declared, or a value has no place in the declared type
or is not converted to it. A nested schema is always found, and the entity refuses no value. -/
theorem mapping_fails_at_fields (calls : List Registration) (h : (of calls).unresolved = [])
    (hs : s ∈ (of calls).schemas) (fields : Dict Json) {cause : MappingError}
    (hcause : (Mapping.ofMap { lookup := (of calls).get? } s fields).result = .error cause) :
    MappingError.OfFields (of calls).get? s fields cause ∧
      (∀ schema name key, cause ≠ .missingSchema schema name key) ∧
      ∀ inner, cause ≠ .entity inner := by
  have hfields : MappingError.OfFields (of calls).get? s fields cause :=
    Mapping.ofFields_of_readFields (closed_of_unresolved h) fields (e := .new s)
      (resolved_of_mem h hs) hcause
  exact ⟨hfields, hfields.ne⟩

end Registry

/-! ### An example -/

/-- A file system without files. -/
def exampleNowhere : Files where
  toParsers := .plain fun _ => "no document"
  text _ := .error "no file"
  names? _ := none

/-- Calls of which two fail: there is no directory, and one schema is registered already. -/
def exampleCalls : List Registration :=
  [.schema examplePerson, .directory exampleNowhere "schemas", .schema exampleAddress,
    .schema examplePerson]

/-- The generic form of a person one of whose addresses has a field that is not declared. -/
def exampleFaultyFields : Dict Json :=
  [("others", .array [.object [("label", .null)], .object [("town", .string "Oslo")]])]

lemma of_exampleCalls : Registry.of exampleCalls = ⟨[examplePerson, exampleAddress]⟩ := rfl

lemma unresolved_of_exampleCalls : (Registry.of exampleCalls).unresolved = [] := by
  rw [of_exampleCalls]
  rfl

lemma ofMap_exampleFaultyFields :
    (Mapping.ofMap { lookup := (Registry.of exampleCalls).get? } examplePerson
      exampleFaultyFields).result = .error (.unknownKey "address" "town") := by
  rfl

theorem mapping_fails_at_exampleFaultyFields :
    (Registry.of exampleCalls).unresolved = [] ∧
      examplePerson ∈ (Registry.of exampleCalls).schemas ∧
      (Mapping.ofMap { lookup := (Registry.of exampleCalls).get? } examplePerson
        exampleFaultyFields).result = .error (.unknownKey "address" "town") ∧
      MappingError.OfFields (Registry.of exampleCalls).get? examplePerson exampleFaultyFields
        (.unknownKey "address" "town") := by
  have hs : examplePerson ∈ (Registry.of exampleCalls).schemas := List.mem_cons_self
  exact ⟨unresolved_of_exampleCalls, hs, ofMap_exampleFaultyFields,
    (Registry.mapping_fails_at_fields exampleCalls unresolved_of_exampleCalls hs _
      ofMap_exampleFaultyFields).1⟩

end EntityModel
