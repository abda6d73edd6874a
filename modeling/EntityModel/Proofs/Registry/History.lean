import EntityModel.Proofs.Registry.Loading
import EntityModel.Proofs.Registry.References

/-!
# The history of a registry

What calls on an empty registry leave is told call by call: every call adds schemas behind those
that are there, so the order of the keys is that of their first registration, and each key keeps its
schema. The unresolved references are listed in that order too, and by name within a schema.
-/

namespace EntityModel

namespace Registry

variable {r r' : Registry} {s : Schema} {key : String}

/-! ### Keys -/

/-- Every key is registered once and leads to the schema that bears it. -/
structure Keyed (r : Registry) : Prop where
  nodup : r.keys.Nodup
  found : ∀ key ∈ r.keys, ∃ s, r.get? key = some s
  get?_iff : ∀ key s, r.get? key = some s ↔ s ∈ r.schemas ∧ s.key = key

lemma keyed_of_nodup (h : r.keys.Nodup) : r.Keyed where
  nodup := h
  found _ hkey := Option.isSome_iff_exists.1 (contains_iff.2 hkey)
  get?_iff _ _ := get?_eq_some_iff h

/-- Growing keeps the schemas and their places. -/
lemma prefix_of_grows (h : r.Grows r') : r.schemas <+: r'.schemas := by
  induction h with
  | refl => exact List.prefix_rfl
  | tail _ hadds ih =>
    obtain ⟨s, -, rfl⟩ := hadds
    exact ih.trans (List.prefix_append _ _)

/-! ### Calls after others -/

lemma of_append (calls more : List Registration) : of (calls ++ more) = (of calls).after more := by
  rw [of, of, after, after, after, List.foldl_append]

lemma of_concat (calls : List Registration) (call : Registration) :
    of (calls ++ [call]) = (of calls).perform call :=
  of_append calls [call]

lemma prefix_of_append (calls more : List Registration) :
    (of calls).schemas <+: (of (calls ++ more)).schemas := by
  rw [of_append]
  exact prefix_of_grows (grows_after more _)

/-- Only a directory can fail and change the registry. -/
lemma Added.eq_nil_of_error {call : Registration} {schemas : List Schema} {cause : RegistryError}
    (h : Added r call schemas (.error cause)) (hcall : ∀ files path, call ≠ .directory files path) :
    schemas = [] := by
  cases h with
  | duplicate => rfl
  | noFile => rfl
  | noDirectory => rfl
  | unlisted => rfl
  | broken => exact absurd rfl (hcall _ _)

lemma Added.length_of_ok {call : Registration} {schemas : List Schema} {n : Nat}
    (h : Added r call schemas (.ok n)) : schemas.length = n := by
  cases h <;> rfl

/-! ### Unresolved references -/

/-- The references that are not resolved are listed once, in the order of the schemas and, within a
schema, of the names. -/
structure ListsUnresolved (r : Registry) : Prop where
  mem_iff : ∀ u, u ∈ r.unresolved ↔
    (∃ s ∈ r.schemas, s.key = u.schema ∧
      ∃ a ∈ s.attributes, a.name = u.name ∧ a.type.schemaKey? = some u.missing) ∧
    u.missing ∉ r.keys
  nodup : r.unresolved.Nodup
  ordered : r.unresolved.Pairwise fun u v =>
    r.keys.idxOf u.schema < r.keys.idxOf v.schema ∨ u.schema = v.schema ∧ u.name < v.name

lemma mem_unresolved_iff {u : UnresolvedReference} : u ∈ r.unresolved ↔
    (∃ s ∈ r.schemas, s.key = u.schema ∧
      ∃ a ∈ s.attributes, a.name = u.name ∧ a.type.schemaKey? = some u.missing) ∧
    u.missing ∉ r.keys := by
  obtain ⟨schema, name, missing⟩ := u
  simp only [unresolved, List.mem_flatMap, List.mem_map, List.mem_filter, Prod.exists,
    UnresolvedReference.mk.injEq, Schema.mem_related_iff, Bool.not_eq_true',
    ← Bool.not_eq_true, contains_iff]
  constructor
  · rintro ⟨s, hs, name, key, ⟨ha, hkey⟩, hschema, rfl, rfl⟩
    exact ⟨⟨s, hs, hschema, ha⟩, hkey⟩
  · rintro ⟨⟨s, hs, hschema, ha⟩, hkey⟩
    exact ⟨s, hs, name, missing, ⟨ha, hkey⟩, hschema, rfl, rfl⟩

lemma pairwise_idxOf_keys (h : r.keys.Nodup) :
    r.schemas.Pairwise fun s t => r.keys.idxOf s.key < r.keys.idxOf t.key := by
  rw [List.pairwise_iff_getElem]
  intro i j hi hj hij
  have hplace (k : Nat) (hk : k < r.schemas.length) : r.keys.idxOf r.schemas[k].key = k := by
    have hk' : k < r.keys.length := by rwa [keys, List.length_map]
    have hget : r.keys[k] = r.schemas[k].key := by simp [keys]
    rw [← hget]
    exact h.idxOf_getElem k hk'
  rwa [hplace i hi, hplace j hj]

lemma pairwise_unresolved (h : r.keys.Nodup) : r.unresolved.Pairwise fun u v =>
    r.keys.idxOf u.schema < r.keys.idxOf v.schema ∨ u.schema = v.schema ∧ u.name < v.name := by
  rw [unresolved, List.pairwise_flatMap]
  constructor
  · intro s _
    rw [List.pairwise_map]
    refine List.Pairwise.filter _ ?_
    exact (Dict.sorted_ofList _).imp fun hlt => .inr ⟨rfl, hlt⟩
  · refine (pairwise_idxOf_keys h).imp fun {s t} hlt u hu v hv => ?_
    obtain ⟨_, -, rfl⟩ := List.mem_map.1 hu
    obtain ⟨_, -, rfl⟩ := List.mem_map.1 hv
    exact .inl hlt

lemma listsUnresolved_of_nodup (h : r.keys.Nodup) : r.ListsUnresolved where
  mem_iff _ := mem_unresolved_iff
  ordered := pairwise_unresolved h
  nodup := by
    refine (pairwise_unresolved h).imp ?_
    rintro u v (hlt | ⟨-, hlt⟩) rfl
    · exact Nat.lt_irrefl _ hlt
    · exact Std.lt_irrefl hlt

/-! ### Runs -/

/-- After any calls on an empty registry every key leads to the schema that bears it, and what is
registered stays in its place. A further call adds schemas as it answers: a failure adds nothing,
unless it is that of a document in a directory, which leaves the schemas of the documents before it.
The references to keys that are not registered are listed once, by schema and name. -/
theorem history (calls : List Registration) :
    (of calls).Keyed ∧
    (∀ more, (of calls).schemas <+: (of (calls ++ more)).schemas) ∧
    (∀ call, ∃ schemas, of (calls ++ [call]) = ⟨(of calls).schemas ++ schemas⟩ ∧
      Added (of calls) call schemas ((of calls).answer call)) ∧
    (∀ call cause, (of calls).answer call = .error cause →
      (∀ files path, call ≠ .directory files path) → of (calls ++ [call]) = of calls) ∧
    (∀ call n, (of calls).answer call = .ok n →
      (of (calls ++ [call])).size = (of calls).size + n) ∧
    (of calls).ListsUnresolved := by
  have hnodup := nodup_keys_of calls
  refine ⟨keyed_of_nodup hnodup, prefix_of_append calls, ?_, ?_, ?_,
    listsUnresolved_of_nodup hnodup⟩
  · intro call
    rw [of_concat]
    exact added_perform _ call
  · intro call cause herror hcall
    obtain ⟨schemas, heq, hadded⟩ := added_perform (of calls) call
    rw [herror] at hadded
    rw [of_concat, heq, hadded.eq_nil_of_error hcall, List.append_nil]
  · intro call n hok
    obtain ⟨schemas, heq, hadded⟩ := added_perform (of calls) call
    rw [hok] at hadded
    rw [of_concat, heq, size, List.length_append, hadded.length_of_ok, size]

end Registry

/-! ### An example -/

/-- The schema of tags, which have no attributes. -/
def exampleTag : Schema where
  id := none
  key := "tag"
  name := "tag"
  description := none
  attributes := []
  computed := []
  configurations := []
  audit := {}
  names_nodup := List.nodup_nil
  acyclic := findCycle_nil

/-- A directory of three schema documents. The second one bears the key of persons, and the third
one is never reached. -/
def exampleDirectory : Files where
  toParsers := .plain fun _ => "no document"
  text path :=
    if path = "schemas/a.yaml" then .ok "key: tag"
    else if path = "schemas/c.json" then .ok "key: person"
    else .error "no file"
  names? path :=
    if path = "schemas" then some (.ok ["d.yml", "c.json", ".yaml", "a.yaml", "notes.txt"])
    else none

namespace Registry

lemma loadFile_exampleTag : (loadFile exampleDirectory ⟨[examplePerson]⟩ "schemas/a.yaml").result =
    .ok (⟨[examplePerson, exampleTag]⟩, "tag") := by
  have hread : exampleDirectory.definition "key: tag" = .ok { key := "tag" } := by decide +kernel
  refine loadFile_eq_ok_iff.2 ⟨exampleTag, ?_, by decide, rfl, rfl⟩
  rw [readSchema, show exampleDirectory.text "schemas/a.yaml" = .ok "key: tag" from rfl]
  simp only [hread]
  rfl

lemma loadFile_examplePerson :
    (loadFile exampleDirectory ⟨[examplePerson, exampleTag]⟩ "schemas/c.json").result =
      .error (.duplicate "person") := by
  have hread : exampleDirectory.definition "key: person" = .ok { key := "person" } := by
    decide +kernel
  have hschema : ((readSchema exampleDirectory "schemas/c.json").result).map (·.key) =
      .ok "person" := by
    rw [readSchema, show exampleDirectory.text "schemas/c.json" = .ok "key: person" from rfl]
    simp only [hread]
    rfl
  obtain ⟨s, hs, hkey⟩ := map_eq_ok_iff.1 hschema
  refine Logged.result_bind_eq_error_iff.2
    (.inr ⟨s, hs, Logged.result_bind_eq_error_iff.2 (.inl ?_)⟩)
  exact register_eq_error_iff.2 ⟨by rw [hkey]; decide, by rw [hkey]⟩

lemma schemaPaths_exampleDirectory :
    schemaPaths "schemas" ["d.yml", "c.json", ".yaml", "a.yaml", "notes.txt"] =
      ["schemas/a.yaml", "schemas/c.json", "schemas/d.yml"] := by
  have hfilter : ["d.yml", "c.json", ".yaml", "a.yaml", "notes.txt"].filter isSchemaName =
      ["d.yml", "c.json", "a.yaml"] := rfl
  have hsort : (["d.yml", "c.json", "a.yaml"].mergeSort fun a b => a ≤ b) =
      ["a.yaml", "c.json", "d.yml"] := by
    simp [List.mergeSort, List.MergeSort.Internal.splitInTwo]
  rw [schemaPaths, hfilter, hsort]
  rfl

lemma loadDirectory_exampleDirectory :
    (loadDirectory exampleDirectory ⟨[examplePerson]⟩ "schemas").1 =
        ⟨[examplePerson, exampleTag]⟩ ∧
      (loadDirectory exampleDirectory ⟨[examplePerson]⟩ "schemas").2.result =
        .error (.duplicate "person") := by
  rw [loadDirectory, show exampleDirectory.names? "schemas" =
    some (.ok ["d.yml", "c.json", ".yaml", "a.yaml", "notes.txt"]) from rfl]
  simp only [schemaPaths_exampleDirectory, loadFiles, loadFile_exampleTag, loadFile_examplePerson]
  exact ⟨trivial, rfl⟩

/-- The documents before the one that fails stay. -/
theorem history_of_exampleDirectory :
    (of [.schema examplePerson]).answer (.directory exampleDirectory "schemas") =
        .error (.duplicate "person") ∧
      of [.schema examplePerson, .directory exampleDirectory "schemas"] =
        ⟨[examplePerson, exampleTag]⟩ ∧
      Added (of [.schema examplePerson]) (.directory exampleDirectory "schemas") [exampleTag]
        (.error (.duplicate "person")) ∧
      (of [.schema examplePerson, .directory exampleDirectory "schemas"]).Keyed ∧
      (of [.schema examplePerson, .directory exampleDirectory "schemas"]).ListsUnresolved := by
  have hanswer : (of [.schema examplePerson]).answer (.directory exampleDirectory "schemas") =
      .error (.duplicate "person") := loadDirectory_exampleDirectory.2
  have hregistry : of [.schema examplePerson, .directory exampleDirectory "schemas"] =
      ⟨[examplePerson, exampleTag]⟩ := loadDirectory_exampleDirectory.1
  obtain ⟨-, -, hcall, -⟩ := history [.schema examplePerson]
  obtain ⟨schemas, heq, hadded⟩ := hcall (.directory exampleDirectory "schemas")
  obtain rfl : [exampleTag] = schemas := by
    rw [List.singleton_append, hregistry] at heq
    injection heq with heq
    exact List.append_cancel_left (show [examplePerson] ++ [exampleTag] = _ from heq)
  rw [hanswer] at hadded
  obtain ⟨hkeyed, -, -, -, -, hlists⟩ :=
    history [.schema examplePerson, .directory exampleDirectory "schemas"]
  exact ⟨hanswer, hregistry, hadded, hkeyed, hlists⟩

end Registry

end EntityModel
