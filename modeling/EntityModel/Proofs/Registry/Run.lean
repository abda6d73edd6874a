import EntityModel.Proofs.Log
import EntityModel.Proofs.Schema.Lookup
import EntityModel.Registry
import Mathlib.Logic.Relation

/-!
# How registries grow

Whatever is called on a registry, and whether it fails or not, schemas are only ever added to it,
one at a time and under keys that are new. So no key of a registry that started empty occurs twice,
and looking up a key finds the schema that bears it.
-/

namespace EntityModel

/-- A call that registers schemas: a schema itself, or the documents of a file or of a directory, in
the file system as it is at the time of the call. -/
inductive Registration where
  | schema (s : Schema)
  | file (files : Files) (path : String)
  | directory (files : Files) (path : String)

namespace Registry

/-- The registry that a call leaves; one that fails may only have loaded part of a directory. -/
def perform (r : Registry) : Registration → Registry
  | .schema s => (r.register s).result.toOption.getD r
  | .file files path => ((r.loadFile files path).result.toOption.map (·.1)).getD r
  | .directory files path => (r.loadDirectory files path).1

/-- The registry after calls in order, whether they fail or not. -/
def after (r : Registry) (calls : List Registration) : Registry :=
  calls.foldl perform r

/-- The registry that calls make of an empty one. -/
def of (calls : List Registration) : Registry :=
  ({} : Registry).after calls

/-- One schema is added, under a new key. -/
def Adds (r r' : Registry) : Prop :=
  ∃ s, s.key ∉ r.keys ∧ r' = ⟨r.schemas ++ [s]⟩

/-- Schemas are added, each under a new key. -/
abbrev Grows : Registry → Registry → Prop :=
  Relation.ReflTransGen Adds

variable {r r' : Registry} {s : Schema} {files : Files} {path key : String} {cause : RegistryError}

lemma contains_iff : r.contains key ↔ key ∈ r.keys := by
  rw [contains, get?, List.find?_isSome, keys, List.mem_map]
  simp only [decide_eq_true_eq]

/-! ### Steps -/

lemma register_eq_ok_iff :
    (r.register s).result = .ok r' ↔ s.key ∉ r.keys ∧ r' = ⟨r.schemas ++ [s]⟩ := by
  rw [register, ← contains_iff]
  split_ifs with h
  · simp [h]
  · simp [h, Logged.result_bind, Except.bind, eq_comm]

lemma register_eq_error_iff :
    (r.register s).result = .error cause ↔ s.key ∈ r.keys ∧ cause = .duplicate s.key := by
  rw [register, ← contains_iff]
  split_ifs with h
  · simp [h, eq_comm]
  · simp [h, Logged.result_bind, Except.bind]

lemma loadFile_eq_ok_iff : (r.loadFile files path).result = .ok (r', key) ↔
    ∃ s, (readSchema files path).result = .ok s ∧ s.key ∉ r.keys ∧ r' = ⟨r.schemas ++ [s]⟩ ∧
      s.key = key := by
  simp only [loadFile, Logged.result_bind_eq_ok_iff, register_eq_ok_iff, Logged.result_pure,
    Except.ok.injEq, Prod.mk.injEq]
  constructor
  · rintro ⟨s, hs, t, ⟨hkey, rfl⟩, rfl, rfl⟩
    exact ⟨s, hs, hkey, rfl, rfl⟩
  · rintro ⟨s, hs, hkey, rfl, rfl⟩
    exact ⟨s, hs, _, ⟨hkey, rfl⟩, rfl, rfl⟩

lemma loadFile_eq_error_iff : (r.loadFile files path).result = .error cause ↔
    (readSchema files path).result = .error cause ∨
      ∃ s, (readSchema files path).result = .ok s ∧ s.key ∈ r.keys ∧ cause = .duplicate s.key := by
  simp only [loadFile, Logged.result_bind_eq_error_iff, register_eq_error_iff, Logged.result_pure,
    reduceCtorEq, and_false, exists_false, or_false]

lemma adds_of_register (h : (r.register s).result = .ok r') : r.Adds r' :=
  ⟨s, register_eq_ok_iff.1 h⟩

lemma adds_of_loadFile (h : (r.loadFile files path).result = .ok (r', key)) : r.Adds r' := by
  obtain ⟨s, -, hkey, hr, -⟩ := loadFile_eq_ok_iff.1 h
  exact ⟨s, hkey, hr⟩

lemma grows_loadFiles (files : Files) (paths : List String) (r : Registry) :
    r.Grows (loadFiles files r paths).1 := by
  induction paths generalizing r with
  | nil => exact .refl
  | cons path paths ih =>
    rw [loadFiles]
    cases hload : (r.loadFile files path).result with
    | error cause => exact .refl
    | ok loaded => exact .head (adds_of_loadFile hload) (ih loaded.1)

lemma grows_loadDirectory (files : Files) (r : Registry) (directory : String) :
    r.Grows (r.loadDirectory files directory).1 := by
  rw [loadDirectory]
  cases files.names? directory with
  | none => exact .refl
  | some listing =>
    cases listing with
    | error reason => exact .refl
    | ok names => exact grows_loadFiles files _ r

/-- A call adds schemas, if it does anything. -/
lemma grows_perform (r : Registry) (call : Registration) : r.Grows (r.perform call) := by
  cases call with
  | schema s =>
    rw [perform]
    cases hregister : (r.register s).result with
    | error cause => exact .refl
    | ok r' => exact .single (adds_of_register hregister)
  | file files path =>
    rw [perform]
    cases hload : (r.loadFile files path).result with
    | error cause => exact .refl
    | ok loaded => exact .single (adds_of_loadFile hload)
  | directory files path => exact grows_loadDirectory files r path

/-! ### Runs -/

theorem grows_after (calls : List Registration) (r : Registry) : r.Grows (r.after calls) := by
  induction calls generalizing r with
  | nil => exact .refl
  | cons call calls ih => exact (grows_perform r call).trans (ih _)

lemma nodup_keys_of_grows (h : r.Grows r') (hr : r.keys.Nodup) : r'.keys.Nodup := by
  induction h with
  | refl => exact hr
  | tail _ hadds ih =>
    obtain ⟨s, hs, rfl⟩ := hadds
    rw [keys, List.map_append]
    exact ih.append (List.nodup_singleton _) (List.disjoint_singleton.2 hs)

/-- No key is registered twice. -/
theorem nodup_keys_of (calls : List Registration) : (of calls).keys.Nodup :=
  nodup_keys_of_grows (grows_after calls {}) List.nodup_nil

lemma get?_eq_some_iff (h : r.keys.Nodup) : r.get? key = some s ↔ s ∈ r.schemas ∧ s.key = key :=
  find?_key_eq_some_iff h

/-- What is found for a key bears it. -/
lemma key_of_get? (h : r.get? key = some s) : s.key = key := by
  simpa using List.find?_some h

end Registry

end EntityModel
