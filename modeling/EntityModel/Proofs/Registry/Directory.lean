import EntityModel.Proofs.Registry.Loading
import Mathlib.Data.List.Sort

/-!
# Directories as registries

Loading a directory into an empty registry either makes a registry of the schemas of all its
documents, in the order of their names and under different keys, or fails for one reason: there is
no directory, it cannot be listed, or one document fails while those before it do not.
-/

namespace EntityModel

namespace Registry

variable {files : Files} {path directory : String} {r : Registry} {s : Schema}
variable {schemas : List Schema} {cause : RegistryError}

/-! ### Documents -/

/-- The document at a path shows the definition of a schema. -/
def HoldsSchema (files : Files) (path : String) (s : Schema) : Prop :=
  ∃ text definition, files.text path = .ok text ∧ files.definition text = .ok definition ∧
    definition.toSchema.result = .ok s

/-- Why the document at a path shows no schema. -/
inductive DocumentFault (files : Files) (path : String) : RegistryError → Prop
  | unreadable {reason : String} (h : files.text path = .error reason) :
      DocumentFault files path (.unreadable path reason)
  | malformed {text reason : String} (htext : files.text path = .ok text)
      (h : files.definition text = .error reason) :
      DocumentFault files path (.malformed path reason)
  | invalid {text : String} {definition : Definition} {cause : SchemaError}
      (htext : files.text path = .ok text) (hdefinition : files.definition text = .ok definition)
      (h : definition.toSchema.result = .error cause) :
      DocumentFault files path (.invalidSchema path cause)

lemma readSchema_eq_ok_iff :
    (readSchema files path).result = .ok s ↔ HoldsSchema files path s := by
  rw [readSchema, HoldsSchema]
  cases htext : files.text path with
  | error reason => simp
  | ok text =>
    cases hdefinition : files.definition text with
    | error reason => simp [hdefinition]
    | ok definition => simp [hdefinition, Logged.result_mapError_eq_ok_iff, -Logged.result_mapError]

lemma readSchema_eq_error_iff :
    (readSchema files path).result = .error cause ↔ DocumentFault files path cause := by
  rw [readSchema]
  constructor
  · intro h
    cases htext : files.text path with
    | error reason =>
      simp only [htext] at h
      cases h
      exact .unreadable htext
    | ok text =>
      simp only [htext] at h
      cases hdefinition : files.definition text with
      | error reason =>
        simp only [hdefinition] at h
        cases h
        exact .malformed htext hdefinition
      | ok definition =>
        simp only [hdefinition, Logged.result_mapError_eq_error_iff] at h
        obtain ⟨inner, hinner, rfl⟩ := h
        exact .invalid htext hdefinition hinner
  · intro h
    cases h with
    | unreadable h => simp [h]
    | malformed htext h => simp [htext, h]
    | invalid htext hdefinition h => simp [htext, hdefinition, h, Except.mapError]

/-! ### Documents in a row -/

/-- Documents whose schemas have new keys are loaded, and loading goes on with those after them. -/
lemma loadFiles_append {before : List String} (hschemas : Documents files before schemas)
    (hkeys : ((r.schemas ++ schemas).map (·.key)).Nodup) (after : List String) :
    (loadFiles files r (before ++ after)).1 = (loadFiles files ⟨r.schemas ++ schemas⟩ after).1 ∧
      (loadFiles files r (before ++ after)).2.result =
        (loadFiles files ⟨r.schemas ++ schemas⟩ after).2.result := by
  induction hschemas generalizing r with
  | nil => simp
  | @cons path s before schemas hs _ ih =>
    have hnew : s.key ∉ r.keys := by
      rw [List.map_append, List.map_cons] at hkeys
      intro hmem
      exact (List.nodup_append.1 hkeys).2.2 _ hmem _ List.mem_cons_self rfl
    have hload : (r.loadFile files path).result = .ok (⟨r.schemas ++ [s]⟩, s.key) :=
      loadFile_eq_ok_iff.2 ⟨s, hs, hnew, rfl, rfl⟩
    have hsplit : r.schemas ++ s :: schemas = r.schemas ++ [s] ++ schemas := by simp
    rw [List.cons_append, loadFiles, hsplit]
    simp only [hload]
    exact ih (r := ⟨r.schemas ++ [s]⟩) (by rwa [hsplit] at hkeys)

/-- Only one list of paths is that of the documents. -/
lemma listed_iff {names paths : List String} :
    Listed directory names paths ↔ paths = schemaPaths directory names := by
  constructor
  · intro h
    obtain ⟨sorted, hperm, hsorted, rfl⟩ := h
    obtain ⟨sorted', hperm', hsorted', heq⟩ := listed_schemaPaths directory names
    rw [heq, (hperm.trans hperm'.symm).eq_of_pairwise' hsorted hsorted']
  · rintro rfl
    exact listed_schemaPaths directory names

/-! ### Directories -/

/-- The registry of the schemas of all documents in a directory, in the order of the names and under
different keys. -/
def IsDirectory (files : Files) (directory : String) (r : Registry) : Prop :=
  ∃ names paths, files.names? directory = some (.ok names) ∧ Listed directory names paths ∧
    List.Forall₂ (HoldsSchema files) paths r.schemas ∧ (r.schemas.map (·.key)).Nodup

/-- Why there is no registry of a directory. -/
inductive DirectoryFault (files : Files) (directory : String) : RegistryError → Prop
  | missing (h : files.names? directory = none) :
      DirectoryFault files directory (.missingDirectory directory)
  | unlisted {reason : String} (h : files.names? directory = some (.error reason)) :
      DirectoryFault files directory (.unreadable directory reason)
  /-- A document shows no schema, and those before it show schemas under different keys. -/
  | document {names before after : List String} {path : String} {schemas : List Schema}
      {cause : RegistryError} (hnames : files.names? directory = some (.ok names))
      (hpaths : Listed directory names (before ++ path :: after))
      (hschemas : List.Forall₂ (HoldsSchema files) before schemas)
      (hkeys : (schemas.map (·.key)).Nodup) (h : DocumentFault files path cause) :
      DirectoryFault files directory cause
  /-- A document shows a schema under the key of one before it. -/
  | duplicate {names before after : List String} {path : String} {schemas : List Schema}
      {s : Schema}
      (hnames : files.names? directory = some (.ok names))
      (hpaths : Listed directory names (before ++ path :: after))
      (hschemas : List.Forall₂ (HoldsSchema files) before schemas)
      (hkeys : (schemas.map (·.key)).Nodup) (hs : HoldsSchema files path s)
      (h : s.key ∈ schemas.map (·.key)) : DirectoryFault files directory (.duplicate s.key)

lemma documents_iff {paths : List String} :
    Documents files paths schemas ↔ List.Forall₂ (HoldsSchema files) paths schemas := by
  rw [Documents]
  simp only [readSchema_eq_ok_iff]

/-- A directory is loaded if and only if there is a registry of it. -/
theorem loadDirectory_eq_ok_iff :
    (∃ n, (loadDirectory files {} directory).2.result = .ok n ∧
      (loadDirectory files {} directory).1 = r) ↔ IsDirectory files directory r := by
  constructor
  · rintro ⟨n, h, rfl⟩
    have hgrows := grows_loadDirectory files {} directory
    have hkeys := nodup_keys_of_grows hgrows List.nodup_nil
    obtain ⟨names, schemas, hnames, hschemas, -, heq⟩ := loadDirectory_of_ok h
    rw [heq] at hkeys ⊢
    exact ⟨names, _, hnames, listed_schemaPaths directory names, documents_iff.1 hschemas, hkeys⟩
  · rintro ⟨names, paths, hnames, hpaths, hschemas, hkeys⟩
    obtain rfl := listed_iff.1 hpaths
    obtain ⟨hfirst, hresult⟩ :=
      loadFiles_append (r := {}) (documents_iff.2 hschemas) hkeys []
    rw [List.append_nil] at hfirst hresult
    refine ⟨(schemaPaths directory names).length, ?_, ?_⟩
    · simp only [loadDirectory, hnames]
      rw [Logged.result_bind_of_ok (a := ()) (by rw [hresult]; rfl)]
      rfl
    · simp only [loadDirectory, hnames]
      rw [hfirst]
      rfl

/-- A document that fails stops the loading where those before it have led. -/
lemma loadDirectory_of_stop {names before after : List String}
    (hnames : files.names? directory = some (.ok names))
    (hpaths : Listed directory names (before ++ path :: after))
    (hschemas : List.Forall₂ (HoldsSchema files) before schemas)
    (hkeys : (schemas.map (·.key)).Nodup)
    (hfails : (loadFile files ⟨schemas⟩ path).result = .error cause) :
    (loadDirectory files {} directory).2.result = .error cause := by
  obtain ⟨-, hresult⟩ :=
    loadFiles_append (r := {}) (documents_iff.2 hschemas) hkeys (path :: after)
  have hload : (loadFiles files {} (before ++ path :: after)).2.result = .error cause := by
    rw [hresult, loadFiles]
    simp only [List.nil_append, hfails]
  rw [listed_iff.1 hpaths] at hload
  simp only [loadDirectory, hnames]
  exact Logged.result_bind_of_error hload _

/-- Loading a directory fails for the reason why there is no registry of it. -/
theorem loadDirectory_eq_error_iff :
    (loadDirectory files {} directory).2.result = .error cause ↔
      DirectoryFault files directory cause := by
  constructor
  · intro h
    have hgrows := grows_loadDirectory files {} directory
    have hkeys := nodup_keys_of_grows hgrows List.nodup_nil
    obtain ⟨hnames, rfl, -⟩ | ⟨reason, hnames, rfl, -⟩ |
      ⟨names, before, path, after, schemas, hnames, hpaths, hschemas, heq, hfails⟩ :=
      loadDirectory_of_error h
    · exact .missing hnames
    · exact .unlisted hnames
    · rw [heq] at hkeys hfails
      have hlisted := listed_iff.2 hpaths.symm
      rcases loadFile_eq_error_iff.1 hfails with hfault | ⟨s, hs, hmem, rfl⟩
      · exact .document hnames hlisted (documents_iff.1 hschemas) hkeys
          (readSchema_eq_error_iff.1 hfault)
      · exact .duplicate hnames hlisted (documents_iff.1 hschemas) hkeys
          (readSchema_eq_ok_iff.1 hs) hmem
  · intro h
    cases h with
    | missing h =>
      simp only [loadDirectory, h]
      rfl
    | unlisted h =>
      simp only [loadDirectory, h]
      rfl
    | document hnames hpaths hschemas hkeys h =>
      exact loadDirectory_of_stop hnames hpaths hschemas hkeys
        (loadFile_eq_error_iff.2 (.inl (readSchema_eq_error_iff.2 h)))
    | duplicate hnames hpaths hschemas hkeys hs h =>
      exact loadDirectory_of_stop hnames hpaths hschemas hkeys
        (loadFile_eq_error_iff.2 (.inr ⟨_, readSchema_eq_ok_iff.2 hs, h, rfl⟩))

end Registry

end EntityModel
