import EntityModel.Proofs.Number.Digits
import EntityModel.Proofs.Registry.Run
import Mathlib.Data.List.Forall2

/-!
# Loading documents

Documents are loaded one by one. Loading all of a directory adds their schemas in the order of the
file names; if it ends early, it is because of one document, and the registry holds the schemas of
the documents before that.
-/

namespace EntityModel

namespace Registry

variable {r : Registry} {files : Files} {cause : RegistryError}

/-- The documents at some paths are those of some schemas, one by one. -/
def Documents (files : Files) (paths : List String) (schemas : List Schema) : Prop :=
  List.Forall₂ (fun path s => (readSchema files path).result = .ok s) paths schemas

/-! ### Documents in a row -/

lemma loadFiles_of_ok {paths : List String} (h : (loadFiles files r paths).2.result = .ok ()) :
    ∃ schemas, Documents files paths schemas ∧
      (loadFiles files r paths).1 = ⟨r.schemas ++ schemas⟩ := by
  induction paths generalizing r with
  | nil => exact ⟨[], .nil, by simp [loadFiles]⟩
  | cons path paths ih =>
    rw [loadFiles] at h ⊢
    cases hload : (r.loadFile files path).result with
    | error cause =>
      simp only [hload] at h
      cases h
    | ok loaded =>
      simp only [hload] at h ⊢
      obtain ⟨s, hs, -, hr, -⟩ := loadFile_eq_ok_iff.1 hload
      obtain ⟨schemas, hschemas, heq⟩ := ih h
      refine ⟨s :: schemas, .cons hs hschemas, ?_⟩
      rw [heq, hr]
      simp

lemma loadFiles_of_error {paths : List String}
    (h : (loadFiles files r paths).2.result = .error cause) :
    ∃ before path after schemas, paths = before ++ path :: after ∧
      Documents files before schemas ∧
      (loadFiles files r paths).1 = ⟨r.schemas ++ schemas⟩ ∧
      ((loadFiles files r paths).1.loadFile files path).result = .error cause := by
  induction paths generalizing r with
  | nil => cases h
  | cons path paths ih =>
    rw [loadFiles] at h ⊢
    cases hload : (r.loadFile files path).result with
    | error cause' =>
      simp only [hload] at h ⊢
      cases h
      exact ⟨[], path, paths, [], rfl, .nil, by simp, hload⟩
    | ok loaded =>
      simp only [hload] at h ⊢
      obtain ⟨s, hs, -, hr, -⟩ := loadFile_eq_ok_iff.1 hload
      obtain ⟨before, path', after, schemas, rfl, hschemas, heq, hfails⟩ := ih h
      refine ⟨path :: before, path', after, s :: schemas, rfl, .cons hs hschemas, ?_, hfails⟩
      rw [heq, hr]
      simp

/-! ### Names of documents -/

lemma extension?_append (stem ext : String) (hext : '.' ∉ ext.toList) (hstem : stem ≠ "") :
    extension? (stem ++ "." ++ ext) = some ext := by
  have hname : (stem ++ "." ++ ext).toList.reverse =
      ext.toList.reverse ++ '.' :: stem.toList.reverse := by
    simp [String.toList_append]
  have htake : (ext.toList.reverse ++ '.' :: stem.toList.reverse).takeWhile (· ≠ '.') =
      ext.toList.reverse := by
    refine takeWhile_append_of_head (fun c hc => ?_) (by simp)
    exact decide_eq_true (ne_of_mem_of_not_mem (List.mem_reverse.1 hc) hext)
  simp only [extension?, hname, htake, List.drop_left, List.reverse_reverse, String.ofList_toList]
  cases hrest : stem.toList.reverse with
  | nil => exact absurd (by simpa using hrest) hstem
  | cons c cs => rfl

lemma exists_stem_of_extension? {name ext : String} (h : extension? name = some ext) :
    ∃ stem, stem ≠ "" ∧ name = stem ++ "." ++ ext := by
  obtain ⟨before, hbefore, after, hafter⟩ :
      ∃ before, before = name.toList.reverse.takeWhile (· ≠ '.') ∧
      ∃ after, after = name.toList.reverse.dropWhile (· ≠ '.') := ⟨_, rfl, _, rfl⟩
  have hsplit : name.toList.reverse = before ++ after := by
    rw [hbefore, hafter, List.takeWhile_append_dropWhile]
  have hdrop : name.toList.reverse.drop before.length = after := by
    rw [hsplit, List.drop_left]
  simp only [extension?, ← hbefore, hdrop] at h
  cases after with
  | nil => cases h
  | cons c rest =>
    obtain rfl : c = '.' := by
      have hhead := List.head?_dropWhile_not (· ≠ '.') name.toList.reverse
      rw [← hafter] at hhead
      simpa using hhead
    cases rest with
    | nil => cases h
    | cons d rest =>
      cases h
      refine ⟨String.ofList (d :: rest).reverse, by simp, ?_⟩
      rw [← String.toList_inj, ← List.reverse_inj, hsplit]
      simp

/-- The name of a schema document: something, a point and one of three extensions. -/
def IsDocumentName (name : String) : Prop :=
  ∃ stem, stem ≠ "" ∧ ∃ ext ∈ ["yaml", "yml", "json"], name = stem ++ "." ++ ext

lemma isSchemaName_iff {name : String} : isSchemaName name ↔ IsDocumentName name := by
  constructor
  · intro h
    rw [isSchemaName] at h
    split at h
    · rename_i ext hext
      obtain ⟨stem, hstem, rfl⟩ := exists_stem_of_extension? hext
      exact ⟨stem, hstem, ext, by simpa [or_assoc] using h, rfl⟩
    · cases h
  · rintro ⟨stem, hstem, ext, hext, rfl⟩
    have hdot : '.' ∉ ext.toList := by
      revert ext
      decide
    rw [isSchemaName, extension?_append stem ext hdot hstem]
    simpa [or_assoc] using hext

instance : DecidablePred IsDocumentName :=
  fun name => decidable_of_iff (isSchemaName name) isSchemaName_iff

/-- The paths of the schema documents among the files of a directory, in the order of the names. -/
def Listed (directory : String) (names paths : List String) : Prop :=
  ∃ sorted : List String, sorted.Perm (names.filter fun name => IsDocumentName name) ∧
    sorted.Pairwise (· ≤ ·) ∧ paths = sorted.map (join directory)

lemma listed_schemaPaths (directory : String) (names : List String) :
    Listed directory names (schemaPaths directory names) := by
  refine ⟨_, ?_, ?_, rfl⟩
  · have hfilter : names.filter isSchemaName = names.filter fun name => IsDocumentName name :=
      List.filter_congr fun name _ => by rw [Bool.eq_iff_iff, isSchemaName_iff, decide_eq_true_eq]
    rw [← hfilter]
    exact List.mergeSort_perm _ _
  · have htrans (a b c : String) (hab : decide (a ≤ b) = true) (hbc : decide (b ≤ c) = true) :
        decide (a ≤ c) = true :=
      decide_eq_true (String.le_trans (of_decide_eq_true hab) (of_decide_eq_true hbc))
    have htotal (a b : String) : (decide (a ≤ b) || decide (b ≤ a)) = true := by
      simpa using String.le_total a b
    exact (List.pairwise_mergeSort htrans htotal _).imp fun h => of_decide_eq_true h

/-! ### Directories -/

section Directory

variable {directory : String}

lemma loadDirectory_of_ok {n : Nat} (h : (r.loadDirectory files directory).2.result = .ok n) :
    ∃ names schemas, files.names? directory = some (.ok names) ∧
      Documents files (schemaPaths directory names) schemas ∧ schemas.length = n ∧
      (r.loadDirectory files directory).1 = ⟨r.schemas ++ schemas⟩ := by
  rw [loadDirectory] at h ⊢
  cases hnames : files.names? directory with
  | none =>
    simp only [hnames] at h
    cases h
  | some listing =>
    cases listing with
    | error reason =>
      simp only [hnames] at h
      cases h
    | ok names =>
      simp only [hnames] at h ⊢
      obtain ⟨_, hload, h⟩ := Logged.result_bind_eq_ok_iff.1 h
      obtain ⟨_, -, h⟩ := Logged.result_bind_eq_ok_iff.1 h
      cases h
      obtain ⟨schemas, hschemas, heq⟩ := loadFiles_of_ok hload
      exact ⟨names, schemas, rfl, hschemas, hschemas.length_eq.symm, heq⟩

lemma loadDirectory_of_error (h : (r.loadDirectory files directory).2.result = .error cause) :
    (files.names? directory = none ∧ cause = .missingDirectory directory ∧
      (r.loadDirectory files directory).1 = r) ∨
    (∃ reason, files.names? directory = some (.error reason) ∧
      cause = .unreadable directory reason ∧ (r.loadDirectory files directory).1 = r) ∨
    ∃ names before path after schemas, files.names? directory = some (.ok names) ∧
      schemaPaths directory names = before ++ path :: after ∧
      Documents files before schemas ∧
      (r.loadDirectory files directory).1 = ⟨r.schemas ++ schemas⟩ ∧
      ((r.loadDirectory files directory).1.loadFile files path).result = .error cause := by
  rw [loadDirectory] at h ⊢
  cases hnames : files.names? directory with
  | none =>
    simp only [hnames] at h ⊢
    cases h
    exact .inl ⟨trivial, rfl, trivial⟩
  | some listing =>
    cases listing with
    | error reason =>
      simp only [hnames] at h ⊢
      cases h
      exact .inr (.inl ⟨reason, rfl, rfl, trivial⟩)
    | ok names =>
      simp only [hnames] at h ⊢
      right; right
      rcases Logged.result_bind_eq_error_iff.1 h with h | ⟨_, -, h⟩
      · obtain ⟨before, path, after, schemas, hpaths, hschemas, heq, hfails⟩ :=
          loadFiles_of_error h
        exact ⟨names, before, path, after, schemas, rfl, hpaths, hschemas, heq, hfails⟩
      · cases h

end Directory

/-! ### Calls -/

/-- What a call answers: how many schemas it has registered, or why it failed. -/
def answer (r : Registry) : Registration → Except RegistryError Nat
  | .schema s => (r.register s).result.map fun _ => 1
  | .file files path => (r.loadFile files path).result.map fun _ => 1
  | .directory files path => (r.loadDirectory files path).2.result

/-- The schemas that a call adds, and its answer. -/
inductive Added (r : Registry) : Registration → List Schema → Except RegistryError Nat → Prop where
  | schema {s : Schema} (h : s.key ∉ r.keys) : Added r (.schema s) [s] (.ok 1)
  | duplicate {s : Schema} (h : s.key ∈ r.keys) :
      Added r (.schema s) [] (.error (.duplicate s.key))
  | file {files : Files} {path : String} {s : Schema} (h : s.key ∉ r.keys)
      (hs : (readSchema files path).result = .ok s) : Added r (.file files path) [s] (.ok 1)
  | noFile {files : Files} {path : String} {cause : RegistryError}
      (h : (r.loadFile files path).result = .error cause) :
      Added r (.file files path) [] (.error cause)
  | directory {files : Files} {path : String} {names paths : List String} {schemas : List Schema}
      (hnames : files.names? path = some (.ok names)) (hpaths : Listed path names paths)
      (hschemas : Documents files paths schemas) :
      Added r (.directory files path) schemas (.ok schemas.length)
  | noDirectory {files : Files} {path : String} (h : files.names? path = none) :
      Added r (.directory files path) [] (.error (.missingDirectory path))
  | unlisted {files : Files} {path reason : String}
      (h : files.names? path = some (.error reason)) :
      Added r (.directory files path) [] (.error (.unreadable path reason))
  /-- A document of a directory fails, and those before it do not. -/
  | broken {files : Files} {path : String} {names : List String} {before after : List String}
      {document : String} {schemas : List Schema} {cause : RegistryError}
      (hnames : files.names? path = some (.ok names))
      (hpaths : Listed path names (before ++ document :: after))
      (hschemas : Documents files before schemas)
      (h : (loadFile files ⟨r.schemas ++ schemas⟩ document).result = .error cause) :
      Added r (.directory files path) schemas (.error cause)

/-- Every call adds schemas behind those that are there. -/
theorem added_perform (r : Registry) (call : Registration) :
    ∃ schemas, r.perform call = ⟨r.schemas ++ schemas⟩ ∧ Added r call schemas (r.answer call) := by
  cases call with
  | schema s =>
    rw [perform, answer]
    cases h : (r.register s).result with
    | error cause =>
      obtain ⟨hkey, rfl⟩ := register_eq_error_iff.1 h
      exact ⟨[], by simp [Except.toOption], .duplicate hkey⟩
    | ok r' =>
      obtain ⟨hkey, rfl⟩ := register_eq_ok_iff.1 h
      exact ⟨[s], rfl, .schema hkey⟩
  | file files path =>
    rw [perform, answer]
    cases h : (r.loadFile files path).result with
    | error cause => exact ⟨[], by simp [Except.toOption], .noFile h⟩
    | ok loaded =>
      obtain ⟨s, hs, hkey, hr, -⟩ := loadFile_eq_ok_iff.1 h
      exact ⟨[s], hr, .file hkey hs⟩
  | directory files path =>
    rw [perform, answer]
    cases h : (r.loadDirectory files path).2.result with
    | error cause =>
      obtain ⟨hnames, rfl, heq⟩ | ⟨reason, hnames, rfl, heq⟩ |
        ⟨names, before, document, after, schemas, hnames, hpaths, hschemas, heq, hfails⟩ :=
        loadDirectory_of_error h
      · exact ⟨[], by simp [heq], .noDirectory hnames⟩
      · exact ⟨[], by simp [heq], .unlisted hnames⟩
      · rw [heq] at hfails
        exact ⟨schemas, heq,
          .broken hnames (hpaths ▸ listed_schemaPaths path names) hschemas hfails⟩
    | ok n =>
      obtain ⟨names, schemas, hnames, hschemas, rfl, heq⟩ := loadDirectory_of_ok h
      exact ⟨schemas, heq, .directory hnames (listed_schemaPaths path names) hschemas⟩

end Registry

end EntityModel
