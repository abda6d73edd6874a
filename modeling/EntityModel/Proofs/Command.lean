import EntityModel.Command
import EntityModel.Proofs.Registry.Directory
import EntityModel.Proofs.Writer

/-!
# Conversion is all or nothing

A conversion goes through its steps in order: settings, schemas, the schema that is asked for, the
document and its records from the first to the last. The first step or record that fails is the one
that is reported, and nothing is written. If none fails, all records are written in their generic
forms, in the order of the document.
-/

namespace EntityModel

/-! ### Settings -/

namespace Invocation

/-- What the settings are before the environment replaces any: those that the file shows, or without
a file the defaults. -/
inductive Configured (files : Files) : Option String → Settings → Prop
  | default : Configured files none ⟨"config/schemas", false, "info"⟩
  | file {path text : String} {s : Settings} (htext : files.text path = .ok text)
      (h : files.settings text = .ok s) : Configured files (some path) s

/-- Why the file shows no settings. -/
inductive ConfigurationFault (files : Files) : Option String → CommandError → Prop
  | unreadable {path reason : String} (h : files.text path = .error reason) :
      ConfigurationFault files (some path) (.unreadableSettings path reason)
  | malformed {path text reason : String} (htext : files.text path = .ok text)
      (h : files.settings text = .error reason) :
      ConfigurationFault files (some path) (.malformedSettings path reason)

/-- The environment replaces a setting by a text that is not empty. -/
inductive Replaced (setting : String) : Option String → String → Prop
  | absent : Replaced setting none setting
  | empty : Replaced setting (some "") setting
  | given {s : String} (h : s ≠ "") : Replaced setting (some s) s

/-- The settings with which a command runs. -/
def Settled (files : Files) (overrides : Overrides) (config : Option String) (s : Settings) :
    Prop :=
  ∃ before, Configured files config before ∧
    Replaced before.directory overrides.directory s.directory ∧ s.pretty = before.pretty ∧
    Replaced before.logFilter overrides.logFilter s.logFilter

section Settings

variable {files : Files} {overrides : Overrides} {config : Option String} {command : Command}
variable {s : Settings} {cause : CommandError}

lemma choose_eq_iff {setting t : String} {override : Option String} :
    Settings.choose setting override = t ↔ Replaced setting override t := by
  constructor
  · rintro rfl
    cases override with
    | none => exact .absent
    | some u =>
      rw [Settings.choose]
      split_ifs with hu
      · subst hu
        exact .empty
      · exact .given hu
  · intro h
    cases h with
    | absent => rfl
    | empty => rfl
    | given h => exact if_neg h

lemma override_eq_iff {before : Settings} : before.override overrides = s ↔
    Replaced before.directory overrides.directory s.directory ∧ s.pretty = before.pretty ∧
      Replaced before.logFilter overrides.logFilter s.logFilter := by
  obtain ⟨directory, pretty, logFilter⟩ := s
  simp only [Settings.override, Settings.mk.injEq, choose_eq_iff]
  exact and_congr_right fun _ => and_congr_left fun _ => eq_comm

lemma readSettings_eq_ok_iff {path : String} :
    readSettings files path = .ok s ↔ Configured files (some path) s := by
  rw [readSettings]
  constructor
  · intro h
    cases htext : files.text path with
    | error reason =>
      simp only [htext] at h
      cases h
    | ok text =>
      cases hsettings : files.settings text with
      | error reason =>
        simp only [htext, hsettings] at h
        cases h
      | ok before =>
        simp only [htext, hsettings] at h
        cases h
        exact .file htext hsettings
  · intro h
    cases h with
    | file htext h =>
      simp only [htext, h]
      rfl

lemma readSettings_eq_error_iff {path : String} :
    readSettings files path = .error cause ↔ ConfigurationFault files (some path) cause := by
  rw [readSettings]
  constructor
  · intro h
    cases htext : files.text path with
    | error reason =>
      simp only [htext] at h
      cases h
      exact .unreadable htext
    | ok text =>
      cases hsettings : files.settings text with
      | error reason =>
        simp only [htext, hsettings] at h
        cases h
        exact .malformed htext hsettings
      | ok before =>
        simp only [htext, hsettings] at h
        cases h
  · intro h
    cases h with
    | unreadable h => simp only [h]
    | malformed htext h =>
      simp only [htext, h]
      rfl

lemma settings_eq_ok_iff :
    settings files overrides ⟨config, command⟩ = .ok s ↔ Settled files overrides config s := by
  rw [settings, Settled]
  cases config with
  | none =>
    simp only [Except.ok.injEq, override_eq_iff]
    constructor
    · intro h
      exact ⟨_, .default, h⟩
    · rintro ⟨before, hbefore, h⟩
      cases hbefore
      exact h
  | some path => simp only [map_eq_ok_iff, override_eq_iff, readSettings_eq_ok_iff]

lemma settings_eq_error_iff : settings files overrides ⟨config, command⟩ = .error cause ↔
    ConfigurationFault files config cause := by
  rw [settings]
  cases config with
  | none =>
    refine iff_of_false (by simp) ?_
    intro h
    cases h
  | some path => simp only [map_eq_error_iff, readSettings_eq_error_iff]

end Settings

end Invocation

/-! ### Steps -/

/-- The records of a document: its items, if it is an array, or else the document itself. -/
inductive Json.HasRecords : Json → List Json → Prop
  | array (vs : List Json) : HasRecords (.array vs) vs
  | single {v : Json} (h : ∀ vs, v ≠ .array vs) : HasRecords v [v]

lemma Json.records_eq_iff {document : Json} {vs : List Json} :
    records document = vs ↔ document.HasRecords vs := by
  constructor
  · rintro rfl
    cases document with
    | array vs => exact .array vs
    | _ =>
      refine .single fun vs h => ?_
      cases h
  · intro h
    cases h with
    | array => rfl
    | single h =>
      cases document with
      | array vs => exact absurd rfl (h vs)
      | _ => rfl

namespace Source

/-- The file at a path holds a JSON document. -/
def Holds (files : Files) (path : String) (document : Json) : Prop :=
  ∃ text, files.text path = .ok text ∧ Json.parse? text = some document

/-- The entity of a schema that a record is read as, or why it is none. -/
def mapped (r : Registry) (schema : Schema) (v : Json) : Except MappingError Entity :=
  (({ lookup := r.get? } : Mapping).ofJson schema v).result

/-- All that comes before the records of a source: the schemas, the one that is asked for, and the
document of which they are the records. -/
structure Prepares (source : Source) (files : Files) (directory : String) (r : Registry)
    (schema : Schema) (vs : List Json) : Prop where
  loads : r.IsDirectory files directory
  found : schema ∈ r.schemas ∧ schema.key = source.schemaKey
  holds : ∃ document, Holds files source.input document ∧ document.HasRecords vs

/-- Records are read as entities, one by one. -/
def AllMapped (r : Registry) (schema : Schema) : List Json → List Entity → Prop :=
  List.Forall₂ fun v e => mapped r schema v = .ok e

/-- One of the records fails, and none before it does. -/
def FirstFails (r : Registry) (schema : Schema) (vs : List Json) (cause : MappingError) : Prop :=
  ∃ before v after, vs = before ++ v :: after ∧
    (∀ w ∈ before, ∃ e, mapped r schema w = .ok e) ∧ mapped r schema v = .error cause

/-- The entities of a source, one for each record and in their order. -/
def Yields (source : Source) (files : Files) (directory : String) (es : List Entity) : Prop :=
  ∃ r schema vs, source.Prepares files directory r schema vs ∧ AllMapped r schema vs es

/-- Why a source has no entities: the first of its steps that fails, and among the records the first
one that fails. -/
inductive Fails (source : Source) (files : Files) (directory : String) : CommandError → Prop
  | registry {cause : RegistryError} (h : Registry.DirectoryFault files directory cause) :
      source.Fails files directory (.registry cause)
  | schema {r : Registry} (hr : r.IsDirectory files directory)
      (h : ∀ s ∈ r.schemas, s.key ≠ source.schemaKey) :
      source.Fails files directory (.unknownSchema source.schemaKey)
  | input {r : Registry} {schema : Schema} {reason : String} (hr : r.IsDirectory files directory)
      (hschema : schema ∈ r.schemas ∧ schema.key = source.schemaKey)
      (h : files.text source.input = .error reason) :
      source.Fails files directory (.unreadableInput source.input reason)
  | document {r : Registry} {schema : Schema} {text : String} (hr : r.IsDirectory files directory)
      (hschema : schema ∈ r.schemas ∧ schema.key = source.schemaKey)
      (htext : files.text source.input = .ok text) (h : Json.parse? text = none) :
      source.Fails files directory (.malformedInput source.input (files.jsonFault text))
  | record {r : Registry} {schema : Schema} {vs : List Json} {cause : MappingError}
      (hprepares : source.Prepares files directory r schema vs)
      (h : FirstFails r schema vs cause) :
      source.Fails files directory (.mapping cause)

section Load

variable {files : Files} {directory path : String} {r : Registry} {document : Json}
variable {cause : CommandError}

lemma loadRegistry_eq_ok_iff :
    (loadRegistry files directory).result = .ok r ↔ r.IsDirectory files directory := by
  rw [← Registry.loadDirectory_eq_ok_iff, loadRegistry, Logged.result_bind_eq_ok_iff]
  refine exists_congr fun n => and_congr Logged.result_mapError_eq_ok_iff ?_
  rw [Logged.result_pure, Except.ok.injEq]

lemma loadRegistry_eq_error_iff : (loadRegistry files directory).result = .error cause ↔
    ∃ inner, Registry.DirectoryFault files directory inner ∧ .registry inner = cause := by
  simp only [← Registry.loadDirectory_eq_error_iff]
  rw [loadRegistry, Logged.result_bind_eq_error_iff, Logged.result_mapError_eq_error_iff]
  refine or_iff_left ?_
  rintro ⟨n, -, h⟩
  cases h

lemma get?_eq_some_iff {schema : Schema} {key : String} (hr : r.IsDirectory files directory) :
    r.get? key = some schema ↔ schema ∈ r.schemas ∧ schema.key = key := by
  obtain ⟨-, -, -, -, -, hkeys⟩ := hr
  exact Registry.get?_eq_some_iff hkeys

lemma get?_eq_none_iff {key : String} : r.get? key = none ↔ ∀ s ∈ r.schemas, s.key ≠ key := by
  simp [Registry.get?]

lemma readInput_eq_ok_iff : readInput files path = .ok document ↔ Holds files path document := by
  rw [readInput, Holds]
  cases htext : files.text path with
  | error reason => simp
  | ok text => cases hparse : Json.parse? text <;> simp [hparse]

lemma readInput_eq_error_iff : readInput files path = .error cause ↔
    (∃ reason, files.text path = .error reason ∧ .unreadableInput path reason = cause) ∨
      ∃ text, files.text path = .ok text ∧ Json.parse? text = none ∧
        .malformedInput path (files.jsonFault text) = cause := by
  rw [readInput]
  cases htext : files.text path with
  | error reason => simp
  | ok text => cases hparse : Json.parse? text <;> simp [hparse]

end Load

section Read

variable {files : Files} {directory : String} {source : Source} {r : Registry} {schema : Schema}
variable {vs : List Json} {es : List Entity} {cause : CommandError}

lemma mapList_ofJson_eq_ok_iff : (Logged.mapList (fun v =>
    (({ lookup := r.get? } : Mapping).ofJson schema v).mapError CommandError.mapping) vs).result =
      .ok es ↔ AllMapped r schema vs es := by
  simp only [Logged.mapList_eq_ok_iff, Logged.result_mapError_eq_ok_iff]
  rfl

lemma mapList_ofJson_eq_error_iff : (Logged.mapList (fun v =>
    (({ lookup := r.get? } : Mapping).ofJson schema v).mapError CommandError.mapping) vs).result =
      .error cause ↔ ∃ inner, FirstFails r schema vs inner ∧ .mapping inner = cause := by
  simp only [Logged.mapList_eq_error_iff, Logged.result_mapError_eq_ok_iff,
    Logged.result_mapError_eq_error_iff]
  constructor
  · rintro ⟨before, v, after, hvs, hbefore, inner, h, hcause⟩
    exact ⟨inner, ⟨before, v, after, hvs, hbefore, h⟩, hcause⟩
  · rintro ⟨inner, ⟨before, v, after, hvs, hbefore, h⟩, hcause⟩
    exact ⟨before, v, after, hvs, hbefore, inner, h, hcause⟩

lemma readEntities_eq_ok_iff : (readEntities files r source).result = .ok es ↔
    ∃ schema document, r.get? source.schemaKey = some schema ∧
      Holds files source.input document ∧ AllMapped r schema (records document) es := by
  rw [readEntities]
  cases hschema : r.get? source.schemaKey with
  | none => simp
  | some schema =>
    simp only [Logged.result_bind_eq_ok_iff, Logged.result_ofExcept, readInput_eq_ok_iff,
      mapList_ofJson_eq_ok_iff, Logged.result_report]
    constructor
    · rintro ⟨document, hdocument, es', hes, -, -, h⟩
      cases h
      exact ⟨schema, document, rfl, hdocument, hes⟩
    · rintro ⟨schema', document, hfound, hdocument, hes⟩
      cases hfound
      exact ⟨document, hdocument, es, hes, (), trivial, rfl⟩

lemma readEntities_eq_error_iff : (readEntities files r source).result = .error cause ↔
    (r.get? source.schemaKey = none ∧ .unknownSchema source.schemaKey = cause) ∨
      ∃ schema, r.get? source.schemaKey = some schema ∧
        (readInput files source.input = .error cause ∨
          ∃ document inner, Holds files source.input document ∧
            FirstFails r schema (records document) inner ∧ .mapping inner = cause) := by
  rw [readEntities]
  cases hschema : r.get? source.schemaKey with
  | none => simp
  | some schema =>
    simp only [Logged.result_bind_eq_error_iff, Logged.result_ofExcept, readInput_eq_ok_iff,
      mapList_ofJson_eq_error_iff, Logged.result_report]
    constructor
    · rintro (h | ⟨document, hdocument, ⟨inner, hinner, hcause⟩ | ⟨es, -, h⟩⟩)
      · exact .inr ⟨schema, rfl, .inl h⟩
      · exact .inr ⟨schema, rfl, .inr ⟨document, inner, hdocument, hinner, hcause⟩⟩
      · -- the report at the end does not fail
        obtain h | ⟨-, -, h⟩ := h
        · cases h
        · cases h
    · rintro (⟨h, -⟩ | ⟨schema', hfound, h⟩)
      · cases h
      · cases hfound
        obtain h | ⟨document, inner, hdocument, hinner, hcause⟩ := h
        · exact .inl h
        · exact .inr ⟨document, hdocument, .inl ⟨inner, hinner, hcause⟩⟩

lemma loadEntities_eq_ok_iff :
    (loadEntities files directory source).result = .ok es ↔ source.Yields files directory es := by
  rw [loadEntities, Logged.result_bind_eq_ok_iff]
  simp only [loadRegistry_eq_ok_iff, readEntities_eq_ok_iff]
  constructor
  · rintro ⟨r, hr, schema, document, hschema, hdocument, hes⟩
    have hrecords := Json.records_eq_iff.1 (Eq.refl (records document))
    exact ⟨r, schema, _, ⟨hr, (get?_eq_some_iff hr).1 hschema, document, hdocument, hrecords⟩, hes⟩
  · rintro ⟨r, schema, vs, ⟨hr, hschema, document, hdocument, hrecords⟩, hes⟩
    rw [← Json.records_eq_iff.2 hrecords] at hes
    exact ⟨r, hr, schema, document, (get?_eq_some_iff hr).2 hschema, hdocument, hes⟩

lemma loadEntities_eq_error_iff :
    (loadEntities files directory source).result = .error cause ↔
      source.Fails files directory cause := by
  rw [loadEntities, Logged.result_bind_eq_error_iff]
  simp only [loadRegistry_eq_ok_iff, loadRegistry_eq_error_iff, readEntities_eq_error_iff,
    readInput_eq_error_iff]
  constructor
  · rintro (⟨inner, h, rfl⟩ | ⟨r, hr, ⟨h, rfl⟩ | ⟨schema, hschema, hinput | hrecord⟩⟩)
    · exact .registry h
    · exact .schema hr (get?_eq_none_iff.1 h)
    · have hfound := (get?_eq_some_iff hr).1 hschema
      obtain ⟨reason, h, rfl⟩ | ⟨text, htext, h, rfl⟩ := hinput
      · exact .input hr hfound h
      · exact .document hr hfound htext h
    · obtain ⟨document, inner, hdocument, h, rfl⟩ := hrecord
      have hrecords := Json.records_eq_iff.1 (Eq.refl (records document))
      exact .record ⟨hr, (get?_eq_some_iff hr).1 hschema, document, hdocument, hrecords⟩ h
  · intro h
    cases h with
    | registry h => exact .inl ⟨_, h, rfl⟩
    | schema hr h => exact .inr ⟨_, hr, .inl ⟨get?_eq_none_iff.2 h, rfl⟩⟩
    | input hr hschema h =>
      exact .inr ⟨_, hr, .inr ⟨_, (get?_eq_some_iff hr).2 hschema, .inl (.inl ⟨_, h, rfl⟩)⟩⟩
    | document hr hschema htext h =>
      exact .inr ⟨_, hr, .inr ⟨_, (get?_eq_some_iff hr).2 hschema,
        .inl (.inr ⟨_, htext, h, rfl⟩)⟩⟩
    | record hprepares h =>
      obtain ⟨hr, hschema, document, hdocument, hrecords⟩ := hprepares
      rw [← Json.records_eq_iff.2 hrecords] at h
      exact .inr ⟨_, hr, .inr ⟨_, (get?_eq_some_iff hr).2 hschema,
        .inr ⟨document, _, hdocument, h, rfl⟩⟩⟩

end Read

end Source

/-! ### Outcomes -/

namespace Invocation

/-- How a conversion ends. If the settings, a step or a record fails, it leaves behind nothing but
the error; if none does, the generic forms of all entities, one to a line or as an indented
array. -/
inductive Converts (files : Files) (overrides : Overrides) (config : Option String)
    (source : Source) (isPretty : Bool) : Outcome → Prop
  | unsettled {cause : CommandError} (h : ConfigurationFault files config cause) :
      Converts files overrides config source isPretty ⟨1, "", s!"Error: {cause.message}\n"⟩
  | failed {given : Settings} {cause : CommandError}
      (hgiven : Settled files overrides config given)
      (h : source.Fails files (source.directory.getD given.directory) cause) :
      Converts files overrides config source isPretty ⟨1, "", s!"Error: {cause.message}\n"⟩
  | written {given : Settings} {es : List Entity}
      (hgiven : Settled files overrides config given)
      (h : source.Yields files (source.directory.getD given.directory) es) :
      Converts files overrides config source isPretty
        ⟨0, (if isPretty || given.pretty then Layout.pretty else .lines).listing
          (es.map Entity.toJson), ""⟩

variable {files : Files} {overrides : Overrides} {config : Option String} {source : Source}
variable {isPretty : Bool} {o : Outcome}

lemma converts_run (files : Files) (overrides : Overrides) (config : Option String)
    (source : Source) (isPretty : Bool) : Converts files overrides config source isPretty
      (run files overrides ⟨config, .convert source isPretty⟩).outcome := by
  rw [run]
  cases hgiven : settings files overrides ⟨config, .convert source isPretty⟩ with
  | error cause => exact .unsettled (settings_eq_error_iff.1 hgiven)
  | ok given =>
    have hsettled := settings_eq_ok_iff.1 hgiven
    change Converts files overrides config source isPretty
      (conversion files (source.directory.getD given.directory) source
        (if isPretty || given.pretty then .pretty else .lines)).outcome
    rw [conversion]
    cases hes : (loadEntities files (source.directory.getD given.directory) source).result with
    | error cause => exact .failed hsettled (Source.loadEntities_eq_error_iff.1 hes)
    | ok es =>
      simp only [Layout.text_eq_listing]
      exact .written hsettled (Source.loadEntities_eq_ok_iff.1 hes)

/-- Conversion is all or nothing. It ends in one way: with the error of the first step or record
that fails and no output, or with the output for all records. -/
theorem run_convert_eq_iff :
    (run files overrides ⟨config, .convert source isPretty⟩).outcome = o ↔
      Converts files overrides config source isPretty o := by
  constructor
  · rintro rfl
    exact converts_run files overrides config source isPretty
  · intro h
    rw [run]
    cases h with
    | unsettled h =>
      rw [settings_eq_error_iff.2 h]
      rfl
    | failed hgiven h =>
      rw [settings_eq_ok_iff.2 hgiven]
      simp only [Command.run, Command.directory, conversion, Source.loadEntities_eq_error_iff.2 h]
      rfl
    | written hgiven h =>
      rw [settings_eq_ok_iff.2 hgiven]
      simp only [Command.run, Command.directory, conversion, Source.loadEntities_eq_ok_iff.2 h,
        Layout.text_eq_listing]
      rfl

/-! ### An example -/

/-- The schema of tags, a document of two tags, and one whose second record is no tag. -/
def exampleTagFiles : Files :=
  let tag : Json := .object [("text", .string "new")]
  let tree : FileTree :=
    [(["config", "schemas", "tag.yaml"],
        .file (some "key: tag\nattributes:\n- name: text\n  type: String\n")),
      (["tags.json"], .file (some (Json.array [tag, .object []]).compact)),
      (["other.json"], .file (some (Json.array [tag, .number (.integer 1)]).compact))]
  tree.view (.plain fun _ => "no document") fun _ => "no file"

example : (run exampleTagFiles {}
    { command := .convert { schemaKey := "tag", input := "tags.json" } false }).outcome =
      ⟨0, (Json.object [("text", .string "new")]).compact ++ "\n" ++
        (Json.object []).compact ++ "\n", ""⟩ := by
  decide +kernel

example : (run exampleTagFiles {}
    { command := .convert { schemaKey := "tag", input := "other.json" } false }).outcome =
      ⟨1, "", "Error: expected a JSON object for schema 'tag', found a number\n"⟩ := by
  decide +kernel

end Invocation

end EntityModel
