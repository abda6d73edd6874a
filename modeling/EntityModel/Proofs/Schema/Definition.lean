import EntityModel.Proofs.Schema.Building
import EntityModel.Schema.Definition

/-!
# Building schemas from definitions

A definition gives types by name. If every name with its parameters means a type, the schema of the
definition is what the steps that declare its entries with these types build; otherwise the first
entry without a type is the error.
-/

namespace EntityModel

open List (Forall₂)

/-! ### Types by name -/

lemma ScalarKind.ofName?_eq_some_iff {s : String} {kind : ScalarKind} :
    ofName? s = some kind ↔ s = kind.name :=
  ⟨fun h => (name_of_ofName? h).symm, fun h => h ▸ ofName?_name kind⟩

lemma ScalarKind.ofName?_eq_none_iff {s : String} :
    ofName? s = none ↔ ∀ kind : ScalarKind, s ≠ kind.name := by
  simp only [Option.eq_none_iff_forall_ne_some, ne_eq, ofName?_eq_some_iff]

namespace NamedType

/-- The type that a name means with the parameters beside it. -/
inductive Means (t : NamedType) : AttributeType → Prop where
  | scalar (kind : ScalarKind) (h : t.typeName = kind.name) : Means t (.scalar kind)
  | list (kind : ScalarKind) (h : t.typeName = "List") (hcontent : t.contentType = some kind.name) :
      Means t (.list kind)
  | entity (key : String) (h : t.typeName = "Entity") (hkey : t.entitySchema = some key) :
      Means t (.entity key)
  /-- With the key of a schema, the content of a list need not be given. -/
  | entityList (key : String) (h : t.typeName = "List")
      (hcontent : t.contentType = none ∨ t.contentType = some "Entity")
      (hkey : t.entitySchema = some key) : Means t (.entityList key)

/-- Why a name means no type, as the error for an entry of a schema. -/
inductive Lacks (t : NamedType) (schema name : String) : SchemaError → Prop where
  | entitySchema (h : t.typeName = "Entity" ∨ t.typeName = "List" ∧ t.contentType = some "Entity")
      (hkey : t.entitySchema = none) :
      Lacks t schema name (.missingTypeParameter schema name t.typeName "entitySchema")
  | contentType (h : t.typeName = "List") (hcontent : t.contentType = none)
      (hkey : t.entitySchema = none) :
      Lacks t schema name (.missingTypeParameter schema name t.typeName "contentType")
  | content {content : String} (h : t.typeName = "List") (hcontent : t.contentType = some content)
      (hentity : content ≠ "Entity") (hkind : ∀ kind : ScalarKind, content ≠ kind.name) :
      Lacks t schema name (.unsupportedType schema name content)
  | name (hentity : t.typeName ≠ "Entity") (hlist : t.typeName ≠ "List")
      (hkind : ∀ kind : ScalarKind, t.typeName ≠ kind.name) :
      Lacks t schema name (.unsupportedType schema name t.typeName)

variable {t : NamedType}

lemma resolve_of_means {type : AttributeType} (h : t.Means type) (schema name : String) :
    t.resolve schema name = .ok type := by
  cases h with
  | scalar kind h =>
    have hentity : kind.name ≠ "Entity" := by cases kind <;> decide
    have hlist : kind.name ≠ "List" := by cases kind <;> decide
    simp only [resolve, h, if_neg hentity, if_neg hlist, ScalarKind.ofName?_name]
    rfl
  | list kind h hcontent =>
    have hentity : kind.name ≠ "Entity" := by cases kind <;> decide
    have hname : "List" ≠ "Entity" := by decide
    simp only [resolve, h, if_neg hname, hcontent, if_neg hentity, ScalarKind.ofName?_name, if_true]
    rfl
  | entity key h hkey => simp only [resolve, h, hkey, if_true]
  | entityList key h hcontent hkey =>
    have hname : "List" ≠ "Entity" := by decide
    rcases hcontent with hcontent | hcontent <;>
      simp only [resolve, h, if_neg hname, hcontent, hkey, if_true]

lemma Means.unique {type type' : AttributeType} (h : t.Means type) (h' : t.Means type') :
    type = type' := by
  have hresolve := resolve_of_means h "" ""
  rw [resolve_of_means h' "" ""] at hresolve
  cases hresolve
  rfl

/-- Every name either means a type or lacks something, and lacking is an error. -/
lemma means_or_lacks (t : NamedType) (schema name : String) :
    (∃ type, t.Means type) ∨
      ∃ cause, t.Lacks schema name cause ∧ t.resolve schema name = .error cause := by
  by_cases hentity : t.typeName = "Entity"
  · cases hkey : t.entitySchema with
    | some key => exact .inl ⟨_, .entity key hentity hkey⟩
    | none =>
      refine .inr ⟨_, .entitySchema (.inl hentity) hkey, ?_⟩
      simp only [resolve, if_pos hentity, hkey]
  by_cases hlist : t.typeName = "List"
  · cases hcontent : t.contentType with
    | none =>
      cases hkey : t.entitySchema with
      | some key => exact .inl ⟨_, .entityList key hlist (.inl hcontent) hkey⟩
      | none =>
        refine .inr ⟨_, .contentType hlist hcontent hkey, ?_⟩
        simp only [resolve, if_neg hentity, if_pos hlist, hcontent, hkey]
    | some content =>
      by_cases hinner : content = "Entity"
      · subst hinner
        cases hkey : t.entitySchema with
        | some key => exact .inl ⟨_, .entityList key hlist (.inr hcontent) hkey⟩
        | none =>
          refine .inr ⟨_, .entitySchema (.inr ⟨hlist, hcontent⟩) hkey, ?_⟩
          simp only [resolve, if_neg hentity, if_pos hlist, hcontent, hkey, if_true]
      cases hkind : ScalarKind.ofName? content with
      | some kind =>
        rw [ScalarKind.ofName?_eq_some_iff] at hkind
        subst hkind
        exact .inl ⟨_, .list kind hlist hcontent⟩
      | none =>
        refine .inr
          ⟨_, .content hlist hcontent hinner (ScalarKind.ofName?_eq_none_iff.1 hkind), ?_⟩
        simp only [resolve, if_neg hentity, if_pos hlist, hcontent, if_neg hinner, hkind]
        rfl
  cases hkind : ScalarKind.ofName? t.typeName with
  | some kind => exact .inl ⟨_, .scalar kind (ScalarKind.ofName?_eq_some_iff.1 hkind)⟩
  | none =>
    refine .inr ⟨_, .name hentity hlist (ScalarKind.ofName?_eq_none_iff.1 hkind), ?_⟩
    simp only [resolve, if_neg hentity, if_neg hlist, hkind]
    rfl

end NamedType

/-! ### Entries -/

/-- A list is related member by member to another one up to the first member without a relative. -/
lemma exists_forall₂_or_split {α β : Type} (R : α → β → Prop) (as : List α) :
    (∃ bs, Forall₂ R as bs) ∨
      ∃ before bs a after, as = before ++ a :: after ∧ Forall₂ R before bs ∧ ∀ b, ¬ R a b := by
  induction as with
  | nil => exact .inl ⟨[], .nil⟩
  | cons a as ih =>
    by_cases ha : ∃ b, R a b
    · obtain ⟨b, hb⟩ := ha
      rcases ih with ⟨bs, hbs⟩ | ⟨before, bs, a', after, rfl, hbs, ha'⟩
      · exact .inl ⟨b :: bs, .cons hb hbs⟩
      · exact .inr ⟨a :: before, b :: bs, a', after, rfl, .cons hb hbs, ha'⟩
    · exact .inr ⟨[], [], a, as, rfl, .nil, not_exists.1 ha⟩

namespace Definition

open Draft (Step)

/-- The names and types of all entries, those of stored attributes first. -/
def entries (d : Definition) : List (String × NamedType) :=
  d.attributes.map (fun a => (a.name, a.type)) ++ d.computed.map fun c => (c.name, c.type)

/-- The steps that declare a stored attribute after its configurations. -/
def attributeSteps (a : AttributeEntry) (type : AttributeType) : List Step :=
  a.configurations.map (.configuration a.name) ++ [.stored a.name type]

/-- The step that declares a computed attribute. -/
def computedSteps (c : ComputedEntry) (type : AttributeType) : List Step :=
  [.computed c.name type c.expression]

/-- The steps before those for the entries. -/
def headSteps (d : Definition) : List Step :=
  [.audit d.audit] ++ d.id.toList.map .id ++ d.name.toList.map .name ++
    d.description.toList.map .description

/-- The steps that describe what a definition does, with the types of its entries. -/
def steps (d : Definition) (types computedTypes : List AttributeType) : List Step :=
  d.headSteps ++ (d.attributes.zip types).flatMap (fun p => attributeSteps p.1 p.2) ++
    (d.computed.zip computedTypes).flatMap fun p => computedSteps p.1 p.2

lemma ofSteps_headSteps (d : Definition) :
    Draft.ofSteps d.key d.headSteps =
      { key := d.key, id := d.id, name := d.name, description := d.description,
        audit := d.audit } := by
  rcases d with ⟨id, key, name, description, attributes, computed, audit⟩
  cases id <;> cases name <;> cases description <;> rfl

/-- Entries with types act as their steps before what is left. -/
lemma addAttributes_append (schema : String) {before : List AttributeEntry}
    {types : List AttributeType} (h : Forall₂ (fun a type => a.type.Means type) before types)
    (rest : List AttributeEntry) (draft : Draft) :
    addAttributes schema draft (before ++ rest) =
      addAttributes schema (((before.zip types).flatMap
        fun p => attributeSteps p.1 p.2).foldl Draft.describe draft) rest := by
  induction h generalizing draft with
  | nil => rfl
  | @cons a type before types ha _ ih =>
    have hconfigured : (attributeSteps a type).foldl Draft.describe draft =
        (a.configurations.foldl (fun d c => d.configure a.name c) draft).addAttribute a.name
          type := by
      rw [attributeSteps, List.foldl_append, List.foldl_map]
      rfl
    rw [List.cons_append, addAttributes, NamedType.resolve_of_means ha schema a.name,
      List.zip_cons_cons, List.flatMap_cons, List.foldl_append, hconfigured]
    exact ih _

lemma addComputed_append (schema : String) {before : List ComputedEntry}
    {types : List AttributeType} (h : Forall₂ (fun c type => c.type.Means type) before types)
    (rest : List ComputedEntry) (draft : Draft) :
    addComputed schema draft (before ++ rest) =
      addComputed schema (((before.zip types).flatMap
        fun p => computedSteps p.1 p.2).foldl Draft.describe draft) rest := by
  induction h generalizing draft with
  | nil => rfl
  | @cons c type before types hc _ ih =>
    rw [List.cons_append, addComputed, NamedType.resolve_of_means hc schema c.name,
      List.zip_cons_cons, List.flatMap_cons, List.foldl_append]
    exact ih _

/-! ### Schemas of definitions -/

/-- A definition whose entries all mean types builds what its steps describe. -/
lemma toSchema_of_forall₂ {d : Definition} {types computedTypes : List AttributeType}
    (h : Forall₂ (fun a type => a.type.Means type) d.attributes types)
    (hcomputed : Forall₂ (fun c type => c.type.Means type) d.computed computedTypes) :
    d.toSchema = (Draft.ofSteps d.key (d.steps types computedTypes)).build := by
  have hattributes := addAttributes_append d.key h []
    (Draft.ofSteps d.key d.headSteps)
  rw [List.append_nil, ofSteps_headSteps] at hattributes
  have hdraft : d.toDraft = .ok (Draft.ofSteps d.key (d.steps types computedTypes)) := by
    have hall := addComputed_append d.key hcomputed []
    simp only [List.append_nil] at hall
    rw [toDraft, hattributes, Draft.ofSteps, steps, List.foldl_append, List.foldl_append,
      ← Draft.ofSteps, ofSteps_headSteps]
    exact hall _
  rw [toSchema, hdraft]
  rfl

lemma means_of_mem_map {α : Type} {entry : α → String × NamedType} {as : List α}
    {types : List AttributeType} (h : Forall₂ (fun a type => (entry a).2.Means type) as types) :
    ∀ e ∈ as.map entry, ∃ type, e.2.Means type := by
  induction h with
  | nil => simp
  | cons ha _ ih => exact List.forall_mem_cons.2 ⟨⟨_, ha⟩, ih⟩

lemma means_of_forall₂ {d : Definition} {types computedTypes : List AttributeType}
    (h : Forall₂ (fun a type => a.type.Means type) d.attributes types)
    (hcomputed : Forall₂ (fun c type => c.type.Means type) d.computed computedTypes) :
    ∀ e ∈ d.entries, ∃ type, e.2.Means type :=
  List.forall_mem_append.2 ⟨means_of_mem_map h, means_of_mem_map hcomputed⟩

/-- Either all entries mean types, or the first one that means none is the error. -/
lemma toSchema_cases (d : Definition) :
    (∃ types computedTypes, Forall₂ (fun a type => a.type.Means type) d.attributes types ∧
        Forall₂ (fun c type => c.type.Means type) d.computed computedTypes) ∨
      ∃ before e after cause, d.entries = before ++ e :: after ∧
        (∀ b ∈ before, ∃ type, b.2.Means type) ∧ (∀ type, ¬ e.2.Means type) ∧
        e.2.Lacks d.key e.1 cause ∧ d.toSchema.result = .error cause := by
  rcases exists_forall₂_or_split (fun (a : AttributeEntry) type => a.type.Means type)
    d.attributes with ⟨types, htypes⟩ | ⟨before, types, a, after, hsplit, htypes, ha⟩
  · rcases exists_forall₂_or_split (fun (c : ComputedEntry) type => c.type.Means type)
      d.computed with ⟨computedTypes, hcomputed⟩ | ⟨before, computedTypes, c, after, hsplit,
        hcomputed, hc⟩
    · exact .inl ⟨types, computedTypes, htypes, hcomputed⟩
    -- The first entry without a type declares a computed attribute.
    · obtain ⟨cause, hlacks, herror⟩ :=
        (c.type.means_or_lacks d.key c.name).resolve_left (not_exists.2 hc)
      refine .inr ⟨d.attributes.map (fun a => (a.name, a.type)) ++
        before.map fun c => (c.name, c.type), (c.name, c.type),
        after.map fun c => (c.name, c.type), cause, ?_, ?_, hc, hlacks, ?_⟩
      · rw [entries, hsplit, List.map_append, List.map_cons, List.append_assoc]
      · exact List.forall_mem_append.2 ⟨means_of_mem_map htypes, means_of_mem_map hcomputed⟩
      · have hattributes := addAttributes_append d.key htypes []
        simp only [List.append_nil] at hattributes
        have hdraft : d.toDraft = .error cause := by
          rw [toDraft, hattributes, hsplit]
          change addComputed d.key _ _ = _
          rw [addComputed_append d.key hcomputed, addComputed, herror]
          rfl
        rw [toSchema, hdraft]
        rfl
  · obtain ⟨cause, hlacks, herror⟩ :=
      (a.type.means_or_lacks d.key a.name).resolve_left (not_exists.2 ha)
    refine .inr ⟨before.map (fun a => (a.name, a.type)), (a.name, a.type),
      after.map (fun a => (a.name, a.type)) ++ d.computed.map (fun c => (c.name, c.type)), cause,
      ?_, ?_, ha, hlacks, ?_⟩
    · rw [entries, hsplit, List.map_append, List.map_cons, List.append_assoc, List.cons_append]
    · exact means_of_mem_map htypes
    · have hdraft : d.toDraft = .error cause := by
        rw [toDraft, hsplit, addAttributes_append d.key htypes, addAttributes, herror]
        rfl
      rw [toSchema, hdraft]
      rfl

end Definition

namespace Schema

open Draft (Step ofSteps Malformed)

/-- Building accepts exactly the well-formed descriptions and keeps what they declare, and the
schema of a definition is built from the types that its entries mean. -/
theorem building :
    (∀ (key : String) (steps : List Step),
      ((∃ cause, (ofSteps key steps).build.result = .error cause ∧ cause.isCycle = false) ↔
        Malformed key steps) ∧
      ∀ s, (ofSteps key steps).build.result = .ok s → s.DescribedBy key steps) ∧
    ∀ d : Definition,
      ((∀ e ∈ d.entries, ∃ type, e.2.Means type) →
        ∃ types computedTypes, Forall₂ (fun a type => a.type.Means type) d.attributes types ∧
          Forall₂ (fun c type => c.type.Means type) d.computed computedTypes ∧
          d.toSchema = (ofSteps d.key (d.steps types computedTypes)).build) ∧
      ((¬ ∀ e ∈ d.entries, ∃ type, e.2.Means type) →
        ∃ before e after cause, d.entries = before ++ e :: after ∧
          (∀ b ∈ before, ∃ type, b.2.Means type) ∧ (∀ type, ¬ e.2.Means type) ∧
          e.2.Lacks d.key e.1 cause ∧ d.toSchema.result = .error cause) := by
  refine ⟨fun key steps => ⟨?_, fun s => Draft.describedBy_of_build⟩, fun d => ?_⟩
  · rw [Draft.exists_build_eq_error_iff, Draft.malformed_iff]
  rcases d.toSchema_cases with ⟨types, computedTypes, htypes, hcomputed⟩ |
    ⟨before, e, after, cause, hsplit, hbefore, hnone, hlacks, herror⟩
  · refine ⟨fun _ => ⟨types, computedTypes, htypes, hcomputed,
      Definition.toSchema_of_forall₂ htypes hcomputed⟩, fun h => absurd ?_ h⟩
    exact Definition.means_of_forall₂ htypes hcomputed
  · refine ⟨fun h => ?_, fun _ => ⟨before, e, after, cause, hsplit, hbefore, hnone, hlacks,
      herror⟩⟩
    obtain ⟨type, htype⟩ := h e (hsplit ▸ by simp)
    exact absurd htype (hnone type)

/-! ### Examples -/

/-- Invoices, with a list of nested lines. -/
def exampleInvoice : Definition where
  key := "invoice"
  attributes :=
    [{ name := "number", type := { typeName := "String" } },
      { name := "lines", type := { typeName := "List", entitySchema := some "line" } },
      { name := "scan", type := { typeName := "Document" },
        configurations := [.documentProcessing "ocr", .documentClassifier "paper"] }]
  computed := [{ name := "label", type := { typeName := "String" }, expression := "number" }]

/-- Invoices with an amount of an unknown type. -/
def exampleMoney : Definition where
  key := "invoice"
  attributes := [{ name := "number", type := { typeName := "String" } }]
  computed := [{ name := "amount", type := { typeName := "Money" }, expression := "number" },
    { name := "lines", type := { typeName := "List" }, expression := "number" }]

/-- The steps that describe invoices. -/
def exampleInvoiceSteps : List Step :=
  exampleInvoice.steps [.scalar .string, .entityList "line", .scalar .document] [.scalar .string]

lemma fault?_exampleInvoice : (ofSteps "invoice" exampleInvoiceSteps).fault? = none := by
  decide +kernel

lemma exampleInvoice_means : ∀ e ∈ exampleInvoice.entries, ∃ type, e.2.Means type := by
  simp only [exampleInvoice, Definition.entries, List.map_cons, List.map_nil, List.cons_append,
    List.nil_append, List.forall_mem_cons]
  exact ⟨⟨_, .scalar .string rfl⟩, ⟨_, .entityList "line" rfl (.inl rfl) rfl⟩,
    ⟨_, .scalar .document rfl⟩, ⟨_, .scalar .string rfl⟩, by simp⟩

lemma exampleMoney_means_not : ¬ ∀ e ∈ exampleMoney.entries, ∃ type, e.2.Means type := by
  intro h
  obtain ⟨type, htype⟩ := h ("amount", { typeName := "Money" }) (by decide)
  have hresolve := NamedType.resolve_of_means htype "" ""
  cases hresolve

theorem building_of_exampleInvoice :
    (∃ s, exampleInvoice.toSchema.result = .ok s ∧ s.DescribedBy "invoice" exampleInvoiceSteps) ∧
      ¬ Malformed "invoice" exampleInvoiceSteps ∧
      ∃ before e after, exampleMoney.entries = before ++ e :: after ∧
        e.2.Lacks "invoice" e.1 (.unsupportedType "invoice" "amount" "Money") ∧
        exampleMoney.toSchema.result = .error (.unsupportedType "invoice" "amount" "Money") := by
  obtain ⟨hsteps, hdefinition⟩ := building
  obtain ⟨s, hs, -⟩ := Draft.exists_toSchema_eq_ok fault?_exampleInvoice
  rw [← Draft.result_build] at hs
  obtain ⟨hrefused, hdescribed⟩ := hsteps "invoice" exampleInvoiceSteps
  refine ⟨⟨s, ?_, hdescribed s hs⟩, ?_, ?_⟩
  · obtain ⟨types, computedTypes, htypes, hcomputed, heq⟩ :=
      (hdefinition exampleInvoice).1 exampleInvoice_means
    rcases htypes with _ | ⟨hnumber, _ | ⟨hlines, _ | ⟨hscan, _ | _⟩⟩⟩
    rcases hcomputed with _ | ⟨hlabel, _ | _⟩
    obtain rfl := hnumber.unique (.scalar .string rfl)
    obtain rfl := hlines.unique (.entityList "line" rfl (.inl rfl) rfl)
    obtain rfl := hscan.unique (.scalar .document rfl)
    obtain rfl := hlabel.unique (.scalar .string rfl)
    rw [heq]
    exact hs
  · rw [← hrefused, hs]
    rintro ⟨cause, herror, -⟩
    cases herror
  · obtain ⟨before, e, after, cause, hsplit, -, -, hlacks, herror⟩ :=
      (hdefinition exampleMoney).2 exampleMoney_means_not
    obtain rfl : .unsupportedType "invoice" "amount" "Money" = cause := Except.error.inj herror
    exact ⟨before, e, after, hsplit, hlacks, herror⟩

end Schema

end EntityModel
