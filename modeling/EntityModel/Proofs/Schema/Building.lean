import EntityModel.Proofs.Schema.Draft
import EntityModel.Proofs.Schema.Lookup

/-!
# Building schemas

A schema is described step by step. The steps are refused for another reason than a cycle if and
only if a name or a key is empty, a name is shared, or a configuration has no attribute. Otherwise
the schema has what the steps declare, in their order.
-/

namespace EntityModel

/-- Whether an error reports a cycle of computed attributes. -/
def SchemaError.isCycle : SchemaError → Bool
  | .computedCycle _ _ => true
  | _ => false

namespace Draft

/-! ### Faults -/

section Faults

variable {key : String} {stored seen : List String} {cause : SchemaError}

lemma isCycle_of_declarationFault? {name : String} {type : AttributeType}
    (h : declarationFault? key name type = some cause) : cause.isCycle = false := by
  rw [declarationFault?] at h
  split_ifs at h <;> cases h <;> rfl

lemma isCycle_of_attributesFault? {attributes : List Attribute}
    (h : attributesFault? key seen attributes = some cause) : cause.isCycle = false := by
  induction attributes generalizing seen with
  | nil => cases h
  | cons a attributes ih =>
    rw [attributesFault?] at h
    split at h
    · rename_i hdecl
      cases h
      exact isCycle_of_declarationFault? hdecl
    · split_ifs at h
      · cases h
        rfl
      · exact ih h

lemma isCycle_of_computedFault? {computed : List ComputedAttribute}
    (h : computedFault? key stored seen computed = some cause) : cause.isCycle = false := by
  induction computed generalizing seen with
  | nil => cases h
  | cons c computed ih =>
    rw [computedFault?] at h
    split at h
    · rename_i hdecl
      cases h
      exact isCycle_of_declarationFault? hdecl
    · split_ifs at h
      · cases h
        rfl
      · cases h
        rfl
      · exact ih h

lemma isCycle_of_configurationsFault? {configurations : List (String × Configuration)}
    (h : configurationsFault? key seen configurations = some cause) : cause.isCycle = false := by
  obtain ⟨c, -, rfl⟩ := Option.map_eq_some_iff.1 h
  rfl

/-- A draft that is not well declared has a fault, and the first one is no cycle. -/
lemma exists_fault?_of_not_wellDeclared {d : Draft} (h : ¬ d.WellDeclared) :
    ∃ cause, d.fault? = some cause ∧ cause.isCycle = false := by
  rw [fault?]
  split_ifs with hkey
  · exact ⟨.emptyKey, rfl, rfl⟩
  cases ha : attributesFault? d.key [] d.attributes with
  | some cause => exact ⟨cause, rfl, isCycle_of_attributesFault? ha⟩
  | none =>
    cases hc : computedFault? d.key (d.attributes.map (·.name)) [] d.computed with
    | some cause => exact ⟨cause, rfl, isCycle_of_computedFault? hc⟩
    | none =>
      cases hconf : configurationsFault? d.key (declaredNames d.attributes d.computed)
          d.configurations with
      | some cause => exact ⟨cause, rfl, isCycle_of_configurationsFault? hconf⟩
      | none => exact absurd (wellDeclared_iff.2 ⟨hkey, ha, hc, hconf⟩) h

end Faults

/-- Drafts are refused for another reason than a cycle if and only if they are not well declared. -/
lemma exists_build_eq_error_iff {d : Draft} :
    (∃ cause, d.build.result = .error cause ∧ cause.isCycle = false) ↔ ¬ d.WellDeclared := by
  rw [result_build]
  constructor
  · rintro ⟨cause, herror, hcycle⟩ h
    have hfault := fault?_of_wellDeclared h
    cases hfind : findCycle d.computed with
    | none =>
      rw [hfind] at hfault
      obtain ⟨s, hs, -⟩ := exists_toSchema_eq_ok hfault
      rw [hs] at herror
      cases herror
    | some names =>
      rw [hfind] at hfault
      rw [toSchema_of_fault? hfault] at herror
      cases herror
      cases hcycle
  · intro h
    obtain ⟨cause, hfault, hcycle⟩ := exists_fault?_of_not_wellDeclared h
    exact ⟨cause, toSchema_of_fault? hfault, hcycle⟩

/-! ### Configurations -/

/-- The configurations of an attribute among others, in their order. -/
def configurationsOf (configurations : List (String × Configuration)) (name : String) :
    List Configuration :=
  (configurations.filter fun c => c.1 = name).map (·.2)

lemma get?_foldl_insert_append (configurations : List (String × Configuration))
    (d : Dict (List Configuration)) (name : String) :
    (Dict.get? (configurations.foldl
      (fun d c => Dict.insert d c.1 ((Dict.get? d c.1).getD [] ++ [c.2])) d) name).getD [] =
      (Dict.get? d name).getD [] ++ configurationsOf configurations name := by
  induction configurations generalizing d with
  | nil => simp [configurationsOf]
  | cons c configurations ih =>
    rw [List.foldl_cons, ih, Dict.get?_insert]
    by_cases h : c.1 = name
    · simp [configurationsOf, h]
    · simp [configurationsOf, h]

lemma getD_get?_groupConfigurations (configurations : List (String × Configuration))
    (name : String) : (Dict.get? (groupConfigurations configurations) name).getD [] =
      configurationsOf configurations name := by
  rw [groupConfigurations, get?_foldl_insert_append]
  rfl

/-! ### Steps -/

/-- A step in the description of a schema. -/
inductive Step where
  | id (id : Uuid)
  | name (name : String)
  | description (text : String)
  | audit (audit : Audit)
  | stored (name : String) (type : AttributeType)
  | computed (name : String) (type : AttributeType) (expression : String)
  | configuration (name : String) (configuration : Configuration)

namespace Step

/-- The stored attribute that a step declares. -/
def attribute? : Step → Option Attribute
  | .stored n type => some ⟨n, type⟩
  | _ => none

/-- The computed attribute that a step declares. -/
def computed? : Step → Option ComputedAttribute
  | .computed n type expression => some ⟨n, type, expression⟩
  | _ => none

/-- The configuration that a step adds, with the name of its attribute. -/
def configuration? : Step → Option (String × Configuration)
  | .configuration n c => some (n, c)
  | _ => none

end Step

/-- What a step makes of a draft. -/
def describe (d : Draft) : Step → Draft
  | .id id => { d with id := some id }
  | .name name => { d with name := some name }
  | .description text => { d with description := some text }
  | .audit audit => { d with audit := audit }
  | .stored name type => d.addAttribute name type
  | .computed name type expression => d.addComputed name type expression
  | .configuration name configuration => d.configure name configuration

/-- The draft that steps describe. -/
def ofSteps (key : String) (steps : List Step) : Draft :=
  steps.foldl describe { key := key }

lemma key_foldl_describe (steps : List Step) (d : Draft) :
    (steps.foldl describe d).key = d.key := by
  induction steps generalizing d with
  | nil => rfl
  | cons step steps ih =>
    rw [List.foldl_cons, ih]
    cases step <;> rfl

/-- A part of a draft to which each step adds what it brings is made of what the steps bring. -/
lemma foldl_describe {α : Type} {part : Draft → List α} {brings : Step → Option α}
    (h : ∀ d step, part (describe d step) = part d ++ (brings step).toList) (steps : List Step)
    (d : Draft) : part (steps.foldl describe d) = part d ++ steps.filterMap brings := by
  induction steps generalizing d with
  | nil => simp
  | cons step steps ih =>
    rw [List.foldl_cons, ih, h, List.filterMap_cons]
    cases brings step <;> simp

section Steps

variable (key : String) (steps : List Step)

lemma key_ofSteps : (ofSteps key steps).key = key :=
  key_foldl_describe steps _

lemma attributes_ofSteps : (ofSteps key steps).attributes = steps.filterMap Step.attribute? := by
  refine foldl_describe (fun d step => ?_) steps _
  cases step <;> simp [describe, addAttribute, addComputed, configure, Step.attribute?]

lemma computed_ofSteps : (ofSteps key steps).computed = steps.filterMap Step.computed? := by
  refine foldl_describe (fun d step => ?_) steps _
  cases step <;> simp [describe, addAttribute, addComputed, configure, Step.computed?]

lemma configurations_ofSteps :
    (ofSteps key steps).configurations = steps.filterMap Step.configuration? := by
  refine foldl_describe (fun d step => ?_) steps _
  cases step <;> simp [describe, addAttribute, addComputed, configure, Step.configuration?]

end Steps

/-! ### What is refused -/

/-- The names of the attributes that steps declare, stored and computed ones. -/
def namesOf (steps : List Step) : List String :=
  declaredNames (steps.filterMap Step.attribute?) (steps.filterMap Step.computed?)

/-- What a description may have wrong apart from a cycle. -/
inductive Malformed (key : String) (steps : List Step) : Prop where
  | emptyKey (h : key = "")
  | badAttribute {a : Attribute} (ha : a ∈ steps.filterMap Step.attribute?)
      (h : a.name = "" ∨ a.type.schemaKey? = some "")
  | badComputed {c : ComputedAttribute} (hc : c ∈ steps.filterMap Step.computed?)
      (h : c.name = "" ∨ c.type.schemaKey? = some "")
  | sharedName (h : ¬ (namesOf steps).Nodup)
  | strayConfiguration {c : String × Configuration} (hc : c ∈ steps.filterMap Step.configuration?)
      (h : c.1 ∉ namesOf steps)

lemma malformed_iff {key : String} {steps : List Step} :
    Malformed key steps ↔ ¬ (ofSteps key steps).WellDeclared := by
  have hnames : declaredNames (ofSteps key steps).attributes (ofSteps key steps).computed =
      namesOf steps := by
    rw [attributes_ofSteps, computed_ofSteps, namesOf]
  constructor
  · intro h hd
    cases h with
    | emptyKey h => exact hd.key (by rw [key_ofSteps, h])
    | badAttribute ha h =>
      rw [← attributes_ofSteps key] at ha
      exact (not_or.2 (hd.attributes _ ha)) h
    | badComputed hc h =>
      rw [← computed_ofSteps key] at hc
      exact (not_or.2 (hd.computed _ hc)) h
    | sharedName h => exact h (hnames ▸ hd.names)
    | strayConfiguration hc h =>
      rw [← configurations_ofSteps key] at hc
      exact h (hnames ▸ hd.configurations _ hc)
  · intro h
    by_contra hm
    refine h ⟨?_, ?_, ?_, ?_, ?_⟩
    · rw [key_ofSteps]
      exact fun hkey => hm (.emptyKey hkey)
    · intro a ha
      rw [attributes_ofSteps] at ha
      exact not_or.1 fun hbad => hm (.badAttribute ha hbad)
    · intro c hc
      rw [computed_ofSteps] at hc
      exact not_or.1 fun hbad => hm (.badComputed hc hbad)
    · rw [hnames]
      exact not_not.1 fun hshared => hm (.sharedName hshared)
    · intro c hc
      rw [configurations_ofSteps] at hc
      rw [hnames]
      exact not_not.1 fun hstray => hm (.strayConfiguration hc hstray)

end Draft

/-! ### What is built -/

/-- A schema has what steps declare. -/
structure Schema.DescribedBy (s : Schema) (key : String) (steps : List Draft.Step) : Prop where
  key : s.key = key
  attributes : s.attributes = steps.filterMap Draft.Step.attribute?
  computed : s.computed = steps.filterMap Draft.Step.computed?
  apart : ∀ a ∈ s.attributes, ∀ c ∈ s.computed, a.name ≠ c.name
  related : ∀ name key, Dict.get? s.related name = some key ↔
    ∃ a ∈ s.attributes, a.name = name ∧ (a.type = .entity key ∨ a.type = .entityList key)
  configurations : ∀ name, s.configurationsOf name =
    Draft.configurationsOf (steps.filterMap Draft.Step.configuration?) name

lemma AttributeType.schemaKey?_eq_some_iff {type : AttributeType} {key : String} :
    type.schemaKey? = some key ↔ type = .entity key ∨ type = .entityList key := by
  cases type <;> simp [schemaKey?]

lemma Draft.describedBy_of_build {key : String} {steps : List Draft.Step} {s : Schema}
    (h : (Draft.ofSteps key steps).build.result = .ok s) : s.DescribedBy key steps := by
  rw [result_build] at h
  obtain ⟨hkey, hattributes, hcomputed, hconfigurations⟩ := parts_of_toSchema h
  refine ⟨?_, ?_, ?_, ?_, ?_, ?_⟩
  · rw [hkey, key_ofSteps]
  · rw [hattributes, attributes_ofSteps]
  · rw [hcomputed, computed_ofSteps]
  · intro a ha c hc
    exact (List.nodup_append.1 s.names_nodup).2.2 _ (List.mem_map_of_mem ha) _
      (List.mem_map_of_mem hc)
  · intro name key
    simp only [Schema.get?_related_eq_some_iff, AttributeType.schemaKey?_eq_some_iff]
  · intro name
    rw [Schema.configurationsOf, hconfigurations, getD_get?_groupConfigurations,
      configurations_ofSteps]

end EntityModel
