import EntityModel.Schema.Basic
import Mathlib.Data.List.Nodup
import Mathlib.Tactic.Lemma

/-!
# Drafts without faults

A draft is well declared if its key and its names are not empty, no name is declared twice, nested
schemas have keys and only declared attributes are configured. Such a draft is a schema unless its
computed attributes form a cycle (`fault?_of_wellDeclared`).
-/

namespace EntityModel

namespace Draft

/-- What every check of a draft but the search for cycles asks for. -/
structure WellDeclared (d : Draft) : Prop where
  key : d.key ≠ ""
  attributes : ∀ a ∈ d.attributes, a.name ≠ "" ∧ a.type.schemaKey? ≠ some ""
  computed : ∀ c ∈ d.computed, c.name ≠ "" ∧ c.type.schemaKey? ≠ some ""
  names : (declaredNames d.attributes d.computed).Nodup
  configurations : ∀ c ∈ d.configurations, c.1 ∈ declaredNames d.attributes d.computed

/-! ### Checks -/

section Checks

variable {key name : String} {type : AttributeType} {seen stored : List String}

lemma declarationFault?_eq_none_iff :
    declarationFault? key name type = none ↔ name ≠ "" ∧ type.schemaKey? ≠ some "" := by
  rw [declarationFault?]
  split_ifs <;> simp_all

lemma attributesFault?_eq_none_iff {attributes : List Attribute} :
    attributesFault? key seen attributes = none ↔
      (∀ a ∈ attributes, a.name ≠ "" ∧ a.type.schemaKey? ≠ some "") ∧
        (attributes.map (·.name)).Nodup ∧ ∀ a ∈ attributes, a.name ∉ seen := by
  constructor
  · intro h
    refine ⟨?_, nodup_of_attributesFault?_eq_none h⟩
    induction attributes generalizing seen with
    | nil => simp
    | cons a rest ih =>
      rw [attributesFault?] at h
      split at h
      · cases h
      · rename_i hdecl
        split at h
        · cases h
        · exact List.forall_mem_cons.2 ⟨declarationFault?_eq_none_iff.1 hdecl, ih h⟩
  · rintro ⟨hdecl, hnodup, hseen⟩
    induction attributes generalizing seen with
    | nil => rfl
    | cons a rest ih =>
      simp only [List.forall_mem_cons, List.map_cons, List.nodup_cons] at hdecl hnodup hseen
      rw [attributesFault?, declarationFault?_eq_none_iff.2 hdecl.1]
      simp only [hseen.1, if_false]
      refine ih hdecl.2 hnodup.2 fun b hb hmem => ?_
      rcases List.mem_cons.1 hmem with heq | hmem
      · exact hnodup.1 (heq ▸ List.mem_map_of_mem hb)
      · exact hseen.2 b hb hmem

lemma computedFault?_eq_none_iff {computed : List ComputedAttribute} :
    computedFault? key stored seen computed = none ↔
      (∀ c ∈ computed, c.name ≠ "" ∧ c.type.schemaKey? ≠ some "") ∧
        (computed.map (·.name)).Nodup ∧ ∀ c ∈ computed, c.name ∉ stored ∧ c.name ∉ seen := by
  constructor
  · intro h
    refine ⟨?_, nodup_of_computedFault?_eq_none h⟩
    induction computed generalizing seen with
    | nil => simp
    | cons c rest ih =>
      rw [computedFault?] at h
      split at h
      · cases h
      · rename_i hdecl
        split at h
        · cases h
        · split at h
          · cases h
          · exact List.forall_mem_cons.2 ⟨declarationFault?_eq_none_iff.1 hdecl, ih h⟩
  · rintro ⟨hdecl, hnodup, hseen⟩
    induction computed generalizing seen with
    | nil => rfl
    | cons c rest ih =>
      simp only [List.forall_mem_cons, List.map_cons, List.nodup_cons] at hdecl hnodup hseen
      rw [computedFault?, declarationFault?_eq_none_iff.2 hdecl.1]
      simp only [hseen.1.1, hseen.1.2, if_false]
      refine ih hdecl.2 hnodup.2 fun b hb => ⟨(hseen.2 b hb).1, fun hmem => ?_⟩
      rcases List.mem_cons.1 hmem with heq | hmem
      · exact hnodup.1 (heq ▸ List.mem_map_of_mem hb)
      · exact (hseen.2 b hb).2 hmem

lemma configurationsFault?_eq_none_iff {configurations : List (String × Configuration)} :
    configurationsFault? key seen configurations = none ↔ ∀ c ∈ configurations, c.1 ∈ seen := by
  simp [configurationsFault?]

end Checks

variable {d : Draft}

/-- A draft is well declared if and only if it passes these checks. -/
theorem wellDeclared_iff : d.WellDeclared ↔
    d.key ≠ "" ∧ attributesFault? d.key [] d.attributes = none ∧
      computedFault? d.key (d.attributes.map (·.name)) [] d.computed = none ∧
      configurationsFault? d.key (declaredNames d.attributes d.computed) d.configurations =
        none := by
  rw [attributesFault?_eq_none_iff, computedFault?_eq_none_iff, configurationsFault?_eq_none_iff]
  constructor
  · intro h
    obtain ⟨ha, hc, hdisjoint⟩ := List.nodup_append.1 h.names
    refine ⟨h.key, ⟨h.attributes, ha, by simp⟩, ⟨h.computed, hc, fun c hmem => ⟨?_, by simp⟩⟩,
      h.configurations⟩
    intro hstored
    exact hdisjoint c.name hstored c.name (List.mem_map_of_mem hmem) rfl
  · rintro ⟨hkey, ⟨hattributes, ha, -⟩, ⟨hcomputed, hc, hapart⟩, hconfigurations⟩
    refine ⟨hkey, hattributes, hcomputed, List.nodup_append.2 ⟨ha, hc, ?_⟩, hconfigurations⟩
    intro n hn m hm heq
    obtain ⟨c, hmem, rfl⟩ := List.mem_map.1 hm
    exact (hapart c hmem).1 (heq ▸ hn)

/-- The only fault of a well-declared draft is a cycle. -/
theorem fault?_of_wellDeclared (h : d.WellDeclared) :
    d.fault? = (findCycle d.computed).map (.computedCycle d.key) := by
  obtain ⟨hkey, ha, hc, hconf⟩ := wellDeclared_iff.1 h
  rw [fault?, if_neg hkey, ha, hc, hconf]
  rfl

/-! ### Results -/

lemma result_build (d : Draft) : d.build.result = d.toSchema := by
  rw [build, Logged.result_bind, Logged.result_ofExcept]
  cases d.toSchema <;> rfl

lemma toSchema_of_fault? {e : SchemaError} (h : d.fault? = some e) : d.toSchema = .error e := by
  unfold toSchema
  split
  · simp_all
  · simp_all

/-- A draft without a fault is a schema with the declared attributes. -/
lemma exists_toSchema_eq_ok (h : d.fault? = none) :
    ∃ s, d.toSchema = .ok s ∧ s.attributes = d.attributes ∧ s.computed = d.computed := by
  unfold toSchema
  split
  · simp_all
  · exact ⟨_, rfl, rfl, rfl⟩

lemma parts_of_toSchema {s : Schema} (h : d.toSchema = .ok s) :
    s.key = d.key ∧ s.attributes = d.attributes ∧ s.computed = d.computed ∧
      s.configurations = groupConfigurations d.configurations := by
  unfold toSchema at h
  split at h
  · cases h
  · cases h
    exact ⟨rfl, rfl, rfl, rfl⟩

end Draft

end EntityModel
