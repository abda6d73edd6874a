import EntityModel.Proofs.Dict
import EntityModel.Schema.Basic
import Mathlib.Data.List.Nodup

/-!
# Looking up attributes

The names of a schema are declared once, so the attribute of a name is the member that bears it, and
no name belongs to a stored and to a computed attribute. The nested schema of a name is that of its
stored attribute.
-/

namespace EntityModel

/-- Where keys are not repeated, the member found for a key is the one that bears it. -/
lemma find?_key_eq_some_iff {α β : Type} [DecidableEq β] {l : List α} {f : α → β}
    (h : (l.map f).Nodup) {key : β} {a : α} :
    (l.find? fun b => f b = key) = some a ↔ a ∈ l ∧ f a = key := by
  constructor
  · intro ha
    exact ⟨List.mem_of_find?_eq_some ha, by simpa using List.find?_some ha⟩
  · rintro ⟨ha, rfl⟩
    cases hb : l.find? fun b => f b = f a with
    | none => exact absurd (List.find?_eq_none.1 hb a ha) (by simp)
    | some b =>
      have heq : f b = f a := by simpa using List.find?_some hb
      rw [List.inj_on_of_nodup_map h (List.mem_of_find?_eq_some hb) ha heq]

namespace Schema

variable {s : Schema} {name key : String}

lemma attribute?_eq_some_iff {a : Attribute} :
    s.attribute? name = some a ↔ a ∈ s.attributes ∧ a.name = name :=
  find?_key_eq_some_iff (List.nodup_append.1 s.names_nodup).1

lemma computed?_eq_some_iff {c : ComputedAttribute} :
    s.computed? name = some c ↔ c ∈ s.computed ∧ c.name = name :=
  find?_key_eq_some_iff (List.nodup_append.1 s.names_nodup).2.1

/-- A stored attribute is not computed. -/
lemma isComputed_of_mem {a : Attribute} (h : a ∈ s.attributes) : s.isComputed a.name = false := by
  cases hc : s.computed? a.name with
  | none => simp [isComputed, hc]
  | some c =>
    obtain ⟨hmem, heq⟩ := computed?_eq_some_iff.1 hc
    have hne := (List.nodup_append.1 s.names_nodup).2.2 a.name (List.mem_map_of_mem h)
      c.name (List.mem_map_of_mem hmem)
    exact absurd heq.symm hne

/-! ### Nested schemas -/

lemma nodup_relatedEntries (s : Schema) :
    ((s.attributes.filterMap fun a => a.type.schemaKey?.map fun key => (a.name, key)).map
      (·.1)).Nodup := by
  have hnames : (s.attributes.map (·.name)).Nodup := (List.nodup_append.1 s.names_nodup).1
  rw [List.Nodup, List.pairwise_map] at hnames ⊢
  rw [List.pairwise_filterMap]
  refine hnames.imp fun {a b} hne p hp q hq heq => hne ?_
  obtain ⟨k, -, rfl⟩ := Option.map_eq_some_iff.1 hp
  obtain ⟨k', -, rfl⟩ := Option.map_eq_some_iff.1 hq
  exact heq

/-- The nested schemas of a schema are those of its stored attributes. -/
theorem get?_related_eq_some_iff : Dict.get? s.related name = some key ↔
    ∃ a ∈ s.attributes, a.name = name ∧ a.type.schemaKey? = some key := by
  rw [related, Dict.get?_ofList_eq_some_iff (nodup_relatedEntries s), List.mem_filterMap]
  simp only [Option.map_eq_some_iff, Prod.mk.injEq]
  constructor
  · rintro ⟨a, ha, k, hk, hname, rfl⟩
    exact ⟨a, ha, hname, hk⟩
  · rintro ⟨a, ha, hname, hk⟩
    exact ⟨a, ha, key, hk, hname, rfl⟩

lemma mem_related_iff : (name, key) ∈ s.related ↔
    ∃ a ∈ s.attributes, a.name = name ∧ a.type.schemaKey? = some key := by
  rw [← get?_related_eq_some_iff]
  exact ⟨Dict.get?_eq_some_of_mem (Dict.sorted_ofList _), Dict.mem_of_get?_eq_some⟩

end Schema

end EntityModel
