import EntityModel.Dict
import Mathlib.Data.List.Forall2

/-!
# Sorted dictionaries are what they look up

A sorted dictionary holds each key once, so its entries are its look-ups, and two dictionaries whose
look-ups are related key by key are related entry by entry. In particular, updates of different keys
commute.
-/

namespace EntityModel

namespace Dict

universe u₁ u₂
variable {α : Type u₁} {β : Type u₂}

/-! ### Entries and look-ups -/

lemma get?_eq_none_of_lt {d : Dict α} {key : String} (h : ∀ p ∈ d, key < p.1) :
    get? d key = none := by
  rw [get?_eq_none_iff]
  intro hmem
  obtain ⟨p, hp, rfl⟩ := List.mem_map.1 hmem
  exact Std.lt_irrefl (h p hp)

lemma get?_eq_some_of_mem {d : Dict α} (h : Sorted d) {key : String} {a : α}
    (hmem : (key, a) ∈ d) : get? d key = some a := by
  induction d with
  | nil => cases hmem
  | cons p d ih =>
    obtain ⟨hlt, hd⟩ := List.pairwise_cons.1 h
    rcases List.mem_cons.1 hmem with rfl | hmem
    · simp [get?]
    · have hne : p.1 ≠ key := fun heq => Std.lt_irrefl (heq ▸ hlt _ hmem)
      rw [get?, if_neg hne]
      exact ih hd hmem

lemma get?_tail {p : String × α} {d : Dict α} (h : Sorted (p :: d)) (key : String) :
    get? d key = if p.1 = key then none else get? (p :: d) key := by
  split_ifs with hk
  · exact get?_eq_none_of_lt fun q hq => hk ▸ (List.pairwise_cons.1 h).1 q hq
  · rw [get?, if_neg hk]

/-! ### Dictionaries with related look-ups -/

lemma isSome_eq_of_rel {R : α → β → Prop} {x : Option α} {y : Option β} (h : Option.Rel R x y) :
    x.isSome = y.isSome := by
  cases h <;> rfl

lemma mem_keys_iff_isSome {d : Dict α} {key : String} : key ∈ keys d ↔ (get? d key).isSome := by
  rw [← not_iff_not, ← get?_eq_none_iff]
  simp

/-- No key of a sorted dictionary is below its first one. -/
lemma not_lt_of_mem_keys {p : String × α} {d : Dict α} (h : Sorted (p :: d)) {key : String}
    (hkey : key ∈ keys (p :: d)) : ¬ key < p.1 := by
  intro hlt
  obtain ⟨q, hq, rfl⟩ := List.mem_map.1 hkey
  rcases List.mem_cons.1 hq with rfl | hq
  · exact Std.lt_irrefl hlt
  · exact Std.lt_irrefl (String.lt_trans hlt ((List.pairwise_cons.1 h).1 q hq))

/-- Two sorted dictionaries with the same keys start with the same key. -/
lemma head_eq_of_mem_keys_iff {p : String × α} {q : String × β} {d : Dict α} {d' : Dict β}
    (h : Sorted (p :: d)) (h' : Sorted (q :: d'))
    (hkeys : ∀ key, key ∈ keys (p :: d) ↔ key ∈ keys (q :: d')) : p.1 = q.1 := by
  have hq := not_lt_of_mem_keys h ((hkeys q.1).2 (by simp [keys]))
  have hp := not_lt_of_mem_keys h' ((hkeys p.1).1 (by simp [keys]))
  rcases Std.lt_trichotomy p.1 q.1 with hlt | heq | hgt
  · exact absurd hlt hp
  · exact heq
  · exact absurd hgt hq

/-- Look-ups that are related at every key make the entries related one by one. -/
theorem forall₂_of_get? {R : α → β → Prop} {d : Dict α} {d' : Dict β} (h : Sorted d)
    (h' : Sorted d') (hrel : ∀ key, Option.Rel R (get? d key) (get? d' key)) :
    List.Forall₂ (fun p q => p.1 = q.1 ∧ R p.2 q.2) d d' := by
  have hkeys (key : String) : key ∈ keys d ↔ key ∈ keys d' := by
    rw [mem_keys_iff_isSome, mem_keys_iff_isSome, isSome_eq_of_rel (hrel key)]
  induction d generalizing d' with
  | nil =>
    cases d' with
    | nil => exact .nil
    | cons q d' => exact absurd ((hkeys q.1).2 (by simp [keys])) (by simp [keys])
  | cons p d ih =>
    cases d' with
    | nil => exact absurd ((hkeys p.1).1 (by simp [keys])) (by simp [keys])
    | cons q d' =>
      have hpq : p.1 = q.1 := head_eq_of_mem_keys_iff h h' hkeys
      have htail (key : String) : Option.Rel R (get? d key) (get? d' key) := by
        rw [get?_tail h, get?_tail h', hpq]
        split_ifs
        · exact .none
        · exact hrel key
      refine .cons ⟨hpq, ?_⟩
        (ih (List.pairwise_cons.1 h).2 (List.pairwise_cons.1 h').2 htail fun key => ?_)
      · have hp := hrel p.1
        rw [get?, if_pos rfl, get?, if_pos hpq.symm] at hp
        cases hp
        assumption
      · rw [mem_keys_iff_isSome, mem_keys_iff_isSome, isSome_eq_of_rel (htail key)]

/-- A sorted dictionary is determined by its look-ups. -/
theorem ext_get? {d d' : Dict α} (h : Sorted d) (h' : Sorted d')
    (heq : ∀ key, get? d key = get? d' key) : d = d' := by
  have hrel (key : String) : Option.Rel Eq (get? d key) (get? d' key) := by
    rw [heq key]
    cases get? d' key with
    | none => exact .none
    | some a => exact .some rfl
  have := forall₂_of_get? h h' hrel
  rw [← List.forall₂_eq_eq_eq]
  exact this.imp fun p q hpq => Prod.ext hpq.1 hpq.2

/-! ### Dictionaries of entries -/

lemma get?_foldl_insert_eq_some_iff {entries : List (String × α)}
    (h : (entries.map (·.1)).Nodup) {d : Dict α} {key : String} {a : α} :
    get? (entries.foldl (fun d p => insert d p.1 p.2) d) key = some a ↔
      (key, a) ∈ entries ∨ key ∉ entries.map (·.1) ∧ get? d key = some a := by
  induction entries generalizing d with
  | nil => simp
  | cons p entries ih =>
    obtain ⟨k, b⟩ := p
    rw [List.map_cons, List.nodup_cons] at h
    rw [List.foldl_cons, ih h.2, get?_insert, List.map_cons, List.mem_cons, List.mem_cons, not_or]
    by_cases hk : k = key
    · subst hk
      have hmem : (k, a) ∉ entries := fun hmem => h.1 (List.mem_map.2 ⟨_, hmem, rfl⟩)
      simp only [hmem, h.1, Prod.mk.injEq, if_true, Option.some.injEq, eq_comm (a := b)]
      simp
    · simp only [hk, Ne.symm hk, Prod.mk.injEq, if_false]
      simp

/-- A dictionary of entries with different keys holds these entries. -/
theorem get?_ofList_eq_some_iff {entries : List (String × α)} (h : (entries.map (·.1)).Nodup)
    {key : String} {a : α} : get? (ofList entries) key = some a ↔ (key, a) ∈ entries := by
  rw [ofList, get?_foldl_insert_eq_some_iff h]
  simp

lemma sorted_of_keys {d : Dict α} (h : (keys d).Pairwise (· < ·)) : Sorted d :=
  List.pairwise_map.1 h

lemma nodup_keys_of_sorted {d : Dict α} (h : Sorted d) : (keys d).Nodup :=
  List.pairwise_map.2 (h.imp fun hlt => Std.ne_of_lt hlt)

/-- A sorted dictionary is the dictionary of its entries in any order. -/
theorem ofList_of_perm {d : Dict α} {entries : List (String × α)} (h : Sorted d)
    (hperm : d.Perm entries) : ofList entries = d := by
  have hnodup : (entries.map (·.1)).Nodup := (hperm.map _).nodup_iff.1 (nodup_keys_of_sorted h)
  refine ext_get? (sorted_ofList entries) h fun key => Option.ext fun a => ?_
  rw [get?_ofList_eq_some_iff hnodup, ← hperm.mem_iff]
  exact ⟨get?_eq_some_of_mem h, mem_of_get?_eq_some⟩

/-! ### Dictionaries of one value -/

lemma get?_foldl_insert_const (entries : List String) (d : Dict α) (a : α) (key : String) :
    get? ((entries.map fun k => (k, a)).foldl (fun d p => insert d p.1 p.2) d) key =
      if key ∈ entries then some a else get? d key := by
  induction entries generalizing d with
  | nil => simp
  | cons k entries ih =>
    rw [List.map_cons, List.foldl_cons, ih, get?_insert]
    by_cases hk : k = key
    · simp [hk]
    · simp [hk, Ne.symm hk]

end Dict

end EntityModel
