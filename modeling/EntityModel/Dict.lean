/-!
# Dictionaries

A dictionary is an association list whose keys ascend. JSON objects, the stored values of an
entity and the configurations of a schema are dictionaries, so all of them are visited and
written in one order: the order of the code points of their keys, which is also the order of
their UTF-8 bytes.

Look-up, insertion and removal are described by one equation each (`get?_insert`, `get?_erase`),
and each keeps the order (`Sorted`).
-/

namespace EntityModel

universe u v

/-- A list of keyed values, by convention in ascending order of the keys. -/
abbrev Dict (α : Type u) := List (String × α)

namespace Dict

variable {α : Type u}

/-- The value stored under a key. -/
def get? : Dict α → String → Option α
  | [], _ => none
  | (k, a) :: d, key => if k = key then some a else get? d key

/-- Store a value under a key, replacing the one that was there. -/
def insert : Dict α → String → α → Dict α
  | [], key, a => [(key, a)]
  | (k, b) :: d, key, a =>
    if key < k then (key, a) :: (k, b) :: d
    else if k = key then (key, a) :: d
    else (k, b) :: insert d key a

/-- Remove a key. -/
def erase (d : Dict α) (key : String) : Dict α :=
  d.filter fun p => p.1 ≠ key

/-- Whether a key is present. -/
def contains (d : Dict α) (key : String) : Bool :=
  (get? d key).isSome

/-- The dictionary of a list of entries; of two entries with one key the later one counts. -/
def ofList (entries : List (String × α)) : Dict α :=
  entries.foldl (fun d p => insert d p.1 p.2) []

/-- The keys, in order. -/
def keys (d : Dict α) : List String :=
  d.map (·.1)

/-- Every key is smaller than all that follow it. -/
def Sorted (d : Dict α) : Prop :=
  d.Pairwise fun p q => p.1 < q.1

/-! ### Look-up after an update -/

@[simp] theorem get?_nil (key : String) : get? ([] : Dict α) key = none := rfl

theorem get?_cons (k : String) (a : α) (d : Dict α) (key : String) :
    get? ((k, a) :: d) key = if k = key then some a else get? d key := rfl

theorem get?_insert (d : Dict α) (key : String) (a : α) (other : String) :
    get? (insert d key a) other = if key = other then some a else get? d other := by
  induction d with
  | nil => simp [insert, get?]
  | cons p d ih =>
    obtain ⟨k, b⟩ := p
    unfold insert
    by_cases h₁ : key < k
    · simp [h₁, get?]
    · by_cases h₂ : k = key
      · subst h₂
        by_cases h₃ : k = other <;> simp [get?, h₃]
      · simp only [h₁, if_false, h₂, get?, ih]
        by_cases h₃ : k = other
        · subst h₃; simp [Ne.symm h₂]
        · simp [h₃]

@[simp] theorem get?_insert_self (d : Dict α) (key : String) (a : α) :
    get? (insert d key a) key = some a := by simp [get?_insert]

theorem get?_erase (d : Dict α) (key other : String) :
    get? (erase d key) other = if key = other then none else get? d other := by
  induction d with
  | nil => simp [erase, get?]
  | cons p d ih =>
    obtain ⟨k, b⟩ := p
    unfold erase at ih ⊢
    by_cases h : k = key
    · subst h
      by_cases h' : k = other
      · simpa [h', get?] using ih
      · simpa [h', get?] using ih
    · by_cases h' : k = other
      · subst h'; simp [h, Ne.symm h, get?]
      · simpa [h, get?, h'] using ih

theorem get?_eq_none_iff {d : Dict α} {key : String} : get? d key = none ↔ key ∉ keys d := by
  induction d with
  | nil => simp [keys]
  | cons p d ih =>
    obtain ⟨k, b⟩ := p
    by_cases h : k = key
    · simp [get?, h, keys]
    · simpa [get?, h, keys, Ne.symm h] using ih

theorem mem_of_get?_eq_some {d : Dict α} {key : String} {a : α} (h : get? d key = some a) :
    (key, a) ∈ d := by
  induction d with
  | nil => simp at h
  | cons p d ih =>
    obtain ⟨k, b⟩ := p
    by_cases hk : k = key
    · subst hk; simp_all [get?]
    · simp only [get?, hk, if_false] at h
      exact List.mem_cons_of_mem _ (ih h)

/-! ### Order -/

theorem mem_keys_insert {d : Dict α} {key k : String} {a : α} :
    k ∈ keys (insert d key a) ↔ k = key ∨ k ∈ keys d := by
  rw [← Decidable.not_iff_not, not_or, ← get?_eq_none_iff, ← get?_eq_none_iff, get?_insert]
  by_cases h : key = k
  · simp [h]
  · simp [h, Ne.symm h]

theorem sorted_nil : Sorted ([] : Dict α) := List.Pairwise.nil

theorem sorted_insert {d : Dict α} (h : Sorted d) (key : String) (a : α) :
    Sorted (insert d key a) := by
  induction d with
  | nil => simp [insert, Sorted]
  | cons p d ih =>
    obtain ⟨k, b⟩ := p
    obtain ⟨hlt, hd⟩ := List.pairwise_cons.1 h
    unfold insert
    by_cases h₁ : key < k
    · simp only [h₁, if_true]
      refine List.pairwise_cons.2 ⟨fun q hq => ?_, h⟩
      rcases List.mem_cons.1 hq with rfl | hq
      · exact h₁
      · exact String.lt_trans h₁ (hlt q hq)
    · by_cases h₂ : k = key
      · subst h₂
        simp only [h₁, if_false, if_true]
        exact List.pairwise_cons.2 ⟨hlt, hd⟩
      · simp only [h₁, if_false, h₂]
        refine List.pairwise_cons.2 ⟨fun q hq => ?_, ih hd⟩
        have hk : q.1 ∈ keys (insert d key a) := List.mem_map_of_mem hq
        rcases mem_keys_insert.1 hk with hq' | hq'
        · rw [hq']
          rcases Std.lt_trichotomy k key with hlt' | heq | hgt
          · exact hlt'
          · exact absurd heq h₂
          · exact absurd hgt h₁
        · obtain ⟨r, hr, hrq⟩ := List.mem_map.1 hq'
          rw [← hrq]
          exact hlt r hr

theorem sorted_erase {d : Dict α} (h : Sorted d) (key : String) : Sorted (erase d key) :=
  List.Pairwise.filter _ h

theorem sorted_ofList (entries : List (String × α)) : Sorted (ofList entries) := by
  have step (l : List (String × α)) (d : Dict α) (h : Sorted d) :
      Sorted (l.foldl (fun d p => insert d p.1 p.2) d) := by
    induction l generalizing d with
    | nil => exact h
    | cons p l ih => exact ih _ (sorted_insert h _ _)
  exact step entries [] sorted_nil

end Dict

end EntityModel
