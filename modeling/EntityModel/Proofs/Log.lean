import EntityModel.Log
import Mathlib.Data.List.Forall2
import Mathlib.Tactic.Lemma

/-!
# Results, case by case

What it means that a sequence, a mapped result, a computation with a changed failure or one on the
members of a list ends in a value or in an error.
-/

namespace EntityModel

section Map

variable {ε α β : Type} {r : Except ε α} {f : α → β}

instance decidableOk {a : α} [DecidableEq α] : Decidable (r = .ok a) :=
  match r with
  | .ok b => decidable_of_iff (b = a) (by simp)
  | .error _ => isFalse nofun

instance decidableError {cause : ε} [DecidableEq ε] : Decidable (r = .error cause) :=
  match r with
  | .ok _ => isFalse nofun
  | .error other => decidable_of_iff (other = cause) (by simp)

lemma map_eq_ok_iff {b : β} : r.map f = .ok b ↔ ∃ a, r = .ok a ∧ f a = b := by
  cases r with
  | error cause =>
    constructor
    · intro h
      cases h
    · rintro ⟨a, h, -⟩
      cases h
  | ok a =>
    constructor
    · intro h
      cases h
      exact ⟨a, rfl, rfl⟩
    · rintro ⟨a', h, rfl⟩
      cases h
      rfl

lemma map_eq_error_iff {cause : ε} : r.map f = .error cause ↔ r = .error cause := by
  cases r with
  | error cause' =>
    constructor
    · intro h
      cases h
      rfl
    · intro h
      cases h
      rfl
  | ok a =>
    constructor
    · intro h
      cases h
    · intro h
      cases h

lemma bind_eq_ok_iff {f : α → Except ε β} {b : β} :
    r.bind f = .ok b ↔ ∃ a, r = .ok a ∧ f a = .ok b := by
  cases r with
  | error cause =>
    constructor
    · intro h
      cases h
    · rintro ⟨a, h, -⟩
      cases h
  | ok a =>
    constructor
    · intro h
      exact ⟨a, rfl, h⟩
    · rintro ⟨a', h, h'⟩
      cases h
      exact h'

lemma bind_eq_error_iff {f : α → Except ε β} {cause : ε} :
    r.bind f = .error cause ↔ r = .error cause ∨ ∃ a, r = .ok a ∧ f a = .error cause := by
  cases r <;> simp [Except.bind]

end Map

namespace Logged

variable {ε ε' α β : Type}

lemma result_bind_eq_error_iff {x : Logged ε α} {f : α → Logged ε β} {cause : ε} :
    (x >>= f).result = .error cause ↔
      x.result = .error cause ∨ ∃ a, x.result = .ok a ∧ (f a).result = .error cause := by
  rw [result_bind]
  cases x.result <;> simp [Except.bind]

lemma result_mapError_eq_ok_iff {x : Logged ε α} {g : ε → ε'} {a : α} :
    (x.mapError g).result = .ok a ↔ x.result = .ok a := by
  rw [result_mapError]
  cases x.result with
  | ok b =>
    constructor
    · intro h
      cases h
      rfl
    · intro h
      cases h
      rfl
  | error cause =>
    constructor
    · intro h
      cases h
    · intro h
      cases h

lemma result_mapError_eq_error_iff {x : Logged ε α} {g : ε → ε'} {cause : ε'} :
    (x.mapError g).result = .error cause ↔ ∃ inner, x.result = .error inner ∧ g inner = cause := by
  rw [result_mapError]
  cases x.result with
  | ok a =>
    constructor
    · intro h
      cases h
    · rintro ⟨inner, h, -⟩
      cases h
  | error inner =>
    constructor
    · intro h
      cases h
      exact ⟨inner, rfl, rfl⟩
    · rintro ⟨inner', h, rfl⟩
      cases h
      rfl

/-- Only the continuation at the value of the first computation matters. -/
lemma bind_congr {x : Logged ε α} {f g : α → Logged ε β}
    (h : ∀ a, x.result = .ok a → f a = g a) : x >>= f = x >>= g := by
  change bind x f = bind x g
  rw [bind, bind]
  cases hx : x.result with
  | error cause => rfl
  | ok a => simp only [h a hx]

/-- The result of a sequence depends only on the results of its steps. -/
lemma result_bind_congr {x y : Logged ε α} {f g : α → Logged ε β} (h : x.result = y.result)
    (hfg : ∀ a, y.result = .ok a → (f a).result = (g a).result) :
    (x >>= f).result = (y >>= g).result := by
  rw [result_bind, result_bind, h]
  cases hy : y.result with
  | error cause => rfl
  | ok a => exact hfg a hy

/-! ### Sequences -/

lemma pure_bind (a : α) (f : α → Logged ε β) : pure a >>= f = f a := rfl

lemma bind_assoc {γ : Type} (x : Logged ε α) (f : α → Logged ε β) (g : β → Logged ε γ) :
    x >>= f >>= g = x >>= fun a => f a >>= g := by
  change bind (bind x f) g = bind x fun a => bind (f a) g
  rw [bind.eq_def x f, bind.eq_def x]
  cases x.result with
  | error cause => rfl
  | ok a =>
    simp only [bind]
    cases (f a).result with
    | error cause => rfl
    | ok b => simp only [List.append_assoc]

lemma mapError_bind (g : ε → ε') (x : Logged ε α) (f : α → Logged ε β) :
    (x >>= f).mapError g = x.mapError g >>= fun a => (f a).mapError g := by
  change (bind x f).mapError g = bind (x.mapError g) fun a => (f a).mapError g
  rw [bind, bind, result_mapError]
  cases x.result <;> rfl

lemma mapError_mapError {ε'' : Type} (g : ε → ε') (g' : ε' → ε'') (x : Logged ε α) :
    (x.mapError g).mapError g' = x.mapError (g' ∘ g) := by
  rw [mapError, mapError, mapError]
  cases x.result <;> rfl

/-! ### Lists -/

section MapList

variable {f : α → Logged ε β} {as : List α}

lemma mapList_eq_ok_iff {bs : List β} :
    (mapList f as).result = .ok bs ↔ List.Forall₂ (fun a b => (f a).result = .ok b) as bs := by
  induction as generalizing bs with
  | nil =>
    rw [mapList, List.forall₂_nil_left_iff]
    constructor
    · intro h
      cases h
      rfl
    · rintro rfl
      rfl
  | cons a as ih =>
    rw [mapList, result_bind_eq_ok_iff, List.forall₂_cons_left_iff]
    refine exists_congr fun b => ?_
    rw [result_bind_eq_ok_iff]
    constructor
    · rintro ⟨hb, bs, hbs, h⟩
      cases h
      exact ⟨bs, hb, ih.1 hbs, rfl⟩
    · rintro ⟨bs, hb, hbs, rfl⟩
      exact ⟨hb, bs, ih.2 hbs, rfl⟩

/-- A row of computations fails because of one of them, and those before it do not fail. -/
lemma mapList_eq_error_iff {cause : ε} : (mapList f as).result = .error cause ↔
    ∃ before a after, as = before ++ a :: after ∧ (∀ b ∈ before, ∃ c, (f b).result = .ok c) ∧
      (f a).result = .error cause := by
  induction as with
  | nil => simp [mapList]
  | cons a as ih =>
    rw [mapList, result_bind_eq_error_iff]
    constructor
    · rintro (h | ⟨b, hb, h⟩)
      · exact ⟨[], a, as, rfl, by simp, h⟩
      · obtain h | ⟨bs, -, h⟩ := result_bind_eq_error_iff.1 h
        · obtain ⟨before, a', after, rfl, hbefore, ha'⟩ := ih.1 h
          exact ⟨a :: before, a', after, rfl, List.forall_mem_cons.2 ⟨⟨b, hb⟩, hbefore⟩, ha'⟩
        · cases h
    · rintro ⟨_ | ⟨b, before⟩, a', after, heq, hbefore, ha'⟩
      · cases heq
        exact .inl ha'
      · cases heq
        obtain ⟨⟨c, hc⟩, hbefore⟩ := List.forall_mem_cons.1 hbefore
        refine .inr ⟨c, hc, result_bind_eq_error_iff.2 (.inl ?_)⟩
        exact ih.2 ⟨before, a', after, rfl, hbefore, ha'⟩

end MapList

end Logged

/-! ### Two computations -/

/-- Two results that are related values or the same error. -/
inductive Agree {ε α β : Type} (R : α → β → Prop) : Except ε α → Except ε β → Prop
  | ok {a : α} {b : β} (h : R a b) : Agree R (.ok a) (.ok b)
  | error (cause : ε) : Agree R (.error cause) (.error cause)

namespace Agree

variable {ε ε' α α' β β' : Type} {R : α → β → Prop} {S : α' → β' → Prop}

lemma map {x : Except ε α} {y : Except ε β} {f : α → α'} {g : β → β'} (h : Agree R x y)
    (hfg : ∀ a b, R a b → S (f a) (g b)) : Agree S (x.map f) (y.map g) := by
  cases h with
  | ok h => exact .ok (hfg _ _ h)
  | error cause => exact .error cause

lemma mapError {x : Logged ε α} {y : Logged ε β} (h : Agree R x.result y.result) (g : ε → ε') :
    Agree R (x.mapError g).result (y.mapError g).result := by
  rw [Logged.result_mapError, Logged.result_mapError]
  generalize x.result = r, y.result = r' at h ⊢
  cases h with
  | ok h => exact .ok h
  | error cause => exact .error (g cause)

lemma bind {x : Logged ε α} {y : Logged ε β} {f : α → Logged ε α'} {g : β → Logged ε β'}
    (h : Agree R x.result y.result) (hfg : ∀ a b, R a b → Agree S (f a).result (g b).result) :
    Agree S (x >>= f).result (y >>= g).result := by
  rw [Logged.result_bind, Logged.result_bind]
  generalize x.result = r, y.result = r' at h ⊢
  cases h with
  | ok h => exact hfg _ _ h
  | error cause => exact .error cause

end Agree

end EntityModel
