import EntityModel.Entity.Read
import EntityModel.Proofs.Log
import Mathlib.Tactic.SplitIfs

/-!
# Concatenation

Concatenation joins the texts of its arguments, with the text of the first one between them. Null
is left out as if it had not been given, and the empty string is not. The first argument that is a
list or an entity is refused, and its position counts all arguments before it, null or not.
-/

namespace EntityModel

namespace Builtin

/-- What concatenation takes: a delimiter that is a scalar and not null, and behind it scalars and
nulls. -/
def Takes (delimiter : Value) (vs : List Value) : Prop :=
  ¬ delimiter.isNull ∧ delimiter.isScalar ∧ ∀ v ∈ vs, v.isNull ∨ v.isScalar

/-- The texts of the values that are not null. -/
def textsOf (vs : List Value) : List String :=
  (vs.filter fun v => !v.isNull).map Value.text

/-- What is made of a delimiter and the values behind it. -/
def joined (delimiter : Value) (vs : List Value) : Value :=
  .string (String.intercalate delimiter.text (textsOf vs))

/-- Why the argument of a position is refused, if it is. The delimiter has the position zero, where
something is refused even if nothing is given. -/
def refusal? (args : List Value) : Nat → Option ArgumentFault
  | 0 =>
    match args with
    | [] => some .missingDelimiter
    | delimiter :: _ =>
      if delimiter.isNull then some .nullDelimiter
      else if delimiter.isScalar then none
      else some (.notAString delimiter.type)
  | i + 1 => args[i + 1]?.bind fun v =>
      if v.isNull ∨ v.isScalar then none else some (.notAScalar v.type)

/-- The first position at which an argument is refused, and why. -/
def FirstRefused (args : List Value) (i : Nat) (fault : ArgumentFault) : Prop :=
  refusal? args i = some fault ∧ ∀ j < i, refusal? args j = none

variable {delimiter v : Value} {args vs : List Value} {cause : ExpressionError} {i : Nat}

/-! ### The values behind the delimiter -/

lemma textsOf_cons (v : Value) (vs : List Value) :
    textsOf (v :: vs) = (if v.isNull then id else (v.text :: ·)) (textsOf vs) := by
  cases h : v.isNull <;> simp [textsOf, h]

lemma concatTexts_cons_of_joinable (hv : v.isNull ∨ v.isScalar) (i : Nat) :
    concatTexts i (v :: vs) =
      (concatTexts (i + 1) vs).map (if v.isNull then id else (v.text :: ·)) := by
  rw [concatTexts]
  split_ifs with hnull hscalar
  · cases concatTexts (i + 1) vs <;> rfl
  · rfl
  · exact absurd hv (not_or.2 ⟨hnull, hscalar⟩)

lemma concatTexts_cons_of_not_joinable (hv : ¬ (v.isNull ∨ v.isScalar)) (i : Nat) :
    concatTexts i (v :: vs) = .error (.invalidArgument .concat i (.notAScalar v.type)) := by
  obtain ⟨hnull, hscalar⟩ := not_or.1 hv
  rw [concatTexts, if_neg hnull, if_neg hscalar]

lemma concatTexts_eq_ok_iff {texts : List String} :
    concatTexts i vs = .ok texts ↔ (∀ v ∈ vs, v.isNull ∨ v.isScalar) ∧ textsOf vs = texts := by
  induction vs generalizing i texts with
  | nil => simp [concatTexts, textsOf]
  | cons v vs ih =>
    rw [List.forall_mem_cons, textsOf_cons]
    by_cases hv : v.isNull ∨ v.isScalar
    · rw [concatTexts_cons_of_joinable hv, map_eq_ok_iff]
      simp only [ih, and_assoc, exists_and_left, exists_eq_left', hv, true_and]
    · simp [concatTexts_cons_of_not_joinable hv, hv]

/-- The first value that cannot be joined is refused, at the position that it has. -/
lemma exists_of_concatTexts (h : concatTexts i vs = .error cause) :
    ∃ k v, vs[k]? = some v ∧ ¬ (v.isNull ∨ v.isScalar) ∧
      (∀ j < k, ∀ w, vs[j]? = some w → w.isNull ∨ w.isScalar) ∧
      cause = .invalidArgument .concat (i + k) (.notAScalar v.type) := by
  induction vs generalizing i with
  | nil => cases h
  | cons v vs ih =>
    by_cases hv : v.isNull ∨ v.isScalar
    · rw [concatTexts_cons_of_joinable hv, map_eq_error_iff] at h
      obtain ⟨k, w, hk, hw, hbefore, rfl⟩ := ih h
      refine ⟨k + 1, w, hk, hw, ?_, by rw [Nat.add_right_comm, Nat.add_assoc]⟩
      rintro (_ | j) hj u hu
      · cases hu
        exact hv
      · exact hbefore j (Nat.lt_of_succ_lt_succ hj) u hu
    · rw [concatTexts_cons_of_not_joinable hv] at h
      cases h
      exact ⟨0, v, rfl, hv, fun j hj => absurd hj (Nat.not_lt_zero j), rfl⟩

/-! ### Positions -/

lemma refusal?_succ (delimiter : Value) (vs : List Value) (i : Nat) :
    refusal? (delimiter :: vs) (i + 1) = vs[i]?.bind fun v =>
      if v.isNull ∨ v.isScalar then none else some (.notAScalar v.type) := by
  rw [refusal?, List.getElem?_cons_succ]

lemma refusal?_succ_eq_none_iff : refusal? (delimiter :: vs) (i + 1) = none ↔
    ∀ v, vs[i]? = some v → v.isNull ∨ v.isScalar := by
  rw [refusal?_succ, Option.bind_eq_none_iff]
  refine forall₂_congr fun v _ => ?_
  split_ifs with hv <;> simp [hv]

lemma Takes.refusal?_eq_none (h : Takes delimiter vs) (i : Nat) :
    refusal? (delimiter :: vs) i = none := by
  obtain ⟨hnull, hscalar, hvs⟩ := h
  cases i with
  | zero => rw [refusal?, if_neg hnull, if_pos hscalar]
  | succ i =>
    rw [refusal?_succ_eq_none_iff]
    exact fun v hv => hvs v (List.mem_of_getElem? hv)

lemma firstRefused_zero {fault : ArgumentFault} (h : refusal? args 0 = some fault) :
    FirstRefused args 0 fault :=
  ⟨h, fun j hj => absurd hj (Nat.not_lt_zero j)⟩

lemma FirstRefused.unique {j : Nat} {fault fault' : ArgumentFault} (h : FirstRefused args i fault)
    (h' : FirstRefused args j fault') : i = j ∧ fault = fault' := by
  obtain ⟨hfault, hbefore⟩ := h
  obtain ⟨hfault', hbefore'⟩ := h'
  obtain hlt | rfl | hlt := Nat.lt_trichotomy i j
  · cases hfault.symm.trans (hbefore' i hlt)
  · exact ⟨rfl, Option.some.inj (hfault.symm.trans hfault')⟩
  · cases hfault'.symm.trans (hbefore j hlt)

/-! ### All arguments -/

lemma apply_concat_cons_eq_ok_iff :
    concat.apply (delimiter :: vs) = .ok v ↔ Takes delimiter vs ∧ joined delimiter vs = v := by
  rw [Takes, apply]
  cases hnull : delimiter.isNull with
  | true => simp
  | false =>
    cases hscalar : delimiter.isScalar with
    | false => simp
    | true => simp [map_eq_ok_iff, concatTexts_eq_ok_iff, joined, and_assoc]

lemma firstRefused_of_apply (h : concat.apply args = .error cause) :
    ∃ i fault, FirstRefused args i fault ∧ .invalidArgument .concat i fault = cause := by
  cases args with
  | nil =>
    cases h
    exact ⟨0, .missingDelimiter, firstRefused_zero rfl, rfl⟩
  | cons delimiter vs =>
    rw [apply] at h
    split_ifs at h with hnull hscalar
    · cases h
      exact ⟨0, .nullDelimiter, firstRefused_zero (if_pos hnull), rfl⟩
    · cases h
      refine ⟨0, .notAString delimiter.type, firstRefused_zero ?_, rfl⟩
      rw [refusal?, if_neg hnull, if_neg (by simpa using hscalar)]
    · obtain ⟨k, v, hk, hv, hbefore, rfl⟩ := exists_of_concatTexts (map_eq_error_iff.1 h)
      refine ⟨k + 1, .notAScalar v.type, ⟨?_, ?_⟩, by rw [Nat.add_comm]⟩
      · rw [refusal?_succ, hk, Option.bind_some, if_neg hv]
      · rintro (_ | j) hj
        · rw [refusal?, if_neg hnull, if_pos (by simpa using hscalar)]
        · exact refusal?_succ_eq_none_iff.2 (hbefore j (Nat.lt_of_succ_lt_succ hj))

lemma apply_concat_eq_ok_iff : concat.apply args = .ok v ↔
    ∃ delimiter vs, args = delimiter :: vs ∧ Takes delimiter vs ∧ joined delimiter vs = v := by
  constructor
  · intro h
    cases args with
    | nil => cases h
    | cons delimiter vs => exact ⟨delimiter, vs, rfl, apply_concat_cons_eq_ok_iff.1 h⟩
  · rintro ⟨delimiter, vs, rfl, h⟩
    exact apply_concat_cons_eq_ok_iff.2 h

lemma apply_concat_eq_error_iff : concat.apply args = .error cause ↔
    ∃ i fault, FirstRefused args i fault ∧ .invalidArgument .concat i fault = cause := by
  refine ⟨firstRefused_of_apply, ?_⟩
  rintro ⟨i, fault, hfirst, rfl⟩
  cases h : concat.apply args with
  | ok v =>
    obtain ⟨delimiter, vs, rfl, htakes, -⟩ := apply_concat_eq_ok_iff.1 h
    cases hfirst.1.symm.trans (htakes.refusal?_eq_none i)
  | error cause =>
    obtain ⟨j, fault', hfirst', rfl⟩ := firstRefused_of_apply h
    obtain ⟨rfl, rfl⟩ := hfirst.unique hfirst'
    rfl

/-- The values that count are those that are not null. -/
lemma forall_joinable_iff : (∀ v ∈ vs, v.isNull ∨ v.isScalar) ↔
    ∀ v ∈ vs.filter fun v => !v.isNull, v.isScalar := by
  simp only [List.mem_filter, and_imp]
  refine forall₂_congr fun v _ => ?_
  cases v.isNull <;> simp

/-- Concatenation gives the texts of the values behind the delimiter that are not null, joined, if
it takes its arguments. Otherwise the first of them that is refused is reported, at its position
among all arguments. Nulls behind the delimiter can be added and left out without changing what is
given. -/
theorem apply_concat (args : List Value) :
    (∀ v, concat.apply args = .ok v ↔
      ∃ delimiter vs, args = delimiter :: vs ∧ Takes delimiter vs ∧ joined delimiter vs = v) ∧
    (∀ cause, concat.apply args = .error cause ↔
      ∃ i fault, FirstRefused args i fault ∧ .invalidArgument .concat i fault = cause) ∧
    ∀ delimiter vs ws, args = delimiter :: vs →
      (vs.filter fun v => !v.isNull) = (ws.filter fun v => !v.isNull) →
      ∀ v, concat.apply args = .ok v ↔ concat.apply (delimiter :: ws) = .ok v := by
  refine ⟨fun v => apply_concat_eq_ok_iff, fun cause => apply_concat_eq_error_iff, ?_⟩
  rintro delimiter vs ws rfl hfilter v
  rw [apply_concat_cons_eq_ok_iff, apply_concat_cons_eq_ok_iff, Takes, Takes, forall_joinable_iff,
    forall_joinable_iff, joined, joined, textsOf, textsOf, hfilter]

/-- The empty string counts and null does not: two delimiters stand between the other texts. -/
theorem apply_concat_of_nulls :
    concat.apply [.string "-", .string "a", .null, .string "", .boolean true] =
        .ok (.string "a--true") ∧
      concat.apply [.string "-", .string "a", .string "", .null, .null, .boolean true] =
        .ok (.string "a--true") := by
  have hfirst : concat.apply [.string "-", .string "a", .null, .string "", .boolean true] =
      .ok (.string "a--true") := rfl
  obtain ⟨-, -, hnulls⟩ :=
    apply_concat [.string "-", .string "a", .null, .string "", .boolean true]
  exact ⟨hfirst, (hnulls _ _ _ rfl rfl _).1 hfirst⟩

example : concat.apply [.string "-", .null, .null, .list []] =
    .error (.invalidArgument .concat 3 (.notAScalar .list)) := rfl

end Builtin

end EntityModel
