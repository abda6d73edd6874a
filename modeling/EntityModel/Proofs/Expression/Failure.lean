import EntityModel.Proofs.Expression.Evaluation
import Mathlib.Data.List.Forall2

/-!
# The first failure of an expression

The parts of an expression get their values in one order, from left to right, and the arguments of a
call before the call. A path fails by itself if it leads nowhere, a call if the function refuses the
values of its arguments, and a constant never. An expression has a value only if no part of it fails
by itself, and else its error is that of the first part that does (`firstFailure_of_evaluate`).
-/

namespace EntityModel

namespace Expression

mutual

/-- The parts of an expression, itself included, in the order in which they get their values. -/
def parts : Expression → List Expression
  | .literal l => [.literal l]
  | .path p => [.path p]
  | .call f args => argumentParts args ++ [.call f args]

/-- The parts of arguments, in that order. -/
def argumentParts : List Expression → List Expression
  | [] => []
  | arg :: args => parts arg ++ argumentParts args

end

/-- An expression fails though no smaller part of it does. -/
inductive FailsItself (resolve : Path → Logged EntityError Value) :
    Expression → ExpressionError → Prop
  | path {p : Path} {inner : EntityError} (h : (resolve p).result = .error inner) :
      FailsItself resolve (.path p) (.resolution p.text inner)
  | call {f : Builtin} {args : List Expression} {values : List Value} {cause : ExpressionError}
      (hargs : List.Forall₂ (fun arg v => (arg.evaluate resolve).result = .ok v) args values)
      (h : f.apply values = .error cause) : FailsItself resolve (.call f args) cause

/-- None of some expressions fails by itself. -/
def NoneFails (resolve : Path → Logged EntityError Value) (xs : List Expression) : Prop :=
  ∀ x ∈ xs, ∀ cause, ¬ FailsItself resolve x cause

/-- An error is that of the first of some expressions that fails by itself. -/
inductive FirstFailure (resolve : Path → Logged EntityError Value) :
    List Expression → ExpressionError → Prop
  | here {x : Expression} {xs : List Expression} {cause : ExpressionError}
      (h : FailsItself resolve x cause) : FirstFailure resolve (x :: xs) cause
  | later {x : Expression} {xs : List Expression} {cause : ExpressionError}
      (hx : ∀ cause', ¬ FailsItself resolve x cause') (h : FirstFailure resolve xs cause) :
      FirstFailure resolve (x :: xs) cause

variable {resolve : Path → Logged EntityError Value}

/-! ### Expressions in order -/

section Order

variable {xs ys : List Expression} {cause : ExpressionError}

lemma NoneFails.append (hx : NoneFails resolve xs) (hy : NoneFails resolve ys) :
    NoneFails resolve (xs ++ ys) :=
  List.forall_mem_append.2 ⟨hx, hy⟩

lemma noneFails_singleton {x : Expression} (h : ∀ cause, ¬ FailsItself resolve x cause) :
    NoneFails resolve [x] :=
  List.forall_mem_singleton.2 h

/-- What comes after a failure does not count. -/
lemma FirstFailure.append_right (h : FirstFailure resolve xs cause) (ys : List Expression) :
    FirstFailure resolve (xs ++ ys) cause := by
  induction h with
  | here h => exact .here h
  | later hx _ ih => exact .later hx ih

/-- What comes before a failure and does not fail does not count. -/
lemma FirstFailure.append_left (hx : NoneFails resolve xs) (h : FirstFailure resolve ys cause) :
    FirstFailure resolve (xs ++ ys) cause := by
  induction xs with
  | nil => exact h
  | cons x xs ih =>
    obtain ⟨hfirst, hrest⟩ := List.forall_mem_cons.1 hx
    exact .later hfirst (ih hrest)

lemma FirstFailure.not_noneFails (h : FirstFailure resolve xs cause) : ¬ NoneFails resolve xs := by
  intro hnone
  induction h with
  | here h => exact hnone _ List.mem_cons_self _ h
  | later _ _ ih => exact ih (List.forall_mem_cons.1 hnone).2

end Order

/-! ### Arguments -/

/-- Arguments have values if and only if each of them has one. -/
lemma evaluateArguments_eq_ok_iff {args : List Expression} {values : List Value} :
    (evaluateArguments resolve args).result = .ok values ↔
      List.Forall₂ (fun arg v => (arg.evaluate resolve).result = .ok v) args values := by
  induction args generalizing values with
  | nil =>
    rw [evaluateArguments, List.forall₂_nil_left_iff]
    constructor
    · intro h
      cases h
      rfl
    · rintro rfl
      rfl
  | cons arg args ih =>
    rw [evaluateArguments, Logged.result_bind_eq_ok_iff, List.forall₂_cons_left_iff]
    refine exists_congr fun v => ?_
    rw [Logged.result_bind_eq_ok_iff]
    constructor
    · rintro ⟨hv, vs, hvs, h⟩
      cases h
      exact ⟨vs, hv, ih.1 hvs, rfl⟩
    · rintro ⟨vs, hv, hvs, rfl⟩
      exact ⟨hv, vs, ih.2 hvs, rfl⟩

/-- A call with a value has a value for every argument. -/
lemma exists_of_evaluate_call {f : Builtin} {args : List Expression} {v : Value}
    (h : ((Expression.call f args).evaluate resolve).result = .ok v) :
    ∀ arg ∈ args, ∃ w, (arg.evaluate resolve).result = .ok w := by
  rw [evaluate] at h
  obtain ⟨values, hvalues, -⟩ := Logged.result_bind_eq_ok_iff.1 h
  have hall := evaluateArguments_eq_ok_iff.1 hvalues
  clear h hvalues
  induction hall with
  | nil => simp
  | cons harg _ ih => exact List.forall_mem_cons.2 ⟨⟨_, harg⟩, ih⟩

/-! ### Values and errors -/

/-- A call does not fail by itself where the function accepts the values of its arguments. -/
lemma not_failsItself_call {f : Builtin} {args : List Expression} {values : List Value} {v : Value}
    (hvalues : (evaluateArguments resolve args).result = .ok values) (h : f.apply values = .ok v)
    (cause : ExpressionError) : ¬ FailsItself resolve (.call f args) cause := by
  intro hcall
  cases hcall with
  | call hargs hrefused =>
    have heq := hvalues.symm.trans (evaluateArguments_eq_ok_iff.2 hargs)
    cases heq
    rw [h] at hrefused
    cases hrefused

mutual

lemma noneFails_of_evaluate : (x : Expression) → {v : Value} →
    (x.evaluate resolve).result = .ok v → NoneFails resolve x.parts
  | .literal l, _, _ => by
    rw [parts]
    refine noneFails_singleton fun cause h => ?_
    cases h
  | .path p, v, h => by
    rw [evaluate] at h
    rw [parts]
    refine noneFails_singleton fun cause hp => ?_
    cases hp with
    | path hp =>
      rw [Logged.result_mapError_eq_ok_iff.1 h] at hp
      cases hp
  | .call f args, v, h => by
    rw [evaluate] at h
    obtain ⟨values, hvalues, happly⟩ := Logged.result_bind_eq_ok_iff.1 h
    rw [parts]
    exact (noneFails_of_evaluateArguments args hvalues).append
      (noneFails_singleton (not_failsItself_call hvalues happly))

lemma noneFails_of_evaluateArguments : (args : List Expression) → {values : List Value} →
    (evaluateArguments resolve args).result = .ok values → NoneFails resolve (argumentParts args)
  | [], _, _ => by simp [argumentParts, NoneFails]
  | arg :: args, _, h => by
    rw [evaluateArguments] at h
    obtain ⟨v, hv, h⟩ := Logged.result_bind_eq_ok_iff.1 h
    obtain ⟨vs, hvs, -⟩ := Logged.result_bind_eq_ok_iff.1 h
    rw [argumentParts]
    exact (noneFails_of_evaluate arg hv).append (noneFails_of_evaluateArguments args hvs)

end

mutual

/-- The error of an expression is that of its first part that fails by itself. -/
theorem firstFailure_of_evaluate : (x : Expression) → {cause : ExpressionError} →
    (x.evaluate resolve).result = .error cause → FirstFailure resolve x.parts cause
  | .literal l, _, h => by
    rw [evaluate] at h
    cases h
  | .path p, _, h => by
    rw [evaluate] at h
    obtain ⟨inner, hinner, rfl⟩ := Logged.result_mapError_eq_error_iff.1 h
    rw [parts]
    exact .here (.path hinner)
  | .call f args, _, h => by
    rw [evaluate] at h
    rw [parts]
    rcases Logged.result_bind_eq_error_iff.1 h with h | ⟨values, hvalues, happly⟩
    · exact (firstFailure_of_evaluateArguments args h).append_right _
    · exact .append_left (noneFails_of_evaluateArguments args hvalues)
        (.here (.call (evaluateArguments_eq_ok_iff.1 hvalues) happly))

/-- The error of arguments is that of the first part of them that fails by itself. -/
theorem firstFailure_of_evaluateArguments : (args : List Expression) → {cause : ExpressionError} →
    (evaluateArguments resolve args).result = .error cause →
      FirstFailure resolve (argumentParts args) cause
  | [], _, h => by
    rw [evaluateArguments] at h
    cases h
  | arg :: args, _, h => by
    rw [evaluateArguments] at h
    rw [argumentParts]
    rcases Logged.result_bind_eq_error_iff.1 h with h | ⟨v, hv, h⟩
    · exact (firstFailure_of_evaluate arg h).append_right _
    · rcases Logged.result_bind_eq_error_iff.1 h with h | ⟨vs, -, h⟩
      · exact .append_left (noneFails_of_evaluate arg hv) (firstFailure_of_evaluateArguments args h)
      · cases h

end

/-- An expression has a value if and only if none of its parts fails by itself. -/
lemma exists_evaluate_eq_ok_iff {x : Expression} :
    (∃ v, (x.evaluate resolve).result = .ok v) ↔ NoneFails resolve x.parts := by
  constructor
  · rintro ⟨v, h⟩
    exact noneFails_of_evaluate x h
  · intro hnone
    cases h : (x.evaluate resolve).result with
    | ok v => exact ⟨v, rfl⟩
    | error cause => exact absurd hnone (firstFailure_of_evaluate x h).not_noneFails

/-! ### Paths -/

mutual

lemma path_mem_parts : (x : Expression) → {p : Path} → p ∈ x.paths → .path p ∈ x.parts
  | .literal _, _, h => by
    rw [paths] at h
    cases h
  | .path p, _, h => by
    rw [paths] at h
    rw [parts, List.mem_singleton.1 h]
    exact List.mem_singleton_self _
  | .call f args, _, h => by
    rw [paths] at h
    rw [parts]
    exact List.mem_append_left _ (path_mem_argumentParts args h)

lemma path_mem_argumentParts : (args : List Expression) → {p : Path} →
    p ∈ argumentPaths args → .path p ∈ argumentParts args
  | [], _, h => by
    rw [argumentPaths] at h
    cases h
  | arg :: args, _, h => by
    rw [argumentPaths] at h
    rw [argumentParts]
    rcases List.mem_append.1 h with h | h
    · exact List.mem_append_left _ (path_mem_parts arg h)
    · exact List.mem_append_right _ (path_mem_argumentParts args h)

end

/-- An expression with a value has paths that all lead somewhere. -/
lemma exists_resolve_of_evaluate {x : Expression} {v : Value}
    (h : (x.evaluate resolve).result = .ok v) {p : Path} (hp : p ∈ x.paths) :
    ∃ w, (resolve p).result = .ok w := by
  cases hw : (resolve p).result with
  | ok w => exact ⟨w, rfl⟩
  | error inner => exact absurd (.path hw) (noneFails_of_evaluate x h _ (path_mem_parts x hp) _)

end Expression

end EntityModel
