import EntityModel.Entity.Read
import EntityModel.Proofs.Log

/-!
# The values and the errors of expressions

What an expression evaluates to is decided by the values of its paths. Its value is a scalar or the
value of a path, and it fails only because a path fails or because a function refuses an argument.
-/

namespace EntityModel

/-! ### Functions -/

lemma Builtin.isScalar_of_apply {f : Builtin} {args : List Value} {v : Value}
    (h : f.apply args = .ok v) : v.isScalar = true := by
  cases f with
  | concat =>
    cases args with
    | nil => cases h
    | cons delimiter args =>
      rw [Builtin.apply] at h
      split at h
      · cases h
      · split at h
        · cases h
        · obtain ⟨texts, -, rfl⟩ := map_eq_ok_iff.1 h
          rfl

lemma Builtin.invalidArgument_of_concatTexts {i : Nat} {vs : List Value} {cause : ExpressionError}
    (h : Builtin.concatTexts i vs = .error cause) :
    ∃ j fault, cause = .invalidArgument .concat j fault := by
  induction vs generalizing i with
  | nil => cases h
  | cons v vs ih =>
    rw [Builtin.concatTexts] at h
    split at h
    · exact ih h
    · split at h
      · exact ih (map_eq_error_iff.1 h)
      · cases h
        exact ⟨_, _, rfl⟩

lemma Builtin.invalidArgument_of_apply {f : Builtin} {args : List Value} {cause : ExpressionError}
    (h : f.apply args = .error cause) : ∃ i fault, cause = .invalidArgument f i fault := by
  cases f with
  | concat =>
    cases args with
    | nil =>
      cases h
      exact ⟨_, _, rfl⟩
    | cons delimiter args =>
      rw [Builtin.apply] at h
      split at h
      · cases h
        exact ⟨_, _, rfl⟩
      · split at h
        · cases h
          exact ⟨_, _, rfl⟩
        · exact invalidArgument_of_concatTexts (map_eq_error_iff.1 h)

/-! ### Values -/

namespace Expression

variable {resolve resolve' : Path → Logged EntityError Value}

/-- A value of an expression is a scalar or the value of a path of it. -/
lemma isScalar_or_resolve_of_evaluate {x : Expression} {v : Value}
    (h : (x.evaluate resolve).result = .ok v) :
    v.isScalar = true ∨ ∃ p ∈ x.paths, (resolve p).result = .ok v := by
  cases x with
  | literal l =>
    rw [evaluate] at h
    cases h
    left
    cases l <;> rfl
  | path p =>
    rw [evaluate] at h
    exact .inr ⟨p, by rw [paths]; exact List.mem_singleton_self p,
      Logged.result_mapError_eq_ok_iff.1 h⟩
  | call f args =>
    rw [evaluate] at h
    obtain ⟨values, -, happly⟩ := Logged.result_bind_eq_ok_iff.1 h
    exact .inl (Builtin.isScalar_of_apply happly)

mutual

/-- An expression has the value that the values of its paths give it. -/
lemma evaluate_congr : (x : Expression) → (∀ p ∈ x.paths, resolve p = resolve' p) →
    x.evaluate resolve = x.evaluate resolve'
  | .literal _, _ => by rw [evaluate, evaluate]
  | .path p, h => by rw [evaluate, evaluate, h p (by rw [paths]; exact List.mem_singleton_self p)]
  | .call _ args, h => by
    rw [paths] at h
    rw [evaluate, evaluate, evaluateArguments_congr args h]

/-- Arguments have the values that the values of their paths give them. -/
lemma evaluateArguments_congr : (args : List Expression) →
    (∀ p ∈ argumentPaths args, resolve p = resolve' p) →
    evaluateArguments resolve args = evaluateArguments resolve' args
  | [], _ => by rw [evaluateArguments, evaluateArguments]
  | arg :: args, h => by
    rw [argumentPaths] at h
    rw [evaluateArguments, evaluateArguments,
      evaluate_congr arg fun p hp => h p (List.mem_append_left _ hp),
      evaluateArguments_congr args fun p hp => h p (List.mem_append_right _ hp)]

end

/-! ### Errors -/

/-- An expression fails because a function refuses an argument or because a path fails. -/
def Blames (resolve : Path → Logged EntityError Value) (paths : List Path)
    (cause : ExpressionError) : Prop :=
  (∃ f i fault, cause = .invalidArgument f i fault) ∨
    ∃ p ∈ paths, ∃ inner, (resolve p).result = .error inner ∧ cause = .resolution p.text inner

lemma Blames.mono {paths paths' : List Path} {cause : ExpressionError}
    (h : Blames resolve paths cause) (hsub : paths ⊆ paths') : Blames resolve paths' cause := by
  rcases h with h | ⟨p, hp, inner, hinner, heq⟩
  · exact .inl h
  · exact .inr ⟨p, hsub hp, inner, hinner, heq⟩

mutual

lemma blames_of_evaluate : (x : Expression) → {cause : ExpressionError} →
    (x.evaluate resolve).result = .error cause → Blames resolve x.paths cause
  | .literal _, _, h => by
    rw [evaluate] at h
    cases h
  | .path p, _, h => by
    rw [evaluate] at h
    obtain ⟨inner, hinner, rfl⟩ := Logged.result_mapError_eq_error_iff.1 h
    rw [paths]
    exact .inr ⟨p, List.mem_singleton_self p, inner, hinner, rfl⟩
  | .call f args, _, h => by
    rw [evaluate] at h
    rw [paths]
    rcases Logged.result_bind_eq_error_iff.1 h with h | ⟨values, -, happly⟩
    · exact blames_of_evaluateArguments args h
    · obtain ⟨i, fault, rfl⟩ := Builtin.invalidArgument_of_apply happly
      exact .inl ⟨f, i, fault, rfl⟩

lemma blames_of_evaluateArguments : (args : List Expression) → {cause : ExpressionError} →
    (evaluateArguments resolve args).result = .error cause →
    Blames resolve (argumentPaths args) cause
  | [], _, h => by
    rw [evaluateArguments] at h
    cases h
  | arg :: args, _, h => by
    rw [evaluateArguments] at h
    rw [argumentPaths]
    rcases Logged.result_bind_eq_error_iff.1 h with h | ⟨v, -, h⟩
    · exact (blames_of_evaluate arg h).mono (List.subset_append_left _ _)
    · rcases Logged.result_bind_eq_error_iff.1 h with h | ⟨vs, -, h⟩
      · exact (blames_of_evaluateArguments args h).mono (List.subset_append_right _ _)
      · cases h

end

end Expression

end EntityModel
