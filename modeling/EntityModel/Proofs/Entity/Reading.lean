import EntityModel.Proofs.Expression.Evaluation
import EntityModel.Proofs.Schema.Lookup
import EntityModel.Proofs.Value

/-!
# What reading an entity can reach

A value read from an entity is a scalar or lies within a value stored on the entity, however many
computed attributes lead to it. So following a path computes attributes of two sorts only: the one
the path starts at, and those of entities that the entity holds. What a reading does, and how it
fails, is decided by what these computations do.
-/

namespace EntityModel

namespace Entity

/-! ### Values that an entity holds -/

/-- A value is a scalar or lies within a stored value. -/
def Holds (e : Entity) (v : Value) : Prop :=
  v.isScalar = true ∨ ∃ name w, (name, w) ∈ e.store ∧ v.Within w

namespace Holds

variable {e e' : Entity} {v w : Value}

lemma within (h : e.Holds v) (hw : w.Within v) : e.Holds w := by
  rcases h with hs | ⟨name, u, hu, hv⟩
  · left
    rw [hw.eq_of_isScalar hs]
    exact hs
  · exact .inr ⟨name, u, hu, hw.trans hv⟩

/-- What a held entity holds is held. -/
lemma trans (h : e.Holds e'.toValue) (hv : e'.Holds v) : e.Holds v := by
  rcases hv with hs | ⟨name, u, hu, hv⟩
  · exact .inl hs
  · exact h.within (.stored hu hv)

end Holds

lemma holds_stored (e : Entity) (name : String) : e.Holds ((e.stored? name).getD .null) := by
  cases h : e.stored? name with
  | none => exact .inl rfl
  | some v => exact .inr ⟨name, v, Dict.mem_of_get?_eq_some h, .refl v⟩

/-- Computing an attribute of an entity gives values that the entity holds. -/
def Computation.Confined (compute : Computation) : Prop :=
  ∀ ⦃e : Entity⦄ ⦃c : ComputedAttribute⦄ ⦃v : Value⦄, (compute e c).result = .ok v → e.Holds v

section Confined

variable {compute : Computation} {path : String} {e : Entity} {v w : Value}

lemma holds_of_lookup (hc : compute.Confined) {name : String}
    (h : (lookup compute path e name).result = .ok v) : e.Holds v := by
  rw [lookup] at h
  split at h
  · exact hc h
  · split at h
    · cases h
      exact holds_stored e name
    · cases h

lemma holds_of_step (hc : compute.Confined) {s : Segment} (hv : e.Holds v)
    (h : (step compute path v s).result = .ok w) : e.Holds w := by
  cases s with
  | field name =>
    cases v with
    | entity schema store =>
      have howner : e.Holds (Entity.mk schema store).toValue := hv
      exact howner.trans (holds_of_lookup hc h)
    | _ => cases h
  | index i =>
    cases v with
    | list items =>
      rw [step] at h
      cases hi : items[i]? with
      | none =>
        simp only [Value.list?, hi] at h
        cases h
      | some item =>
        simp only [Value.list?, hi] at h
        cases h
        exact hv.within (.item (List.mem_of_getElem? hi) (.refl _))
    | _ => cases h

lemma holds_of_walk (hc : compute.Confined) {segments : List Segment} (hv : e.Holds v)
    (h : (walk compute path v segments).result = .ok w) : e.Holds w := by
  induction segments generalizing v with
  | nil =>
    cases h
    exact hv
  | cons s segments ih =>
    rw [walk] at h
    split at h
    · cases h
      exact .inl rfl
    · obtain ⟨next, hnext, hrest⟩ := Logged.result_bind_eq_ok_iff.1 h
      exact ih (holds_of_step hc hv hnext) hrest

lemma holds_of_follow (hc : compute.Confined) {p : Path}
    (h : (follow compute e p).result = .ok v) : e.Holds v := by
  rw [follow] at h
  split at h
  · obtain ⟨start, hstart, hrest⟩ := Logged.result_bind_eq_ok_iff.1 h
    exact holds_of_walk hc (holds_of_lookup hc hstart) hrest
  · cases h

end Confined

/-! ### What is computed on the way -/

/-- Following a path from a name can compute an attribute: it is the attribute of that name, or it
belongs to an entity that is held. -/
def Reads (e : Entity) (name : String) (e' : Entity) (c : ComputedAttribute) : Prop :=
  c ∈ e'.schema.computed ∧ ((e' = e ∧ c.name = name) ∨ e.Holds e'.toValue)

section Congruence

variable {compute compute' : Computation} {path : String} {e : Entity} {v : Value}

lemma lookup_congr {name : String}
    (h : ∀ c ∈ e.schema.computed, c.name = name → compute e c = compute' e c) :
    lookup compute path e name = lookup compute' path e name := by
  rw [lookup, lookup]
  cases hc : e.schema.computed? name with
  | none => rfl
  | some c =>
    obtain ⟨hmem, hname⟩ := Schema.computed?_eq_some_iff.1 hc
    exact h c hmem hname

lemma step_congr
    (h : ∀ e', e.Holds e'.toValue → ∀ c ∈ e'.schema.computed, compute e' c = compute' e' c)
    (hv : e.Holds v) (s : Segment) : step compute path v s = step compute' path v s := by
  cases s with
  | field name =>
    cases v with
    | entity schema store => exact lookup_congr fun c hc _ => h ⟨schema, store⟩ hv c hc
    | _ => rfl
  | index i => rfl

lemma walk_congr (hc : compute.Confined)
    (h : ∀ e', e.Holds e'.toValue → ∀ c ∈ e'.schema.computed, compute e' c = compute' e' c)
    (hv : e.Holds v) (segments : List Segment) :
    walk compute path v segments = walk compute' path v segments := by
  induction segments generalizing v with
  | nil => rfl
  | cons s segments ih =>
    rw [walk, walk, ← step_congr h hv]
    split
    · rfl
    · exact Logged.bind_congr fun next hnext => ih (holds_of_step hc hv hnext)

/-- Following a path is decided by the computations that it can make. -/
lemma follow_congr (hc : compute.Confined) {p : Path}
    (h : ∀ e' c, e.Reads p.root e' c → compute e' c = compute' e' c) :
    follow compute e p = follow compute' e p := by
  rw [follow, follow]
  split
  · rename_i name segments hp
    have hroot : p.root = name := by rw [Path.root, hp]
    have hstart : lookup compute p.text e name = lookup compute' p.text e name :=
      lookup_congr fun c hmem hname => h e c ⟨hmem, .inl ⟨rfl, hname.trans hroot.symm⟩⟩
    rw [← hstart]
    refine Logged.bind_congr fun v hv => walk_congr hc ?_ (holds_of_lookup hc hv) segments
    exact fun e' he' c hmem => h e' c ⟨hmem, .inr he'⟩
  · rfl

/-- Evaluating an expression is decided by the computations that its paths can make. -/
lemma evaluateWith_congr (hc : compute.Confined) {source : String}
    (h : ∀ name ∈ rootsOf source, ∀ e' c, e.Reads name e' c → compute e' c = compute' e' c) :
    evaluateWith compute source e = evaluateWith compute' source e := by
  rw [evaluateWith, evaluateWith]
  refine Logged.bind_congr fun _ _ => ?_
  cases hx : Expression.parse source with
  | error cause => rfl
  | ok x =>
    refine Expression.evaluate_congr x fun p hp => follow_congr hc (h p.root ?_)
    rw [rootsOf, hx]
    exact List.mem_map_of_mem hp

end Congruence

/-! ### How a reading fails -/

section Failure

variable {compute : Computation} {path : String} {e : Entity} {v : Value} {cause : EntityError}

lemma error_of_lookup {name : String} (h : (lookup compute path e name).result = .error cause) :
    (∃ fault, cause = .invalidPath path fault) ∨
      ∃ c ∈ e.schema.computed, c.name = name ∧ (compute e c).result = .error cause := by
  rw [lookup] at h
  split at h
  · rename_i c hc
    obtain ⟨hmem, hname⟩ := Schema.computed?_eq_some_iff.1 hc
    exact .inr ⟨c, hmem, hname, h⟩
  · split at h
    · cases h
    · cases h
      exact .inl ⟨_, rfl⟩

lemma error_of_step (hv : e.Holds v) {s : Segment}
    (h : (step compute path v s).result = .error cause) :
    (∃ fault, cause = .invalidPath path fault) ∨ ∃ e' c, c ∈ e'.schema.computed ∧
      e.Holds e'.toValue ∧ (compute e' c).result = .error cause := by
  cases s with
  | field name =>
    cases v with
    | entity schema store =>
      rcases error_of_lookup (e := ⟨schema, store⟩) h with h | ⟨c, hc, -, hcause⟩
      · exact .inl h
      · exact .inr ⟨⟨schema, store⟩, c, hc, hv, hcause⟩
    | _ =>
      cases h
      exact .inl ⟨_, rfl⟩
  | index i =>
    cases v with
    | list items =>
      rw [step] at h
      cases hi : items[i]? with
      | none =>
        simp only [Value.list?, hi] at h
        cases h
        exact .inl ⟨_, rfl⟩
      | some item =>
        simp only [Value.list?, hi] at h
        cases h
    | _ =>
      cases h
      exact .inl ⟨_, rfl⟩

lemma error_of_walk (hc : compute.Confined) (hv : e.Holds v) {segments : List Segment}
    (h : (walk compute path v segments).result = .error cause) :
    (∃ fault, cause = .invalidPath path fault) ∨ ∃ e' c, c ∈ e'.schema.computed ∧
      e.Holds e'.toValue ∧ (compute e' c).result = .error cause := by
  induction segments generalizing v with
  | nil => cases h
  | cons s segments ih =>
    rw [walk] at h
    split at h
    · cases h
    · rcases Logged.result_bind_eq_error_iff.1 h with h | ⟨next, hnext, h⟩
      · exact error_of_step hv h
      · exact ih (holds_of_step hc hv hnext) h

/-- A path fails by itself or because of a computation that it makes. -/
lemma error_of_follow (hc : compute.Confined) {p : Path}
    (h : (follow compute e p).result = .error cause) :
    (∃ fault, cause = .invalidPath p.text fault) ∨
      ∃ e' c, e.Reads p.root e' c ∧ (compute e' c).result = .error cause := by
  rw [follow] at h
  split at h
  · rename_i name segments hp
    have hroot : p.root = name := by rw [Path.root, hp]
    rcases Logged.result_bind_eq_error_iff.1 h with h | ⟨v, hv, h⟩
    · rcases error_of_lookup h with h | ⟨c, hmem, hname, hcause⟩
      · exact .inl h
      · exact .inr ⟨e, c, ⟨hmem, .inl ⟨rfl, hname.trans hroot.symm⟩⟩, hcause⟩
    · rcases error_of_walk hc (holds_of_lookup hc hv) h with h | ⟨e', c, hmem, he', hcause⟩
      · exact .inl h
      · exact .inr ⟨e', c, ⟨hmem, .inr he'⟩, hcause⟩
  · cases h
    exact .inl ⟨_, rfl⟩

end Failure

/-! ### Computed values -/

lemma holds_of_evaluateWith {compute : Computation} (hc : compute.Confined) {source : String}
    {e : Entity} {v : Value} (h : (evaluateWith compute source e).result = .ok v) : e.Holds v := by
  obtain ⟨-, -, h⟩ := Logged.result_bind_eq_ok_iff.1 h
  cases hx : Expression.parse source with
  | error cause =>
    rw [hx] at h
    cases h
  | ok x =>
    rw [hx] at h
    rcases Expression.isScalar_or_resolve_of_evaluate h with hs | ⟨p, -, hp⟩
    · exact .inl hs
    · exact holds_of_follow hc hp

/-- However deep computations nest, a computed value is held by the entity it is computed on. -/
theorem confined_computeWithin (n : Nat) : (computeWithin n).Confined := by
  induction n with
  | zero =>
    intro e c v h
    cases h
  | succ n ih =>
    intro e c v h
    exact holds_of_evaluateWith ih (Logged.result_mapError_eq_ok_iff.1 h)

end Entity

end EntityModel
