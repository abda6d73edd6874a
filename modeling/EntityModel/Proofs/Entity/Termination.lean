import EntityModel.Proofs.Entity.Reading
import EntityModel.Proofs.Schema.Order
import EntityModel.Proofs.Entity.Shape

/-!
# Reading computed attributes comes to an end

A computation costs the rank of its attribute in the order of its schema and, on top, the most that
the entities held by its entity can take. Whatever it computes on the way costs less: an attribute
of the same entity has a smaller rank, and an entity that is held is a strict part of its owner. So
the depth that is allowed for an entity is never used up, and a larger one changes nothing.
-/

namespace EntityModel

mutual

/-- Whether an error goes back to a depth that was used up. -/
def EntityError.exhausted : EntityError → Bool
  | .expression _ cause => cause.exhausted
  | .tooDeep _ => true
  | _ => false

/-- Whether an error goes back to a depth that was used up. -/
def ExpressionError.exhausted : ExpressionError → Bool
  | .resolution _ cause => cause.exhausted
  | _ => false

end

/-! ### Budgets -/

namespace Value

lemma depthBudget_le_listBudget {v : Value} {items : List Value} (h : v ∈ items) :
    v.depthBudget ≤ listBudget items := by
  induction items with
  | nil => cases h
  | cons w items ih =>
    rw [listBudget]
    rcases List.mem_cons.1 h with rfl | h
    · exact Nat.le_max_left _ _
    · exact Nat.le_trans (ih h) (Nat.le_max_right _ _)

lemma depthBudget_le_storeBudget {v : Value} {name : String} {store : List (String × Value)}
    (h : (name, v) ∈ store) : v.depthBudget ≤ storeBudget store := by
  induction store with
  | nil => cases h
  | cons p store ih =>
    obtain ⟨m, w⟩ := p
    rw [storeBudget]
    rcases List.mem_cons.1 h with heq | h
    · cases heq
      exact Nat.le_max_left _ _
    · exact Nat.le_trans (ih h) (Nat.le_max_right _ _)

lemma Within.depthBudget_le {v w : Value} (h : v.Within w) : v.depthBudget ≤ w.depthBudget := by
  induction h with
  | refl => exact Nat.le_refl _
  | item hw _ ih =>
    rw [depthBudget]
    exact Nat.le_trans ih (depthBudget_le_listBudget hw)
  | stored hw _ ih =>
    rw [depthBudget]
    exact Nat.le_trans ih (Nat.le_trans (depthBudget_le_storeBudget hw) (Nat.le_add_left _ _))

end Value

namespace Entity

variable {e e' : Entity} {c c' : ComputedAttribute}

/-- An entity that is held takes no more than the stored values do. -/
lemma Holds.depthBudget_le (h : e.Holds e'.toValue) :
    e'.toValue.depthBudget ≤ Value.storeBudget e.store := by
  rcases h with hs | ⟨name, w, hw, hv⟩
  · cases hs
  · exact Nat.le_trans hv.depthBudget_le (Value.depthBudget_le_storeBudget hw)

/-- How deep the computation of an attribute can nest. -/
def cost (e : Entity) (c : ComputedAttribute) : Nat :=
  e.schema.rank c.name + Value.storeBudget e.store

lemma cost_pos (hc : c ∈ e.schema.computed) : 0 < e.cost c :=
  Nat.lt_of_lt_of_le (Schema.rank_pos hc) (Nat.le_add_right _ _)

lemma cost_le_depthBudget (e : Entity) (c : ComputedAttribute) :
    e.cost c ≤ e.toValue.depthBudget := by
  rw [cost, toValue, Value.depthBudget]
  exact Nat.add_le_add_right (e.schema.rank_le_length c.name) _

lemma mem_dependencies {s : Schema} (hc : c ∈ s.computed) (hc' : c' ∈ s.computed)
    (h : c'.name ∈ rootsOf c.expression) : c'.name ∈ dependencies s.computed c.name := by
  have hfind : (s.computed.find? fun d => d.name = c.name) = some c :=
    Schema.computed?_eq_some_iff.2 ⟨hc, rfl⟩
  rw [dependencies, hfind]
  refine List.mem_filter.2 ⟨h, List.any_eq_true.2 ⟨c', hc', ?_⟩⟩
  exact decide_eq_true rfl

/-- What a computation computes on the way costs less than itself. -/
lemma cost_lt_of_reads (hc : c ∈ e.schema.computed) {name : String}
    (hname : name ∈ rootsOf c.expression) (h : e.Reads name e' c') : e'.cost c' < e.cost c := by
  obtain ⟨hc', ⟨rfl, rfl⟩ | hheld⟩ := h
  · have hlt := Schema.rank_lt_of_mem_dependencies hc (mem_dependencies hc hc' hname)
    exact Nat.add_lt_add_right hlt _
  · have hle := Nat.le_trans (cost_le_depthBudget e' c') hheld.depthBudget_le
    have hpos := Schema.rank_pos hc
    have hcost : e.cost c = e.schema.rank c.name + Value.storeBudget e.store := rfl
    omega

/-! ### Errors that do not go back to the depth -/

/-- A computation does not fail because a depth is used up. -/
def Computation.SettlesAt (compute : Computation) (e : Entity) (c : ComputedAttribute) : Prop :=
  ∀ cause, (compute e c).result = .error cause → cause.exhausted = false

section Settled

variable {compute : Computation}

lemma exhausted_of_follow (hc : compute.Confined) {p : Path}
    (h : ∀ e' c, e.Reads p.root e' c → compute.SettlesAt e' c) {cause : EntityError}
    (hcause : (follow compute e p).result = .error cause) : cause.exhausted = false := by
  rcases error_of_follow hc hcause with ⟨fault, rfl⟩ | ⟨e', c, hreads, hinner⟩
  · rfl
  · exact h e' c hreads cause hinner

lemma exhausted_of_evaluate {x : Expression} {resolve : Path → Logged EntityError Value}
    (h : ∀ p ∈ x.paths, ∀ inner, (resolve p).result = .error inner → inner.exhausted = false)
    {cause : ExpressionError} (hcause : (x.evaluate resolve).result = .error cause) :
    cause.exhausted = false := by
  rcases Expression.blames_of_evaluate x hcause with
    ⟨f, i, fault, rfl⟩ | ⟨p, hp, inner, hinner, rfl⟩
  · rfl
  · exact h p hp inner hinner

lemma exhausted_of_evaluateWith (hc : compute.Confined) {source : String}
    (h : ∀ name ∈ rootsOf source, ∀ e' c, e.Reads name e' c → compute.SettlesAt e' c)
    {cause : ExpressionError} (hcause : (evaluateWith compute source e).result = .error cause) :
    cause.exhausted = false := by
  rcases Logged.result_bind_eq_error_iff.1 hcause with hreport | ⟨-, -, hcause⟩
  · cases hreport
  · cases hx : Expression.parse source with
    | error inner =>
      rw [hx] at hcause
      cases hcause
      rfl
    | ok x =>
      rw [hx] at hcause
      refine exhausted_of_evaluate (fun p hp inner hinner => ?_) hcause
      refine exhausted_of_follow hc (h p.root ?_) hinner
      rw [rootsOf, hx]
      exact List.mem_map_of_mem hp

end Settled

/-! ### Computations within their cost -/

/-- Computations that have their cost to spend do not use it up, and one more changes nothing. -/
lemma computeWithin_settles {n : Nat} (hc : c ∈ e.schema.computed) (hn : e.cost c ≤ n) :
    (computeWithin n).SettlesAt e c ∧ computeWithin (n + 1) e c = computeWithin n e c := by
  induction n generalizing e c with
  | zero => exact absurd hn (Nat.not_le_of_lt (cost_pos hc))
  | succ n ih =>
    have inner : ∀ name ∈ rootsOf c.expression, ∀ e' c', e.Reads name e' c' →
        (computeWithin n).SettlesAt e' c' ∧
          computeWithin (n + 1) e' c' = computeWithin n e' c' := by
      intro name hname e' c' hreads
      exact ih hreads.1 (Nat.le_of_lt_succ
        (Nat.lt_of_lt_of_le (cost_lt_of_reads hc hname hreads) hn))
    constructor
    · intro cause hcause
      obtain ⟨cause', hcause', rfl⟩ := Logged.result_mapError_eq_error_iff.1 hcause
      exact exhausted_of_evaluateWith (confined_computeWithin n)
        (fun name hname e' c' hreads => (inner name hname e' c' hreads).1) hcause'
    · rw [computeWithin, computeWithin]
      rw [evaluateWith_congr (confined_computeWithin (n + 1))
        fun name hname e' c' hreads => (inner name hname e' c' hreads).2]

lemma computeWithin_eq_of_le {m n : Nat} (hc : c ∈ e.schema.computed) (hm : e.cost c ≤ m)
    (hmn : m ≤ n) : computeWithin n e c = computeWithin m e c := by
  induction hmn with
  | refl => rfl
  | @step n hmn ih => rw [(computeWithin_settles hc (Nat.le_trans hm hmn)).2, ih]

/-- Any depth that covers the cost gives the value of an attribute. -/
lemma computeWithin_eq_compute {n : Nat} (hc : c ∈ e.schema.computed) (hn : e.cost c ≤ n) :
    computeWithin n e c = compute e c := by
  rw [compute]
  rcases Nat.le_total n e.toValue.depthBudget with h | h
  · exact (computeWithin_eq_of_le hc hn h).symm
  · exact computeWithin_eq_of_le hc (cost_le_depthBudget e c) h

/-- Some depth is enough for two computations. -/
lemma exists_computeWithin_eq_compute {e' : Entity} {c' : ComputedAttribute}
    (hc : c ∈ e.schema.computed) (hc' : c' ∈ e'.schema.computed) :
    ∃ n, computeWithin n e c = compute e c ∧ computeWithin n e' c' = compute e' c' :=
  ⟨max (e.cost c) (e'.cost c'), computeWithin_eq_compute hc (Nat.le_max_left _ _),
    computeWithin_eq_compute hc' (Nat.le_max_right _ _)⟩

lemma settlesAt_compute (hc : c ∈ e.schema.computed) : compute.SettlesAt e c :=
  (computeWithin_settles hc (cost_le_depthBudget e c)).1

lemma confined_compute : compute.Confined :=
  fun e _ _ h => confined_computeWithin e.toValue.depthBudget h

/-- Computing an attribute is evaluating its expression, with no depth in it. -/
lemma compute_eq (hc : c ∈ e.schema.computed) :
    compute e c = (evaluateWith compute c.expression e).mapError (.expression c.name) := by
  have hbudget := cost_le_depthBudget e c
  rw [← computeWithin_eq_compute hc (Nat.le_succ_of_le hbudget), computeWithin]
  rw [evaluateWith_congr (confined_computeWithin _)]
  intro name hname e' c' hreads
  have hlt := cost_lt_of_reads hc hname hreads
  exact computeWithin_eq_compute hreads.1 (Nat.le_trans (Nat.le_of_lt hlt) hbudget)

/-! ### Reading -/

lemma get_computed (hc : c ∈ e.schema.computed) : e.get c.name = compute e c := by
  rw [get, Schema.computed?_eq_some_iff.2 ⟨hc, rfl⟩]

lemma exhausted_of_resolve {p : Path} {cause : EntityError}
    (h : (e.resolve p).result = .error cause) : cause.exhausted = false :=
  exhausted_of_follow confined_compute (fun _ _ hreads => settlesAt_compute hreads.1) h

lemma exhausted_of_get {name : String} {cause : EntityError}
    (h : (e.get name).result = .error cause) : cause.exhausted = false := by
  rw [get] at h
  split at h
  · rename_i c hc
    exact settlesAt_compute (Schema.computed?_eq_some_iff.1 hc).1 cause h
  · split at h
    · cases h
    · cases h
      rfl

lemma exhausted_of_getByPath {wanted : WantedType} {text : String} {cause : EntityError}
    (h : (e.getByPath wanted text).result = .error cause) : cause.exhausted = false := by
  rw [getByPath] at h
  split at h
  · cases h
    rfl
  · rcases Logged.result_bind_eq_error_iff.1 h with h | ⟨v, -, h⟩
    · exact exhausted_of_resolve h
    · split at h
      · cases h
      · split at h
        · cases h
        · cases h
          rfl

lemma exhausted_of_computedValues {cause : EntityError}
    (h : e.computedValues.result = .error cause) : cause.exhausted = false := by
  have all : ∀ l : List ComputedAttribute, l ⊆ e.schema.computed → ∀ cause,
      (Logged.mapList (fun c => do let v ← compute e c; pure (c.name, v)) l).result = .error cause →
        cause.exhausted = false := by
    intro l
    induction l with
    | nil =>
      intro _ cause h
      cases h
    | cons c l ih =>
      intro hsub cause h
      obtain ⟨hc, hl⟩ := List.cons_subset.1 hsub
      rcases Logged.result_bind_eq_error_iff.1 h with h | ⟨p, -, h⟩
      · rcases Logged.result_bind_eq_error_iff.1 h with h | ⟨v, -, h⟩
        · exact settlesAt_compute hc cause h
        · cases h
      · rcases Logged.result_bind_eq_error_iff.1 h with h | ⟨vs, -, h⟩
        · exact ih hl cause h
        · cases h
  exact all e.schema.computed (List.Subset.refl _) cause h

/-- Computed attributes are what their expressions say, at every depth that is large enough, and no
way of reading an entity fails because a depth is used up. -/
theorem reading_terminates (e : Entity) :
    (∀ c ∈ e.schema.computed,
      compute e c = (evaluateWith compute c.expression e).mapError (.expression c.name)) ∧
    (∀ c ∈ e.schema.computed, ∀ n, e.toValue.depthBudget ≤ n →
      computeWithin n e c = compute e c) ∧
    (∀ name cause, (e.get name).result = .error cause → cause.exhausted = false) ∧
    (∀ wanted text cause, (e.getByPath wanted text).result = .error cause →
      cause.exhausted = false) ∧
    (∀ cause, e.computedValues.result = .error cause → cause.exhausted = false) ∧
    (∀ source cause, (evaluate source e).result = .error cause → cause.exhausted = false) ∧
    (∀ (x : Expression) cause, (x.evaluate e.resolve).result = .error cause →
      cause.exhausted = false) := by
  refine ⟨fun c hc => compute_eq hc, ?_, ?_, ?_, ?_, ?_, ?_⟩
  · intro c hc n hn
    exact computeWithin_eq_compute hc (Nat.le_trans (cost_le_depthBudget e c) hn)
  · intro name cause h
    exact exhausted_of_get h
  · intro wanted text cause h
    exact exhausted_of_getByPath h
  · intro cause h
    exact exhausted_of_computedValues h
  · intro source cause h
    refine exhausted_of_evaluateWith confined_compute ?_ h
    exact fun _ _ _ _ hreads => settlesAt_compute hreads.1
  · intro x cause h
    refine exhausted_of_evaluate ?_ h
    exact fun _ _ _ hinner => exhausted_of_resolve hinner

end Entity

/-! ### An example -/

/-- The schema of teams, which read their captain through computed attributes. -/
def exampleTeam : Schema where
  id := none
  key := "team"
  name := "team"
  description := none
  attributes := [⟨"captain", .entity "person"⟩]
  computed :=
    [⟨"place", .scalar .string, "lead.label"⟩, ⟨"lead", .entity "person", "captain"⟩,
      ⟨"surname", .scalar .string, "lead.surname"⟩]
  configurations := []
  audit := {}
  names_nodup := by decide
  acyclic := by decide +kernel

/-- A team with a captain who has an address. -/
def exampleCrew : Entity :=
  let home : Value := .entity exampleAddress [("city", .string "Oslo")]
  ⟨exampleTeam, [("captain", .entity examplePerson [("home", home), ("others", .list [])])]⟩

example : (exampleCrew.get "place").result = .ok (.string "Oslo") := by decide +kernel

theorem reading_terminates_of_exampleCrew :
    (∃ c ∈ exampleCrew.schema.computed, exampleCrew.toValue.depthBudget ≤ 9 ∧
      Entity.compute exampleCrew c =
        (Entity.evaluateWith Entity.compute c.expression exampleCrew).mapError
          (.expression c.name) ∧
      Entity.computeWithin 9 exampleCrew c = Entity.compute exampleCrew c) ∧
    (∃ cause, (exampleCrew.get "surname").result = .error cause ∧ cause.exhausted = false) ∧
    (∃ cause, (exampleCrew.getByPath .any "place.city").result = .error cause ∧
      cause.exhausted = false) ∧
    (∃ cause, exampleCrew.computedValues.result = .error cause ∧ cause.exhausted = false) ∧
    (∃ cause, (Entity.evaluate "lead.town.city" exampleCrew).result = .error cause ∧
      cause.exhausted = false) ∧
    (∃ cause, ((Expression.path ⟨"crew", [.field "crew"]⟩).evaluate exampleCrew.resolve).result =
      .error cause ∧ cause.exhausted = false) := by
  obtain ⟨unfolds, settles, get, getByPath, values, source, expression⟩ :=
    Entity.reading_terminates exampleCrew
  have hplace : exampleTeam.computed[0] ∈ exampleCrew.schema.computed := by decide
  have hbudget : exampleCrew.toValue.depthBudget ≤ 9 := by decide
  let missing : EntityError := .invalidPath "lead.surname" (.undeclared "surname" "person")
  have hget : (exampleCrew.get "surname").result =
      .error (.expression "surname" (.resolution "lead.surname" missing)) := by decide +kernel
  have hpath : (exampleCrew.getByPath .any "place.city").result =
      .error (.invalidPath "place.city" (.notAnEntity "city" (.scalar .string))) := by
    decide +kernel
  have hvalues : exampleCrew.computedValues.result =
      .error (.expression "surname" (.resolution "lead.surname" missing)) := by decide +kernel
  have hsource : (Entity.evaluate "lead.town.city" exampleCrew).result =
      .error (.resolution "lead.town.city"
        (.invalidPath "lead.town.city" (.notAnEntity "city" (.scalar .string)))) := by
    decide +kernel
  have hexpression :
      ((Expression.path ⟨"crew", [.field "crew"]⟩).evaluate exampleCrew.resolve).result =
        .error (.resolution "crew" (.invalidPath "crew" (.undeclared "crew" "team"))) := rfl
  exact ⟨⟨_, hplace, hbudget, unfolds _ hplace, settles _ hplace 9 hbudget⟩,
    ⟨_, hget, get _ _ hget⟩, ⟨_, hpath, getByPath _ _ _ hpath⟩, ⟨_, hvalues, values _ hvalues⟩,
    ⟨_, hsource, source _ _ hsource⟩, ⟨_, hexpression, expression _ _ hexpression⟩⟩

end EntityModel
