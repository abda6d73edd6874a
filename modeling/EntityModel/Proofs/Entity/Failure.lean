import EntityModel.Proofs.Entity.Termination
import EntityModel.Proofs.Expression.Failure
import EntityModel.Proofs.Schema.Cycle

/-!
# Failures surface

A failure in the evaluation of an expression is never taken for a null: it is the error of the whole
expression, and so of every computed attribute whose expression starts a path there. An expression
that cannot be read fails on every entity, and with it all that depends on it.
-/

namespace EntityModel

namespace Entity

variable {e : Entity} {c d : ComputedAttribute}

/-- A computed attribute has no value. -/
def Fails (e : Entity) (c : ComputedAttribute) : Prop :=
  ∃ cause, (compute e c).result = .error cause

/-- A path that starts at a computed attribute without a value leads nowhere. -/
lemma exists_resolve_eq_error (hd : d ∈ e.schema.computed) (h : e.Fails d) {p : Path}
    (hroot : p.root = d.name) : ∃ cause, (e.resolve p).result = .error cause := by
  obtain ⟨cause, hcause⟩ := h
  rw [resolve, follow]
  split
  · rename_i name segments hp
    have hname : d.name = name := by rw [← hroot, Path.root, hp]
    have hlookup : (lookup compute p.text e name).result = .error cause := by
      rw [lookup, Schema.computed?_eq_some_iff.2 ⟨hd, hname⟩]
      exact hcause
    exact ⟨cause, Logged.result_bind_of_error hlookup _⟩
  · exact ⟨_, rfl⟩

/-- A computed attribute whose expression cannot be read has no value. -/
lemma fails_of_unreadable (hd : d ∈ e.schema.computed) {error : ParseError}
    (h : Expression.parse d.expression = .error error) : e.Fails d := by
  refine ⟨.expression d.name (.unreadable d.expression error), ?_⟩
  rw [compute_eq hd, Logged.result_mapError_eq_error_iff]
  refine ⟨.unreadable d.expression error, ?_, rfl⟩
  rw [evaluateWith, h]
  rfl

/-- A computed attribute has no value if its expression starts a path at one without a value. -/
lemma fails_of_root (hc : c ∈ e.schema.computed) {x : Expression}
    (hx : Expression.parse c.expression = .ok x) {p : Path} (hp : p ∈ x.paths)
    (hd : d ∈ e.schema.computed) (hroot : p.root = d.name) (h : e.Fails d) : e.Fails c := by
  obtain ⟨inner, hinner⟩ := exists_resolve_eq_error hd h hroot
  cases hresult : (x.evaluate e.resolve).result with
  | ok v =>
    obtain ⟨w, hw⟩ := Expression.exists_resolve_of_evaluate hresult hp
    rw [hw] at hinner
    cases hinner
  | error cause =>
    refine ⟨.expression c.name cause, ?_⟩
    rw [compute_eq hc, Logged.result_mapError_eq_error_iff]
    refine ⟨cause, ?_, rfl⟩
    rw [evaluateWith, hx]
    exact hresult

/-- Along dependencies a failure comes back to where they start. -/
lemma fails_of_dependsOn {name : String} (hd : d ∈ e.schema.computed) (hfails : e.Fails d)
    (h : Relation.ReflTransGen (DependsOn e.schema.computed) name d.name) :
    ∃ c ∈ e.schema.computed, c.name = name ∧ e.Fails c := by
  induction h using Relation.ReflTransGen.head_induction_on with
  | refl => exact ⟨d, hd, rfl, hfails⟩
  | head hstep _ ih =>
    obtain ⟨c, hc, hname, hfails⟩ := ih
    obtain ⟨b, hb, hbname, x, hx, ⟨p, hp, hroot⟩, -⟩ := hstep
    exact ⟨b, hb, hbname, fails_of_root hb hx hp hc (hroot.trans hname.symm) hfails⟩

/-- On any entity, an expression has a value if and only if no part of it fails by itself, so all
its paths lead somewhere and all arguments of its calls have values; and otherwise its error is that
of the first part, from left to right and arguments before their call, that fails by itself. A
computed attribute that depends, in any number of steps, on one whose expression cannot be read has
no value. -/
theorem failures_surface (e : Entity) :
    (∀ x : Expression, (∃ v, (x.evaluate e.resolve).result = .ok v) ↔
      Expression.NoneFails e.resolve x.parts) ∧
    (∀ (x : Expression) (v : Value), (x.evaluate e.resolve).result = .ok v →
      ∀ p ∈ x.paths, ∃ w, (e.resolve p).result = .ok w) ∧
    (∀ (x : Expression) (cause : ExpressionError), (x.evaluate e.resolve).result = .error cause →
      Expression.FirstFailure e.resolve x.parts cause) ∧
    (∀ (f : Builtin) (args : List Expression) (v : Value),
      ((Expression.call f args).evaluate e.resolve).result = .ok v →
        ∀ arg ∈ args, ∃ w, (arg.evaluate e.resolve).result = .ok w) ∧
    ∀ d ∈ e.schema.computed, ∀ error, Expression.parse d.expression = .error error →
      ∀ name, Relation.ReflTransGen (DependsOn e.schema.computed) name d.name →
        ∃ cause, (e.get name).result = .error cause := by
  refine ⟨?_, ?_, ?_, ?_, ?_⟩
  · intro x
    exact Expression.exists_evaluate_eq_ok_iff
  · intro x v h p hp
    exact Expression.exists_resolve_of_evaluate h hp
  · intro x cause h
    exact Expression.firstFailure_of_evaluate x h
  · intro f args v h
    exact Expression.exists_of_evaluate_call h
  · intro d hd error herror name h
    obtain ⟨c, hc, rfl, cause, hcause⟩ := fails_of_dependsOn hd (fails_of_unreadable hd herror) h
    refine ⟨cause, ?_⟩
    rw [get_computed hc]
    exact hcause

end Entity

/-! ### An example -/

/-- The schema of notices, which are signed at a desk that no expression can reach. -/
def exampleNotice : Schema where
  id := none
  key := "notice"
  name := "notice"
  description := none
  attributes := [⟨"to", .scalar .string⟩]
  computed :=
    [⟨"line", .scalar .string, "concat(' ', to, by)"⟩,
      ⟨"by", .scalar .string, "desk.name"⟩,
      ⟨"desk", .scalar .string, "T(Desk).open()"⟩]
  configurations := []
  audit := {}
  names_nodup := by decide
  acyclic := by decide +kernel

/-- A notice to all. -/
def exampleAnnouncement : Entity :=
  ⟨exampleNotice, [("to", .string "all")]⟩

/-- A call with the recipient as its argument. -/
def exampleAddressed : Expression :=
  .call .concat [.literal (.string ""), .path ⟨"to", [.field "to"]⟩]

/-- A call with two arguments that fail, the first of them a call inside a call. -/
def exampleTwiceFailing : Expression :=
  .call .concat [.path ⟨"to", [.field "to"]⟩, .call .concat [.call .concat [.literal .null]],
    .path ⟨"by", [.field "by"]⟩]

lemma dependsOn_exampleNotice :
    Relation.ReflTransGen (DependsOn exampleNotice.computed) "line" "desk" := by
  have hnames : (exampleNotice.computed.map (·.name)).Nodup := by decide
  have first : DependsOn exampleNotice.computed "line" "by" :=
    (mem_dependencies_iff hnames).1 (by decide +kernel)
  have second : DependsOn exampleNotice.computed "by" "desk" :=
    (mem_dependencies_iff hnames).1 (by decide +kernel)
  exact .head first (.single second)

theorem failures_surface_of_exampleAnnouncement :
    ((exampleAddressed.evaluate exampleAnnouncement.resolve).result = .ok (.string "all") ∧
      Expression.NoneFails exampleAnnouncement.resolve exampleAddressed.parts ∧
      (∀ p ∈ exampleAddressed.paths, ∃ w, (exampleAnnouncement.resolve p).result = .ok w) ∧
      ∃ w, ((Expression.literal (.string "")).evaluate exampleAnnouncement.resolve).result =
        .ok w) ∧
    ((exampleTwiceFailing.evaluate exampleAnnouncement.resolve).result =
        .error (.invalidArgument .concat 0 .nullDelimiter) ∧
      Expression.FirstFailure exampleAnnouncement.resolve exampleTwiceFailing.parts
        (.invalidArgument .concat 0 .nullDelimiter)) ∧
    (∃ error, Expression.parse "T(Desk).open()" = .error error) ∧
    ∃ cause, (exampleAnnouncement.get "line").result = .error cause := by
  have haddressed : (exampleAddressed.evaluate exampleAnnouncement.resolve).result =
      .ok (.string "all") := by decide +kernel
  have htwice : (exampleTwiceFailing.evaluate exampleAnnouncement.resolve).result =
      .error (.invalidArgument .concat 0 .nullDelimiter) := by decide +kernel
  have herror : Expression.parse "T(Desk).open()" = .error (.violation (.unknownFunction "T")) := by
    decide +kernel
  obtain ⟨values, paths, errors, arguments, unreadable⟩ :=
    Entity.failures_surface exampleAnnouncement
  have hnone := (values exampleAddressed).1 ⟨_, haddressed⟩
  have hpaths := paths exampleAddressed _ haddressed
  refine ⟨⟨haddressed, hnone, hpaths, ?_⟩, ⟨htwice, errors _ _ htwice⟩, ⟨_, herror⟩, ?_⟩
  · exact arguments .concat _ _ haddressed (.literal (.string "")) List.mem_cons_self
  · have hdesk : ⟨"desk", .scalar .string, "T(Desk).open()"⟩ ∈
        exampleAnnouncement.schema.computed := by decide
    exact unreadable _ hdesk _ herror "line" dependsOn_exampleNotice

end EntityModel
