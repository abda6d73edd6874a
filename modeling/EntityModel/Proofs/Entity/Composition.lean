import EntityModel.Proofs.Entity.Termination
import EntityModel.Proofs.Path

/-!
# Reading along joined paths

Reading a path that is joined of two reads the first one and goes on from its value: from a nested
entity as the second path does, from null to null, and from nothing else. The errors are those of
the parts, but for the text of the path that they quote. Computed attributes play no part in this:
what they fail with quotes the paths of their own expressions.
-/

namespace EntityModel

/-- The error with another text of the path that it is about. -/
def EntityError.quoting (text : String) : EntityError → EntityError
  | .invalidPath _ fault => .invalidPath text fault
  | cause => cause

namespace Entity

/-! ### The text of a path -/

/-- Computing attributes fails the same way for every path that leads to it. -/
def Computation.Unquoted (compute : Computation) : Prop :=
  ∀ e c text, (compute e c).mapError (.quoting text) = compute e c

lemma unquoted_compute : Computation.Unquoted compute := by
  intro e c text
  rw [compute]
  cases e.toValue.depthBudget with
  | zero => rfl
  | succ n => exact Logged.mapError_mapError _ _ _

section Text

variable {compute : Computation} (hc : compute.Unquoted) (text text' : String)
include hc

lemma lookup_quoting (e : Entity) (name : String) :
    lookup compute text' e name = (lookup compute text e name).mapError (.quoting text') := by
  rw [lookup, lookup]
  cases e.schema.computed? name with
  | some c => exact (hc e c text').symm
  | none =>
    cases (e.schema.attribute? name).isSome with
    | true => rfl
    | false => rfl

lemma step_quoting (v : Value) (s : Segment) :
    step compute text' v s = (step compute text v s).mapError (.quoting text') := by
  cases s with
  | field name =>
    rw [step, step]
    cases v.entity? with
    | some e => exact lookup_quoting hc text text' e name
    | none => rfl
  | index i =>
    rw [step, step]
    cases v.list? with
    | some items => cases h : items[i]? <;> simp only [h] <;> rfl
    | none => rfl

lemma walk_quoting (v : Value) (segments : List Segment) :
    walk compute text' v segments = (walk compute text v segments).mapError (.quoting text') := by
  induction segments generalizing v with
  | nil => rfl
  | cons s segments ih =>
    rw [walk, walk]
    split
    · rfl
    · rw [step_quoting hc text text' v s, Logged.mapError_bind]
      simp only [ih]

/-- The text of a path counts only where an error quotes it. -/
lemma follow_quoting (e : Entity) (segments : List Segment) :
    follow compute e ⟨text', segments⟩ =
      (follow compute e ⟨text, segments⟩).mapError (.quoting text') := by
  rw [follow, follow]
  split
  · rename_i name rest hsegments
    simp only at hsegments
    subst hsegments
    simp only [Logged.mapError_bind, lookup_quoting hc text text', walk_quoting hc text text']
  · rfl

end Text

/-! ### Steps after steps -/

section Append

variable {compute : Computation} {text : String}

lemma walk_null (segments : List Segment) : walk compute text .null segments = pure .null := by
  cases segments <;> rfl

lemma walk_append (v : Value) (s t : List Segment) :
    walk compute text v (s ++ t) = walk compute text v s >>= fun w => walk compute text w t := by
  induction s generalizing v with
  | nil => rfl
  | cons segment s ih =>
    rw [List.cons_append, walk, walk]
    split
    · rw [Logged.pure_bind, walk_null]
    · rw [Logged.bind_assoc]
      simp only [ih]

lemma follow_append {e : Entity} {name : String} {s t : List Segment} :
    follow compute e ⟨text, .field name :: s ++ t⟩ =
      follow compute e ⟨text, .field name :: s⟩ >>= fun v => walk compute text v t := by
  rw [List.cons_append, follow, follow]
  simp only [walk_append, Logged.bind_assoc]

/-- From a nested entity, steps that start at a name go as a path does. -/
lemma walk_toValue (e : Entity) (name : String) (segments : List Segment) :
    walk compute text e.toValue (.field name :: segments) =
      follow compute e ⟨text, .field name :: segments⟩ :=
  rfl

lemma walk_of_entity?_eq_none {v : Value} (hnull : v.isNull = false) (h : v.entity? = none)
    (name : String) (segments : List Segment) :
    walk compute text v (.field name :: segments) =
      .fail (.invalidPath text (.notAnEntity name v.type)) := by
  rw [walk, if_neg (by simp [hnull]), step, h]
  rfl

end Append

/-! ### Reading -/

/-- Quoting another text and casting to the wanted type go in either order. -/
lemma getByPath_of_quoting {e e' : Entity} {p q : String} {P Q : Path} (hp : Path.parse p = .ok P)
    (hq : Path.parse q = .ok Q)
    (h : (e.resolve P).result = (e'.resolve Q).result.mapError (.quoting p)) (wanted : WantedType) :
    (e.getByPath wanted p).result = (e'.getByPath wanted q).result.mapError (.quoting p) := by
  rw [getByPath, getByPath, hp, hq]
  simp only [Logged.result_bind, h]
  cases (e'.resolve Q).result with
  | error cause => rfl
  | ok v =>
    simp only [Except.mapError, Except.bind]
    cases v.isNull with
    | true => rfl
    | false => cases wanted.admits v.type <;> rfl

lemma getByPath_of_error {e : Entity} {p : String} {P : Path} {cause : EntityError}
    (hp : Path.parse p = .ok P) (h : (e.resolve P).result = .error cause) (wanted : WantedType) :
    (e.getByPath wanted p).result = .error cause := by
  rw [getByPath, hp]
  exact Logged.result_bind_of_error h _

lemma getByPath_of_null {e : Entity} {p : String} {P : Path} (hp : Path.parse p = .ok P)
    (h : (e.resolve P).result = .ok .null) (wanted : WantedType) :
    (e.getByPath wanted p).result = .ok none := by
  rw [getByPath, hp]
  exact Logged.result_bind_of_ok h _

section Join

variable {e : Entity} {p q text : String} {P Q : Path}

/-- The value of two paths, one after the other. -/
lemma resolve_join (hp : Path.parse p = .ok P) :
    e.resolve ⟨text, P.segments ++ Q.segments⟩ =
      (e.resolve P).mapError (.quoting text) >>= fun v => walk compute text v Q.segments := by
  obtain ⟨name, segments, hsegments⟩ := Path.exists_field_of_parse hp
  have hquoted := follow_quoting unquoted_compute P.text text e P.segments
  rw [resolve, hsegments, follow_append, ← hsegments, hquoted]
  rfl

lemma resolve_join_of_ok (hp : Path.parse p = .ok P) {v : Value}
    (h : (e.resolve P).result = .ok v) :
    (e.resolve ⟨text, P.segments ++ Q.segments⟩).result =
      (walk compute text v Q.segments).result := by
  rw [resolve_join hp]
  exact Logged.result_bind_of_ok (Logged.result_mapError_eq_ok_iff.2 h) _

/-- From a nested entity, the second path goes on as it does by itself. -/
lemma resolve_join_of_entity (hp : Path.parse p = .ok P) (hq : Path.parse q = .ok Q)
    {child : Entity} (h : (e.resolve P).result = .ok child.toValue) :
    (e.resolve ⟨text, P.segments ++ Q.segments⟩).result =
      (child.resolve Q).result.mapError (.quoting text) := by
  obtain ⟨name, segments, hsegments⟩ := Path.exists_field_of_parse hq
  have hquoted := follow_quoting unquoted_compute Q.text text child Q.segments
  rw [resolve_join_of_ok hp h, hsegments, walk_toValue, ← hsegments, hquoted]
  rfl

lemma resolve_join_of_null (hp : Path.parse p = .ok P) (h : (e.resolve P).result = .ok .null) :
    (e.resolve ⟨text, P.segments ++ Q.segments⟩).result = .ok .null := by
  rw [resolve_join_of_ok hp h, walk_null]
  rfl

lemma resolve_join_of_other (hp : Path.parse p = .ok P) (hq : Path.parse q = .ok Q) {v : Value}
    (h : (e.resolve P).result = .ok v) (hnull : v.isNull = false) (hother : v.entity? = none) :
    (e.resolve ⟨text, P.segments ++ Q.segments⟩).result =
      .error (.invalidPath text (.notAnEntity Q.root v.type)) := by
  obtain ⟨name, segments, hsegments⟩ := Path.exists_field_of_parse hq
  have hroot : Q.root = name := by rw [Path.root, hsegments]
  rw [resolve_join_of_ok hp h, hsegments, walk_of_entity?_eq_none hnull hother, hroot]
  rfl

lemma resolve_join_of_error (hp : Path.parse p = .ok P) {cause : EntityError}
    (h : (e.resolve P).result = .error cause) :
    (e.resolve ⟨text, P.segments ++ Q.segments⟩).result = .error (cause.quoting text) := by
  rw [resolve_join hp]
  exact Logged.result_bind_of_error (Logged.result_mapError_eq_error_iff.2 ⟨cause, h, rfl⟩) _

/-- Two paths joined by a point are a path, which takes the steps of the first and then those of the
second. Where the first one leads to a nested entity, the joined path leads to what the second one
leads to from there, whatever type is wanted, or fails as the second one does but for the path that
is quoted. From null it leads to null, wherever the second path would go; from any other value it is
invalid; and where the first path fails, it fails in the same way. -/
theorem getByPath_join (hp : Path.parse p = .ok P) (hq : Path.parse q = .ok Q) :
    Path.parse (p ++ "." ++ q) = .ok ⟨p ++ "." ++ q, P.segments ++ Q.segments⟩ ∧
    ∀ e : Entity,
      (∀ child : Entity, (e.resolve P).result = .ok child.toValue →
        (e.resolve ⟨p ++ "." ++ q, P.segments ++ Q.segments⟩).result =
          (child.resolve Q).result.mapError (.quoting (p ++ "." ++ q)) ∧
        ∀ wanted, (e.getByPath wanted (p ++ "." ++ q)).result =
          (child.getByPath wanted q).result.mapError (.quoting (p ++ "." ++ q))) ∧
      ((e.resolve P).result = .ok .null →
        ∀ wanted, (e.getByPath wanted (p ++ "." ++ q)).result = .ok none) ∧
      (∀ v : Value, (e.resolve P).result = .ok v → v.isNull = false → v.entity? = none →
        ∀ wanted, (e.getByPath wanted (p ++ "." ++ q)).result =
          .error (.invalidPath (p ++ "." ++ q) (.notAnEntity Q.root v.type))) ∧
      ∀ cause, (e.resolve P).result = .error cause →
        ∀ wanted, (e.getByPath wanted (p ++ "." ++ q)).result =
          .error (cause.quoting (p ++ "." ++ q)) := by
  have hjoin := Path.parse_join hp hq
  refine ⟨hjoin, fun e => ⟨?_, ?_, ?_, ?_⟩⟩
  · intro child h
    have hresolve : (e.resolve ⟨p ++ "." ++ q, P.segments ++ Q.segments⟩).result = _ :=
      resolve_join_of_entity hp hq h
    exact ⟨hresolve, getByPath_of_quoting hjoin hq hresolve⟩
  · intro h
    exact getByPath_of_null hjoin (resolve_join_of_null hp h)
  · intro v h hnull hother
    exact getByPath_of_error hjoin (resolve_join_of_other hp hq h hnull hother)
  · intro cause h
    exact getByPath_of_error hjoin (resolve_join_of_error hp h)

end Join

end Entity

/-! ### An example -/

theorem getByPath_join_of_exampleCrew :
    (exampleCrew.getByPath .any "lead.home.label").result = .ok (some (.string "Oslo")) ∧
    (exampleCrew.getByPath .any "lead.home.street").result =
      .error (.invalidPath "lead.home.street" (.undeclared "street" "address")) ∧
    (exampleCrew.getByPath .list "captain.name.initials").result = .ok none ∧
    (exampleCrew.getByPath .any "place.label").result =
      .error (.invalidPath "place.label" (.notAnEntity "label" (.scalar .string))) ∧
    (exampleCrew.getByPath .any "captain.age.label").result =
      .error (.invalidPath "captain.age.label" (.undeclared "age" "person")) := by
  let home : Entity := ⟨exampleAddress, [("city", .string "Oslo")]⟩
  have lead : Path.parse "lead.home" = .ok ⟨"lead.home", [.field "lead", .field "home"]⟩ := by
    decide +kernel
  have name : Path.parse "captain.name" =
      .ok ⟨"captain.name", [.field "captain", .field "name"]⟩ := by decide +kernel
  have place : Path.parse "place" = .ok ⟨"place", [.field "place"]⟩ := by decide +kernel
  have age : Path.parse "captain.age" = .ok ⟨"captain.age", [.field "captain", .field "age"]⟩ := by
    decide +kernel
  have label : Path.parse "label" = .ok ⟨"label", [.field "label"]⟩ := by decide +kernel
  have street : Path.parse "street" = .ok ⟨"street", [.field "street"]⟩ := by decide +kernel
  have initial : Path.parse "initials" = .ok ⟨"initials", [.field "initials"]⟩ := by decide +kernel
  have hlead : (exampleCrew.resolve ⟨"lead.home", [.field "lead", .field "home"]⟩).result =
      .ok home.toValue := by decide +kernel
  have hname : (exampleCrew.resolve ⟨"captain.name", [.field "captain", .field "name"]⟩).result =
      .ok .null := by decide +kernel
  have hplace : (exampleCrew.resolve ⟨"place", [.field "place"]⟩).result =
      .ok (.string "Oslo") := by decide +kernel
  have hage : (exampleCrew.resolve ⟨"captain.age", [.field "captain", .field "age"]⟩).result =
      .error (.invalidPath "captain.age" (.undeclared "age" "person")) := by decide +kernel
  have hlabel : (home.getByPath .any "label").result = .ok (some (.string "Oslo")) := by
    decide +kernel
  have hstreet : (home.getByPath .any "street").result =
      .error (.invalidPath "street" (.undeclared "street" "address")) := by decide +kernel
  obtain ⟨toLabel, -⟩ := (Entity.getByPath_join lead label).2 exampleCrew
  obtain ⟨toStreet, -⟩ := (Entity.getByPath_join lead street).2 exampleCrew
  obtain ⟨-, toInitial, -⟩ := (Entity.getByPath_join name initial).2 exampleCrew
  obtain ⟨-, -, fromPlace, -⟩ := (Entity.getByPath_join place label).2 exampleCrew
  obtain ⟨-, -, -, fromAge⟩ := (Entity.getByPath_join age label).2 exampleCrew
  refine ⟨?_, ?_, toInitial hname .list, fromPlace _ hplace rfl rfl .any, fromAge _ hage .any⟩
  · exact ((toLabel home hlead).2 .any).trans (by rw [hlabel]; rfl)
  · exact ((toStreet home hlead).2 .any).trans (by rw [hstreet]; rfl)

end EntityModel
