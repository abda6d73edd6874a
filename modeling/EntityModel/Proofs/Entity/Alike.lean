import EntityModel.Mapping
import EntityModel.Proofs.Alike
import EntityModel.Proofs.Entity.Termination

/-!
# Reading entities that are the same

Computed attributes are no part of what is compared, because they depend on the rest. Reading two
entities that are the same, with the same schemas at every depth, fails in the same way or gives the
same value, but for one leak: equality ignores the scale of a decimal and the text of the decimal
does not, so a string that is computed from it may be spelled differently. The relation between the
values of two such readings is kept by every step of a path and by every form of expression.
-/

namespace EntityModel

open Value (Twins Alike)

/-! ### Functions -/

namespace Builtin

lemma agree_concatTexts {vs ws : List Value} (h : List.Forall₂ Alike vs ws) (i : Nat) :
    Agree (List.Forall₂ Text.Alike) (concatTexts i vs) (concatTexts i ws) := by
  induction h generalizing i with
  | nil => exact .ok .nil
  | @cons v w vs ws hvw _ ih =>
    rw [concatTexts, concatTexts, hvw.isNull_eq, hvw.isScalar_eq, hvw.type_eq]
    split_ifs with _ hscalar
    · exact ih _
    · exact (ih _).map fun _ _ hall => .cons (hvw.alike_text (hvw.isScalar_eq.trans hscalar)) hall
    · exact .error _

/-- A function refuses alike arguments in the same way. -/
lemma agree_apply (f : Builtin) {vs ws : List Value} (h : List.Forall₂ Alike vs ws) :
    Agree Alike (f.apply vs) (f.apply ws) := by
  cases f with
  | concat =>
    cases h with
    | nil => exact .error _
    | @cons v w vs ws hvw hall =>
      rw [apply, apply, hvw.isNull_eq, hvw.isScalar_eq, hvw.type_eq]
      split_ifs with _ hscalar
      · exact .error _
      · exact .error _
      · have hdelimiter : Text.Alike v.text w.text :=
          hvw.alike_text (hvw.isScalar_eq.trans (by simpa using hscalar))
        exact (agree_concatTexts hall 1).map fun _ _ htexts =>
          .strings (hdelimiter.intercalate htexts)

end Builtin

/-! ### Expressions -/

namespace Expression

variable {resolve resolve' : Path → Logged EntityError Value}

mutual

/-- Where paths have alike values, an expression has. -/
lemma agree_evaluate (h : ∀ p, Agree Alike (resolve p).result (resolve' p).result) :
    (x : Expression) → Agree Alike (x.evaluate resolve).result (x.evaluate resolve').result
  | .literal l => by
    rw [evaluate, evaluate]
    exact .ok (.refl _)
  | .path p => by
    rw [evaluate, evaluate]
    exact (h p).mapError _
  | .call f args => by
    rw [evaluate, evaluate]
    exact (agree_evaluateArguments h args).bind fun _ _ hall => f.agree_apply hall

lemma agree_evaluateArguments (h : ∀ p, Agree Alike (resolve p).result (resolve' p).result) :
    (args : List Expression) → Agree (List.Forall₂ Alike) (evaluateArguments resolve args).result
      (evaluateArguments resolve' args).result
  | [] => by
    rw [evaluateArguments, evaluateArguments]
    exact .ok .nil
  | arg :: args => by
    rw [evaluateArguments, evaluateArguments]
    exact (agree_evaluate h arg).bind fun _ _ hvw =>
      (agree_evaluateArguments h args).bind fun _ _ hall => .ok (.cons hvw hall)

end

end Expression

/-! ### Paths -/

namespace Entity

/-- Computing an attribute of twin entities gives alike values. -/
def Computation.Respects (compute : Computation) : Prop :=
  ∀ ⦃e e' : Entity⦄, e.toValue.Twins e'.toValue → ∀ c,
    Agree Alike (compute e c).result (compute e' c).result

section Paths

variable {compute : Computation} {e e' : Entity} {v w : Value}

lemma alike_stored (h : e.toValue.Twins e'.toValue) (name : String) :
    ((e.stored? name).getD .null).Alike ((e'.stored? name).getD .null) := by
  have hstored : Option.Rel Twins (e.stored? name) (e'.stored? name) := h.stored name
  generalize e.stored? name = x, e'.stored? name = y at hstored ⊢
  cases hstored with
  | none => exact .refl .null
  | some h => exact .twins h

lemma agree_lookup (hc : compute.Respects) (path : String) (h : e.toValue.Twins e'.toValue)
    (name : String) :
    Agree Alike (lookup compute path e name).result (lookup compute path e' name).result := by
  have hschema : e.schema = e'.schema := h.schema_eq
  rw [lookup, lookup, hschema]
  cases e'.schema.computed? name with
  | some c => exact hc h c
  | none =>
    split_ifs
    · exact .ok (alike_stored h name)
    · exact .error _

lemma agree_step (hc : compute.Respects) (path : String) (h : v.Alike w) (s : Segment) :
    Agree Alike (step compute path v s).result (step compute path w s).result := by
  cases s with
  | field name =>
    have hentity := h.rel_entity?
    rw [step, step, h.type_eq]
    generalize v.entity? = x, w.entity? = y at hentity ⊢
    cases hentity with
    | none => exact .error _
    | some htwins => exact agree_lookup hc path htwins name
  | index i =>
    have hlist := h.rel_list?
    rw [step, step, h.type_eq]
    generalize v.list? = x, w.list? = y at hlist ⊢
    cases hlist with
    | none => exact .error _
    | @some xs ys hall =>
      have hitem := rel_getElem?_of_forall₂ hall i
      simp only [hall.length_eq]
      generalize xs[i]? = x, ys[i]? = y at hitem ⊢
      cases hitem with
      | none => exact .error _
      | some htwins => exact .ok (.twins htwins)

lemma agree_walk (hc : compute.Respects) (path : String) (h : v.Alike w)
    (segments : List Segment) :
    Agree Alike (walk compute path v segments).result (walk compute path w segments).result := by
  induction segments generalizing v w with
  | nil => exact .ok h
  | cons s segments ih =>
    -- both walks stop at null together, so neither hides what fails behind it in the other
    rw [walk, walk, h.isNull_eq]
    split_ifs
    · exact .ok (.refl .null)
    · exact (agree_step hc path h s).bind fun _ _ hnext => ih hnext

lemma agree_follow (hc : compute.Respects) (h : e.toValue.Twins e'.toValue) (p : Path) :
    Agree Alike (follow compute e p).result (follow compute e' p).result := by
  rw [follow, follow]
  split
  · exact (agree_lookup hc p.text h _).bind fun _ _ hstart => agree_walk hc p.text hstart _
  · exact .error _

lemma agree_evaluateWith (hc : compute.Respects) (h : e.toValue.Twins e'.toValue)
    (source : String) :
    Agree Alike (evaluateWith compute source e).result (evaluateWith compute source e').result := by
  have hschema : e.schema = e'.schema := h.schema_eq
  rw [evaluateWith, evaluateWith, hschema]
  cases Expression.parse source with
  | error error => exact .error _
  | ok x => exact x.agree_evaluate fun p => agree_follow hc h p

end Paths

/-! ### Computed attributes -/

theorem respects_computeWithin (n : Nat) : (computeWithin n).Respects := by
  induction n with
  | zero => exact fun _ _ _ c => .error (EntityError.tooDeep c.name)
  | succ n ih => exact fun _ _ h c => (agree_evaluateWith ih h c.expression).mapError _

lemma agree_compute {e e' : Entity} (h : e.toValue.Twins e'.toValue) {c : ComputedAttribute}
    (hc : c ∈ e.schema.computed) : Agree Alike (compute e c).result (compute e' c).result := by
  have hc' : c ∈ e'.schema.computed := by
    have hschema : e.schema = e'.schema := h.schema_eq
    rwa [← hschema]
  obtain ⟨n, hn, hn'⟩ := exists_computeWithin_eq_compute hc hc'
  rw [← hn, ← hn']
  exact respects_computeWithin n h c

/-- Any attribute of two entities that are the same and share their schemas at every depth reads as
the same value, or as a string in which equal decimals may be spelled differently, or it fails with
the same error. -/
theorem get_alike {e e' : Entity} (h : e.same e') (hschemas : e.toValue.sharesSchemas e'.toValue)
    (name : String) : Agree Alike (e.get name).result (e'.get name).result := by
  have htwins : e.toValue.Twins e'.toValue := ⟨h, hschemas⟩
  have hschema : e.schema = e'.schema := htwins.schema_eq
  rw [get, get, ← hschema]
  cases hc : e.schema.computed? name with
  | some c => exact agree_compute htwins (Schema.computed?_eq_some_iff.1 hc).1
  | none =>
    split_ifs
    · exact .ok (alike_stored htwins name)
    · exact .error _

end Entity

/-! ### An example -/

/-- The schema of prices, which are labelled with the text of their amount. -/
def examplePrice : Schema where
  id := none
  key := "price"
  name := "price"
  description := none
  attributes := [⟨"amount", .scalar .decimal⟩]
  computed := [⟨"label", .scalar .string, "concat('', amount)"⟩]
  configurations := []
  audit := {}
  names_nodup := by decide
  acyclic := by decide +kernel

/-- A price whose amount has a decimal place. -/
def exampleOffer : Entity :=
  (Entity.new examplePrice).after [.set "amount" (.decimal ⟨10, 1, by decide, by decide⟩)]

/-- What is read back from its generic form. -/
def exampleOfferAgain : Entity :=
  ⟨examplePrice, [("amount", .decimal ⟨1, 0, by decide, by decide⟩)]⟩

lemma ofMap_exampleOffer : (Mapping.ofMap { lookup := fun _ => none } examplePrice
    exampleOffer.toMap).result = .ok exampleOfferAgain := rfl

lemma get_exampleOffer : (exampleOffer.get "label").result = .ok (.string "1.0") := by
  have hstore : exampleOffer =
      ⟨examplePrice, [("amount", .decimal ⟨10, 1, by decide, by decide⟩)]⟩ := rfl
  rw [hstore]
  decide +kernel

lemma get_exampleOfferAgain : (exampleOfferAgain.get "label").result = .ok (.string "1") := by
  decide +kernel

theorem get_alike_of_exampleOffer : exampleOffer.same exampleOfferAgain ∧
    exampleOffer.toValue.sharesSchemas exampleOfferAgain.toValue ∧
    Agree Alike (exampleOffer.get "label").result (exampleOfferAgain.get "label").result := by
  have hsame : exampleOffer.same exampleOfferAgain := rfl
  have hschemas : exampleOffer.toValue.sharesSchemas exampleOfferAgain.toValue := rfl
  exact ⟨hsame, hschemas, Entity.get_alike hsame hschemas "label"⟩

/-- Equality does not decide computed attributes: an entity and what is read back from its generic
form are the same and of one schema, and yet are labelled differently. -/
theorem label_of_exampleOffer_differs :
    (Mapping.ofMap { lookup := fun _ => none } examplePrice exampleOffer.toMap).result =
        .ok exampleOfferAgain ∧
      exampleOffer.same exampleOfferAgain ∧
      exampleOffer.toValue.sharesSchemas exampleOfferAgain.toValue ∧
      (exampleOffer.get "label").result = .ok (.string "1.0") ∧
      (exampleOfferAgain.get "label").result = .ok (.string "1") ∧
      Value.same (.string "1.0") (.string "1") = false :=
  ⟨ofMap_exampleOffer, rfl, rfl, get_exampleOffer, get_exampleOfferAgain, by decide⟩

end EntityModel
