import EntityModel.Entity.Read
import EntityModel.Proofs.Log
import EntityModel.Proofs.Value

/-!
# Values that are told apart by their texts only

Equal decimals have different texts when their scales differ, so texts that are made of values that
are the same need not be equal, but only spell equal decimals differently.
-/

namespace EntityModel

/-! ### Texts -/

/-- One text is the other one with decimals spelled with other scales. -/
inductive Text.Alike : String → String → Prop
  | refl (s : String) : Text.Alike s s
  | decimal {c d : Decimal} (h : c.same d) : Text.Alike c.text d.text
  | append {s s' t t' : String} (h : Text.Alike s t) (h' : Text.Alike s' t') :
      Text.Alike (s ++ s') (t ++ t')

/-- Alike texts, joined with alike delimiters, are alike. -/
lemma Text.Alike.intercalate {s t : String} {ss ts : List String} (h : Text.Alike s t)
    (hall : List.Forall₂ Text.Alike ss ts) :
    Text.Alike (String.intercalate s ss) (String.intercalate t ts) := by
  induction hall with
  | nil => exact .refl ""
  | cons hfirst hrest ih =>
    cases hrest with
    | nil =>
      rw [String.intercalate_singleton, String.intercalate_singleton]
      exact hfirst
    | cons hsecond hrest =>
      rw [String.intercalate_cons_cons, String.intercalate_cons_cons]
      exact (hfirst.append h).append ih

/-! ### Values of the same schemas -/

lemma rel_getElem?_of_forall₂ {α : Type} {R : α → α → Prop} {xs ys : List α}
    (h : List.Forall₂ R xs ys) (i : Nat) : Option.Rel R xs[i]? ys[i]? := by
  induction h generalizing i with
  | nil => exact .none
  | cons hfirst _ ih =>
    cases i with
    | zero => exact .some hfirst
    | succ i => exact ih i

namespace Value

mutual

/-- Whether the entities in two values share their schemas, place by place. -/
def sharesSchemas : Value → Value → Bool
  | .list xs, .list ys => sharesSchemasList xs ys
  | .entity s xs, .entity t ys => s = t && sharesSchemasStore xs ys
  | _, _ => true

/-- Whether the entities in two lists share their schemas. -/
def sharesSchemasList : List Value → List Value → Bool
  | x :: xs, y :: ys => sharesSchemas x y && sharesSchemasList xs ys
  | _, _ => true

/-- Whether the entities in two stores share their schemas. -/
def sharesSchemasStore : List (String × Value) → List (String × Value) → Bool
  | (_, x) :: xs, (_, y) :: ys => sharesSchemas x y && sharesSchemasStore xs ys
  | _, _ => true

end

mutual

lemma sharesSchemas_refl : (v : Value) → sharesSchemas v v
  | .list items => by
    rw [sharesSchemas]
    exact sharesSchemasList_refl items
  | .entity s store => by
    rw [sharesSchemas, decide_eq_true rfl, Bool.true_and]
    exact sharesSchemasStore_refl store
  | .null | .string _ | .integer _ | .decimal _ | .boolean _ | .date _ | .time _
  | .document _ => rfl

lemma sharesSchemasList_refl : (vs : List Value) → sharesSchemasList vs vs
  | [] => rfl
  | v :: vs => by
    rw [sharesSchemasList, sharesSchemas_refl v, sharesSchemasList_refl vs, Bool.and_self]

lemma sharesSchemasStore_refl : (store : List (String × Value)) → sharesSchemasStore store store
  | [] => rfl
  | (_, v) :: store => by
    rw [sharesSchemasStore, sharesSchemas_refl v, sharesSchemasStore_refl store, Bool.and_self]

end

/-- Two values are the same, and the entities in them share their schemas. -/
structure Twins (v w : Value) : Prop where
  same : v.same w
  schemas : v.sharesSchemas w

/-- Values that an expression can have on entities that are twins: twins, or strings that are
alike. -/
inductive Alike : Value → Value → Prop
  | twins {v w : Value} (h : Twins v w) : Alike v w
  | strings {s t : String} (h : Text.Alike s t) : Alike (.string s) (.string t)

namespace Twins

variable {v w : Value} {s t : Schema} {store store' : Dict Value}

lemma schema_eq (h : Twins (.entity s store) (.entity t store')) : s = t := by
  have hschemas := h.schemas
  rw [sharesSchemas, Bool.and_eq_true, decide_eq_true_eq] at hschemas
  exact hschemas.1

/-- Twin lists hold twins. -/
lemma items : {xs ys : List Value} → Twins (.list xs) (.list ys) → List.Forall₂ Twins xs ys
  | [], [], _ => .nil
  | [], _ :: _, h => by cases h.same
  | _ :: _, [], h => by cases h.same
  | x :: xs, y :: ys, h => by
    obtain ⟨hsame, hschemas⟩ := h
    rw [Value.same, sameList, Bool.and_eq_true] at hsame
    rw [sharesSchemas, sharesSchemasList, Bool.and_eq_true] at hschemas
    have hrest : Twins (.list xs) (.list ys) :=
      ⟨by rw [Value.same]; exact hsame.2, by rw [sharesSchemas]; exact hschemas.2⟩
    exact .cons ⟨hsame.1, hschemas.1⟩ (items hrest)

lemma stored_of_sameStore (name : String) : {store store' : Dict Value} →
    sameStore store store' → sharesSchemasStore store store' →
    Option.Rel Twins (Dict.get? store name) (Dict.get? store' name)
  | [], [], _, _ => .none
  | [], _ :: _, hsame, _ => by cases hsame
  | _ :: _, [], hsame, _ => by cases hsame
  | (m, x) :: store, (n, y) :: store', hsame, hschemas => by
    rw [sameStore, Bool.and_eq_true, Bool.and_eq_true, decide_eq_true_eq] at hsame
    rw [sharesSchemasStore, Bool.and_eq_true] at hschemas
    obtain ⟨⟨rfl, hfirst⟩, hrest⟩ := hsame
    rw [Dict.get?_cons, Dict.get?_cons]
    split_ifs
    · exact .some ⟨hfirst, hschemas.1⟩
    · exact stored_of_sameStore name hrest hschemas.2

/-- Twin entities store twins. -/
lemma stored (h : Twins (.entity s store) (.entity t store')) (name : String) :
    Option.Rel Twins (Dict.get? store name) (Dict.get? store' name) := by
  obtain ⟨hsame, hschemas⟩ := h
  rw [Value.same, Bool.and_eq_true] at hsame
  rw [sharesSchemas, Bool.and_eq_true] at hschemas
  exact stored_of_sameStore name hsame.2 hschemas.2

/-- Scalars that are the same have alike texts. -/
lemma alike_text (h : Twins v w) (hv : v.isScalar = true) : Text.Alike v.text w.text := by
  have hsame := h.same
  cases v with
  | decimal c =>
    cases w with
    | decimal d => exact .decimal hsame
    | _ => cases hsame
  | list | entity => cases hv
  | null =>
    cases w with
    | null => exact .refl _
    | _ => cases hsame
  | _ =>
    cases w <;> first | cases hsame | skip
    rw [Value.same, decide_eq_true_eq] at hsame
    rw [hsame]
    exact .refl _

end Twins

namespace Alike

variable {v w : Value}

lemma refl (v : Value) : Alike v v :=
  .twins ⟨same_refl v, sharesSchemas_refl v⟩

lemma type_eq (h : Alike v w) : v.type = w.type := by
  cases h with
  | twins h => exact type_eq_of_same h.same
  | strings => rfl

lemma isNull_eq (h : Alike v w) : v.isNull = w.isNull :=
  isNull_eq_of_type_eq h.type_eq

/-- Values that are alike are twin entities, if one of them is an entity. -/
lemma rel_entity? (h : Alike v w) :
    Option.Rel (fun e e' : Entity => Twins e.toValue e'.toValue) v.entity? w.entity? := by
  cases h with
  | strings => exact .none
  | twins h =>
    cases v with
    | entity s store =>
      cases w with
      | entity t store' => exact .some h
      | _ => cases h.same
    | _ =>
      cases w with
      | entity t store' => cases h.same
      | _ => exact .none

/-- Values that are alike are lists of twins, if one of them is a list. -/
lemma rel_list? (h : Alike v w) : Option.Rel (List.Forall₂ Twins) v.list? w.list? := by
  cases h with
  | strings => exact .none
  | twins h =>
    cases v with
    | list xs =>
      cases w with
      | list ys => exact .some h.items
      | _ => cases h.same
    | _ =>
      cases w with
      | list ys => cases h.same
      | _ => exact .none

lemma isScalar_eq (h : Alike v w) : v.isScalar = w.isScalar :=
  isScalar_eq_of_type_eq h.type_eq

lemma alike_text (h : Alike v w) (hv : v.isScalar = true) : Text.Alike v.text w.text := by
  cases h with
  | twins h => exact h.alike_text hv
  | strings h => exact h

end Alike

end Value

end EntityModel
