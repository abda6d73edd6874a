import EntityModel.Value
import Mathlib.Data.List.Forall2

/-!
# Parts of values and values that are the same

Equality of values can be decided; it tells decimals of different scales apart, which are the same
as values. A value consists of parts, down to scalars. Values that are the same have one type, and
lists and stores are the same entry by entry.
-/

namespace EntityModel

/-! ### Equality can be decided -/

namespace Value

mutual

/-- Whether two values are equal, the scales of decimals included. -/
def beq : Value → Value → Bool
  | .null, .null => true
  | .string s, .string t => s = t
  | .integer m, .integer n => m = n
  | .decimal c, .decimal d => c = d
  | .boolean a, .boolean b => a = b
  | .date c, .date d => c = d
  | .time s, .time t => s = t
  | .document c, .document d => c = d
  | .list vs, .list ws => beqList vs ws
  | .entity s xs, .entity t ys => s = t && beqStore xs ys
  | _, _ => false

/-- Whether two lists are equal item by item. -/
def beqList : List Value → List Value → Bool
  | [], [] => true
  | v :: vs, w :: ws => beq v w && beqList vs ws
  | _, _ => false

/-- Whether two stores are equal entry by entry. -/
def beqStore : List (String × Value) → List (String × Value) → Bool
  | [], [] => true
  | (m, v) :: xs, (n, w) :: ys => m = n && beq v w && beqStore xs ys
  | _, _ => false

end

mutual

lemma beq_iff : (v w : Value) → (beq v w ↔ v = w)
  | .list vs, w => by cases w <;> simp [beq, beqList_iff vs]
  | .entity s xs, w => by cases w <;> simp [beq, beqStore_iff xs]
  | .null, w | .string _, w | .integer _, w | .decimal _, w | .boolean _, w | .date _, w
  | .time _, w | .document _, w => by cases w <;> simp [beq]

lemma beqList_iff : (vs ws : List Value) → (beqList vs ws ↔ vs = ws)
  | [], ws => by cases ws <;> simp [beqList]
  | v :: vs, ws => by cases ws <;> simp [beqList, beq_iff v, beqList_iff vs]

lemma beqStore_iff : (xs ys : List (String × Value)) → (beqStore xs ys ↔ xs = ys)
  | [], ys => by cases ys <;> simp [beqStore]
  | (m, v) :: xs, ys => by
    rcases ys with _ | ⟨⟨n, w⟩, ys⟩ <;> simp [beqStore, beq_iff v, beqStore_iff xs]

end

instance : DecidableEq Value :=
  fun v w => decidable_of_iff _ (beq_iff v w)

end Value

/-! ### Parts of values -/

/-- A value is a part, at any depth, of another value or that value itself. -/
inductive Value.Within : Value → Value → Prop
  | refl (v : Value) : Within v v
  | item {v w : Value} {items : List Value} (hw : w ∈ items) (h : Within v w) :
      Within v (.list items)
  | stored {v w : Value} {schema : Schema} {store : List (String × Value)} {name : String}
      (hw : (name, w) ∈ store) (h : Within v w) : Within v (.entity schema store)

namespace Value.Within

lemma trans {u v w : Value} (huv : u.Within v) (hvw : v.Within w) : u.Within w := by
  induction hvw with
  | refl => exact huv
  | item hw _ ih => exact .item hw ih
  | stored hw _ ih => exact .stored hw ih

lemma eq_of_isScalar {v w : Value} (h : v.Within w) (hw : w.isScalar = true) : v = w := by
  cases h with
  | refl => rfl
  | item => cases hw
  | stored => cases hw

/-- A scalar in a list is in an item. -/
lemma exists_item {v : Value} {items : List Value} (h : v.Within (.list items))
    (hv : v.isScalar = true) : ∃ w ∈ items, v.Within w := by
  cases h with
  | refl => cases hv
  | item hw h => exact ⟨_, hw, h⟩

/-- A scalar in an entity is in a stored value. -/
lemma exists_stored {v : Value} {schema : Schema} {store : List (String × Value)}
    (h : v.Within (.entity schema store)) (hv : v.isScalar = true) :
    ∃ name w, (name, w) ∈ store ∧ v.Within w := by
  cases h with
  | refl => cases hv
  | stored hw h => exact ⟨_, _, hw, h⟩

end Value.Within

/-! ### Values that are the same -/

namespace Value

lemma type_eq_of_same {v w : Value} (h : v.same w) : v.type = w.type := by
  cases v with
  | entity s store =>
    cases w with
    | entity t store' =>
      rw [same, Bool.and_eq_true] at h
      exact congrArg ValueType.entity (Schema.key_eq_of_same h.1)
    | _ => cases h
  | _ => cases w <;> first | rfl | cases h

lemma isScalar_eq_of_type_eq {v w : Value} (h : v.type = w.type) : v.isScalar = w.isScalar := by
  cases v <;> cases w <;> first | rfl | cases h

lemma isNull_eq_of_type_eq {v w : Value} (h : v.type = w.type) : v.isNull = w.isNull := by
  cases v <;> cases w <;> first | rfl | cases h

lemma eq_null_iff_of_type_eq {v w : Value} (h : v.type = w.type) : v = .null ↔ w = .null := by
  cases v <;> cases w <;> simp [type] at h ⊢

lemma sameList_of_forall₂ {vs ws : List Value} (h : List.Forall₂ (fun v w => v.same w) vs ws) :
    sameList vs ws := by
  induction h with
  | nil => rw [sameList]
  | cons hv _ ih => rw [sameList, hv, ih, Bool.and_self]

lemma sameStore_of_forall₂ {store store' : List (String × Value)}
    (h : List.Forall₂ (fun p q => p.1 = q.1 ∧ p.2.same q.2) store store') :
    sameStore store store' := by
  induction h with
  | nil => rw [sameStore]
  | cons hp _ ih => rw [sameStore, hp.1, hp.2, ih, decide_eq_true rfl, Bool.and_self, Bool.and_self]

end Value

end EntityModel
