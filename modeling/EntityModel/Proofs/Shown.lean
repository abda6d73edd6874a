import EntityModel.Proofs.Calendar.Text
import EntityModel.Proofs.Value

/-!
# What generic forms show

A generic form shows the times of an entity by their texts, which are those of regular times. So a
value and the one that is shown of it have one JSON form, and they are the same value if and only if
all times in it are regular.
-/

namespace EntityModel

namespace Value

mutual

/-- The value that is shown of a value: every time in it is replaced by the regular time that has
its text. -/
def shown : Value → Value
  | .time t => .time t.shown
  | .list items => .list (shownList items)
  | .entity schema store => .entity schema (shownStore store)
  | v => v

/-- What is shown of list items. -/
def shownList : List Value → List Value
  | [] => []
  | v :: vs => shown v :: shownList vs

/-- What is shown of stored values. -/
def shownStore : List (String × Value) → List (String × Value)
  | [] => []
  | (name, v) :: rest => (name, shown v) :: shownStore rest

end

@[simp] lemma type_shown (v : Value) : v.shown.type = v.type := by
  cases v <;> rfl

lemma type_eq_of_same_shown {v w : Value} (h : w.same v.shown) : w.type = v.type :=
  (type_eq_of_same h).trans v.type_shown

lemma shownList_eq_map (vs : List Value) : shownList vs = vs.map shown := by
  induction vs with
  | nil => rfl
  | cons v vs ih => rw [shownList, ih, List.map_cons]

lemma shownStore_eq_map (store : List (String × Value)) :
    shownStore store = store.map fun p => (p.1, p.2.shown) := by
  induction store with
  | nil => rfl
  | cons p store ih => rw [shownStore, ih, List.map_cons]

/-! ### One JSON form -/

mutual

/-- A value and what is shown of it have one JSON form, so no reader can tell them apart. -/
theorem toJson_shown : (v : Value) → v.shown.toJson = v.toJson
  | .null | .string _ | .integer _ | .decimal _ | .boolean _ | .date _ | .document _ => rfl
  | .time t => by rw [shown, toJson, toJson, Time.text, Time.chars_shown, Time.text]
  | .list items => by rw [shown, toJson, toJson, listJson_shownList items]
  | .entity _ store => by rw [shown, toJson, toJson, storeJson_shownStore store]

theorem listJson_shownList : (vs : List Value) → listJson (shownList vs) = listJson vs
  | [] => rfl
  | v :: vs => by rw [shownList, listJson, listJson, toJson_shown v, listJson_shownList vs]

theorem storeJson_shownStore :
    (store : List (String × Value)) → storeJson (shownStore store) = storeJson store
  | [] => rfl
  | (name, v) :: rest => by
    rw [shownStore, storeJson, storeJson, toJson_shown v, storeJson_shownStore rest]

end

/-! ### Regular times -/

/-- All times in a value are regular. -/
def Regular (v : Value) : Prop :=
  ∀ t, (Value.time t).Within v → t.isRegular

mutual

/-- A value all of whose times are regular is shown as it is. -/
theorem shown_eq_self : (v : Value) → v.Regular → v.shown = v
  | .null, _ | .string _, _ | .integer _, _ | .decimal _, _ | .boolean _, _ | .date _, _
  | .document _, _ => rfl
  | .time t, h => by rw [shown, Time.shown_of_isRegular (h t (.refl _))]
  | .list items, h => by
    rw [shown, shownList_eq_self items fun v hv t ht => h t (.item hv ht)]
  | .entity _ store, h => by
    rw [shown, shownStore_eq_self store fun p hp t ht => h t (.stored hp ht)]

theorem shownList_eq_self : (vs : List Value) → (∀ v ∈ vs, v.Regular) → shownList vs = vs
  | [], _ => rfl
  | v :: vs, h => by
    obtain ⟨hv, hvs⟩ := List.forall_mem_cons.1 h
    rw [shownList, shown_eq_self v hv, shownList_eq_self vs hvs]

theorem shownStore_eq_self : (store : List (String × Value)) → (∀ p ∈ store, p.2.Regular) →
    shownStore store = store
  | [], _ => rfl
  | (name, v) :: rest, h => by
    obtain ⟨hv, hrest⟩ := List.forall_mem_cons.1 h
    rw [shownStore, shown_eq_self v hv, shownStore_eq_self rest hrest]

end

/-! Conversely, a time in a value is regular if something is the same as the value and as what is
shown of it. -/

lemma exists_same_of_mem_list {vs ws : List Value} (hshown : sameList ws (shownList vs))
    (hsame : sameList ws vs) {v : Value} (hv : v ∈ vs) :
    ∃ w : Value, w.same v.shown ∧ w.same v := by
  induction vs generalizing ws with
  | nil => cases hv
  | cons u vs ih =>
    cases ws with
    | nil => cases hsame
    | cons w ws =>
      rw [shownList, sameList, Bool.and_eq_true] at hshown
      rw [sameList, Bool.and_eq_true] at hsame
      rcases List.mem_cons.1 hv with rfl | hv
      · exact ⟨w, hshown.1, hsame.1⟩
      · exact ih hshown.2 hsame.2 hv

lemma exists_same_of_mem_store {store store' : List (String × Value)}
    (hshown : sameStore store' (shownStore store)) (hsame : sameStore store' store)
    {name : String} {v : Value} (hv : (name, v) ∈ store) :
    ∃ w : Value, w.same v.shown ∧ w.same v := by
  induction store generalizing store' with
  | nil => cases hv
  | cons p store ih =>
    cases store' with
    | nil => cases hsame
    | cons q store' =>
      obtain ⟨m, u⟩ := p
      obtain ⟨n, w⟩ := q
      rw [shownStore, sameStore, Bool.and_eq_true, Bool.and_eq_true] at hshown
      rw [sameStore, Bool.and_eq_true, Bool.and_eq_true] at hsame
      rcases List.mem_cons.1 hv with heq | hv
      · cases heq
        exact ⟨w, hshown.1.2, hsame.1.2⟩
      · exact ih hshown.2 hsame.2 hv

lemma regular_of_same {v w : Value} (hshown : w.same v.shown) (hsame : w.same v) : v.Regular := by
  intro t ht
  induction ht generalizing w with
  | refl =>
    cases w with
    | time t' =>
      rw [shown, same, decide_eq_true_eq] at hshown
      rw [same, decide_eq_true_eq] at hsame
      exact Time.shown_eq_self_iff.1 (hshown.symm.trans hsame)
    | _ => cases hsame
  | item hmem _ ih =>
    cases w with
    | list ws =>
      obtain ⟨w, hshown, hsame⟩ := exists_same_of_mem_list hshown hsame hmem
      exact ih hshown hsame
    | _ => cases hsame
  | stored hmem _ ih =>
    cases w with
    | entity s store =>
      rw [shown, same, Bool.and_eq_true] at hshown
      rw [same, Bool.and_eq_true] at hsame
      obtain ⟨w, hshown, hsame⟩ := exists_same_of_mem_store hshown.2 hsame.2 hmem
      exact ih hshown hsame
    | _ => cases hsame

/-- What is the same as that which is shown of a value is the same as the value itself if and only
if all times in it are regular. -/
theorem same_iff_regular {v w : Value} (hshown : w.same v.shown) : w.same v ↔ v.Regular := by
  constructor
  · exact regular_of_same hshown
  · intro h
    rwa [shown_eq_self v h] at hshown

lemma same_shown_iff {v : Value} : v.same v.shown ↔ v.Regular := by
  constructor
  · intro h
    exact regular_of_same h (same_refl v)
  · intro h
    rw [shown_eq_self v h]
    exact same_refl v

instance : DecidablePred Regular :=
  fun v => decidable_of_iff (v.same v.shown) same_shown_iff

end Value

/-- What is shown of an entity. -/
def Entity.shown (e : Entity) : Entity :=
  ⟨e.schema, Value.shownStore e.store⟩

end EntityModel
