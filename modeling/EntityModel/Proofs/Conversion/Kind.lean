import EntityModel.Conversion.Builtin
import EntityModel.Proofs.Log

/-!
# The kinds of converted values

A conversion to a kind makes a null or a value of that kind. It is so for any set of rules that do
so one by one, as the builtin rules do.
-/

namespace EntityModel

/-- A value is null or a scalar of a kind. -/
def Value.HasKind (v : Value) (kind : ScalarKind) : Prop :=
  v = .null ∨ v.type = .scalar kind

lemma Value.HasKind.isScalar {v : Value} {kind : ScalarKind} (h : v.HasKind kind) :
    v.isScalar = true := by
  rcases h with rfl | h
  · rfl
  · cases v <;> first | rfl | cases h

/-- A rule makes nothing but nulls and values of its target kind. -/
def ConversionRule.Keeps (rule : ConversionRule) : Prop :=
  ∀ j v, (rule.convert j).result = .ok v → v.HasKind rule.target

namespace Conversions

variable {c : Conversions} {source : SourceKind} {kind : ScalarKind} {j : Json} {v : Value}

lemma hasKind_of_native? (h : native? j kind = some v) : v.HasKind kind := by
  right
  cases j with
  | string s => cases kind <;> cases h; rfl
  | bool b => cases kind <;> cases h; rfl
  | number n =>
    cases kind with
    | integer =>
      obtain ⟨i, -, rfl⟩ := Option.map_eq_some_iff.1 h
      rfl
    | _ => cases h
  | _ => cases h

lemma best?_eq_some {rule : ConversionRule} (h : c.best? source kind = some rule) :
    rule ∈ c.rules ∧ rule.target = kind := by
  obtain ⟨declared, -, hrule⟩ := List.exists_of_findSome?_eq_some h
  refine ⟨List.mem_of_find?_eq_some hrule, ?_⟩
  have hpair : rule.pair = (declared, kind) := by simpa using List.find?_some hrule
  exact congrArg Prod.snd hpair

/-- Rules that keep to their kinds convert to the kind that is asked for. -/
theorem hasKind_of_convert (hc : ∀ rule ∈ c.rules, rule.Keeps)
    (h : (c.convert j kind).result = .ok v) : v.HasKind kind := by
  rw [convert] at h
  split at h
  · cases h
    exact .inl rfl
  · split at h
    · rename_i value hnative
      cases h
      exact hasKind_of_native? hnative
    · split at h
      · rename_i rule hbest
        obtain ⟨hmem, rfl⟩ := best?_eq_some hbest
        exact hc rule hmem j v h
      · cases h

end Conversions

/-! ### Builtin rules -/

namespace Converter

lemma hasKind_of_ofString {f : String → Logged ConversionError Value} {kind : ScalarKind}
    (hf : ∀ s v, (f s).result = .ok v → v.HasKind kind) {j : Json} {v : Value}
    (h : (ofString f j).result = .ok v) : v.HasKind kind := by
  cases j with
  | string s =>
    rw [ofString] at h
    split at h
    · cases h
      exact .inl rfl
    · exact hf s v h
  | _ =>
    cases h
    exact .inl rfl

lemma keeps_numberToDecimal : ConversionRule.Keeps ⟨.number, .decimal, numberToDecimal⟩ := by
  intro j v h
  cases j with
  | number n =>
    right
    cases n with
    | integer n =>
      simp only [numberToDecimal, Logged.result_ofExcept, decimalOfInteger] at h
      split at h <;> cases h
      rfl
    | double x =>
      simp only [numberToDecimal, Logged.result_ofExcept, decimalOfDouble] at h
      split at h <;> cases h
      rfl
  | _ => cases h

lemma keeps_stringToDecimal : ConversionRule.Keeps ⟨.string, .decimal, stringToDecimal⟩ := by
  intro j v
  apply hasKind_of_ofString
  intro s v h
  split at h <;> cases h
  exact .inr rfl

lemma keeps_stringToInteger : ConversionRule.Keeps ⟨.string, .integer, stringToInteger⟩ := by
  intro j v
  apply hasKind_of_ofString
  intro s v h
  split at h <;> cases h
  exact .inr rfl

lemma keeps_stringToBoolean : ConversionRule.Keeps ⟨.string, .boolean, stringToBoolean⟩ := by
  intro j v
  apply hasKind_of_ofString
  intro s v h
  split at h <;> cases h
  · exact .inr rfl
  · exact .inl rfl

lemma keeps_stringToDate : ConversionRule.Keeps ⟨.string, .date, stringToDate⟩ := by
  intro j v
  apply hasKind_of_ofString
  intro s v h
  split at h <;> cases h
  · exact .inr rfl
  · exact .inl rfl

lemma keeps_stringToTime : ConversionRule.Keeps ⟨.string, .time, stringToTime⟩ := by
  intro j v
  apply hasKind_of_ofString
  intro s v h
  split at h <;> cases h
  exact .inr rfl

lemma keeps_objectToDocument : ConversionRule.Keeps ⟨.object, .document, objectToDocument⟩ := by
  intro j v h
  simp only [objectToDocument] at h
  split at h <;> cases h
  · exact .inr rfl
  · exact .inl rfl

end Converter

lemma Conversions.keeps_builtin : ∀ rule ∈ builtin.rules, rule.Keeps := by
  simp only [builtin, List.forall_mem_cons, List.not_mem_nil, false_implies, implies_true, and_true]
  exact ⟨Converter.keeps_numberToDecimal, Converter.keeps_stringToDecimal,
    Converter.keeps_stringToInteger, Converter.keeps_stringToBoolean, Converter.keeps_stringToDate,
    Converter.keeps_stringToTime, Converter.keeps_objectToDocument⟩

end EntityModel
