import EntityModel.Conversion.Builtin
import EntityModel.Proofs.Shown
import EntityModel.Proofs.Uuid

/-!
# Scalars read back

The builtin rules turn the JSON form of a scalar into the scalar that it shows, whatever its kind.
Decimals are the exception: some are kept as doubles or in a text that only an equal number is read
from, so what is said of them is a condition on each.
-/

namespace EntityModel

/-- The JSON form of a decimal is read as an equal decimal. -/
def Decimal.Survives (d : Decimal) : Prop :=
  ∃ d', (Conversions.builtin.convert (Value.decimalJson d) .decimal).result = .ok (.decimal d') ∧
    d'.same d

namespace Conversions

lemma int64?_ofInt64 (n : Int64) : (JsonNumber.integer n.toInt).int64? = some n := by
  have hsigned : JsonNumber.isSigned n.toInt = true := by
    rw [JsonNumber.isSigned, Bool.and_eq_true, decide_eq_true_eq, decide_eq_true_eq]
    exact ⟨Int64.minValue_le_toInt n, Int64.toInt_le n⟩
  rw [JsonNumber.int64?, if_pos hsigned, Int64.ofInt_toInt]

lemma convert_of_native? {c : Conversions} {j : Json} {k : SourceKind} {target : ScalarKind}
    {v : Value} (hk : SourceKind.of? j = some k) (h : native? j target = some v) :
    c.convert j target = pure v := by
  rw [convert, hk]
  simp only [h]

/-- A text that is not empty goes to the rule for strings. -/
lemma ofString_of_ne_nil {cs : List Char} (h : cs ≠ [])
    (f : String → Logged ConversionError Value) :
    Converter.ofString f (.string (String.ofList cs)) = f (String.ofList cs) := by
  refine if_neg fun heq => h ?_
  have := congrArg String.toList heq
  rwa [String.toList_ofList] at this

lemma convert_string_date {cs : List Char} {d : Date} (hne : cs ≠ [])
    (h : Date.ofText? (String.ofList cs) = some d) :
    builtin.convert (.string (String.ofList cs)) .date = pure (.date d) := by
  change Converter.stringToDate (.string (String.ofList cs)) = _
  rw [Converter.stringToDate, ofString_of_ne_nil hne, h]

lemma convert_date (d : Date) : builtin.convert (.string d.text) .date = pure (.date d) :=
  convert_string_date d.chars_ne_nil d.ofText?_text

lemma convert_time (t : Time) :
    (builtin.convert (.string t.text) .time).result = .ok (.time t.shown) := by
  have hne : t.chars ≠ [] := by
    rw [Time.chars]
    simp
  change (Converter.stringToTime (.string t.text)).result = _
  rw [Converter.stringToTime, Time.text, ofString_of_ne_nil hne, ← Time.text, Time.ofText_text]
  rfl

lemma convert_document (d : DocumentReference) :
    (builtin.convert (Value.documentJson d) .document).result = .ok (.document d) := by
  have hid : ((Value.documentJson d).field? "documentId").bind Json.text? =
      some d.documentId.text := by
    rw [Value.documentJson]
    cases d.filename <;> simp [Json.field?, Dict.get?_cons, Json.text?]
  have hname : ((Value.documentJson d).field? "filename").bind Json.text? = d.filename := by
    rw [Value.documentJson]
    cases d.filename <;> simp [Json.field?, Dict.get?_cons, Json.text?]
  have hrule : builtin.convert (Value.documentJson d) .document =
      Converter.objectToDocument (Value.documentJson d) := by
    rw [Value.documentJson]
    cases d.filename <;> rfl
  rw [hrule, Converter.objectToDocument, hid, Option.bind_some, Uuid.ofText?_text, hname]
  rfl

/-- From the JSON form of a scalar, that which it shows is read. -/
theorem convert_toJson {kind : ScalarKind} {v : Value} (hv : v.type = .scalar kind)
    (hd : ∀ d, v = .decimal d → d.Survives) :
    ∃ v', (builtin.convert v.toJson kind).result = .ok v' ∧ v'.same v.shown := by
  cases v with
  | null => cases hv
  | list items => cases hv
  | entity schema store => cases hv
  | string s =>
    cases hv
    exact ⟨.string s, rfl, Value.same_refl _⟩
  | boolean b =>
    cases hv
    exact ⟨.boolean b, rfl, Value.same_refl _⟩
  | integer n =>
    cases hv
    refine ⟨.integer n, ?_, Value.same_refl _⟩
    have hnative : native? (.ofInt64 n) .integer = some (.integer n) :=
      congrArg (Option.map Value.integer) (int64?_ofInt64 n)
    rw [Value.toJson, convert_of_native? (k := .integer) rfl hnative]
    rfl
  | decimal d =>
    cases hv
    obtain ⟨d', hd', hsame⟩ := hd d rfl
    exact ⟨.decimal d', hd', hsame⟩
  | date d =>
    cases hv
    exact ⟨.date d, congrArg Logged.result (convert_date d), Value.same_refl _⟩
  | time t =>
    cases hv
    exact ⟨.time t.shown, convert_time t, Value.same_refl _⟩
  | document d =>
    cases hv
    exact ⟨.document d, convert_document d, Value.same_refl _⟩

end Conversions

end EntityModel
