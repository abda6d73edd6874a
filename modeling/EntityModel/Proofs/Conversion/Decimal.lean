import EntityModel.Proofs.Conversion.RoundTrip
import EntityModel.Proofs.Number.Scale

/-!
# Decimals read back

The JSON form of a decimal is read as an equal decimal or refused, never as another one. It is
refused if and only if it is a double whose text has more than 28 digits behind the point. This does
not happen up to a scale of 22, nor above `10 ^ -12`.
-/

namespace EntityModel

open Conversions

namespace Decimal

/-- The JSON form of a decimal is refused, for digits that do not fit. -/
def Lost (d : Decimal) : Prop :=
  (builtin.convert (Value.decimalJson d) .decimal).result =
    .error (.invalidValue (Value.decimalJson d).compact .decimal (.decimal .underflow))

/-- The JSON form of a decimal is a double with more digits behind the point than decimals have. -/
def TooFine (d : Decimal) : Prop :=
  ∃ x, Value.decimalJson d = .number (.double x) ∧ maxScale < x.decimals

variable {d : Decimal}

/-! ### The JSON form -/

lemma exactDouble?_eq_some_iff {x : Double} :
    d.exactDouble? = some x ↔
      d.toDouble = x ∧ ∃ back, ofText .rounded x.plain.toList = .ok back ∧ back.same d := by
  rw [exactDouble?]
  cases hread : ofText .rounded d.toDouble.plain.toList with
  | error fault =>
    constructor
    · intro h
      cases h
    · rintro ⟨rfl, back, hback, -⟩
      rw [hread] at hback
      cases hback
  | ok back =>
    simp only [Option.ite_none_right_eq_some, Option.some.injEq]
    constructor
    · rintro ⟨hsame, rfl⟩
      exact ⟨rfl, back, hread, hsame⟩
    · rintro ⟨rfl, back', hback', hsame⟩
      rw [hread] at hback'
      cases hback'
      exact ⟨hsame, rfl⟩

/-- What is no integer of 64 bits is a double if that is exact, else the text. -/
lemma decimalJson_of_not_isSigned (h : ∀ n, d.toInt? = some n → ¬ JsonNumber.isSigned n) :
    Value.decimalJson d = d.exactDouble?.elim (.string d.text) fun x => .number (.double x) := by
  rw [Value.decimalJson]
  cases hn : d.toInt? with
  | none => cases d.exactDouble? <;> rfl
  | some n =>
    simp only [if_neg (h n hn)]
    cases d.exactDouble? <;> rfl

/-- The JSON form is an integer, a double or the text. -/
lemma decimalJson_cases (d : Decimal) :
    (∃ n, d.toInt? = some n ∧ JsonNumber.isSigned n ∧
        Value.decimalJson d = .number (.integer n)) ∨
      (∃ x, d.exactDouble? = some x ∧ Value.decimalJson d = .number (.double x)) ∨
      Value.decimalJson d = .string d.text := by
  by_cases hint : ∃ n, d.toInt? = some n ∧ JsonNumber.isSigned n
  · obtain ⟨n, hn, hsigned⟩ := hint
    refine .inl ⟨n, hn, hsigned, ?_⟩
    rw [Value.decimalJson, hn]
    exact if_pos hsigned
  · have hjson := decimalJson_of_not_isSigned fun n hn hsigned => hint ⟨n, hn, hsigned⟩
    cases hx : d.exactDouble? with
    | some x =>
      rw [hx] at hjson
      exact .inr (.inl ⟨x, rfl, hjson⟩)
    | none =>
      rw [hx] at hjson
      exact .inr (.inr hjson)

lemma mantissa_of_toInt? {n : ℤ} (h : d.toInt? = some n) :
    d.mantissa = n * (Nat.pow 10 d.scale : ℕ) := by
  rw [toInt?] at h
  obtain ⟨hmod, hn⟩ := Option.ite_none_right_eq_some.1 h
  cases hn
  refine (Int.ediv_mul_cancel ?_).symm
  exact Int.natCast_dvd.2 (Nat.dvd_of_mod_eq_zero hmod)

/-! ### Reading the forms -/

/-- An integer is read as the decimal without a fraction. -/
lemma survives_of_integer {n : ℤ} (hn : d.toInt? = some n) (hsigned : JsonNumber.isSigned n)
    (hjson : Value.decimalJson d = .number (.integer n)) : d.Survives := by
  have hrange : n.natAbs < Nat.pow 2 96 := by
    rw [JsonNumber.isSigned, Bool.and_eq_true, decide_eq_true_eq, decide_eq_true_eq] at hsigned
    have hmin : Int64.minValue.toInt = -9223372036854775808 := by decide
    have hmax : Int64.maxValue.toInt = 9223372036854775807 := by decide
    have hlimit : 9223372036854775808 < Nat.pow 2 96 := by decide
    omega
  refine ⟨⟨n, 0, hrange, Nat.zero_le 28⟩, ?_, ?_⟩
  · rw [hjson]
    change Converter.decimalOfInteger n = _
    rw [Converter.decimalOfInteger, ofParts?, dif_pos ⟨hrange, Nat.zero_le 28⟩]
  · rw [same, decide_eq_true_eq, mantissa_of_toInt? hn]
    exact (mul_one _).symm

lemma text_ne_empty (d : Decimal) : d.text ≠ "" := by
  intro h
  have hread := ofText_text .exact d
  rw [h] at hread
  cases hread

/-- The text is read as the decimal itself. -/
lemma survives_of_text (hjson : Value.decimalJson d = .string d.text) : d.Survives := by
  refine ⟨d, ?_, same_refl d⟩
  rw [hjson]
  change (Converter.stringToDecimal (.string d.text)).result = _
  rw [Converter.stringToDecimal, Converter.ofString, if_neg d.text_ne_empty, ofString,
    ofText_text .exact d]
  rfl

lemma convert_double (x : Double) :
    (builtin.convert (.number (.double x)) .decimal).result =
      match ofText .exact x.plain.toList with
      | .ok d => .ok (.decimal d)
      | .error fault =>
        .error (.invalidValue (Json.number (.double x)).compact .decimal (.decimal fault)) :=
  rfl

/-- A double is read as the decimal that its text gives, unless there are too many digits. -/
lemma survives_of_double {x : Double} (hx : d.exactDouble? = some x)
    (hjson : Value.decimalJson d = .number (.double x)) (hdecimals : x.decimals ≤ maxScale) :
    d.Survives := by
  obtain ⟨-, back, hback, hsame⟩ := exactDouble?_eq_some_iff.1 hx
  refine ⟨back, ?_, hsame⟩
  rw [hjson, convert_double, Double.ofText_plain hdecimals, hback]

lemma lost_of_tooFine (h : d.TooFine) : d.Lost := by
  obtain ⟨x, hjson, hdecimals⟩ := h
  rw [Lost, hjson, convert_double, (Double.ofText_plain_of_lt hdecimals).1]

lemma survives_of_not_tooFine (h : ¬ d.TooFine) : d.Survives := by
  rcases decimalJson_cases d with ⟨n, hn, hsigned, hjson⟩ | ⟨x, hx, hjson⟩ | hjson
  · exact survives_of_integer hn hsigned hjson
  · exact survives_of_double hx hjson (not_lt.1 fun hdecimals => h ⟨x, hjson, hdecimals⟩)
  · exact survives_of_text hjson

lemma Lost.not_survives (h : d.Lost) : ¬ d.Survives := by
  rintro ⟨d', hd', -⟩
  rw [Lost, hd'] at h
  cases h

/-! ### Which decimals are too fine -/

/-- Zero is no double in JSON. -/
lemma TooFine.natAbs_pos (h : d.TooFine) : 0 < d.mantissa.natAbs := by
  obtain ⟨x, hjson, -⟩ := h
  refine Nat.pos_of_ne_zero fun hzero => ?_
  have hn : d.toInt? = some 0 := by
    rw [toInt?, Int.natAbs_eq_zero.1 hzero]
    simp
  rw [Value.decimalJson, hn] at hjson
  cases hjson

lemma exactDouble?_of_decimalJson {x : Double} (h : Value.decimalJson d = .number (.double x)) :
    d.exactDouble? = some x := by
  rcases decimalJson_cases d with ⟨n, -, -, hjson⟩ | ⟨x', hx', hjson⟩ | hjson
  · rw [hjson] at h
    cases h
  · rw [hjson] at h
    cases h
    exact hx'
  · rw [hjson] at h
    cases h

lemma natAbs_mul_of_same {a b : Decimal} (h : a.same b) :
    a.mantissa.natAbs * 10 ^ b.scale = b.mantissa.natAbs * 10 ^ a.scale := by
  rw [same, decide_eq_true_eq] at h
  have habs := congrArg Int.natAbs h
  rw [Int.natAbs_mul, Int.natAbs_mul, Int.natAbs_natCast, Int.natAbs_natCast] at habs
  exact habs

/-- Decimals that are too fine are not above `10 ^ -12`. -/
lemma TooFine.natAbs_le (h : d.TooFine) : d.mantissa.natAbs * 10 ^ 12 ≤ 10 ^ d.scale := by
  obtain ⟨x, hjson, hdecimals⟩ := h
  obtain ⟨-, back, hback, hsame⟩ :=
    exactDouble?_eq_some_iff.1 (exactDouble?_of_decimalJson hjson)
  have hsmall := (Double.ofText_plain_of_lt hdecimals).2 back hback
  refine Nat.le_of_mul_le_mul_right ?_ (Nat.pow_pos (n := back.scale) (show 0 < 10 by decide))
  calc d.mantissa.natAbs * 10 ^ 12 * 10 ^ back.scale
      = back.mantissa.natAbs * 10 ^ 12 * 10 ^ d.scale := by
        rw [Nat.mul_right_comm, ← natAbs_mul_of_same hsame, Nat.mul_right_comm]
    _ ≤ 10 ^ back.scale * 10 ^ d.scale := Nat.mul_le_mul_right _ hsmall
    _ = 10 ^ d.scale * 10 ^ back.scale := Nat.mul_comm _ _

/-- Decimals that are too fine have a scale above 22. -/
lemma TooFine.lt_scale (h : d.TooFine) : 22 < d.scale := by
  refine not_le.1 fun hs => ?_
  have hle := decimals_toDouble_le hs h.natAbs_pos h.natAbs_le
  obtain ⟨x, hjson, hdecimals⟩ := h
  rw [(exactDouble?_eq_some_iff.1 (exactDouble?_of_decimalJson hjson)).1] at hle
  have hscale : maxScale = 28 := rfl
  omega

/-- A decimal is read back from its JSON form as an equal one, or it is refused for its digits. It
is refused if and only if it is too fine, and too fine are only decimals of a scale above 22 that
are not above `10 ^ -12`. -/
theorem survives_iff (d : Decimal) :
    (d.Survives ↔ ¬ d.TooFine) ∧ (d.Lost ↔ d.TooFine) ∧ (d.scale ≤ 22 → d.Survives) ∧
      (10 ^ d.scale < d.mantissa.natAbs * 10 ^ 12 → d.Survives) := by
  refine ⟨⟨fun hsurvives hfine => (lost_of_tooFine hfine).not_survives hsurvives,
    survives_of_not_tooFine⟩, ⟨fun hlost => ?_, lost_of_tooFine⟩, fun hscale => ?_,
    fun hlarge => ?_⟩
  · by_contra hfine
    exact hlost.not_survives (survives_of_not_tooFine hfine)
  · exact survives_of_not_tooFine fun hfine => Nat.not_lt_of_le hscale hfine.lt_scale
  · exact survives_of_not_tooFine fun hfine => Nat.not_lt_of_le hfine.natAbs_le hlarge

/-! ### Examples -/

lemma one_lt_mantissaLimit : (1 : ℤ).natAbs < Nat.pow 2 96 := by
  decide

/-- The least positive decimal of scale 22. -/
def exampleFine : Decimal :=
  ⟨1, 22, one_lt_mantissaLimit, by decide⟩

/-- The least positive decimal of scale 23. -/
def exampleFiner : Decimal :=
  ⟨1, 23, one_lt_mantissaLimit, by decide⟩

/-- A decimal of the largest scale that is not small. -/
def exampleLong : Decimal :=
  ⟨123456789012345678901234567, 28, by decide, by decide⟩

theorem survives_exampleFine :
    exampleFine.scale ≤ 22 ∧ exampleFine.Survives ∧ ¬ exampleFine.Lost ∧
      10 ^ exampleLong.scale < exampleLong.mantissa.natAbs * 10 ^ 12 ∧ exampleLong.Survives := by
  have hscale : exampleFine.scale ≤ 22 := by decide
  have hlarge : 10 ^ exampleLong.scale < exampleLong.mantissa.natAbs * 10 ^ 12 := by
    decide +kernel
  obtain ⟨hsurvives, hlost, hcoarse, -⟩ := survives_iff exampleFine
  obtain ⟨-, -, -, hlong⟩ := survives_iff exampleLong
  have hfine := hsurvives.1 (hcoarse hscale)
  exact ⟨hscale, hcoarse hscale, fun h => hfine (hlost.1 h), hlarge, hlong hlarge⟩

lemma tooFine_exampleFiner : exampleFiner.TooFine := by
  have hdouble : exampleFiner.exactDouble? = some exampleFiner.toDouble := by decide +kernel
  have hint : exampleFiner.toInt? = none := by decide +kernel
  refine ⟨exampleFiner.toDouble, ?_, by decide +kernel⟩
  rw [Value.decimalJson, hint, hdouble]

/-- The double next to the decimal is written as `0.000000000000000000000010000000000000001`, which
rounds to the decimal but is not read exactly. -/
theorem lost_exampleFiner :
    exampleFiner.Lost ∧ exampleFiner.toDouble.json = "1.0000000000000001e-23" ∧
      ¬ ∀ d : Decimal, d.Survives := by
  have hlost := lost_of_tooFine tooFine_exampleFiner
  exact ⟨hlost, by decide +kernel, fun h => hlost.not_survives (h exampleFiner)⟩

end Decimal

end EntityModel
