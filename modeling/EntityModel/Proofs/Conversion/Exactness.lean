import EntityModel.Conversion.Builtin
import EntityModel.Proofs.Number.Notation

/-!
# Texts read as decimals

A text that is read as a decimal gives the number that it denotes, unless digits of the base of a
scientific form were rounded away. Plain notation is never rounded: what does not fit is refused.
-/

namespace EntityModel

open Numeral Decimal

/-- No digit of a text is rounded away: it has no exponent, or what is before the exponent is read
exactly, or it has no separators there and fits. -/
def Numeral.Lossless (text : List Char) : Prop :=
  base text = text ∨ (∃ b, ofText .exact (base text) = .ok b) ∨
    '_' ∉ base text ∧ Fits (plain (base text))

namespace Conversions

variable {s : String} {d : Decimal}

/-- What a text that is not empty is converted to. -/
lemma convert_string_decimal (hs : s ≠ "") :
    (builtin.convert (.string s) .decimal).result =
      match Decimal.ofString s with
      | .ok d => .ok (.decimal d)
      | .error fault => .error (.invalidValue s .decimal (.decimal fault)) := by
  change (Converter.stringToDecimal (.string s)).result = _
  rw [Converter.stringToDecimal, Converter.ofString, if_neg hs]
  cases Decimal.ofString s <;> rfl

lemma ofString_of_convert (h : (builtin.convert (.string s) .decimal).result = .ok (.decimal d)) :
    Decimal.ofString s = .ok d := by
  by_cases hs : s = ""
  · subst hs
    cases h
  · rw [convert_string_decimal hs] at h
    cases hread : Decimal.ofString s with
    | ok d' =>
      rw [hread] at h
      cases h
      rfl
    | error fault =>
      rw [hread] at h
      cases h

/-- A decimal that was read is the number that is denoted if and only if its base is. -/
lemma toRat_eq_value_iff (h : Decimal.ofString s = .ok d) :
    ∃ b, ofText .rounded (base s.toList) = .ok b ∧
      (d.toRat = value s.toList ↔ b.toRat = plain (base s.toList)) := by
  obtain ⟨b, hb, hd⟩ := ofString_eq_ok h
  refine ⟨b, hb, ?_⟩
  rw [hd, value]
  exact mul_left_inj' (zpow_ne_zero _ (by norm_num))

/-- Where no digit is rounded away, a decimal that was read is the number that is denoted. -/
lemma toRat_of_lossless (h : Decimal.ofString s = .ok d) (hl : Lossless s.toList) :
    d.toRat = value s.toList := by
  obtain ⟨b, hb, hiff⟩ := toRat_eq_value_iff h
  rw [hiff]
  have exactly (b' : Decimal) (hb' : ofText .exact (base s.toList) = .ok b') :
      b.toRat = plain (base s.toList) := by
    have heq : b' = b := Except.ok.inj ((ofText_exact hb').1.symm.trans hb)
    exact heq ▸ toRat_of_exact hb'
  rcases hl with hplain | ⟨b', hb'⟩ | ⟨hsep, hfits⟩
  · have hexact := ofText_of_plain hplain h
    rw [← hplain] at hexact
    exact exactly d hexact
  · exact exactly b' hb'
  · exact (toRat_iff_fits hsep hb).2 hfits

lemma fits_value_empty : Fits (value "".toList) :=
  ⟨⟨0, 0, by decide, by decide⟩, by simp [toRat, value, plain, coefficient, base, Decimals.value]⟩

lemma convert_string_cases (s : String) :
    (s = "" ∧ (builtin.convert (.string s) .decimal).result = .ok .null) ∨
      (∃ d, (builtin.convert (.string s) .decimal).result = .ok (.decimal d)) ∨
      ∃ fault, (builtin.convert (.string s) .decimal).result =
        .error (.invalidValue s .decimal (.decimal fault)) := by
  by_cases hs : s = ""
  · subst hs
    exact .inl ⟨rfl, rfl⟩
  · right
    rw [convert_string_decimal hs]
    cases Decimal.ofString s with
    | ok d => exact .inl ⟨d, rfl⟩
    | error fault => exact .inr ⟨fault, rfl⟩

/-- A string that is not empty is converted to a decimal or refused. Where no digit of it is rounded
away, as in plain notation, the decimal is the number that the string denotes, and a string that
denotes a number that does not fit is refused. Where digits are rounded away, the decimal is another
number, as long as there are no separators. -/
theorem convert_string_exact (s : String) :
    ((s = "" ∧ (builtin.convert (.string s) .decimal).result = .ok .null) ∨
      (∃ d, (builtin.convert (.string s) .decimal).result = .ok (.decimal d)) ∨
      ∃ fault, (builtin.convert (.string s) .decimal).result =
        .error (.invalidValue s .decimal (.decimal fault))) ∧
    (Lossless s.toList →
      (∀ d, (builtin.convert (.string s) .decimal).result = .ok (.decimal d) →
        d.toRat = value s.toList) ∧
      (¬ Fits (value s.toList) → ∃ fault, (builtin.convert (.string s) .decimal).result =
        .error (.invalidValue s .decimal (.decimal fault)))) ∧
    (¬ Lossless s.toList → '_' ∉ base s.toList →
      ∀ d, (builtin.convert (.string s) .decimal).result = .ok (.decimal d) →
        d.toRat ≠ value s.toList) := by
  have hcases := convert_string_cases s
  refine ⟨hcases, fun hl => ⟨fun d hd => ?_, fun hfits => ?_⟩, fun hl hsep d hd hvalue => hl ?_⟩
  · exact toRat_of_lossless (ofString_of_convert hd) hl
  · rcases hcases with ⟨rfl, -⟩ | ⟨d, hd⟩ | herror
    · exact absurd fits_value_empty hfits
    · exact absurd ⟨d, toRat_of_lossless (ofString_of_convert hd) hl⟩ hfits
    · exact herror
  · obtain ⟨b, hb, hiff⟩ := toRat_eq_value_iff (ofString_of_convert hd)
    exact .inr (.inr ⟨hsep, (toRat_iff_fits hsep hb).1 (hiff.1 hvalue)⟩)

end Conversions

/-! ### Examples -/

/-- A number with 29 digits behind the point, of which decimals have 28. -/
def exampleFineText : String := "1.23456789012345678901234567895"

/-- The same number in the scientific form. -/
def exampleFineScientific : String := "1.23456789012345678901234567895e0"

lemma not_fits_exampleFineText : ¬ Fits (plain exampleFineText.toList) := by
  have hcoefficient : coefficient exampleFineText.toList =
      12345678901234567890123456789 * 10 ^ 1 + 5 := rfl
  have hplaces : places exampleFineText.toList = 28 + 1 := rfl
  have hsign : exampleFineText.toList.head? ≠ some '-' := by decide
  rw [plain, hcoefficient, hplaces, if_neg hsign]
  exact not_fits_of_tail (by decide) (by decide) (.inl rfl)

lemma base_exampleFineScientific : base exampleFineScientific.toList = exampleFineText.toList :=
  rfl

lemma value_exampleFineScientific :
    value exampleFineScientific.toList = plain exampleFineText.toList := by
  have hexponent : exponent exampleFineScientific.toList = 0 := rfl
  rw [value, base_exampleFineScientific, hexponent, zpow_zero, mul_one]

theorem convert_string_exact_of_examples :
    (∃ d, (Conversions.builtin.convert (.string "-1_2.50e-1") .decimal).result = .ok (.decimal d) ∧
      d.toRat = value "-1_2.50e-1".toList) ∧
    (∃ fault, (Conversions.builtin.convert (.string exampleFineText) .decimal).result =
      .error (.invalidValue exampleFineText .decimal (.decimal fault))) ∧
    ∃ d, (Conversions.builtin.convert (.string exampleFineScientific) .decimal).result =
      .ok (.decimal d) ∧ d.toRat ≠ value exampleFineScientific.toList := by
  have hsigned : base "-1_2.50e-1".toList = "-1_2.50".toList := rfl
  have hplain : base exampleFineText.toList = exampleFineText.toList := rfl
  have hnot : ¬ Fits (value exampleFineText.toList) := by
    have hexponent : exponent exampleFineText.toList = 0 := rfl
    rw [value, hplain, hexponent, zpow_zero, mul_one]
    exact not_fits_exampleFineText
  have hlossy : ¬ Lossless exampleFineScientific.toList := by
    rw [Lossless, base_exampleFineScientific]
    rintro (h | ⟨b, h⟩ | ⟨-, h⟩)
    · exact absurd h (by decide)
    · cases h
    · exact not_fits_exampleFineText h
  have hsep : '_' ∉ base exampleFineScientific.toList := by
    rw [base_exampleFineScientific]
    decide
  obtain ⟨-, kept, -⟩ := Conversions.convert_string_exact "-1_2.50e-1"
  obtain ⟨-, refused, -⟩ := Conversions.convert_string_exact exampleFineText
  obtain ⟨-, -, rounded⟩ := Conversions.convert_string_exact exampleFineScientific
  refine ⟨⟨⟨-1250, 3, by decide, by decide⟩, rfl, (kept (.inr (.inl ?_))).1 _ rfl⟩,
    (refused (.inl hplain)).2 hnot,
    ⟨⟨12345678901234567890123456790, 28, by decide, by decide⟩, rfl, rounded hlossy hsep _ rfl⟩⟩
  rw [hsigned]
  exact ⟨⟨-1250, 2, by decide, by decide⟩, rfl⟩

/-- The last digit is rounded up, in the scientific form. -/
theorem convert_exampleFineScientific_rounds :
    ∃ d, (Conversions.builtin.convert (.string exampleFineScientific) .decimal).result =
        .ok (.decimal d) ∧
      d.mantissa = 12345678901234567890123456790 ∧ d.scale = 28 ∧
      d.toRat ≠ value exampleFineScientific.toList ∧
      ¬ Fits (value exampleFineScientific.toList) := by
  have hfits : ¬ Fits (value exampleFineScientific.toList) := by
    rw [value_exampleFineScientific]
    exact not_fits_exampleFineText
  refine ⟨⟨12345678901234567890123456790, 28, by decide, by decide⟩, rfl, rfl, rfl, ?_, hfits⟩
  intro hvalue
  exact hfits ⟨_, hvalue⟩

end EntityModel
