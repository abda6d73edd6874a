import EntityModel.Proofs.Number.Plain

/-!
# Doubles of decimals

Up to a scale of 22 the power of ten that a decimal is divided by is a double. Small decimals of
these scales go to the nearest double, so their digits are found again as the shortest ones.
-/

namespace EntityModel

namespace Double

/-! ### Powers of ten -/

lemma magnitude_powerOfTen {s : ℕ} (hs : s ≤ 22) : (ofNat (10 ^ s)).magnitude = 10 ^ s := by
  obtain ⟨m, q, h⟩ :=
    roundsTo_ofRatio (r := ⟨10 ^ s, 1⟩) (Nat.pow_pos (by decide)) Nat.one_pos false
  rw [Ratio.toRat, Nat.cast_one, div_one, Nat.cast_pow] at h
  refine h.magnitude_of_eq (w := 5 ^ s) (e := s) ?_ ?_ ?_
  · rw [zpow_natCast, Nat.cast_pow, ← mul_pow]
    norm_num
  · calc 5 ^ s ≤ 5 ^ 22 := Nat.pow_le_pow_right (by decide) hs
      _ < 2 ^ 53 := by decide
  · exact (show minExponent ≤ 0 by decide).trans (Int.natCast_nonneg s)

lemma pow_ten {s : ℕ} (hs : s ≤ 22) : (ofNat 10).pow s = ofNat (10 ^ s) := by
  have hall : ∀ s < 23, (ofNat 10).pow s = ofNat (10 ^ s) := by decide +kernel
  exact hall s (Nat.lt_succ_of_le hs)

end Double

namespace Decimal

open Double

/-- A double near enough a decimal comes back to its digits when it is scaled and rounded. -/
lemma magnitude_round_mul {f : Double} {n s : ℕ} (hs : s ≤ 22) (hn : n ≤ 10 ^ 10)
    (hf : |f.magnitude - n / 10 ^ s| ≤ n / 10 ^ s / 2 ^ 53) (hpos : 0 < n) :
    (f.mul (ofNat (10 ^ s))).round.magnitude = n := by
  have hgrid := magnitude_powerOfTen hs
  have hpow : (0 : ℚ) < 10 ^ s := by positivity
  have hn' : (1 : ℚ) ≤ n := by exact_mod_cast hpos
  have hn'' : (n : ℚ) ≤ 10 ^ 10 := by exact_mod_cast hn
  have hscaled : |f.magnitude * 10 ^ s - n| ≤ n / 2 ^ 53 := by
    have hsplit : f.magnitude * 10 ^ s - n = (f.magnitude - n / 10 ^ s) * 10 ^ s := by
      field_simp
    rw [hsplit, abs_mul, abs_of_pos hpow]
    calc |f.magnitude - n / 10 ^ s| * 10 ^ s ≤ n / 10 ^ s / 2 ^ 53 * 10 ^ s := by gcongr
      _ = n / 2 ^ 53 := by field_simp
  obtain ⟨hlow, hhigh⟩ := abs_le.1 hscaled
  have hnear : (n : ℚ) / 2 ^ 53 ≤ 1 / 8 := by
    rw [div_le_iff₀ (by positivity)]
    exact hn''.trans (by norm_num)
  have hproduct : 0 < f.magnitude := by
    by_contra h
    nlinarith
  obtain ⟨m, q, hmul⟩ := roundsTo_mul hproduct (y := ofNat (10 ^ s)) (hgrid ▸ hpow)
  rw [hgrid] at hmul
  have hnormal : (2 : ℚ) ^ (-1022 : ℤ) ≤ f.magnitude * 10 ^ s := by
    calc (2 : ℚ) ^ (-1022 : ℤ) ≤ 2 ^ (-1 : ℤ) := zpow_le_zpow_right₀ one_le_two (by norm_num)
      _ ≤ f.magnitude * 10 ^ s := by
        norm_num
        linarith
  have hround := abs_le.1 (hmul.abs_magnitude_sub_le_of_normal hnormal)
  have herror : f.magnitude * 10 ^ s / 2 ^ 53 ≤ 1 / 4 := by
    rw [div_le_iff₀ (by positivity)]
    linarith
  refine magnitude_round (hn.trans_lt (by decide)) (abs_lt.2 ⟨?_, ?_⟩) <;> linarith

/-- The double of the digits behind the point, before it is rounded to the scale. -/
def fraction (n s : ℕ) : Double :=
  (ofNat n).div (ofNat (10 ^ s))

lemma toDouble_of_lt {d : Decimal} (hscale : d.scale ≠ 0)
    (hlt : d.mantissa.natAbs < 10 ^ d.scale)
    (hne : (fraction d.mantissa.natAbs d.scale).isZero = false) :
    d.toDouble =
      { ((((ofNat 0).add (fraction d.mantissa.natAbs d.scale)).mul
          ((ofNat 10).pow d.scale)).round.div ((ofNat 10).pow d.scale)) with
        negative := decide (d.mantissa < 0) } := by
  have hdiv : d.mantissa.natAbs / Nat.pow 10 d.scale = 0 := Nat.div_eq_of_lt hlt
  have hmod : d.mantissa.natAbs % Nat.pow 10 d.scale = d.mantissa.natAbs := Nat.mod_eq_of_lt hlt
  have hzero : ((ofNat d.mantissa.natAbs).div (ofNat (Nat.pow 10 d.scale))).isZero = false := hne
  simp only [toDouble, if_neg hscale, hdiv, hmod, hzero, if_neg Bool.false_ne_true]
  rfl

section Fraction

variable {n s : ℕ} (hs : s ≤ 22) (hpos : 0 < n) (hn : n ≤ 10 ^ 10)
include hs hpos hn

lemma roundsTo_fraction : ∃ m q, RoundsTo (n / 10 ^ s) m q (fraction n s) := by
  have hmagnitude := magnitude_ofNat (hn.trans_lt (by decide))
  have hgrid := magnitude_powerOfTen hs
  have hdiv := roundsTo_div (x := ofNat n) (y := ofNat (10 ^ s))
    (by rw [hmagnitude]; exact_mod_cast hpos) (by rw [hgrid]; positivity)
  rwa [hmagnitude, hgrid] at hdiv

omit hn in
/-- The quotient is far above the subnormal numbers. -/
lemma normal_fraction : (2 : ℚ) ^ (-1022 : ℤ) ≤ n / 10 ^ s := by
  have hn' : (1 : ℚ) ≤ n := by exact_mod_cast hpos
  calc (2 : ℚ) ^ (-1022 : ℤ) ≤ 2 ^ (-80 : ℤ) := zpow_le_zpow_right₀ one_le_two (by norm_num)
    _ ≤ 1 / 10 ^ 22 := by norm_num
    _ ≤ n / 10 ^ s := by
      gcongr
      norm_num

lemma abs_fraction_sub_le : |(fraction n s).magnitude - n / 10 ^ s| ≤ n / 10 ^ s / 2 ^ 53 := by
  obtain ⟨m, q, h⟩ := roundsTo_fraction hs hpos hn
  exact h.abs_magnitude_sub_le_of_normal (normal_fraction hs hpos)

lemma magnitude_fraction_pos : 0 < (fraction n s).magnitude := by
  have hquotient : (0 : ℚ) < n / 10 ^ s := by
    have hn' : (0 : ℚ) < n := by exact_mod_cast hpos
    positivity
  have hnear := abs_le.1 (abs_fraction_sub_le hs hpos hn)
  linarith

end Fraction

/-- A decimal of scale up to 22 that is not above `10 ^ -12` goes to the nearest double. -/
lemma roundsTo_toDouble {d : Decimal} (hs : d.scale ≤ 22) (hpos : 0 < d.mantissa.natAbs)
    (hsmall : d.mantissa.natAbs * 10 ^ 12 ≤ 10 ^ d.scale) :
    ∃ m q, RoundsTo (d.mantissa.natAbs / 10 ^ d.scale) m q d.toDouble := by
  have hle : 10 ^ d.scale ≤ 10 ^ 22 := Nat.pow_le_pow_right (by decide) hs
  have hn : d.mantissa.natAbs ≤ 10 ^ 10 := by omega
  have hscale : d.scale ≠ 0 := by
    intro h
    rw [h] at hsmall
    omega
  have hpositive := magnitude_fraction_pos hs hpos hn
  have hne : (fraction d.mantissa.natAbs d.scale).isZero = false :=
    decide_eq_false (significand_pos hpositive).ne'
  have hsum : ((ofNat 0).add (fraction d.mantissa.natAbs d.scale)).magnitude =
      (fraction d.mantissa.natAbs d.scale).magnitude := by
    obtain ⟨m, q, hfraction⟩ := roundsTo_fraction hs hpos hn
    obtain ⟨m', q', hadd⟩ := roundsTo_add (x := ofNat 0) hpositive
    rw [magnitude_ofNat (by decide), Nat.cast_zero, zero_add] at hadd
    exact hfraction.magnitude_of_magnitude hadd
  have hround := magnitude_round_mul hs hn
    (f := (ofNat 0).add (fraction d.mantissa.natAbs d.scale))
    (by rw [hsum]; exact abs_fraction_sub_le hs hpos hn) hpos
  have hgrid := magnitude_powerOfTen hs
  obtain ⟨m, q, hdiv⟩ := roundsTo_div (y := ofNat (10 ^ d.scale))
    (by rw [hround]; exact_mod_cast hpos) (by rw [hgrid]; positivity)
  rw [hround, hgrid] at hdiv
  rw [toDouble_of_lt hscale (by omega) hne, pow_ten hs]
  exact ⟨m, q, hdiv.with_negative _⟩

/-- The text of the double then has at most one digit more behind the point than the decimal. -/
theorem decimals_toDouble_le {d : Decimal} (hs : d.scale ≤ 22) (hpos : 0 < d.mantissa.natAbs)
    (hsmall : d.mantissa.natAbs * 10 ^ 12 ≤ 10 ^ d.scale) :
    d.toDouble.decimals ≤ d.scale + 1 := by
  obtain ⟨m, q, hround⟩ := roundsTo_toDouble hs hpos hsmall
  have hnear := abs_le.1 (hround.abs_magnitude_sub_le_of_normal (normal_fraction hs hpos))
  have hle : 10 ^ d.scale ≤ 10 ^ 22 := Nat.pow_le_pow_right (by decide) hs
  have hn : (1 : ℚ) ≤ d.mantissa.natAbs := by exact_mod_cast hpos
  have hn' : (d.mantissa.natAbs : ℚ) ≤ 10 ^ 10 := by
    exact_mod_cast (show d.mantissa.natAbs ≤ 10 ^ 10 by omega)
  obtain ⟨u, hu⟩ : ∃ u : ℚ, (10 ^ d.scale)⁻¹ = u := ⟨_, rfl⟩
  have hunit : 0 < u := by
    rw [← hu]
    positivity
  have hgrid : (10 : ℚ) ^ (-(d.scale : ℤ) - 1) = u / 10 := by
    rw [zpow_sub_one₀ (by norm_num), zpow_neg, zpow_natCast, hu]
    rfl
  have hlimit : (10 : ℚ) ^ (-(d.scale : ℤ) - 1 + 17) = u / 10 * 10 ^ 17 := by
    rw [zpow_add₀ (by norm_num), hgrid]
    rfl
  have hquotient : (d.mantissa.natAbs / 10 ^ d.scale : ℚ) = d.mantissa.natAbs * u := by
    rw [div_eq_mul_inv, hu]
  rw [hquotient] at hnear
  have hlow : u / 10 ≤ d.toDouble.magnitude := by nlinarith
  have hx : 0 < d.toDouble.significand :=
    significand_pos ((by positivity : 0 < u / 10).trans_le hlow)
  have hcovers := hround.covers hx
  have hdigits : (d.mantissa.natAbs / 10 ^ d.scale : ℚ) =
      (10 * d.mantissa.natAbs : ℕ) * 10 ^ (-(d.scale : ℤ) - 1) := by
    rw [hquotient, hgrid]
    push_cast
    ring
  rw [hdigits] at hcovers
  have hexponent := le_exponent_shortest .away hx hcovers (hgrid ▸ hlow) (by
    rw [hlimit]
    nlinarith)
  have hdecimals := decimals_le d.toDouble
  omega

end Decimal

end EntityModel
