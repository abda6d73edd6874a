import EntityModel.Number.Double
import Mathlib.Algebra.Order.Field.Power
import Mathlib.Algebra.Order.Field.Rat
import Mathlib.Tactic.FieldSimp
import Mathlib.Tactic.Lemma
import Mathlib.Tactic.Linarith
import Mathlib.Tactic.NormNum
import Mathlib.Tactic.Positivity
import Mathlib.Tactic.Ring

/-!
# Doubles as rational numbers

Ratios and doubles stand for rational numbers. Rounding a ratio gives a double within half a unit of
its last place, so the ratio lies in the interval of the numbers that round to the double; a ratio
that is a double already is kept.
-/

namespace EntityModel

namespace Double

/-! ### Values -/

namespace Ratio

/-- The rational number that a ratio stands for. -/
def toRat (r : Ratio) : ℚ :=
  r.num / r.den

/-- Powers of whole exponents as ratios of powers. -/
lemma zpow_eq_div (b : ℚ) (q : ℤ) : b ^ q = b ^ q.toNat / b ^ (-q).toNat := by
  rcases Int.le_total 0 q with h | h
  · obtain ⟨n, rfl⟩ := Int.eq_ofNat_of_zero_le h
    simp
  · obtain ⟨n, hn⟩ := Int.eq_ofNat_of_zero_le (Int.neg_nonneg.2 h)
    obtain rfl : q = -n := by omega
    simp

lemma toRat_scale (r : Ratio) (q : ℤ) : (r.scale q).toRat = r.toRat * 2 ^ q := by
  rw [zpow_eq_div 2 q, toRat, toRat, scale, Nat.pow_eq, Nat.pow_eq, div_mul_div_comm]
  push_cast
  rfl

lemma den_scale_pos {r : Ratio} (h : 0 < r.den) (q : ℤ) : 0 < (r.scale q).den :=
  Nat.mul_pos h (Nat.pow_pos (by decide))

end Ratio

/-- The magnitude of a double as a rational number. -/
def magnitude (x : Double) : ℚ :=
  x.significand * 2 ^ x.exponent

lemma toRat_ratio (x : Double) : x.ratio.toRat = x.magnitude := by
  rw [ratio, Ratio.toRat_scale, Ratio.toRat, magnitude, Nat.cast_one, div_one]

lemma den_ratio_pos (x : Double) : 0 < x.ratio.den :=
  Ratio.den_scale_pos Nat.one_pos _

/-! ### Rounding to integers -/

/-- The nearest integer is within a half, and if it is odd within less. -/
lemma roundHalfEven_near {r : Ratio} (h : 0 < r.den) :
    |r.toRat - roundHalfEven r| ≤ 1 / 2 ∧
      (roundHalfEven r % 2 = 1 → |r.toRat - roundHalfEven r| < 1 / 2) := by
  have hden : (0 : ℚ) < r.den := by exact_mod_cast h
  obtain ⟨low, rest, hlow, hrest⟩ :
      ∃ low rest, r.num / r.den = low ∧ r.num % r.den = rest := ⟨_, _, rfl, rfl⟩
  have hvalue : r.toRat = low + rest / r.den := by
    have hnum : (r.num : ℚ) = r.den * low + rest := by
      exact_mod_cast hlow ▸ hrest ▸ (Nat.div_add_mod r.num r.den).symm
    rw [Ratio.toRat, hnum]
    field_simp
  have hnonneg : (0 : ℚ) ≤ rest / r.den := by positivity
  have hlt : (rest : ℚ) / r.den < 1 := by
    rw [div_lt_one hden, ← hrest]
    exact_mod_cast Nat.mod_lt _ h
  have hhalf : (rest : ℚ) / r.den < 1 / 2 ↔ 2 * rest < r.den := by
    rw [div_lt_div_iff₀ hden two_pos, one_mul, mul_comm]
    exact_mod_cast Iff.rfl
  have hhalf' : 1 / 2 < (rest : ℚ) / r.den ↔ r.den < 2 * rest := by
    rw [div_lt_div_iff₀ two_pos hden, one_mul, mul_comm]
    exact_mod_cast Iff.rfl
  have hup : r.toRat - (low + 1 : ℕ) = rest / r.den - 1 := by
    rw [hvalue]
    push_cast
    ring
  have hdown : r.toRat - low = rest / r.den := by
    rw [hvalue]
    ring
  simp only [roundHalfEven, hlow, hrest]
  split_ifs with h₁ h₂ h₃
  · rw [hdown, abs_of_nonneg hnonneg]
    exact ⟨(hhalf.2 h₁).le, fun _ => hhalf.2 h₁⟩
  · rw [hup, abs_of_neg (by linarith)]
    have := hhalf'.2 h₂
    exact ⟨by linarith, fun _ => by linarith⟩
  · rw [hdown, abs_of_nonneg hnonneg]
    exact ⟨not_lt.1 (mt hhalf'.1 h₂), fun hodd => by omega⟩
  · rw [hup, abs_of_neg (by linarith)]
    have := not_lt.1 (mt hhalf.1 h₁)
    exact ⟨by linarith, fun hodd => by omega⟩

/-- Whole numbers less than one apart are the same. -/
lemma eq_of_abs_sub_lt_one {m n : ℕ} (h : |(m : ℚ) - n| < 1) : m = n := by
  obtain ⟨h₁, h₂⟩ := abs_lt.1 h
  have h₁' : (n : ℚ) < m + 1 := by linarith
  have h₂' : (m : ℚ) < n + 1 := by linarith
  have hle : n < m + 1 := by exact_mod_cast h₁'
  have hge : m < n + 1 := by exact_mod_cast h₂'
  omega

/-! ### Exponents -/

section Exponent

variable {r : Ratio}

/-- A ratio lies within a factor of two around the power of two between the lengths of its parts. -/
lemma toRat_near_log2 (hnum : 0 < r.num) (hden : 0 < r.den) :
    (2 : ℚ) ^ ((r.num.log2 : ℤ) - r.den.log2 - 1) < r.toRat ∧
      r.toRat < 2 ^ ((r.num.log2 : ℤ) - r.den.log2 + 1) := by
  have hd : (0 : ℚ) < r.den := by exact_mod_cast hden
  have hnum₁ : (2 : ℚ) ^ r.num.log2 ≤ r.num := by
    exact_mod_cast Nat.log2_self_le hnum.ne'
  have hnum₂ : (r.num : ℚ) < 2 ^ (r.num.log2 + 1) := by exact_mod_cast Nat.lt_log2_self
  have hden₁ : (2 : ℚ) ^ r.den.log2 ≤ r.den := by
    exact_mod_cast Nat.log2_self_le hden.ne'
  have hden₂ : (r.den : ℚ) < 2 ^ (r.den.log2 + 1) := by exact_mod_cast Nat.lt_log2_self
  rw [Ratio.toRat, lt_div_iff₀ hd, div_lt_iff₀ hd]
  constructor
  · calc (2 : ℚ) ^ ((r.num.log2 : ℤ) - r.den.log2 - 1) * r.den
        < 2 ^ ((r.num.log2 : ℤ) - r.den.log2 - 1) * 2 ^ (r.den.log2 + 1) := by gcongr
      _ = 2 ^ r.num.log2 := by
        rw [← zpow_natCast, ← zpow_natCast, ← zpow_add₀ two_ne_zero]
        congr 1
        push_cast
        ring
      _ ≤ r.num := hnum₁
  · calc (r.num : ℚ) < 2 ^ (r.num.log2 + 1) := hnum₂
      _ = 2 ^ ((r.num.log2 : ℤ) - r.den.log2 + 1) * 2 ^ r.den.log2 := by
        rw [← zpow_natCast, ← zpow_natCast, ← zpow_add₀ two_ne_zero]
        congr 1
        push_cast
        ring
      _ ≤ 2 ^ ((r.num.log2 : ℤ) - r.den.log2 + 1) * r.den := by gcongr

/-- The significand at the fitting exponent has at most the full width, and has it above the least
exponent. -/
lemma fittingExponent_spec (hnum : 0 < r.num) (hden : 0 < r.den) :
    r.toRat < 2 ^ (fittingExponent r + 53) ∧
      (minExponent < fittingExponent r → 2 ^ (fittingExponent r + 52) ≤ r.toRat) := by
  obtain ⟨hlow, hhigh⟩ := toRat_near_log2 hnum hden
  obtain ⟨e, he⟩ : ∃ e : ℤ, (r.num.log2 : ℤ) - r.den.log2 - precision = e := ⟨_, rfl⟩
  have hlog : (r.num.log2 : ℤ) - r.den.log2 = e + 53 := by
    rw [← he, precision]
    push_cast
    ring
  rw [hlog] at hlow hhigh
  have hscaled : (r.scale (-e)).num < Nat.pow 2 precision * (r.scale (-e)).den ↔
      r.toRat < 2 ^ (e + 53) := by
    have hd : (0 : ℚ) < (r.scale (-e)).den := by
      exact_mod_cast Ratio.den_scale_pos hden _
    rw [← Nat.cast_lt (α := ℚ), Nat.pow_eq, Nat.cast_mul, ← div_lt_iff₀ hd]
    change (r.scale (-e)).toRat < _ ↔ _
    rw [Ratio.toRat_scale, zpow_neg, ← div_eq_mul_inv, div_lt_iff₀ (by positivity),
      zpow_add₀ two_ne_zero, mul_comm ((2 : ℚ) ^ e), precision]
    norm_cast
  obtain ⟨q, hq⟩ : ∃ q, (if (r.scale (-e)).num < Nat.pow 2 precision * (r.scale (-e)).den
      then e else e + 1) = q := ⟨_, rfl⟩
  have hfit : fittingExponent r = max minExponent q := by
    rw [← hq, ← he]
    rfl
  have hexact : r.toRat < 2 ^ (q + 53) ∧ 2 ^ (q + 52) ≤ r.toRat := by
    rw [← hq]
    split_ifs with h
    · refine ⟨hscaled.1 h, ?_⟩
      rw [show e + 52 = e + 53 - 1 by ring]
      exact hlow.le
    · refine ⟨?_, ?_⟩
      · rw [show e + 1 + 53 = e + 53 + 1 by ring]
        exact hhigh
      · rw [show e + 1 + 52 = e + 53 by ring]
        exact not_lt.1 (mt hscaled.2 h)
  rw [hfit]
  constructor
  · refine hexact.1.trans_le (zpow_le_zpow_right₀ one_le_two ?_)
    exact add_le_add_left (le_max_right _ _) _
  · intro h
    rw [max_eq_right (by omega)]
    exact hexact.2

end Exponent

/-! ### Rounding to doubles -/

/-- A double is what a number rounds to: the multiple `m` of `2 ^ q` next to the number, with the
exponent one higher if the significand would be too wide. -/
structure RoundsTo (v : ℚ) (m : ℕ) (q : ℤ) (x : Double) : Prop where
  least : minExponent ≤ q
  wide : minExponent < q → 2 ^ (q + 52) ≤ v
  fits : v < 2 ^ (q + 53)
  near : |v / 2 ^ q - m| ≤ 1 / 2
  even : m % 2 = 1 → |v / 2 ^ q - m| < 1 / 2
  parts : m < 2 ^ 53 ∧ x.significand = m ∧ x.exponent = q ∨
    m = 2 ^ 53 ∧ x.significand = 2 ^ 52 ∧ x.exponent = q + 1

lemma roundsTo_ofRatio {r : Ratio} (hnum : 0 < r.num) (hden : 0 < r.den) (negative : Bool) :
    ∃ m q, RoundsTo r.toRat m q (ofRatio negative r) := by
  obtain ⟨hfits, hwide⟩ := fittingExponent_spec hnum hden
  obtain ⟨hnear, heven⟩ := roundHalfEven_near (Ratio.den_scale_pos hden (-fittingExponent r))
  have hrec : ofRatio negative r =
      if roundHalfEven (r.scale (-fittingExponent r)) = 2 ^ 53 then
        ⟨negative, 2 ^ 52, fittingExponent r + 1⟩
      else ⟨negative, roundHalfEven (r.scale (-fittingExponent r)), fittingExponent r⟩ := by
    rw [ofRatio, if_neg hnum.ne']
    rfl
  rw [Ratio.toRat_scale, zpow_neg, ← div_eq_mul_inv] at hnear heven
  generalize roundHalfEven (r.scale (-fittingExponent r)) = m at hnear heven hrec
  have hleast : minExponent ≤ fittingExponent r := le_max_left _ _
  generalize fittingExponent r = q at *
  refine ⟨m, q, hleast, hwide, hfits, hnear, heven, ?_⟩
  have hm : m ≤ 2 ^ 53 := by
    have hlt : r.toRat / 2 ^ q < 2 ^ 53 := by
      rw [div_lt_iff₀ (by positivity), ← zpow_natCast, ← zpow_add₀ two_ne_zero, add_comm]
      exact hfits
    have hlt' : (m : ℚ) < 2 ^ 53 + 1 := by linarith [(abs_le.1 hnear).1]
    exact Nat.lt_succ_iff.1 (by exact_mod_cast hlt')
  rw [hrec]
  split_ifs with h
  · exact .inr ⟨h, rfl, rfl⟩
  · exact .inl ⟨lt_of_le_of_ne hm h, rfl, rfl⟩

namespace RoundsTo

variable {v : ℚ} {m : ℕ} {q : ℤ} {x : Double}

lemma with_negative (h : RoundsTo v m q x) (negative : Bool) :
    RoundsTo v m q { x with negative := negative } :=
  ⟨h.least, h.wide, h.fits, h.near, h.even, h.parts⟩

lemma magnitude_eq (h : RoundsTo v m q x) : x.magnitude = m * 2 ^ q := by
  rw [magnitude]
  rcases h.parts with ⟨-, hm, hq⟩ | ⟨rfl, hm, hq⟩
  · rw [hm, hq]
  · rw [hm, hq, zpow_add_one₀ two_ne_zero]
    push_cast
    ring

lemma abs_magnitude_sub_eq (h : RoundsTo v m q x) :
    |x.magnitude - v| = |v / 2 ^ q - m| * 2 ^ q := by
  have hpow : (0 : ℚ) < 2 ^ q := by positivity
  have hsplit : x.magnitude - v = -(v / 2 ^ q - m) * 2 ^ q := by
    rw [h.magnitude_eq]
    field_simp
    ring
  rw [hsplit, abs_mul, abs_neg, abs_of_pos hpow]

lemma abs_magnitude_sub_le (h : RoundsTo v m q x) : |x.magnitude - v| ≤ 2 ^ q / 2 := by
  have hpow : (0 : ℚ) < 2 ^ q := by positivity
  rw [h.abs_magnitude_sub_eq]
  nlinarith [h.near]

lemma abs_magnitude_sub_lt (h : RoundsTo v m q x) (hodd : m % 2 = 1) :
    |x.magnitude - v| < 2 ^ q / 2 := by
  have hpow : (0 : ℚ) < 2 ^ q := by positivity
  rw [h.abs_magnitude_sub_eq]
  nlinarith [h.even hodd]

/-- Normal numbers are rounded with a relative error of at most `2 ^ -53`. -/
lemma abs_magnitude_sub_le_of_normal (h : RoundsTo v m q x) (hv : 2 ^ (-1022 : ℤ) ≤ v) :
    |x.magnitude - v| ≤ v / 2 ^ 53 := by
  refine h.abs_magnitude_sub_le.trans ?_
  have hwide : (2 : ℚ) ^ (q + 52) ≤ v := by
    rcases h.least.lt_or_eq with hlt | heq
    · exact h.wide hlt
    · rw [← heq]
      exact hv
  rw [zpow_add₀ two_ne_zero] at hwide
  rw [div_le_div_iff₀ (by norm_num) (by norm_num)]
  have hpow : ((2 : ℚ) ^ (52 : ℤ)) * 2 = 2 ^ 53 := by norm_num
  nlinarith

/-- A number that is a double already is kept. -/
lemma magnitude_of_eq (h : RoundsTo v m q x) {w : ℕ} {e : ℤ} (hv : v = w * 2 ^ e)
    (hw : w < 2 ^ 53) (he : minExponent ≤ e) : x.magnitude = v := by
  have hqe : q ≤ e := by
    by_contra hlt
    rw [not_le] at hlt
    have hwide := h.wide (he.trans_lt hlt)
    have hlow : v < 2 ^ (q + 52) := by
      calc v = w * 2 ^ e := hv
        _ < 2 ^ 53 * 2 ^ e := by
          gcongr
          exact_mod_cast hw
        _ = 2 ^ (e + 53) := by rw [zpow_add₀ two_ne_zero, mul_comm]; rfl
        _ ≤ 2 ^ (q + 52) := zpow_le_zpow_right₀ one_le_two (by omega)
    exact absurd hwide (not_le.2 hlow)
  -- The number is a multiple of the unit, so no rounding takes place.
  obtain ⟨n, hn⟩ : ∃ n : ℕ, e - q = n := Int.eq_ofNat_of_zero_le (by omega)
  have hmultiple : v / 2 ^ q = (w * 2 ^ n : ℕ) := by
    rw [hv, mul_div_assoc, ← zpow_sub₀ two_ne_zero, hn, zpow_natCast]
    push_cast
    rfl
  have hm : w * 2 ^ n = m := by
    have hnear := h.near
    rw [hmultiple] at hnear
    exact eq_of_abs_sub_lt_one (hnear.trans_lt (by norm_num))
  rw [h.magnitude_eq, ← hm, ← hmultiple, div_mul_cancel₀ _ (by positivity)]

/-- A double that a number rounds to is kept by rounding once more. -/
lemma magnitude_of_magnitude {y : Double} {n : ℕ} {e : ℤ} (hx : RoundsTo v m q x)
    (hy : RoundsTo x.magnitude n e y) : y.magnitude = x.magnitude := by
  have hleast := hx.least
  refine hy.magnitude_of_eq (w := x.significand) (e := x.exponent) rfl ?_ ?_
  · rcases hx.parts with ⟨hm, hsignificand, -⟩ | ⟨-, hsignificand, -⟩
    · omega
    · rw [hsignificand]
      decide
  · rcases hx.parts with ⟨-, -, hexponent⟩ | ⟨-, -, hexponent⟩ <;> omega

end RoundsTo

/-! ### Arithmetic -/

section Arithmetic

variable {x y : Double}

lemma num_ratio_pos (h : 0 < x.magnitude) : 0 < x.ratio.num := by
  rw [← toRat_ratio, Ratio.toRat] at h
  rcases Nat.eq_zero_or_pos x.ratio.num with hzero | hpos
  · rw [hzero, Nat.cast_zero, zero_div] at h
    exact absurd h (lt_irrefl 0)
  · exact hpos

lemma significand_pos (h : 0 < x.magnitude) : 0 < x.significand := by
  rcases Nat.eq_zero_or_pos x.significand with hzero | hpos
  · rw [magnitude, hzero, Nat.cast_zero, zero_mul] at h
    exact absurd h (lt_irrefl 0)
  · exact hpos

lemma roundsTo_div (hx : 0 < x.magnitude) (hy : 0 < y.magnitude) :
    ∃ m q, RoundsTo (x.magnitude / y.magnitude) m q (x.div y) := by
  obtain ⟨m, q, h⟩ := roundsTo_ofRatio
    (r := ⟨x.ratio.num * y.ratio.den, x.ratio.den * y.ratio.num⟩)
    (Nat.mul_pos (num_ratio_pos hx) (den_ratio_pos y))
    (Nat.mul_pos (den_ratio_pos x) (num_ratio_pos hy)) false
  refine ⟨m, q, ?_⟩
  rw [← toRat_ratio x, ← toRat_ratio y, Ratio.toRat, Ratio.toRat, div_div_div_eq]
  simp only [Ratio.toRat, Nat.cast_mul] at h
  exact h

lemma roundsTo_mul (hx : 0 < x.magnitude) (hy : 0 < y.magnitude) :
    ∃ m q, RoundsTo (x.magnitude * y.magnitude) m q (x.mul y) := by
  obtain ⟨m, q, h⟩ := roundsTo_ofRatio
    (r := ⟨x.ratio.num * y.ratio.num, x.ratio.den * y.ratio.den⟩)
    (Nat.mul_pos (num_ratio_pos hx) (num_ratio_pos hy))
    (Nat.mul_pos (den_ratio_pos x) (den_ratio_pos y)) false
  refine ⟨m, q, ?_⟩
  rw [← toRat_ratio x, ← toRat_ratio y, Ratio.toRat, Ratio.toRat, div_mul_div_comm]
  simp only [Ratio.toRat, Nat.cast_mul] at h
  exact h

lemma roundsTo_add (hy : 0 < y.magnitude) :
    ∃ m q, RoundsTo (x.magnitude + y.magnitude) m q (x.add y) := by
  have hnum : 0 < x.ratio.num * y.ratio.den + y.ratio.num * x.ratio.den :=
    Nat.add_pos_right _ (Nat.mul_pos (num_ratio_pos hy) (den_ratio_pos x))
  obtain ⟨m, q, h⟩ := roundsTo_ofRatio
    (r := ⟨x.ratio.num * y.ratio.den + y.ratio.num * x.ratio.den, x.ratio.den * y.ratio.den⟩)
    hnum (Nat.mul_pos (den_ratio_pos x) (den_ratio_pos y)) false
  have hx : (x.ratio.den : ℚ) ≠ 0 := Nat.cast_ne_zero.2 (den_ratio_pos x).ne'
  have hy : (y.ratio.den : ℚ) ≠ 0 := Nat.cast_ne_zero.2 (den_ratio_pos y).ne'
  refine ⟨m, q, ?_⟩
  rw [← toRat_ratio x, ← toRat_ratio y, Ratio.toRat, Ratio.toRat, div_add_div _ _ hx hy,
    mul_comm (x.ratio.den : ℚ) y.ratio.num]
  simp only [Ratio.toRat, Nat.cast_mul, Nat.cast_add] at h
  exact h

lemma magnitude_ofNat {n : ℕ} (hn : n < 2 ^ 53) : (ofNat n).magnitude = n := by
  rcases Nat.eq_zero_or_pos n with rfl | hpos
  · simp [ofNat, ofRatio, zero, magnitude]
  · obtain ⟨m, q, h⟩ := roundsTo_ofRatio (r := ⟨n, 1⟩) hpos Nat.one_pos false
    rw [Ratio.toRat, Nat.cast_one, div_one] at h
    exact h.magnitude_of_eq (e := 0) (by simp) hn (by decide)

/-- A double less than a half away from a whole number is rounded to it. -/
lemma magnitude_round {n : ℕ} (hn : n < 2 ^ 53) (h : |x.magnitude - n| < 1 / 2) :
    x.round.magnitude = n := by
  rw [round]
  split_ifs with hexp
  · obtain ⟨k, hk⟩ := Int.eq_ofNat_of_zero_le hexp
    have hwhole : x.magnitude = (x.significand * 2 ^ k : ℕ) := by
      rw [magnitude, hk, zpow_natCast]
      push_cast
      rfl
    rw [hwhole] at h
    change x.magnitude = n
    rw [hwhole, eq_of_abs_sub_lt_one (h.trans (by norm_num))]
  · have hden : (0 : ℚ) < x.ratio.den := Nat.cast_pos.2 (den_ratio_pos x)
    have hnum : (x.ratio.num : ℚ) = x.magnitude * x.ratio.den := by
      rw [← toRat_ratio, Ratio.toRat, div_mul_cancel₀ _ hden.ne']
    obtain ⟨hlow, hhigh⟩ := abs_lt.1 h
    have hround : roundHalfUp x.ratio = n := by
      rw [roundHalfUp]
      apply Nat.div_eq_of_lt_le
      · have : (n * (2 * x.ratio.den) : ℚ) ≤ 2 * x.ratio.num + x.ratio.den := by
          rw [hnum]
          nlinarith
        exact_mod_cast this
      · have : (2 * x.ratio.num + x.ratio.den : ℚ) < (n + 1) * (2 * x.ratio.den) := by
          rw [hnum]
          nlinarith
        exact_mod_cast this
    rw [hround, magnitude_ofNat hn]

end Arithmetic

end Double

end EntityModel
