import EntityModel.Number.Shortest
import EntityModel.Proofs.Number.Double

/-!
# The shortest decimal of a double

The interval that decimals are tried against holds every number that rounds to the double. So a
decimal of a known number of digits in it bounds the exponent of the shortest one from below, and
the shortest one has at most seventeen digits, without zeros at the end.
-/

namespace EntityModel

namespace Double

/-! ### The rounding interval -/

namespace Rounding

/-- A rational number lies in the interval. -/
def Covers (i : Rounding) (v : ℚ) : Prop :=
  if i.closed then (i.low : ℚ) / i.den ≤ v ∧ v ≤ i.high / i.den
  else (i.low : ℚ) / i.den < v ∧ v < i.high / i.den

variable {i : Rounding} {unit : Ratio}

lemma holds_iff (hden : 0 < i.den) (hunit : 0 < unit.den) (d : ℕ) :
    i.holds d unit ↔ i.Covers (d * unit.toRat) := by
  have hi : (0 : ℚ) < i.den := Nat.cast_pos.2 hden
  have hu : (0 : ℚ) < unit.den := Nat.cast_pos.2 hunit
  rw [holds, Covers, Ratio.toRat, ← mul_div_assoc, div_le_div_iff₀ hi hu, div_le_div_iff₀ hu hi,
    div_lt_div_iff₀ hi hu, div_lt_div_iff₀ hu hi]
  norm_cast
  split_ifs <;> rw [Bool.and_eq_true, decide_eq_true_eq, decide_eq_true_eq]

/-- What lies between two numbers of the interval lies in the interval. -/
lemma Covers.between {u v w : ℚ} (hu : i.Covers u) (hw : i.Covers w) (h₁ : u ≤ v) (h₂ : v ≤ w) :
    i.Covers v := by
  rw [Covers] at *
  split_ifs at *
  · exact ⟨hu.1.trans h₁, h₂.trans hw.2⟩
  · exact ⟨hu.1.trans_le h₁, h₂.trans_lt hw.2⟩

end Rounding

variable {x : Double}

lemma den_rounding_pos (x : Double) : 0 < x.rounding.den :=
  Ratio.den_scale_pos (r := ⟨1, 4⟩) (by decide) x.exponent

/-- The interval is measured in quarters of a unit in the last place. -/
lemma quarter_div_den_rounding (x : Double) :
    ((Ratio.scale ⟨1, 4⟩ x.exponent).num : ℚ) / x.rounding.den = 2 ^ x.exponent / 4 := by
  change (Ratio.scale ⟨1, 4⟩ x.exponent).toRat = _
  rw [Ratio.toRat_scale, Ratio.toRat]
  push_cast
  ring

lemma value_rounding (x : Double) : (x.rounding.value : ℚ) / x.rounding.den = x.magnitude := by
  have hvalue : x.rounding.value = 4 * x.significand * (Ratio.scale ⟨1, 4⟩ x.exponent).num := rfl
  rw [hvalue, Nat.cast_mul, mul_div_assoc, quarter_div_den_rounding, magnitude]
  push_cast
  ring

lemma high_rounding (x : Double) :
    (x.rounding.high : ℚ) / x.rounding.den = x.magnitude + 2 ^ x.exponent / 2 := by
  have hhigh : x.rounding.high =
      (4 * x.significand + 2) * (Ratio.scale ⟨1, 4⟩ x.exponent).num := rfl
  rw [hhigh, Nat.cast_mul, mul_div_assoc, quarter_div_den_rounding, magnitude]
  push_cast
  ring

/-- Below a power of two the interval is half as wide. -/
def IsNarrow (x : Double) : Prop :=
  x.significand = 2 ^ 52 ∧ minExponent < x.exponent

lemma low_rounding (hx : 0 < x.significand) :
    x.IsNarrow ∧ (x.rounding.low : ℚ) / x.rounding.den = x.magnitude - 2 ^ x.exponent / 4 ∨
      ¬ x.IsNarrow ∧ (x.rounding.low : ℚ) / x.rounding.den = x.magnitude - 2 ^ x.exponent / 2 := by
  have hlow : x.rounding.low =
      (4 * x.significand - if x.significand = Nat.pow 2 (precision - 1) ∧ minExponent < x.exponent
        then 1 else 2) * (Ratio.scale ⟨1, 4⟩ x.exponent).num := rfl
  rw [hlow, Nat.cast_mul, mul_div_assoc, quarter_div_den_rounding, magnitude]
  split_ifs with h
  · refine .inl ⟨h, ?_⟩
    rw [Nat.cast_sub (by omega)]
    push_cast
    ring
  · refine .inr ⟨h, ?_⟩
    rw [Nat.cast_sub (by omega)]
    push_cast
    ring

lemma covers_magnitude (hx : 0 < x.significand) : x.rounding.Covers x.magnitude := by
  have hunit : (0 : ℚ) < 2 ^ x.exponent := by positivity
  rw [Rounding.Covers, high_rounding]
  rcases low_rounding hx with ⟨-, hlow⟩ | ⟨-, hlow⟩
  all_goals
    rw [hlow]
    split_ifs <;> constructor <;> linarith

/-- A number lies in the interval of the double that it rounds to. -/
lemma RoundsTo.covers {v : ℚ} {m : ℕ} {q : ℤ} (h : RoundsTo v m q x) (hx : 0 < x.significand) :
    x.rounding.Covers v := by
  have hunit : (0 : ℚ) < 2 ^ q := by positivity
  have hnear := abs_le.1 h.abs_magnitude_sub_le
  rcases h.parts with ⟨-, hm, hq⟩ | ⟨-, hm, hq⟩
  · rw [Rounding.Covers, high_rounding]
    rcases low_rounding hx with ⟨hnarrow, hlow⟩ | ⟨-, hlow⟩
    -- From a power of two on, there is no need to go down at all.
    · have hwide := h.wide (hq ▸ hnarrow.2)
      have hmagnitude : x.magnitude = 2 ^ (q + 52) := by
        rw [magnitude, hnarrow.1, hq, zpow_add₀ two_ne_zero, mul_comm]
        norm_cast
      have hclosed : x.rounding.closed = true := by
        change decide (x.significand % 2 = 0) = true
        rw [hnarrow.1]
        rfl
      rw [if_pos hclosed, hlow, hq]
      constructor <;> linarith
    · rw [hlow, hq]
      split_ifs with hclosed
      · constructor <;> linarith
      · have hodd : m % 2 = 1 := by
          have : ¬ x.significand % 2 = 0 := fun heven => hclosed (decide_eq_true heven)
          omega
        have hstrict := abs_lt.1 (h.abs_magnitude_sub_lt hodd)
        constructor <;> linarith
  · have hdouble : (2 : ℚ) ^ x.exponent = 2 * 2 ^ q := by
      rw [hq, zpow_add_one₀ two_ne_zero, mul_comm]
    have hclosed : x.rounding.closed = true := by
      change decide (x.significand % 2 = 0) = true
      rw [hm]
      rfl
    rw [Rounding.Covers, if_pos hclosed, high_rounding]
    rcases low_rounding hx with ⟨-, hlow⟩ | ⟨-, hlow⟩
    all_goals
      rw [hlow, hdouble]
      constructor <;> linarith

/-! ### Powers of ten -/

lemma toRat_tenTo (k : ℤ) : (tenTo k).toRat = 10 ^ k := by
  rw [Ratio.zpow_eq_div 10 k, Ratio.toRat, tenTo, Nat.pow_eq, Nat.pow_eq]
  push_cast
  rfl

lemma num_tenTo_pos (k : ℤ) : 0 < (tenTo k).num :=
  Nat.pow_pos (by decide)

lemma den_tenTo_pos (k : ℤ) : 0 < (tenTo k).den :=
  Nat.pow_pos (by decide)

/-- A positive number lies between the powers of ten that the count of its digits gives. -/
lemma exists_count_eq {n : ℕ} (hn : 0 < n) :
    ∃ c, Decimals.count n = c + 1 ∧ 10 ^ c ≤ n ∧ n < 10 ^ (c + 1) := by
  obtain ⟨c, hc⟩ := Nat.exists_eq_succ_of_ne_zero (Nat.length_toDigits_pos (b := 10) (n := n)).ne'
  refine ⟨c, hc, not_lt.1 fun hlt => ?_, ?_⟩
  · rcases Nat.eq_zero_or_pos c with rfl | hpos
    · omega
    · have hle := (Nat.length_toDigits_le_iff (by decide) hpos).2 hlt
      omega
  · exact (Nat.length_toDigits_le_iff (by decide) c.succ_pos).1 hc.le

/-- The decimal exponent is the number of digits before the point. -/
lemma decimalExponent_spec {r : Ratio} (hnum : 0 < r.num) (hden : 0 < r.den) :
    10 ^ (decimalExponent r - 1) ≤ r.toRat ∧ r.toRat < 10 ^ decimalExponent r := by
  have hd : (0 : ℚ) < r.den := Nat.cast_pos.2 hden
  rw [decimalExponent, Ratio.toRat, le_div_iff₀ hd, div_lt_iff₀ hd]
  split_ifs with h
  -- At least one: the digits of the whole part are counted.
  · obtain ⟨c, hc, hlow, hhigh⟩ := exists_count_eq (Nat.div_pos h hden)
    rw [Nat.le_div_iff_mul_le hden] at hlow
    rw [Nat.div_lt_iff_lt_mul hden] at hhigh
    rw [hc, Nat.cast_add_one, add_sub_cancel_right]
    norm_cast
  -- Below one: the digits of what the inverse exceeds are counted.
  · have hlt : r.num < r.den := not_le.1 h
    obtain ⟨c, hc, hlow, hhigh⟩ := exists_count_eq (n := (r.den - 1) / r.num)
      (Nat.div_pos (by omega) hnum)
    rw [Nat.le_div_iff_mul_le hnum] at hlow
    rw [Nat.div_lt_iff_lt_mul hnum] at hhigh
    have hlow' : (10 : ℚ) ^ c * r.num < r.den := by
      exact_mod_cast Nat.lt_of_le_of_lt hlow (by omega)
    have hhigh' : (r.den : ℚ) ≤ 10 ^ (c + 1) * r.num := by
      exact_mod_cast (show r.den ≤ 10 ^ (c + 1) * r.num by omega)
    rw [hc, show (1 : ℤ) - (c + 1 : ℕ) = -(c : ℤ) by push_cast; ring,
      show -(c : ℤ) - 1 = -((c + 1 : ℕ) : ℤ) by push_cast; ring, zpow_neg, zpow_neg,
      zpow_natCast, zpow_natCast, inv_mul_le_iff₀ (by positivity), lt_inv_mul_iff₀ (by positivity)]
    exact ⟨hhigh', hlow'⟩

/-! ### Candidates -/

section Candidates

variable {i : Rounding} {tie : Tie} {k : ℤ}

/-- The digits on a grid below the value. -/
def Rounding.below (i : Rounding) (k : ℤ) : ℕ :=
  i.value * (tenTo k).den / (i.den * (tenTo k).num)

lemma below_le (hden : 0 < i.den) (k : ℤ) : i.below k * (10 : ℚ) ^ k ≤ i.value / i.den := by
  have hd : (0 : ℚ) < i.den := Nat.cast_pos.2 hden
  have hu : (0 : ℚ) < (tenTo k).den := Nat.cast_pos.2 (den_tenTo_pos k)
  rw [← toRat_tenTo, Ratio.toRat, ← mul_div_assoc, div_le_div_iff₀ hu hd]
  have h := Nat.div_mul_le_self (i.value * (tenTo k).den) (i.den * (tenTo k).num)
  rw [Nat.mul_comm i.den, ← Nat.mul_assoc] at h
  rw [Rounding.below, Nat.mul_comm i.den]
  exact_mod_cast h

lemma lt_below_add_one (hden : 0 < i.den) (k : ℤ) :
    (i.value : ℚ) / i.den < (i.below k + 1 : ℕ) * 10 ^ k := by
  have hd : (0 : ℚ) < i.den := Nat.cast_pos.2 hden
  have hu : (0 : ℚ) < (tenTo k).den := Nat.cast_pos.2 (den_tenTo_pos k)
  rw [← toRat_tenTo, Ratio.toRat, ← mul_div_assoc, div_lt_div_iff₀ hd hu]
  have h := Nat.lt_mul_of_div_lt (Nat.lt_succ_self (i.below k))
    (Nat.mul_pos hden (num_tenTo_pos k))
  rw [Nat.mul_comm i.den, ← Nat.mul_assoc] at h
  exact_mod_cast h

/-- If a decimal of the grid lies in the interval, one next to the value does. -/
lemma isSome_candidate (hden : 0 < i.den) (hvalue : i.Covers (i.value / i.den)) {j : ℕ}
    (hj : i.Covers (j * 10 ^ k)) : (i.candidate tie k).isSome := by
  have hpow : (0 : ℚ) < 10 ^ k := by positivity
  have hsome : i.holds (i.below k) (tenTo k) ∨ i.holds (i.below k + 1) (tenTo k) := by
    rw [Rounding.holds_iff hden (den_tenTo_pos k), Rounding.holds_iff hden (den_tenTo_pos k),
      toRat_tenTo]
    rcases Nat.lt_or_ge (i.below k) j with hlt | hge
    · refine .inr (hvalue.between hj (lt_below_add_one hden k).le ?_)
      gcongr
      exact hlt
    · refine .inl (hj.between hvalue ?_ (below_le hden k))
      gcongr
  change Option.isSome (if i.holds (i.below k) (tenTo k) && i.holds (i.below k + 1) (tenTo k) then _
    else if i.holds (i.below k) (tenTo k) then _
    else if i.holds (i.below k + 1) (tenTo k) then _ else none)
  rcases hsome with h | h
  · simp only [h, if_true]
    split_ifs <;> rfl
  · simp only [h, if_true]
    split_ifs <;> rfl

/-- What is found is on the grid, next to the value. -/
lemma candidate_spec {s : Scientific} (h : i.candidate tie k = some s) :
    s.exponent = k ∧ s.digits ≤ i.below k + 1 := by
  change (if i.holds (i.below k) (tenTo k) && i.holds (i.below k + 1) (tenTo k) then
      some ⟨if _ then i.below k + 1 else i.below k, k⟩
    else if i.holds (i.below k) (tenTo k) then some ⟨i.below k, k⟩
    else if i.holds (i.below k + 1) (tenTo k) then some ⟨i.below k + 1, k⟩ else none) = some s at h
  split_ifs at h <;> cases h
  all_goals exact ⟨rfl, by simp⟩

end Candidates

/-! ### Trailing zeros -/

section Trim

lemma exponent_le_trim (fuel : ℕ) (s : Scientific) : s.exponent ≤ (trim fuel s).exponent := by
  induction fuel generalizing s with
  | zero => exact le_rfl
  | succ fuel ih =>
    rw [trim]
    split_ifs with h
    · exact (Int.le_add_one le_rfl).trans (ih ⟨s.digits / 10, s.exponent + 1⟩)
    · exact le_rfl

lemma digits_trim_le (fuel : ℕ) (s : Scientific) : (trim fuel s).digits ≤ s.digits := by
  induction fuel generalizing s with
  | zero => exact le_rfl
  | succ fuel ih =>
    rw [trim]
    split_ifs with h
    · exact (ih ⟨s.digits / 10, s.exponent + 1⟩).trans (Nat.div_le_self _ _)
    · exact le_rfl

/-- With fuel for all digits no zero is left at the end. -/
lemma last_digit_trim (fuel : ℕ) {s : Scientific} (h : s.digits < 10 ^ fuel)
    (hne : (trim fuel s).digits ≠ 0) : (trim fuel s).digits % 10 ≠ 0 := by
  induction fuel generalizing s with
  | zero =>
    rw [trim] at hne
    omega
  | succ fuel ih =>
    rw [trim] at hne ⊢
    split_ifs at hne ⊢ with hzero
    · refine ih ?_ hne
      rw [Nat.pow_succ] at h
      exact Nat.div_lt_of_lt_mul (by omega)
    · exact fun hlast => hzero ⟨hne, hlast⟩

end Trim

/-! ### The shortest decimal -/

variable {tie : Tie}

lemma magnitude_lt_decimalExponent (hx : 0 < x.significand) :
    10 ^ (decimalExponent ⟨x.rounding.value, x.rounding.den⟩ - 1) ≤ x.magnitude ∧
      x.magnitude < 10 ^ decimalExponent ⟨x.rounding.value, x.rounding.den⟩ := by
  have hvalue : 0 < x.rounding.value :=
    Nat.mul_pos (by omega) (Nat.mul_pos Nat.one_pos (Nat.pow_pos (by decide)))
  have hspec := decimalExponent_spec (r := ⟨x.rounding.value, x.rounding.den⟩) hvalue
    (den_rounding_pos x)
  rw [Ratio.toRat, value_rounding] at hspec
  exact hspec

/-- The grids from the one of a single digit down. -/
def tries (tie : Tie) (x : Double) : Option Scientific :=
  (List.range 17).findSome? fun (n : ℕ) =>
    x.rounding.candidate tie (decimalExponent ⟨x.rounding.value, x.rounding.den⟩ - 1 - (n : ℤ))

lemma shortest_eq (hx : 0 < x.significand) :
    x.shortest tie = trim 20 ((x.tries tie).getD ⟨0, 0⟩) := by
  rw [shortest, if_neg hx.ne']
  rfl

lemma digits_tries_le (hx : 0 < x.significand) {s : Scientific} (h : x.tries tie = some s) :
    s.digits ≤ 10 ^ 17 := by
  obtain ⟨-, hhigh⟩ := magnitude_lt_decimalExponent hx
  obtain ⟨n, hn, hs⟩ := List.exists_of_findSome?_eq_some h
  have hn : n < 17 := List.mem_range.1 hn
  generalize decimalExponent ⟨x.rounding.value, x.rounding.den⟩ = p at hhigh hs
  obtain ⟨-, hdigits⟩ := candidate_spec hs
  have hbelow := below_le (den_rounding_pos x) (p - 1 - n)
  rw [value_rounding] at hbelow
  have hlt : (x.rounding.below (p - 1 - n) : ℚ) < 10 ^ (n + 1) := by
    have hpow : (0 : ℚ) < 10 ^ (p - 1 - n) := by positivity
    refine lt_of_mul_lt_mul_right ((hbelow.trans_lt hhigh).trans_eq ?_) hpow.le
    rw [← zpow_natCast, ← zpow_add₀ (by norm_num)]
    congr 1
    push_cast
    ring
  have hlt' : x.rounding.below (p - 1 - n) < 10 ^ (n + 1) := by exact_mod_cast hlt
  calc s.digits ≤ x.rounding.below (p - 1 - n) + 1 := hdigits
    _ ≤ 10 ^ (n + 1) := hlt'
    _ ≤ 10 ^ 17 := Nat.pow_le_pow_right (by decide) (by omega)

/-- At most seventeen digits are written. -/
theorem digits_shortest_lt (tie : Tie) (x : Double) : (x.shortest tie).digits < 10 ^ 17 := by
  rcases Nat.eq_zero_or_pos x.significand with hzero | hx
  · rw [shortest, if_pos hzero]
    decide
  have hle : ((x.tries tie).getD ⟨0, 0⟩).digits ≤ 10 ^ 17 := by
    cases htries : x.tries tie with
    | none => exact Nat.zero_le _
    | some s => exact digits_tries_le hx htries
  rw [shortest_eq hx]
  have hlast := last_digit_trim 20 (hle.trans_lt (by decide))
  have htrim := (digits_trim_le 20 _).trans hle
  omega

/-- A decimal that rounds to the double bounds the exponent of the shortest one. -/
theorem le_exponent_shortest (tie : Tie) {j : ℕ} {k : ℤ} (hx : 0 < x.significand)
    (hj : x.rounding.Covers (j * 10 ^ k)) (hlow : 10 ^ k ≤ x.magnitude)
    (hhigh : x.magnitude < 10 ^ (k + 17)) : k ≤ (x.shortest tie).exponent := by
  obtain ⟨hlow', hhigh'⟩ := magnitude_lt_decimalExponent hx
  have hfound : ∀ n : ℕ, (decimalExponent ⟨x.rounding.value, x.rounding.den⟩ - 1 - (n : ℤ)) = k →
      (x.rounding.candidate tie
        (decimalExponent ⟨x.rounding.value, x.rounding.den⟩ - 1 - (n : ℤ))).isSome := by
    intro n hn
    rw [hn]
    refine isSome_candidate (den_rounding_pos x) ?_ hj
    rw [value_rounding]
    exact covers_magnitude hx
  obtain ⟨s, hs, hexp⟩ : ∃ s, x.tries tie = some s ∧ k ≤ s.exponent := by
    rw [tries]
    generalize decimalExponent ⟨x.rounding.value, x.rounding.den⟩ = p at hlow' hhigh' hfound
    have hkp : k < p := (zpow_lt_zpow_iff_right₀ (by norm_num)).1 (hlow.trans_lt hhigh')
    have hpk : p - 1 < k + 17 := (zpow_lt_zpow_iff_right₀ (by norm_num)).1 (hlow'.trans_lt hhigh)
    obtain ⟨n, hn⟩ := Int.eq_ofNat_of_zero_le (show 0 ≤ p - 1 - k by omega)
    have hmem : n ∈ List.range 17 := List.mem_range.2 (by omega)
    obtain ⟨s, hs⟩ := Option.isSome_iff_exists.1 <| List.findSome?_isSome_iff
      (f := fun (n : ℕ) => x.rounding.candidate tie (p - 1 - (n : ℤ))).2
        ⟨n, hmem, hfound n (by omega)⟩
    refine ⟨s, hs, ?_⟩
    -- The first grid on which a decimal is found is not below the one it is known to be on.
    obtain ⟨front, first, rest, hsplit, hfirst, hnone⟩ := List.findSome?_eq_some_iff.1 hs
    have hle : first ≤ n := by
      rw [hsplit] at hmem
      have hsorted := List.pairwise_lt_range (n := 17)
      rw [hsplit] at hsorted
      rcases List.mem_append.1 hmem with hfront | htail
      · have hsome := hfound n (by omega)
        rw [hnone n hfront] at hsome
        cases hsome
      · rcases List.mem_cons.1 htail with rfl | hrest
        · exact le_rfl
        · exact (List.rel_of_pairwise_cons (List.pairwise_append.1 hsorted).2.1 hrest).le
    rw [(candidate_spec hfirst).1]
    omega
  rw [shortest_eq hx, hs]
  exact hexp.trans (exponent_le_trim 20 s)

end Double

end EntityModel
