import EntityModel.Proofs.Log
import EntityModel.Proofs.Number.Decimal
import Mathlib.Algebra.Order.Field.Rat
import Mathlib.Data.List.TakeWhile
import Mathlib.Tactic.FieldSimp
import Mathlib.Tactic.Positivity
import Mathlib.Tactic.Ring

/-!
# What texts of decimals denote

A text in plain notation denotes its digits as one number, divided by ten for every digit behind the
point; the scientific form multiplies that of its base by a power of ten. The exact reader gives the
number that is denoted. The rounding one gives it if and only if some decimal is that number, as
long as no separators put off the rounding. The invariant is on the number of the digits read so
far together with those to come, which no step of the reader changes.
-/

namespace EntityModel

/-! ### Notation -/

namespace Numeral

/-- The digits of a text as one number. -/
def coefficient (text : List Char) : ℕ :=
  Decimals.value (text.filter Char.isDigit)

/-- How many digits of a text are behind its point. -/
def places (text : List Char) : ℕ :=
  ((text.dropWhile (· ≠ '.')).filter Char.isDigit).length

/-- The number that a text in plain notation denotes. -/
def plain (text : List Char) : ℚ :=
  let magnitude : ℚ := coefficient text / 10 ^ places text
  if text.head? = some '-' then -magnitude else magnitude

/-- The characters between base and exponent. -/
def isMark (c : Char) : Bool :=
  c = 'e' || c = 'E'

lemma isMark_of_isDigit {c : Char} (h : c.isDigit) : isMark c = false := by
  rw [isMark, Bool.or_eq_false_iff, decide_eq_false_iff_not, decide_eq_false_iff_not]
  constructor
  · rintro rfl
    exact absurd h (by decide)
  · rintro rfl
    exact absurd h (by decide)

/-- What a text has before its exponent. -/
def base (text : List Char) : List Char :=
  text.takeWhile fun c => !isMark c

/-- The exponent of a text, zero if there is none. -/
def exponent (text : List Char) : ℤ :=
  match (text.dropWhile fun c => !isMark c).tail with
  | '-' :: ds => -(coefficient ds : ℤ)
  | ds => coefficient ds

/-- The number that a text denotes, in plain notation or in the scientific form. -/
def value (text : List Char) : ℚ :=
  plain (base text) * 10 ^ exponent text

/-- A text without its sign. -/
def unsigned : List Char → List Char
  | '-' :: cs => cs
  | '+' :: cs => cs
  | cs => cs

variable {text : List Char}

lemma coefficient_unsigned (text : List Char) : coefficient (unsigned text) = coefficient text := by
  rw [unsigned.eq_def]
  split <;> rfl

lemma places_unsigned (text : List Char) : places (unsigned text) = places text := by
  rw [unsigned.eq_def]
  split <;> rfl

lemma mem_of_mem_unsigned {c : Char} (h : c ∈ unsigned text) : c ∈ text := by
  rw [unsigned.eq_def] at h
  split at h
  · exact List.mem_cons_of_mem _ h
  · exact List.mem_cons_of_mem _ h
  · exact h

lemma mem_unsigned_or {c : Char} (h : c ∈ text) : c ∈ unsigned text ∨ c = '-' ∨ c = '+' := by
  rw [unsigned.eq_def]
  split
  · exact (List.mem_cons.1 h).symm.imp_right .inl
  · exact (List.mem_cons.1 h).symm.imp_right .inr
  · exact .inl h

/-- A text without a mark is its own base. -/
lemma base_of_plain (h : ∀ c ∈ text, isMark c = false) : base text = text ∧ exponent text = 0 := by
  have hall : ∀ c ∈ text, (!isMark c) = true := fun c hc => by rw [h c hc]; rfl
  rw [base, exponent, List.takeWhile_eq_self_iff.2 hall, List.dropWhile_eq_nil_iff.2 hall]
  exact ⟨rfl, rfl⟩

/-- A natural number is read as what its digits denote. -/
lemma coefficient_of_readNatural {bits n : ℕ} (h : readNatural bits text = .ok n) :
    coefficient text = n := by
  have hdigits {ds : List Char} (h : readMagnitude (Nat.pow 2 bits - 1) .tooLarge ds = .ok n) :
      coefficient ds = n := by
    obtain ⟨-, hds, hvalue, -⟩ := readMagnitude_eq_ok_iff.1 h
    rw [coefficient, List.filter_eq_self.2 hds, hvalue]
  rw [readNatural.eq_def] at h
  split at h
  · cases h
  · have hplus := hdigits h
    exact hplus
  · exact hdigits h

end Numeral

namespace Decimal

/-- The number that a decimal is. -/
def toRat (d : Decimal) : ℚ :=
  d.mantissa / 10 ^ d.scale

/-- A number that some decimal is. -/
def Fits (q : ℚ) : Prop :=
  ∃ d : Decimal, d.toRat = q

/-! ### Numbers that fit -/

lemma fits_neg {q : ℚ} (h : Fits q) : Fits (-q) := by
  obtain ⟨d, rfl⟩ := h
  refine ⟨⟨-d.mantissa, d.scale, ?_, d.scale_le⟩, ?_⟩
  · rw [Int.natAbs_neg]
    exact d.mantissa_lt
  · rw [toRat, toRat, Int.cast_neg, neg_div]

lemma fits_neg_iff {q : ℚ} : Fits (-q) ↔ Fits q :=
  ⟨fun h => neg_neg q ▸ fits_neg h, fits_neg⟩

lemma exists_of_fits {n p : ℕ} (h : Fits (n / 10 ^ p)) :
    ∃ m < mantissaLimit, ∃ k ≤ maxScale, m * 10 ^ p = n * 10 ^ k := by
  obtain ⟨d, hd⟩ := h
  refine ⟨d.mantissa.natAbs, d.mantissa_lt, d.scale, d.scale_le, ?_⟩
  rw [toRat, div_eq_div_iff (by positivity) (by positivity)] at hd
  have hcast : d.mantissa * 10 ^ p = n * 10 ^ d.scale := by exact_mod_cast hd
  have habs := congrArg Int.natAbs hcast
  simpa [Int.natAbs_mul, Int.natAbs_pow] using habs

/-- Digits behind those that there is room for have to be zero, for want of a scale or of a
mantissa. -/
lemma not_fits_of_tail {m v t scale : ℕ} (hv : 0 < v) (hvt : v < 10 ^ t)
    (hfull : scale = maxScale ∨ mantissaLimit * 10 ^ t ≤ (m * 10 ^ t + v) * 10) :
    ¬ Fits ((m * 10 ^ t + v : ℕ) / 10 ^ (scale + t)) := by
  intro h
  obtain ⟨n, hn, k, hk, heq⟩ := exists_of_fits h
  by_cases hks : k ≤ scale
  · have hdvd : 10 ^ t ∣ m * 10 ^ t + v := by
      refine ⟨n * 10 ^ (scale - k), ?_⟩
      refine Nat.eq_of_mul_eq_mul_right (Nat.pow_pos (n := k) (show 0 < 10 by decide)) ?_
      rw [← heq, show scale + t = t + (scale - k) + k by omega, Nat.pow_add, Nat.pow_add]
      ring
    have hdvd' : 10 ^ t ∣ v := (Nat.dvd_add_right (Nat.dvd_mul_left _ m)).1 hdvd
    exact Nat.not_lt_of_le (Nat.le_of_dvd hv hdvd') hvt
  · have hlarge := hfull.resolve_left (by omega)
    have hlt : n * 10 ^ (scale + t) < mantissaLimit * 10 ^ (scale + t) :=
      Nat.mul_lt_mul_of_pos_right hn (Nat.pow_pos (by decide))
    have hle : mantissaLimit * 10 ^ (scale + t) * 10 ≤ n * 10 ^ (scale + t) * 10 := by
      calc mantissaLimit * 10 ^ (scale + t) * 10
          = mantissaLimit * 10 ^ t * 10 ^ (scale + 1) := by ring
        _ ≤ (m * 10 ^ t + v) * 10 * 10 ^ (scale + 1) := Nat.mul_le_mul_right _ hlarge
        _ ≤ (m * 10 ^ t + v) * 10 * 10 ^ k :=
          Nat.mul_le_mul_left _ (Nat.pow_le_pow_right (by decide) (by omega))
        _ = n * 10 ^ (scale + t) * 10 := by rw [heq]; ring
    omega

/-! ### The digits read and those to come -/

namespace Scan

/-- The number of the digits read so far together with those to come. -/
def total (s : Scan) (cs : List Char) : ℕ :=
  Nat.ofDigitChars 10 (cs.filter Char.isDigit) s.mantissa

/-- How many of the digits read so far and of those to come are behind the point. -/
def places (s : Scan) (cs : List Char) : ℕ :=
  s.scale + if s.point then (cs.filter Char.isDigit).length else Numeral.places cs

/-- The number that a text denotes of which some is read. -/
def value (s : Scan) (cs : List Char) : ℚ :=
  s.total cs / 10 ^ s.places cs

/-- The state after another digit. -/
def push (s : Scan) (c : Char) : Scan :=
  { s with mantissa := 10 * s.mantissa + (c.toNat - '0'.toNat)
           scale := s.scale + s.point.toNat, digit := true, deferred := false }

/-- What holds while no digit has been refused. -/
structure Sound (s : Scan) : Prop where
  deferred : s.deferred = false
  mantissa_lt : s.mantissa < mantissaLimit
  scale_le : s.scale ≤ maxScale
  whole : s.point = false → s.scale = 0

lemma sound_start : ({} : Scan).Sound :=
  ⟨rfl, by decide, by decide, fun _ => rfl⟩

variable {s : Scan} {c : Char} {cs : List Char}

lemma Sound.push (h : s.Sound) (hscale : s.scale < maxScale)
    (hfits : 10 * s.mantissa + (c.toNat - '0'.toNat) < mantissaLimit) : (s.push c).Sound := by
  refine ⟨rfl, hfits, ?_, ?_⟩
  · have := s.point.toNat_le
    show s.scale + s.point.toNat ≤ maxScale
    omega
  · intro hpoint
    have hpoint : s.point = false := hpoint
    show s.scale + s.point.toNat = 0
    rw [h.whole hpoint, hpoint]
    rfl

lemma Sound.point (h : s.Sound) : ({ s with point := true } : Scan).Sound :=
  ⟨h.deferred, h.mantissa_lt, h.scale_le, fun hpoint => nomatch hpoint⟩

lemma value_nil (s : Scan) : s.value [] = s.mantissa / 10 ^ s.scale := by
  rw [value, total, places]
  cases s.point <;> simp [Numeral.places]

lemma value_start (cs : List Char) :
    ({} : Scan).value cs = Numeral.coefficient cs / 10 ^ Numeral.places cs := by
  rw [value, total, places, Numeral.coefficient, Decimals.value]
  simp

lemma value_digit (hc : c.isDigit) : s.value (c :: cs) = (s.push c).value cs := by
  have hpoint : c ≠ '.' := by
    rintro rfl
    exact absurd hc (by decide)
  have htotal : s.total (c :: cs) = (s.push c).total cs := by
    rw [total, List.filter_cons_of_pos hc, Nat.ofDigitChars_cons]
    rfl
  have hplaces : s.places (c :: cs) = (s.push c).places cs := by
    rw [places, places, push]
    cases s.point with
    | true =>
      simp [hc]
      omega
    | false => simp [Numeral.places, hpoint]
  rw [value, value, htotal, hplaces]

lemma value_point (hpoint : s.point = false) :
    s.value ('.' :: cs) = ({ s with point := true } : Scan).value cs := by
  have hdigit : ¬ Char.isDigit '.' := by decide
  rw [value, value, total, total, places, places, hpoint, List.filter_cons_of_neg hdigit]
  simp [Numeral.places, hdigit]

lemma value_separator : s.value ('_' :: cs) = s.value cs := by
  have hdigit : ¬ Char.isDigit '_' := by decide
  rw [value, value, total, total, places, places, List.filter_cons_of_neg hdigit]
  simp [Numeral.places]

/-- Behind the point, the digits to come are a tail of the number. -/
lemma value_of_point (hpoint : s.point = true) (cs : List Char) :
    s.value cs = (s.mantissa * 10 ^ (cs.filter Char.isDigit).length +
      Numeral.coefficient cs : ℕ) / 10 ^ (s.scale + (cs.filter Char.isDigit).length) := by
  rw [value, total, places, Numeral.coefficient, Decimals.value, if_pos hpoint,
    Nat.ofDigitChars_eq_ofDigitChars_zero, Nat.mul_comm]

end Scan

/-! ### Digits that are dropped -/

lemma digit_lt {c : Char} (hc : c.isDigit) : c.toNat - '0'.toNat < 10 := by
  have h := Char.isDigit_iff_toNat.1 hc
  have hzero : '0'.toNat = 48 := rfl
  have hnine : '9'.toNat = 57 := rfl
  omega

lemma ofDigitChars_lt {ds : List Char} (hds : ∀ c ∈ ds, c.isDigit) (n : ℕ) :
    Nat.ofDigitChars 10 ds n < (n + 1) * 10 ^ ds.length := by
  induction ds generalizing n with
  | nil => simp
  | cons d ds ih =>
    obtain ⟨hd, hds⟩ := List.forall_mem_cons.1 hds
    have hdigit := digit_lt hd
    rw [Nat.ofDigitChars_cons, List.length_cons, Nat.pow_succ', ← Nat.mul_assoc]
    refine Nat.lt_of_lt_of_le (ih hds _) (Nat.mul_le_mul_right _ ?_)
    omega

lemma coefficient_lt (cs : List Char) :
    Numeral.coefficient cs < 10 ^ (cs.filter Char.isDigit).length := by
  have hdigits : ∀ c ∈ cs.filter Char.isDigit, c.isDigit := fun c hc => (List.mem_filter.1 hc).2
  have h := ofDigitChars_lt hdigits 0
  rwa [Nat.zero_add, Nat.one_mul] at h

section Refused

variable {s : Scan} {c : Char} {cs : List Char} {n k : ℕ}

/-- A digit from which on numbers are rounded up is not zero. -/
lemma coefficient_pos (hc : c.isDigit) (hfive : '5' ≤ c) : 0 < Numeral.coefficient (c :: cs) := by
  have hdigit : 0 < c.toNat - '0'.toNat := by
    have h : '5'.toNat ≤ c.toNat := hfive
    have hzero : '0'.toNat = 48 := rfl
    have hfive : '5'.toNat = 53 := rfl
    omega
  rw [Numeral.coefficient, Decimals.value, List.filter_cons_of_pos hc, Nat.ofDigitChars_cons]
  exact Nat.lt_of_lt_of_le (by omega) (le_ofDigitChars _ _)

/-- A digit that the mantissa has no room for makes the number too long. -/
lemma mantissaLimit_le_of_digit (hc : c.isDigit)
    (hlimit : mantissaLimit ≤ 10 * s.mantissa + (c.toNat - '0'.toNat)) :
    mantissaLimit * 10 ^ ((c :: cs).filter Char.isDigit).length ≤
      (s.mantissa * 10 ^ ((c :: cs).filter Char.isDigit).length +
        Numeral.coefficient (c :: cs)) * 10 := by
  have htotal : s.mantissa * 10 ^ ((c :: cs).filter Char.isDigit).length +
      Numeral.coefficient (c :: cs) =
      Nat.ofDigitChars 10 (cs.filter Char.isDigit) (10 * s.mantissa + (c.toNat - '0'.toNat)) := by
    rw [Numeral.coefficient, Decimals.value, Nat.mul_comm, ← Nat.ofDigitChars_eq_ofDigitChars_zero,
      List.filter_cons_of_pos hc, Nat.ofDigitChars_cons]
  rw [htotal, List.filter_cons_of_pos hc, List.length_cons, Nat.pow_succ, ← Nat.mul_assoc]
  refine Nat.mul_le_mul_right _ (Nat.le_trans ?_ (mul_pow_le_ofDigitChars _ _))
  exact Nat.mul_le_mul_right _ hlimit

/-- Rounding takes no more places, and it changes nothing unless it rounds up. -/
lemma round_eq_ok (hmantissa : s.mantissa < mantissaLimit) (h : s.round c cs = .ok (n, k)) :
    k ≤ s.scale ∧ ((c.isDigit && '5' ≤ c) = false → n = s.mantissa ∧ k = s.scale) := by
  rw [Scan.round] at h
  split at h
  · cases h
  · split at h
    · cases h
    · cases hup : (c.isDigit && decide ('5' ≤ c)) with
      | false =>
        simp only [hup, Bool.false_eq_true, if_false, if_pos hmantissa] at h
        cases h
        exact ⟨Nat.le_refl _, fun _ => ⟨rfl, rfl⟩⟩
      | true =>
        simp only [hup, if_true] at h
        constructor
        · split_ifs at h
          · cases h
            exact Nat.le_refl _
          · cases h
            exact Nat.sub_le _ _
        · intro hdown
          cases hdown

/-- What is rounded keeps its number, if only zeros are dropped, or there is no decimal that is the
number. -/
lemma round_sound (hs : s.Sound) (hpoint : s.point = true)
    (hfull : s.scale = maxScale ∨
      c.isDigit ∧ mantissaLimit ≤ 10 * s.mantissa + (c.toNat - '0'.toNat))
    (h : s.round c cs = .ok (n, k)) :
    k ≤ maxScale ∧ ((n : ℚ) / 10 ^ k = s.value (c :: cs) ∨ ¬ Fits (s.value (c :: cs))) := by
  obtain ⟨hk, hkept⟩ := round_eq_ok hs.mantissa_lt h
  refine ⟨Nat.le_trans hk hs.scale_le, ?_⟩
  rw [Scan.value_of_point hpoint]
  rcases Nat.eq_zero_or_pos (Numeral.coefficient (c :: cs)) with hzero | hpos
  · have hdown : (c.isDigit && '5' ≤ c) = false := by
      rw [Bool.eq_false_iff, ne_eq, Bool.and_eq_true, decide_eq_true_eq]
      rintro ⟨hc, hfive⟩
      exact Nat.ne_of_gt (coefficient_pos hc hfive) hzero
    obtain ⟨rfl, rfl⟩ := hkept hdown
    left
    rw [hzero, Nat.add_zero, Nat.cast_mul, Nat.cast_pow, Nat.cast_ofNat, pow_add]
    field_simp
  · right
    refine not_fits_of_tail hpos (coefficient_lt _) ?_
    exact hfull.imp_right fun h => mantissaLimit_le_of_digit h.1 h.2

end Refused

/-! ### What is read -/

section Reading

variable {mode : Mode} {s : Scan} {cs : List Char} {n k : ℕ}

/-- Digits that are taken do not change the number that is denoted, so the reader ends with it,
unless it rounds and there is no decimal that is the number. -/
lemma scan_sound (hs : s.Sound) (hsep : mode = .rounded → '_' ∉ cs)
    (h : scan mode s cs = .ok (n, k)) :
    k ≤ maxScale ∧
      ((n : ℚ) / 10 ^ k = s.value cs ∨ mode = .rounded ∧ ¬ Fits (s.value cs)) := by
  induction cs generalizing s with
  | nil =>
    rw [scan.eq_1] at h
    split_ifs at h
    cases h
    exact ⟨hs.scale_le, .inl (Scan.value_nil s).symm⟩
  | cons c cs ih =>
    have hrest : mode = .rounded → '_' ∉ cs := fun hm hmem => hsep hm (List.mem_cons_of_mem c hmem)
    -- what there is no room for is an error, or it is rounded
    have refused (hpoint : s.point = true) (hfull : s.scale = maxScale ∨
        c.isDigit ∧ mantissaLimit ≤ 10 * s.mantissa + (c.toNat - '0'.toNat))
        (h : s.refuse mode c cs = .ok (n, k)) :
        k ≤ maxScale ∧ ((n : ℚ) / 10 ^ k = s.value (c :: cs) ∨
          mode = .rounded ∧ ¬ Fits (s.value (c :: cs))) := by
      cases mode with
      | exact => cases h
      | rounded =>
        obtain ⟨hk, hvalue⟩ := round_sound hs hpoint hfull h
        exact ⟨hk, hvalue.imp_right fun hfits => ⟨rfl, hfits⟩⟩
    rcases Nat.lt_or_eq_of_le hs.scale_le with hscale | hscale
    · rw [scan_cons hscale] at h
      split_ifs at h with hc hfits hpoint hdot hunder
      · rw [Scan.value_digit hc]
        exact ih (hs.push hscale hfits) hrest h
      · exact refused hpoint (.inr ⟨hc, Nat.le_of_not_lt hfits⟩) h
      · rw [Bool.and_eq_true, decide_eq_true_eq, Bool.not_eq_true'] at hdot
        obtain ⟨rfl, hpoint⟩ := hdot
        rw [Scan.value_point hpoint]
        exact ih hs.point hrest h
      · rw [Bool.and_eq_true, decide_eq_true_eq] at hunder
        obtain ⟨rfl, -⟩ := hunder
        rw [Scan.value_separator]
        exact ih hs hrest h
    · have hpoint : s.point = true := by
        by_contra hpoint
        rw [hs.whole (by simpa using hpoint)] at hscale
        cases hscale
      have hc : mode = .rounded → c ≠ '_' := by
        rintro hm rfl
        exact hsep hm List.mem_cons_self
      rw [scan_of_full hs.deferred (Nat.le_of_eq hscale.symm) hc] at h
      exact refused hpoint (.inl hscale) h

/-- The exact reader stops where the rounding one would begin to round, so up to there the two do
the same. -/
lemma scan_exact {parts : ℕ × ℕ} (hs : s.Sound) (h : scan .exact s cs = .ok parts) :
    scan .rounded s cs = .ok parts ∧ ∀ c ∈ cs, Numeral.isMark c = false := by
  induction cs generalizing s with
  | nil => exact ⟨h, fun c hc => nomatch hc⟩
  | cons c cs ih =>
    rw [List.forall_mem_cons]
    rcases Nat.lt_or_eq_of_le hs.scale_le with hscale | hscale
    · rw [scan_cons hscale] at h ⊢
      split_ifs at h ⊢ with hc hfits hpoint hdot hunder
      · obtain ⟨hscan, hmarks⟩ := ih (hs.push hscale hfits) h
        exact ⟨hscan, Numeral.isMark_of_isDigit hc, hmarks⟩
      · cases h
      · rw [Bool.and_eq_true, decide_eq_true_eq] at hdot
        obtain ⟨hscan, hmarks⟩ := ih hs.point h
        exact ⟨hscan, hdot.1 ▸ by decide, hmarks⟩
      · rw [Bool.and_eq_true, decide_eq_true_eq] at hunder
        obtain ⟨hscan, hmarks⟩ := ih hs h
        exact ⟨hscan, hunder.1 ▸ by decide, hmarks⟩
    · have hrefused : scan .exact s (c :: cs) = _ :=
        scan_of_full hs.deferred (Nat.le_of_eq hscale.symm) fun hm => nomatch hm
      rw [hrefused] at h
      cases h

/-! ### Signs -/

lemma ofText_eq (hne : cs ≠ []) : ofText mode cs =
    (scan mode {} (Numeral.unsigned cs)).bind (ofScan (cs.head? = some '-')) := by
  obtain ⟨c, cs, rfl⟩ := List.exists_cons_of_ne_nil hne
  by_cases hminus : c = '-'
  · subst hminus
    rfl
  · by_cases hplus : c = '+'
    · subst hplus
      rfl
    · simp [ofText, Numeral.unsigned, hminus, hplus]

lemma toRat_of_ofScan {negative : Bool} {d : Decimal} (hk : k ≤ maxScale)
    (h : ofScan negative (n, k) = .ok d) :
    d.toRat = if negative then -((n : ℚ) / 10 ^ k) else n / 10 ^ k := by
  obtain ⟨hmantissa, hscale⟩ := parts_of_ofScan h hk
  rw [toRat, hmantissa, hscale]
  cases negative with
  | true => simp [neg_div]
  | false => simp

lemma plain_eq (cs : List Char) : Numeral.plain cs =
    if cs.head? = some '-' then -({} : Scan).value (Numeral.unsigned cs)
    else ({} : Scan).value (Numeral.unsigned cs) := by
  rw [Numeral.plain, Scan.value_start, Numeral.coefficient_unsigned, Numeral.places_unsigned]

/-- A reader gives the number that a text in plain notation denotes, unless it rounds and there is
no decimal that is the number. -/
lemma ofText_sound {d : Decimal} (hsep : mode = .rounded → '_' ∉ cs)
    (h : ofText mode cs = .ok d) :
    d.toRat = Numeral.plain cs ∨ mode = .rounded ∧ ¬ Fits (Numeral.plain cs) := by
  have hne : cs ≠ [] := by
    rintro rfl
    cases h
  rw [ofText_eq hne] at h
  obtain ⟨⟨n, k⟩, hscan, hsign⟩ := bind_eq_ok_iff.1 h
  have hbody : mode = .rounded → '_' ∉ Numeral.unsigned cs :=
    fun hm hmem => hsep hm (Numeral.mem_of_mem_unsigned hmem)
  obtain ⟨hk, hvalue⟩ := scan_sound Scan.sound_start hbody hscan
  rw [toRat_of_ofScan hk hsign, plain_eq]
  refine hvalue.imp (fun hvalue => ?_) fun hvalue => ⟨hvalue.1, ?_⟩
  · simp only [hvalue, decide_eq_true_eq]
  · split_ifs
    · rw [fits_neg_iff]
      exact hvalue.2
    · exact hvalue.2

/-- The exact reader gives the number that is denoted. -/
lemma toRat_of_exact {d : Decimal} (h : ofText .exact cs = .ok d) : d.toRat = Numeral.plain cs := by
  have hsep : Mode.exact = .rounded → '_' ∉ cs := fun hm => nomatch hm
  rcases ofText_sound hsep h with hvalue | ⟨hm, -⟩
  · exact hvalue
  · cases hm

/-- The rounding reader gives the number that is denoted if and only if it fits. -/
lemma toRat_iff_fits {d : Decimal} (hsep : '_' ∉ cs) (h : ofText .rounded cs = .ok d) :
    d.toRat = Numeral.plain cs ↔ Fits (Numeral.plain cs) := by
  constructor
  · intro hvalue
    exact ⟨d, hvalue⟩
  · intro hfits
    rcases ofText_sound (fun _ => hsep) h with hvalue | ⟨-, hnot⟩
    · exact hvalue
    · exact absurd hfits hnot

/-- A text that is read exactly is read the same with rounding, and it has no exponent. -/
lemma ofText_exact {d : Decimal} (h : ofText .exact cs = .ok d) :
    ofText .rounded cs = .ok d ∧ ∀ c ∈ cs, Numeral.isMark c = false := by
  have hne : cs ≠ [] := by
    rintro rfl
    cases h
  rw [ofText_eq hne] at h ⊢
  obtain ⟨parts, hscan, hsign⟩ := bind_eq_ok_iff.1 h
  obtain ⟨hrounded, hmarks⟩ := scan_exact Scan.sound_start hscan
  refine ⟨bind_eq_ok_iff.2 ⟨parts, hrounded, hsign⟩, fun c hc => ?_⟩
  rcases Numeral.mem_unsigned_or hc with hc | rfl | rfl
  · exact hmarks c hc
  · rfl
  · rfl

end Reading

/-! ### The scientific form -/

section Scientific

variable {d d' : Decimal} {n : ℕ} {text : List Char}

lemma toRat_of_withScale (h : d.withScale n = .ok d') : d'.toRat = d.mantissa / 10 ^ n := by
  obtain ⟨hmantissa, hscale⟩ := parts_of_ofParts? h
  rw [toRat, hmantissa, hscale]

/-- A negative exponent is more scale. -/
lemma toRat_of_negative (h : d.withScale (d.scale + n) = .ok d') :
    d'.toRat = d.toRat * 10 ^ (-(n : ℤ)) := by
  rw [toRat_of_withScale h, toRat, zpow_neg, zpow_natCast, pow_add]
  field_simp

/-- A positive exponent is less scale, and beyond that zeros. -/
lemma toRat_of_positive
    (h : (if n ≤ d.scale then d.withScale (d.scale - n) else d.shift n) = .ok d') :
    d'.toRat = d.toRat * 10 ^ (n : ℤ) := by
  rw [zpow_natCast]
  split_ifs at h with hscale
  · have hpow : (10 : ℚ) ^ d.scale = 10 ^ (d.scale - n) * 10 ^ n := by
      rw [← pow_add, Nat.sub_add_cancel hscale]
    rw [toRat_of_withScale h, toRat, hpow]
    field_simp
  · have hpow : (10 : ℚ) ^ n = 10 ^ (n - d.scale) * 10 ^ d.scale := by
      rw [← pow_add, Nat.sub_add_cancel (Nat.le_of_not_le hscale)]
    rw [shift] at h
    split_ifs at h
    obtain ⟨hmantissa, hzero⟩ := parts_of_ofParts? h
    have hmantissa : d'.mantissa = d.mantissa * (10 ^ (n - d.scale) : ℕ) := hmantissa
    rw [toRat, toRat, hmantissa, hzero, hpow]
    push_cast
    field_simp

lemma ofScientific_of_unmarked (h : (text.dropWhile fun c => !Numeral.isMark c) = []) :
    ofScientific text = .error .malformed := by
  have hdrop : text.dropWhile (fun c => !(decide (c = 'e') || decide (c = 'E'))) = [] := h
  rw [ofScientific]
  dsimp only
  rw [hdrop]

/-- The scientific form multiplies its base, which is read with rounding, by a power of ten. -/
lemma ofScientific_eq_ok (h : ofScientific text = .ok d) :
    ∃ b, ofText .rounded (Numeral.base text) = .ok b ∧
      d.toRat = b.toRat * 10 ^ Numeral.exponent text := by
  cases he : text.dropWhile fun c => !Numeral.isMark c with
  | nil =>
    rw [ofScientific_of_unmarked he] at h
    cases h
  | cons mark e =>
    have hdrop : text.dropWhile (fun c => !(decide (c = 'e') || decide (c = 'E'))) = mark :: e := he
    rw [ofScientific] at h
    dsimp only at h
    rw [hdrop] at h
    obtain ⟨b, hb, hd⟩ := bind_eq_ok_iff.1 h
    refine ⟨b, hb, ?_⟩
    split at hd
    · rename_i ds
      have hexponent : Numeral.exponent text = -(Numeral.coefficient ds : ℤ) := by
        rw [Numeral.exponent, he]
        rfl
      split at hd
      · cases hd
      · rename_i n hn
        split_ifs at hd
        rw [hexponent, Numeral.coefficient_of_readNatural hn]
        exact toRat_of_negative hd
    · rename_i hminus
      have hexponent : Numeral.exponent text = Numeral.coefficient e := by
        rw [Numeral.exponent, he, List.tail_cons]
        split
        · exact absurd rfl (hminus _)
        · rfl
      split at hd
      · cases hd
      · rename_i n hn
        rw [hexponent, Numeral.coefficient_of_readNatural hn]
        exact toRat_of_positive hd

/-- Whatever the notation, a decimal that is read comes from its base read with rounding. -/
lemma ofString_eq_ok {s : String} (h : ofString s = .ok d) :
    ∃ b, ofText .rounded (Numeral.base s.toList) = .ok b ∧
      d.toRat = b.toRat * 10 ^ Numeral.exponent s.toList := by
  rw [ofString] at h
  cases hexact : ofText .exact s.toList with
  | ok b =>
    rw [hexact] at h
    cases h
    obtain ⟨hrounded, hmarks⟩ := ofText_exact hexact
    obtain ⟨hbase, hexponent⟩ := Numeral.base_of_plain hmarks
    refine ⟨d, ?_, ?_⟩
    · rw [hbase]
      exact hrounded
    · rw [hexponent, zpow_zero, mul_one]
  | error fault =>
    rw [hexact] at h
    exact ofScientific_eq_ok h

/-- In plain notation only the exact reader counts. -/
lemma ofText_of_plain {s : String} (hplain : Numeral.base s.toList = s.toList)
    (h : ofString s = .ok d) : ofText .exact s.toList = .ok d := by
  rw [ofString] at h
  cases hexact : ofText .exact s.toList with
  | ok b =>
    rw [hexact] at h
    exact h
  | error fault =>
    have hunmarked := ofScientific_of_unmarked
      (List.dropWhile_eq_nil_iff.2 (List.takeWhile_eq_self_iff.1 hplain))
    rw [hexact] at h
    dsimp only at h
    rw [hunmarked] at h
    cases h

end Scientific

end Decimal

end EntityModel
