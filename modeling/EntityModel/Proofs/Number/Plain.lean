import EntityModel.Proofs.Number.Decimal
import EntityModel.Proofs.Number.Shortest

/-!
# Doubles read as decimals

The text of a double without exponent is read exactly if at most 28 digits stand behind its point,
and then rounding changes nothing. With more digits it is refused, and with rounding a number of at
most `10 ^ -12` is read.
-/

namespace EntityModel

namespace Double

variable {x : Double}

/-! ### The digits of a text -/

/-- How many digits stand behind the point of the text without exponent. -/
def decimals (x : Double) : ℕ :=
  ((x.plain.toList.dropWhile (· ≠ '.')).drop 1).length

lemma value_zeros_append (n : ℕ) (ds : List Char) :
    Decimals.value (List.replicate n '0' ++ ds) = Decimals.value ds := by
  rw [Decimals.value, Nat.ofDigitChars_append, Nat.ofDigitChars_replicate_zero, Nat.mul_zero]
  rfl

lemma isDigit_zeros {n : ℕ} {c : Char} (h : c ∈ List.replicate n '0') : c.isDigit := by
  rw [(List.mem_replicate.1 h).2]
  decide

/-- The positional form has only digits, or digits around a point. -/
lemma positional_cases {ds : List Char} (hne : ds ≠ []) (hds : ∀ c ∈ ds, c.isDigit) (e : ℤ) :
    (∃ w, positional ds (ds.length + e) = w ∧ w ≠ [] ∧ ∀ c ∈ w, c.isDigit) ∨
      ∃ w f, positional ds (ds.length + e) = w ++ '.' :: f ∧ w ≠ [] ∧ (∀ c ∈ w, c.isDigit) ∧
        (∀ c ∈ f, c.isDigit) ∧ Decimals.value (w ++ f) = Decimals.value ds ∧
        (f.length : ℤ) = -e := by
  have hlength : 0 < ds.length := List.length_pos_of_ne_nil hne
  simp only [positional]
  split_ifs with hpoint
  · refine .inr ⟨['0'], List.replicate (-(ds.length + e)).toNat '0' ++ ds, rfl, by simp, by simp,
      ?_, ?_, ?_⟩
    · intro c hc
      rcases List.mem_append.1 hc with hc | hc
      · exact isDigit_zeros hc
      · exact hds c hc
    · exact (value_zeros_append 1 _).trans (value_zeros_append _ ds)
    · rw [List.length_append, List.length_replicate]
      omega
  · refine .inl ⟨_, rfl, by simp [hne], ?_⟩
    intro c hc
    rcases List.mem_append.1 hc with hc | hc
    · exact hds c hc
    · exact isDigit_zeros hc
  · refine .inr ⟨_, _, rfl, ?_, fun c hc => hds c (List.mem_of_mem_take hc),
      fun c hc => hds c (List.mem_of_mem_drop hc), by rw [List.take_append_drop], ?_⟩
    · refine List.ne_nil_of_length_pos ?_
      rw [List.length_take]
      omega
    · rw [List.length_drop]
      omega

lemma dropWhile_digits {w : List Char} (hw : ∀ c ∈ w, c.isDigit) (rest : List Char) :
    (w ++ rest).dropWhile (· ≠ '.') = rest.dropWhile (· ≠ '.') := by
  refine List.dropWhile_append_of_pos fun c hc => ?_
  have hdot : c ≠ '.' := by
    rintro rfl
    exact absurd (hw '.' hc) (by decide)
  simpa using hdot

lemma dropWhile_signed (negative : Prop) [Decidable negative] (body : List Char) :
    (if negative then '-' :: body else body).dropWhile (· ≠ '.') = body.dropWhile (· ≠ '.') := by
  split_ifs
  · rw [List.dropWhile_cons_of_pos (by decide)]
  · rfl

/-- The text without the sign. -/
def body (x : Double) : List Char :=
  if (x.shortest .away).digits = 0 then ['0']
  else
    let digits := Decimals.digits (x.shortest .away).digits
    positional digits (digits.length + (x.shortest .away).exponent)

lemma toList_plain (x : Double) :
    x.plain.toList = if x.negative then '-' :: x.body else x.body := by
  rw [plain, String.toList_ofList]
  rfl

lemma decimals_eq (x : Double) : x.decimals = ((x.body.dropWhile (· ≠ '.')).drop 1).length := by
  rw [decimals, toList_plain, dropWhile_signed]

/-- The text has only digits, or digits around a point that make up those of the double. -/
lemma body_cases (x : Double) :
    (x.body ≠ [] ∧ (∀ c ∈ x.body, c.isDigit) ∧ x.decimals = 0) ∨
      ∃ w f, x.body = w ++ '.' :: f ∧ w ≠ [] ∧ (∀ c ∈ w, c.isDigit) ∧ (∀ c ∈ f, c.isDigit) ∧
        Decimals.value (w ++ f) = (x.shortest .away).digits ∧
        (f.length : ℤ) = -(x.shortest .away).exponent ∧ x.decimals = f.length := by
  have hwhole : (∀ c ∈ x.body, c.isDigit) → x.decimals = 0 := by
    intro h
    have hdrop := dropWhile_digits h []
    rw [List.append_nil] at hdrop
    rw [decimals_eq, hdrop]
    rfl
  by_cases hzero : (x.shortest .away).digits = 0
  · have hbody : x.body = ['0'] := if_pos hzero
    have hdigits : ∀ c ∈ x.body, c.isDigit := by simp [hbody]
    exact .inl ⟨by simp [hbody], hdigits, hwhole hdigits⟩
  have hbody : x.body = positional (Decimals.digits (x.shortest .away).digits)
      ((Decimals.digits (x.shortest .away).digits).length + (x.shortest .away).exponent) :=
    if_neg hzero
  have hne : Decimals.digits (x.shortest .away).digits ≠ [] := Nat.toDigits_ne_nil
  rcases positional_cases hne (fun c hc => Decimals.isDigit_of_mem_digits hc)
    (x.shortest .away).exponent with
    ⟨w, hw, hne, hdigits⟩ | ⟨w, f, hw, hne, hwdigits, hfdigits, hvalue, hlength⟩
  · rw [← hbody] at hw
    subst hw
    exact .inl ⟨hne, hdigits, hwhole hdigits⟩
  · rw [← hbody] at hw
    refine .inr ⟨w, f, hw, hne, hwdigits, hfdigits, hvalue.trans (Decimals.value_digits _),
      hlength, ?_⟩
    rw [decimals_eq, hw, dropWhile_digits hwdigits]
    rfl

/-- The exponent of the shortest decimal limits the digits behind the point. -/
lemma decimals_le (x : Double) : (x.decimals : ℤ) ≤ max 0 (-(x.shortest .away).exponent) := by
  rcases body_cases x with ⟨-, -, hzero⟩ | ⟨-, f, -, -, -, -, -, hlength, hdecimals⟩
  · rw [hzero]
    exact le_max_left _ _
  · rw [hdecimals, hlength]
    exact le_max_right _ _

/-! ### Reading -/

lemma digits_shortest_lt_mantissaLimit (x : Double) :
    (x.shortest .away).digits < Decimal.mantissaLimit :=
  (digits_shortest_lt .away x).trans (by decide)

/-- The text is read as what stands after its sign. -/
lemma ofText_plain_eq (mode : Decimal.Mode) (x : Double) :
    Decimal.ofText mode x.plain.toList =
      (Decimal.scan mode {} x.body).bind (Decimal.ofScan x.negative) := by
  have hhead : ∃ c cs, x.body = c :: cs ∧ c.isDigit := by
    rcases body_cases x with ⟨hne, hdigits, -⟩ | ⟨w, f, hbody, hne, hdigits, -⟩
    · obtain ⟨c, cs, hbody⟩ := List.exists_cons_of_ne_nil hne
      exact ⟨c, cs, hbody, hdigits c (hbody ▸ List.mem_cons_self)⟩
    · obtain ⟨c, cs, rfl⟩ := List.exists_cons_of_ne_nil hne
      exact ⟨c, _, hbody, hdigits c List.mem_cons_self⟩
  obtain ⟨c, cs, hbody, hc⟩ := hhead
  rw [toList_plain, hbody, Decimal.ofText_signed hc, Bool.decide_eq_true]

/-- With at most 28 digits behind the point, the text is read the same way in both modes. -/
theorem ofText_plain (h : x.decimals ≤ Decimal.maxScale) :
    Decimal.ofText .exact x.plain.toList = Decimal.ofText .rounded x.plain.toList := by
  rw [ofText_plain_eq, ofText_plain_eq]
  rcases body_cases x with ⟨hne, hdigits, -⟩ | ⟨w, f, hbody, hne, hw, hf, hvalue, -, hdecimals⟩
  · rw [Decimal.scan_whole hdigits rfl (by decide)]
  · have hfits : Decimals.value (w ++ f) < Decimal.mantissaLimit :=
      hvalue ▸ digits_shortest_lt_mantissaLimit x
    rw [hbody, Decimal.scan_pointed hw hne hf hfits (hdecimals ▸ h),
      Decimal.scan_pointed hw hne hf hfits (hdecimals ▸ h)]

/-- With more than 28 digits behind the point, the text is not read exactly, and with rounding as a
small number. -/
theorem ofText_plain_of_lt (h : Decimal.maxScale < x.decimals) :
    Decimal.ofText .exact x.plain.toList = .error .underflow ∧
      ∀ d, Decimal.ofText .rounded x.plain.toList = .ok d →
        d.mantissa.natAbs * 10 ^ 12 ≤ 10 ^ d.scale := by
  rcases body_cases x with ⟨-, -, hzero⟩ | ⟨w, f, hbody, hne, hw, hf, hvalue, -, hdecimals⟩
  · omega
  obtain ⟨m, c, rest, hm, hc, hrest, hscan⟩ := Decimal.scan_pointed_of_lt hw hne hf
    (hvalue ▸ digits_shortest_lt_mantissaLimit x) (hdecimals ▸ h)
  have hsmall : m + 1 ≤ 10 ^ 16 := by
    have hlt := digits_shortest_lt .away x
    omega
  rw [ofText_plain_eq, ofText_plain_eq, hbody, hscan, hscan]
  refine ⟨rfl, fun d hd => ?_⟩
  obtain ⟨n, hn, hround⟩ := Decimal.round_digits (m := m)
    (Nat.lt_of_le_of_lt hsmall (by decide)) hc hrest
  rw [Decimal.Scan.refuse, hround] at hd
  obtain ⟨hmantissa, hscale⟩ := Decimal.parts_of_ofScan hd le_rfl
  have habs : d.mantissa.natAbs = n := by
    rw [hmantissa]
    split_ifs
    · exact Int.natAbs_neg n
    · rfl
  rw [habs, hscale]
  calc n * 10 ^ 12 ≤ 10 ^ 16 * 10 ^ 12 := Nat.mul_le_mul_right _ (hn.trans hsmall)
    _ = 10 ^ Decimal.maxScale := by decide

end Double

end EntityModel
