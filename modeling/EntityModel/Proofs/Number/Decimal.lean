import EntityModel.Number.Decimal
import EntityModel.Proofs.Number.Digits
import Mathlib.Algebra.Group.Nat.Defs
import Mathlib.Tactic.SplitIfs

/-!
# Reading decimals

Digits that fit are read the same way whatever becomes of others. Behind the point there is room for
28 digits; with more of them nothing is read exactly. The text of a decimal reads back as the
decimal.
-/

namespace EntityModel

namespace Decimal

variable {mode : Mode} {s : Scan} {c : Char} {cs ds : List Char}

/-! ### Steps of the reader -/

/-- What becomes of a character that there is no room for. -/
def Scan.refuse (s : Scan) (mode : Mode) (c : Char) (cs : List Char) :
    Except DecimalFault (Nat × Nat) :=
  match mode with
  | .exact => .error .underflow
  | .rounded => s.round c cs

lemma scan_cons (h : s.scale < maxScale) :
    scan mode s (c :: cs) =
      if c.isDigit then
        if 10 * s.mantissa + (c.toNat - '0'.toNat) < mantissaLimit then
          scan mode
            { s with mantissa := 10 * s.mantissa + (c.toNat - '0'.toNat)
                     scale := s.scale + s.point.toNat, digit := true, deferred := false } cs
        else if s.point then s.refuse mode c cs
        else .error .tooManyDigits
      else if c = '.' && !s.point then scan mode { s with point := true } cs
      else if c = '_' && s.digit then scan mode s cs
      else if c = '.' then .error .twoPoints
      else if c = '_' then .error .leadingSeparator
      else .error .unknownCharacter := by
  have hroom : ¬ (maxScale ≤ s.scale && !s.deferred) := by
    simp [Nat.not_le_of_lt h]
  cases mode with
  | exact => exact (scan.eq_2 s c cs).trans (if_neg hroom)
  | rounded => exact (scan.eq_3 s c cs).trans (if_neg hroom)

lemma scan_digit (hscale : s.scale < maxScale) (hc : c.isDigit)
    (hfits : 10 * s.mantissa + (c.toNat - '0'.toNat) < mantissaLimit) :
    scan mode s (c :: cs) =
      scan mode
        { s with mantissa := 10 * s.mantissa + (c.toNat - '0'.toNat)
                 scale := s.scale + s.point.toNat, digit := true, deferred := false } cs := by
  rw [scan_cons hscale, if_pos hc, if_pos hfits]

lemma scan_point (hscale : s.scale < maxScale) (hpoint : s.point = false) :
    scan mode s ('.' :: cs) = scan mode { s with point := true } cs := by
  have hdigit : ¬ Char.isDigit '.' := by decide
  rw [scan_cons hscale, if_neg hdigit, if_pos (by simp [hpoint])]

/-- After the last digit that the scale has room for, characters are refused or decide the
rounding. -/
lemma scan_of_full (hdeferred : s.deferred = false) (hscale : maxScale ≤ s.scale)
    (hc : mode = .rounded → c ≠ '_') : scan mode s (c :: cs) = s.refuse mode c cs := by
  have hfull : (maxScale ≤ s.scale && !s.deferred) = true := by simp [hdeferred, hscale]
  cases mode with
  | exact =>
    rw [scan.eq_2, if_pos hfull, if_neg (by simp)]
    rfl
  | rounded =>
    rw [scan.eq_3, if_pos hfull, if_neg (by simp [hc rfl])]
    rfl

/-! ### Runs of digits -/

/-- Digits behind a number shift it to the left. -/
lemma mul_pow_le_ofDigitChars (ds : List Char) (n : Nat) :
    n * 10 ^ ds.length ≤ Nat.ofDigitChars 10 ds n := by
  induction ds generalizing n with
  | nil => simp
  | cons d ds ih =>
    rw [Nat.ofDigitChars_cons, List.length_cons, Nat.pow_succ', ← Nat.mul_assoc]
    refine Nat.le_trans (Nat.mul_le_mul_right _ ?_) (ih _)
    omega

lemma le_ofDigitChars (ds : List Char) (n : Nat) : n ≤ Nat.ofDigitChars 10 ds n :=
  Nat.le_trans (Nat.le_mul_of_pos_right n (Nat.pow_pos (by decide))) (mul_pow_le_ofDigitChars ds n)

/-- The state after digits that fit. -/
def Scan.after (s : Scan) (ds : List Char) : Scan :=
  { s with mantissa := Nat.ofDigitChars 10 ds s.mantissa
           scale := s.scale + s.point.toNat * ds.length, digit := s.digit || !ds.isEmpty }

lemma scan_digits (hdeferred : s.deferred = false) (hds : ∀ c ∈ ds, c.isDigit)
    (hscale : ∀ i < ds.length, s.scale + s.point.toNat * i < maxScale)
    (hfits : Nat.ofDigitChars 10 ds s.mantissa < mantissaLimit) (cs : List Char) :
    scan mode s (ds ++ cs) = scan mode (s.after ds) cs := by
  induction ds generalizing s with
  | nil => simp [Scan.after]
  | cons d ds ih =>
    rw [Nat.ofDigitChars_cons] at hfits
    obtain ⟨hd, hds⟩ := List.forall_mem_cons.1 hds
    have hfirst : s.scale < maxScale := by simpa using hscale 0 (by simp)
    rw [List.cons_append, scan_digit hfirst hd
      (Nat.lt_of_le_of_lt (le_ofDigitChars ds _) hfits), ih rfl hds ?_ hfits]
    · simp only [Scan.after, Nat.ofDigitChars_cons, List.length_cons, Nat.mul_add, Nat.mul_one,
        List.isEmpty_cons, Bool.true_or, Bool.not_false, Bool.or_true, hdeferred]
      rw [Nat.add_comm (_ * ds.length), Nat.add_assoc]
    · intro i hi
      have hnext := hscale (i + 1) (by simpa using hi)
      rw [Nat.mul_add, Nat.mul_one] at hnext
      show s.scale + s.point.toNat + s.point.toNat * i < maxScale
      omega

/-- A whole number is read the same way in both modes. -/
lemma scan_whole (hds : ∀ c ∈ ds, c.isDigit) (hpoint : s.point = false)
    (hscale : s.scale < maxScale) : scan .exact s ds = scan .rounded s ds := by
  induction ds generalizing s with
  | nil => rfl
  | cons d ds ih =>
    obtain ⟨hd, hds⟩ := List.forall_mem_cons.1 hds
    rw [scan_cons hscale, scan_cons hscale, if_pos hd, if_pos hd, hpoint]
    by_cases hfits : 10 * s.mantissa + (d.toNat - '0'.toNat) < mantissaLimit
    · rw [if_pos hfits, if_pos hfits]
      exact ih hds rfl hscale
    · rw [if_neg hfits, if_neg hfits]
      rfl

/-! ### Texts with a point -/

section Pointed

variable {w f : List Char}

lemma scan_whole_part (hw : ∀ c ∈ w, c.isDigit) (hne : w ≠ [])
    (hfits : Decimals.value w < mantissaLimit) (cs : List Char) :
    scan mode {} (w ++ '.' :: cs) =
      scan mode { mantissa := Decimals.value w, point := true, digit := true } cs := by
  have hscale : ∀ i < w.length, ({} : Scan).scale + ({} : Scan).point.toNat * i < maxScale := by
    intro i _
    simp [maxScale]
  rw [scan_digits rfl hw hscale hfits]
  have hempty : w.isEmpty = false := by simp [hne]
  rw [scan_point (by simp [Scan.after, maxScale]) rfl]
  simp [Scan.after, hempty, Decimals.value]

/-- A text of digits with a point among them is read if at most 28 are behind the point. -/
lemma scan_pointed (hw : ∀ c ∈ w, c.isDigit) (hne : w ≠ []) (hf : ∀ c ∈ f, c.isDigit)
    (hfits : Decimals.value (w ++ f) < mantissaLimit) (hlength : f.length ≤ maxScale) :
    scan mode {} (w ++ '.' :: f) = .ok (Decimals.value (w ++ f), f.length) := by
  have happend : Decimals.value (w ++ f) = Nat.ofDigitChars 10 f (Decimals.value w) :=
    Nat.ofDigitChars_append 0
  rw [happend] at hfits
  rw [scan_whole_part hw hne (Nat.lt_of_le_of_lt (le_ofDigitChars f _) hfits)]
  have hscan : scan mode { mantissa := Decimals.value w, point := true, digit := true } (f ++ []) =
      _ := scan_digits rfl hf (fun i hi => by simpa using Nat.lt_of_lt_of_le hi hlength) hfits []
  rw [List.append_nil] at hscan
  rw [hscan, scan.eq_1, happend]
  simp [Scan.after]

/-- With more than 28 digits behind the point, the next one is refused or decides the rounding. -/
lemma scan_pointed_of_lt (hw : ∀ c ∈ w, c.isDigit) (hne : w ≠ []) (hf : ∀ c ∈ f, c.isDigit)
    (hfits : Decimals.value (w ++ f) < mantissaLimit) (hlength : maxScale < f.length) :
    ∃ m c rest, m * 10 ≤ Decimals.value (w ++ f) ∧ c.isDigit ∧ (∀ c ∈ rest, c.isDigit) ∧
      ∀ mode, scan mode {} (w ++ '.' :: f) =
        Scan.refuse ⟨m, maxScale, true, true, false⟩ mode c rest := by
  have htake : (f.take maxScale).length = maxScale :=
    List.length_take_of_le (Nat.le_of_lt hlength)
  obtain ⟨c, rest, hdrop⟩ : ∃ c rest, f.drop maxScale = c :: rest :=
    List.exists_cons_of_ne_nil fun h => Nat.not_le_of_lt hlength (List.drop_eq_nil_iff.1 h)
  have htail : ∀ d ∈ c :: rest, d.isDigit := fun d hd =>
    hf d (List.mem_of_mem_drop (hdrop ▸ hd))
  obtain ⟨m, hm⟩ : ∃ m, Nat.ofDigitChars 10 (f.take maxScale) (Decimals.value w) = m := ⟨_, rfl⟩
  have hvalue : Decimals.value (w ++ f) = Nat.ofDigitChars 10 (c :: rest) m := by
    rw [← hm, ← hdrop, ← Nat.ofDigitChars_append, List.take_append_drop]
    exact Nat.ofDigitChars_append 0
  have hm_lt : m < mantissaLimit :=
    Nat.lt_of_le_of_lt (hvalue ▸ le_ofDigitChars (c :: rest) m) hfits
  refine ⟨m, c, rest, ?_, htail c List.mem_cons_self,
    fun d hd => htail d (List.mem_cons_of_mem c hd), fun mode => ?_⟩
  · rw [hvalue]
    refine Nat.le_trans (Nat.mul_le_mul_left m ?_) (mul_pow_le_ofDigitChars (c :: rest) m)
    exact Nat.le_self_pow (Nat.succ_ne_zero _) 10
  · rw [scan_whole_part hw hne (Nat.lt_of_le_of_lt (le_ofDigitChars _ _) (hm ▸ hm_lt)),
      ← List.take_append_drop maxScale f, hdrop,
      scan_digits rfl (fun d hd => hf d (List.mem_of_mem_take hd))
        (fun i hi => by simpa using htake ▸ hi) (hm ▸ hm_lt)]
    have hunder : c ≠ '_' := by
      rintro rfl
      exact absurd (htail '_' List.mem_cons_self) (by decide)
    rw [scan_of_full rfl (by simp [Scan.after, htake]) fun _ => hunder]
    simp [Scan.after, htake, hm]

/-- Rounding by a digit changes the last digit by at most one. -/
lemma round_digits {m : Nat} (hm : m + 1 < mantissaLimit) (hc : c.isDigit)
    (hcs : ∀ c ∈ cs, c.isDigit) :
    ∃ n ≤ m + 1, Scan.round ⟨m, maxScale, true, true, false⟩ c cs = .ok (n, maxScale) := by
  have hfind : (cs.find? fun c => !(c.isDigit || c = '_')) = none := by
    rw [List.find?_eq_none]
    intro d hd
    simp [hcs d hd]
  have hle : (if c.isDigit && '5' ≤ c then m + 1 else m) ≤ m + 1 := by
    split_ifs <;> omega
  rw [Scan.round, if_neg (by simp [hc]), hfind]
  exact ⟨_, hle, if_pos (Nat.lt_of_le_of_lt hle hm)⟩

end Pointed

/-! ### Signs -/

/-- A text that starts with a digit is read with the sign before it. -/
lemma ofText_signed {negative : Prop} [Decidable negative] (hc : c.isDigit) :
    ofText mode (if negative then '-' :: c :: cs else c :: cs) =
      (scan mode {} (c :: cs)).bind (ofScan negative) := by
  have hminus : c ≠ '-' := by
    rintro rfl
    exact absurd hc (by decide)
  have hplus : c ≠ '+' := by
    rintro rfl
    exact absurd hc (by decide)
  by_cases h : negative
  · simp [ofText, h]
  · simp [ofText, h, hminus, hplus]

lemma parts_of_ofParts? {mantissa : Int} {scale : Nat} {fault : DecimalFault} {d : Decimal}
    (h : (ofParts? mantissa scale).elim (.error fault) .ok = Except.ok d) :
    d.mantissa = mantissa ∧ d.scale = scale := by
  rw [ofParts?] at h
  split_ifs at h
  · cases h
    exact ⟨rfl, rfl⟩
  · cases h

/-- A number keeps its digits and its scale with a sign. -/
lemma parts_of_ofScan {negative : Bool} {n scale : Nat} {d : Decimal}
    (h : ofScan negative (n, scale) = .ok d) (hscale : scale ≤ maxScale) :
    d.mantissa = (if negative then -(n : Int) else n) ∧ d.scale = scale := by
  obtain ⟨hmantissa, hd⟩ := parts_of_ofParts? h
  rw [Nat.mod_eq_of_lt (Nat.lt_succ_of_le hscale)] at hd
  exact ⟨hmantissa, hd⟩

/-! ### The text of a decimal -/

lemma ofScan_natAbs (d : Decimal) :
    ofScan (d.mantissa < 0) (d.mantissa.natAbs, d.scale) = .ok d := by
  have hscale : d.scale % (maxScale + 1) = d.scale :=
    Nat.mod_eq_of_lt (Nat.lt_succ_of_le d.scale_le)
  have hmantissa : (if decide (d.mantissa < 0) then -(d.mantissa.natAbs : Int)
      else d.mantissa.natAbs) = d.mantissa := by
    by_cases h : d.mantissa < 0
    · rw [if_pos (decide_eq_true h)]
      omega
    · rw [if_neg (by simpa using h)]
      omega
  simp only [ofScan, hscale, hmantissa]
  rw [ofParts?, dif_pos ⟨d.mantissa_lt, d.scale_le⟩]
  rfl

lemma scan_digits_only (hds : ∀ c ∈ ds, c.isDigit) (hne : ds ≠ [])
    (hfits : Decimals.value ds < mantissaLimit) :
    scan mode {} ds = .ok (Decimals.value ds, 0) := by
  have hscan : scan mode {} (ds ++ []) = _ :=
    scan_digits (s := {}) rfl hds (fun i _ => by simp [maxScale]) hfits []
  rw [List.append_nil] at hscan
  rw [hscan, scan.eq_1]
  simp [Scan.after, hne, Decimals.value]

/-- The text of a decimal reads back as the decimal. -/
theorem ofText_text (mode : Mode) (d : Decimal) : ofText mode d.text.toList = .ok d := by
  have hdigits := Decimals.isDigit_padded (d.scale + 1) d.mantissa.natAbs
  have hvalue := Decimals.value_padded (d.scale + 1) d.mantissa.natAbs
  have hlength := Decimals.le_length_padded (d.scale + 1) d.mantissa.natAbs
  rw [text, String.toList_ofList]
  generalize Decimals.padded (d.scale + 1) d.mantissa.natAbs = digits at hdigits hvalue hlength
  have hfits : Decimals.value digits < mantissaLimit := by
    rw [hvalue]
    exact d.mantissa_lt
  by_cases hscale : d.scale = 0
  · have hne : digits ≠ [] := List.ne_nil_of_length_pos (by omega)
    have hscan : scan mode {} digits = .ok (d.mantissa.natAbs, d.scale) := by
      rw [scan_digits_only hdigits hne hfits, hvalue, hscale]
    obtain ⟨c, cs, rfl⟩ := List.exists_cons_of_ne_nil hne
    simp only [if_pos hscale]
    rw [ofText_signed (hdigits c List.mem_cons_self), hscan]
    exact ofScan_natAbs d
  · have htake : (digits.take (digits.length - d.scale)).length = digits.length - d.scale :=
      List.length_take_of_le (Nat.sub_le ..)
    have hdrop : (digits.drop (digits.length - d.scale)).length = d.scale := by
      rw [List.length_drop]
      omega
    have hne : digits.take (digits.length - d.scale) ≠ [] :=
      List.ne_nil_of_length_pos (by omega)
    have hw : ∀ c ∈ digits.take (digits.length - d.scale), c.isDigit :=
      fun c hc => hdigits c (List.mem_of_mem_take hc)
    have hscan : scan mode {} (_ ++ '.' :: digits.drop (digits.length - d.scale)) = _ :=
      scan_pointed hw hne (fun c hc => hdigits c (List.mem_of_mem_drop hc))
        (by rwa [List.take_append_drop]) (Nat.le_trans (Nat.le_of_eq hdrop) d.scale_le)
    rw [List.take_append_drop, hvalue, hdrop] at hscan
    simp only [if_neg hscale]
    obtain ⟨c, cs, hcons⟩ := List.exists_cons_of_ne_nil hne
    rw [hcons] at hscan hw ⊢
    rw [List.cons_append, ofText_signed (hw c List.mem_cons_self), ← List.cons_append, hscan]
    exact ofScan_natAbs d

end Decimal

end EntityModel
