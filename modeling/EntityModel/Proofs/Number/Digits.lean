import EntityModel.Number.Integer
import EntityModel.Text.Blank
import Mathlib.Tactic.Lemma

/-!
# Digits that are written

The digits of a number, with zeros in front or without, are digits, have the number as their value
and fill the width that they are written in. A run of them is taken up to its end, and an integer of
64 bits is read from any digits of its value.
-/

namespace EntityModel

namespace Decimals

lemma isDigit_of_mem_digits {n : Nat} {c : Char} (h : c ∈ digits n) : c.isDigit :=
  Nat.isDigit_of_mem_toDigits (by decide) (by decide) h

lemma isDigit_padded (width n : Nat) : ∀ c ∈ padded width n, c.isDigit := by
  intro c h
  rcases List.mem_append.1 h with h | h
  · rw [(List.mem_replicate.1 h).2]
    decide
  · exact isDigit_of_mem_digits h

lemma padded_ne_nil (width n : Nat) : padded width n ≠ [] := by
  rw [padded, digits]
  simp

lemma value_padded (width n : Nat) : value (padded width n) = n := by
  rw [value, padded, Nat.ofDigitChars_append, Nat.ofDigitChars_replicate_zero, Nat.mul_zero]
  exact value_digits n

/-- Up to nine digits make a small number. -/
lemma value_padded_lt {n : Nat} (h : n < Nat.pow 10 9) (width : Nat) :
    value (padded width n) < Nat.pow 2 63 := by
  rw [value_padded]
  exact Nat.lt_trans h (by decide)

lemma le_length_padded (width n : Nat) : width ≤ (padded width n).length := by
  rw [padded, List.length_append, List.length_replicate]
  omega

lemma length_padded {width n : Nat} (hw : 0 < width) (h : n < Nat.pow 10 width) :
    (padded width n).length = width := by
  have hle : (digits n).length ≤ width :=
    (Nat.length_toDigits_le_iff (by decide) hw).2 h
  rw [padded, List.length_append, List.length_replicate]
  exact Nat.sub_add_cancel hle

end Decimals

/-! ### Runs of characters -/

section Runs

variable {p : Char → Bool} {cs text : List Char}

lemma takeWhile_append_of_head (hcs : ∀ c ∈ cs, p c) (htext : ∀ c ∈ text.head?, p c = false) :
    (cs ++ text).takeWhile p = cs := by
  rw [List.takeWhile_append_of_pos hcs]
  cases text with
  | nil => exact List.append_nil cs
  | cons c text => rw [List.takeWhile_cons, htext c rfl, if_neg Bool.false_ne_true, List.append_nil]

lemma dropWhile_append_of_head (hcs : ∀ c ∈ cs, p c) (htext : ∀ c ∈ text.head?, p c = false) :
    (cs ++ text).dropWhile p = text := by
  rw [List.dropWhile_append_of_pos hcs]
  cases text with
  | nil => rfl
  | cons c text => rw [List.dropWhile_cons, htext c rfl, if_neg Bool.false_ne_true]

lemma drop_length_takeWhile : cs.drop (cs.takeWhile p).length = cs.dropWhile p := by
  have h : (cs.takeWhile p ++ cs.dropWhile p).drop (cs.takeWhile p).length = cs.dropWhile p :=
    List.drop_left
  rwa [List.takeWhile_append_dropWhile] at h

lemma eq_false_of_mem_head?_dropWhile {c : Char} (h : c ∈ (cs.dropWhile p).head?) :
    p c = false := by
  have hhead := List.head?_dropWhile_not p cs
  rw [Option.mem_def.1 h] at hhead
  simpa using hhead

/-- A run of characters ends where the first other one stands. -/
lemma eq_append_of_dropWhile {c : Char} (h : cs.dropWhile p = c :: text) :
    cs = cs.takeWhile p ++ c :: text ∧ p c = false := by
  constructor
  · rw [← h, List.takeWhile_append_dropWhile]
  · have hc : c ∈ (cs.dropWhile p).head? := by rw [h, List.head?_cons, Option.mem_some]
    exact eq_false_of_mem_head?_dropWhile hc

end Runs

/-! ### Integers of 64 bits -/

section Int64

open Decimals

variable {n : Int64} {ds : List Char}

lemma readInt64_natural (hne : ds ≠ []) (hd : ∀ d ∈ ds, d.isDigit) (h : n.toInt = value ds) :
    readInt64 ds = .ok n := by
  have hle : value ds ≤ Nat.pow 2 63 - 1 := by
    have hmax := Int64.toInt_le n
    rw [h] at hmax
    exact Int.ofNat_le.1 hmax
  have hread : readMagnitude (Nat.pow 2 63 - 1) .tooLarge ds = .ok (value ds) :=
    readMagnitude_eq_ok_iff.2 ⟨hne, hd, rfl, hle⟩
  have hsign : ∀ c cs, c.isDigit = false → ds ≠ c :: cs := by
    rintro c cs hc rfl
    rw [hd c List.mem_cons_self] at hc
    cases hc
  rw [readInt64, hread]
  · show Except.ok (Int64.ofInt (value ds)) = _
    rw [← h, Int64.ofInt_toInt]
  · exact hne
  · exact fun cs => hsign '-' cs (by decide)
  · exact fun cs => hsign '+' cs (by decide)

lemma readInt64_negative (hne : ds ≠ []) (hd : ∀ d ∈ ds, d.isDigit)
    (h : n.toInt = -(value ds : Int)) : readInt64 ('-' :: ds) = .ok n := by
  have hle : value ds ≤ Nat.pow 2 63 := by
    have hmin := Int64.minValue_le_toInt n
    rw [h] at hmin
    exact Int.ofNat_le.1 (Int.neg_le_neg_iff.1 hmin)
  have hread : readMagnitude (Nat.pow 2 63) .tooSmall ds = .ok (value ds) :=
    readMagnitude_eq_ok_iff.2 ⟨hne, hd, rfl, hle⟩
  rw [readInt64, hread]
  show Except.ok (Int64.ofInt (-(value ds : Int))) = _
  rw [← h, Int64.ofInt_toInt]

end Int64

/-! ### Blanks before digits -/

lemma skipBlanks_cons {c : Char} (h : isBlank c = false) (cs : List Char) :
    skipBlanks (c :: cs) = c :: cs := by
  rw [skipBlanks, List.dropWhile_cons, h]
  rfl

lemma isBlank_of_isDigit {c : Char} (h : c.isDigit) : isBlank c = false :=
  isBlank_eq_false_of_isAlphanum (by rw [Char.isAlphanum, h, Bool.or_true])

lemma skipBlanks_digits {ds : List Char} (hd : ∀ c ∈ ds, c.isDigit) (hne : ds ≠ [])
    (rest : List Char) : skipBlanks (ds ++ rest) = ds ++ rest := by
  cases ds with
  | nil => exact absurd rfl hne
  | cons c ds => exact skipBlanks_cons (isBlank_of_isDigit (hd c List.mem_cons_self)) _

end EntityModel
