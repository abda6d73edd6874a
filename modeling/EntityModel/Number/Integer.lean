/-!
# Integers in decimal notation

Reading and writing of whole numbers. A text is read from left to right and the first fault
decides: a character that is no digit, or the digit with which the number leaves its range.

The reader accepts exactly the non-empty runs of digits whose value is within the limit
(`readMagnitude_eq_ok_iff`); a sign is allowed in front where the type has one.
-/

namespace EntityModel

namespace Decimals

/-- The value of a run of digits. -/
def value (digits : List Char) : Nat :=
  Nat.ofDigitChars 10 digits 0

/-- The digits of a number, without leading zeros. -/
def digits (n : Nat) : List Char :=
  Nat.toDigits 10 n

/-- The digits of a number, with zeros in front up to the given width. -/
def padded (width n : Nat) : List Char :=
  List.replicate (width - (digits n).length) '0' ++ digits n

/-- How many digits a number has; zero has one. -/
def count (n : Nat) : Nat :=
  (digits n).length

theorem value_digits (n : Nat) : value (digits n) = n := by
  simp [value, digits, Nat.ofDigitChars_ten_toDigits]

end Decimals

/-! ### Faults -/

/-- Why a text is not an integer. -/
inductive IntegerFault where
  /-- There is no character at all. -/
  | empty
  /-- A character is not a digit, or a sign stands alone. -/
  | invalidDigit
  /-- The number is above the largest of its type. -/
  | tooLarge
  /-- The number is below the smallest of its type. -/
  | tooSmall
deriving DecidableEq, Repr

/-- The wording of a fault. -/
def IntegerFault.message : IntegerFault → String
  | .empty => "cannot parse integer from empty string"
  | .invalidDigit => "invalid digit found in string"
  | .tooLarge => "number too large to fit in target type"
  | .tooSmall => "number too small to fit in target type"

/-! ### Reading -/

/-- Read digits after a value already read, up to a limit; passing it is the given fault. -/
def readDigits (limit : Nat) (overflow : IntegerFault) : Nat → List Char → Except IntegerFault Nat
  | acc, [] => .ok acc
  | acc, c :: cs =>
    if c.isDigit then
      let next := 10 * acc + (c.toNat - '0'.toNat)
      if limit < next then .error overflow else readDigits limit overflow next cs
    else .error .invalidDigit

/-- Read a non-empty run of digits. -/
def readMagnitude (limit : Nat) (overflow : IntegerFault) : List Char → Except IntegerFault Nat
  | [] => .error .invalidDigit
  | cs => readDigits limit overflow 0 cs

/-- Read an integer of 64 bits with an optional sign. -/
def readInt64 (text : List Char) : Except IntegerFault Int64 :=
  match text with
  | [] => .error .empty
  | '-' :: cs => (readMagnitude (Nat.pow 2 63) .tooSmall cs).map fun n => Int64.ofInt (-(n : Int))
  | '+' :: cs => (readMagnitude (Nat.pow 2 63 - 1) .tooLarge cs).map fun n => Int64.ofInt n
  | cs => (readMagnitude (Nat.pow 2 63 - 1) .tooLarge cs).map fun n => Int64.ofInt n

/-- Read a natural number below the given power of two, with an optional plus sign. -/
def readNatural (bits : Nat) (text : List Char) : Except IntegerFault Nat :=
  match text with
  | [] => .error .empty
  | '+' :: cs => readMagnitude (Nat.pow 2 bits - 1) .tooLarge cs
  | cs => readMagnitude (Nat.pow 2 bits - 1) .tooLarge cs

/-- The decimal text of an integer. -/
def int64Text (n : Int64) : String :=
  n.toInt.repr

/-! ### What is read -/

theorem readDigits_eq_ok_iff {limit : Nat} {overflow : IntegerFault} {acc n : Nat}
    {cs : List Char} (hacc : acc ≤ limit) :
    readDigits limit overflow acc cs = .ok n ↔
      (∀ c ∈ cs, c.isDigit) ∧ n = Nat.ofDigitChars 10 cs acc ∧ n ≤ limit := by
  induction cs generalizing acc with
  | nil =>
    simp only [readDigits, Except.ok.injEq, List.not_mem_nil, false_implies, implies_true,
      Nat.ofDigitChars_nil, true_and]
    constructor
    · rintro rfl; exact ⟨rfl, hacc⟩
    · rintro ⟨rfl, -⟩; rfl
  | cons c cs ih =>
    have mono (l : List Char) (a : Nat) : a ≤ Nat.ofDigitChars 10 l a := by
      induction l generalizing a with
      | nil => simp
      | cons d l ihl =>
        rw [Nat.ofDigitChars_cons]
        exact Nat.le_trans (by omega) (ihl _)
    by_cases hc : c.isDigit
    · simp only [readDigits, hc, if_true, List.mem_cons, forall_eq_or_imp, true_and,
        Nat.ofDigitChars_cons]
      by_cases hl : limit < 10 * acc + (c.toNat - '0'.toNat)
      · simp only [hl, if_true, reduceCtorEq, false_iff, not_and]
        rintro - rfl
        have := mono cs (10 * acc + (c.toNat - '0'.toNat))
        omega
      · simp only [hl, if_false]
        exact ih (by omega)
    · simp [readDigits, hc]

theorem readMagnitude_eq_ok_iff {limit : Nat} {overflow : IntegerFault} {n : Nat}
    {cs : List Char} :
    readMagnitude limit overflow cs = .ok n ↔
      cs ≠ [] ∧ (∀ c ∈ cs, c.isDigit) ∧ n = Decimals.value cs ∧ n ≤ limit := by
  cases cs with
  | nil => simp [readMagnitude]
  | cons c cs =>
    simp only [readMagnitude, ne_eq, reduceCtorEq, not_false_eq_true, true_and, Decimals.value]
    exact readDigits_eq_ok_iff (Nat.zero_le _)

end EntityModel
