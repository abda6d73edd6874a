import EntityModel.Number.Shortest

/-!
# Doubles of decimal numbers

Two ways from a decimal number to a double. `Scientific.nearest?` takes the nearest double.
`Scientific.scaled?` works in double arithmetic: it rounds the digits to a double and multiplies or
divides that by a rounded power of ten, so the result may be a neighbour of the nearest double when
there are more than fifteen digits or the power is above `10 ^ 22`. Neither yields an infinite
double.
-/

namespace EntityModel

namespace Double

/-- The largest exponent of a power of ten among the doubles. -/
def maxPower : Nat := 308

/-- The double nearest to a power of ten. -/
def powerOfTen (n : Nat) : Double :=
  ofNat (Nat.pow 10 n)

/-- Divide a magnitude by a power of ten, in steps of at most the largest power. -/
def divideByPower (x : Double) (n : Nat) : Double :=
  if n ≤ maxPower then x.div (powerOfTen n)
  else if x.isZero then x
  else divideByPower (x.div (powerOfTen maxPower)) (n - maxPower)
termination_by n
decreasing_by simp only [maxPower] at *; omega

/-- A double, unless it is infinite. -/
def finite? (x : Double) : Option Double :=
  if x.isFinite then some x else none

end Double

namespace Scientific

/-- The double nearest to a decimal number, if it is finite. -/
def nearest? (s : Scientific) : Option Double :=
  let lead : Int := Decimals.count s.digits + s.exponent
  if s.digits = 0 ∨ lead < -330 then some (.zero false)
  else if 310 < lead then none
  else
    Double.finite? (.ofRatio false
      ⟨s.digits * Nat.pow 10 s.exponent.toNat, Nat.pow 10 (-s.exponent).toNat⟩)

/-- The double that scaling the digits of a decimal number gives, if it is finite. -/
def scaled? (s : Scientific) : Option Double :=
  let x := Double.ofNat s.digits
  if s.exponent < 0 then some (x.divideByPower (-s.exponent).toNat)
  else if s.digits = 0 then some x
  else if Double.maxPower < s.exponent.toNat then none
  else Double.finite? (x.mul (.powerOfTen s.exponent.toNat))

end Scientific

end EntityModel
