/-!
# Doubles

Double-precision numbers as exact dyadic rationals: a sign, a significand `m` below `2^53` and an
exponent `q` stand for `± m · 2^q`. The arithmetic computes the exact rational result and rounds it
once, to the nearest double, a tie going to the even significand. Exponents have no upper limit
here; `Double.isFinite` tells the values that fit the 64-bit format.
-/

namespace EntityModel

/-- A double: `± significand · 2 ^ exponent`. -/
structure Double where
  negative : Bool
  significand : Nat
  exponent : Int
deriving DecidableEq, Repr

namespace Double

/-- The least exponent, that of the subnormal numbers. -/
def minExponent : Int := -1074

/-- The largest exponent of a finite double. -/
def maxExponent : Int := 971

/-- The width of the significand. -/
def precision : Nat := 53

/-- Whether the value fits the format. -/
def isFinite (x : Double) : Bool :=
  x.exponent ≤ maxExponent

/-- Whether the value is zero, of either sign. -/
def isZero (x : Double) : Bool :=
  x.significand = 0

/-- The zero of a sign. -/
def zero (negative : Bool) : Double :=
  ⟨negative, 0, minExponent⟩

/-- The value with the opposite sign. -/
def neg (x : Double) : Double :=
  { x with negative := !x.negative }

/-! ### Magnitudes as ratios -/

/-- A non-negative rational number, as a numerator and a denominator. -/
structure Ratio where
  num : Nat
  den : Nat
deriving DecidableEq, Repr

/-- A ratio times a power of two. -/
def Ratio.scale (r : Ratio) (q : Int) : Ratio :=
  ⟨r.num * Nat.pow 2 q.toNat, r.den * Nat.pow 2 (-q).toNat⟩

/-- The magnitude of a double. -/
def ratio (x : Double) : Ratio :=
  Ratio.scale ⟨x.significand, 1⟩ x.exponent

/-- The nearest integer to a ratio; a tie goes to the even one. -/
def roundHalfEven (r : Ratio) : Nat :=
  let low := r.num / r.den
  let twice := 2 * (r.num % r.den)
  if twice < r.den then low
  else if r.den < twice then low + 1
  else if low % 2 = 0 then low else low + 1

/-- The nearest integer to a ratio; a tie goes upwards. -/
def roundHalfUp (r : Ratio) : Nat :=
  (2 * r.num + r.den) / (2 * r.den)

/-- The exponent that gives a ratio a significand of full width, if the format allows it. -/
def fittingExponent (r : Ratio) : Int :=
  let estimate : Int := (r.num.log2 : Int) - r.den.log2 - precision
  let scaled := r.scale (-estimate)
  let exact := if scaled.num < Nat.pow 2 precision * scaled.den then estimate else estimate + 1
  max minExponent exact

/-- The double nearest to a ratio. -/
def ofRatio (negative : Bool) (r : Ratio) : Double :=
  if r.num = 0 then zero negative
  else
    let q := fittingExponent r
    let m := roundHalfEven (r.scale (-q))
    if m = Nat.pow 2 precision then ⟨negative, Nat.pow 2 (precision - 1), q + 1⟩
    else ⟨negative, m, q⟩

/-- The double nearest to a natural number. -/
def ofNat (n : Nat) : Double :=
  ofRatio false ⟨n, 1⟩

/-! ### Arithmetic on magnitudes -/

/-- The rounded sum of two magnitudes. -/
def add (x y : Double) : Double :=
  ofRatio false ⟨x.ratio.num * y.ratio.den + y.ratio.num * x.ratio.den, x.ratio.den * y.ratio.den⟩

/-- The rounded product of two magnitudes. -/
def mul (x y : Double) : Double :=
  ofRatio false ⟨x.ratio.num * y.ratio.num, x.ratio.den * y.ratio.den⟩

/-- The rounded quotient of two magnitudes. -/
def div (x y : Double) : Double :=
  ofRatio false ⟨x.ratio.num * y.ratio.den, x.ratio.den * y.ratio.num⟩

/-- The integer nearest to a magnitude, halves away from zero. -/
def round (x : Double) : Double :=
  if 0 ≤ x.exponent then { x with negative := false } else ofNat (roundHalfUp x.ratio)

/-- A power of a magnitude by repeated squaring, each step rounded. -/
def pow (x : Double) (n : Nat) : Double :=
  go n n (ofNat 1) x
where
  /-- Multiply in the squares that the binary digits of the exponent ask for. -/
  go : Nat → Nat → Double → Double → Double
    | 0, _, acc, _ => acc
    | fuel + 1, n, acc, base =>
      let acc := if n % 2 = 1 then mul acc base else acc
      if n / 2 = 0 then acc else go fuel (n / 2) acc (mul base base)

end Double

end EntityModel
