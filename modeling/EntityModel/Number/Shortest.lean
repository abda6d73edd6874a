import EntityModel.Number.Double
import EntityModel.Number.Integer

/-!
# The shortest decimal text of a double

A double is written with the fewest digits that read back as it. The reals that round to the
double form an interval; for each number of digits the two decimals of that length next to the
double are tried, and the first that lies in the interval is taken, the nearer one if both do. When
both are equally near, the form of the text decides: without exponent the larger is written, in JSON
the even one.
-/

namespace EntityModel

/-- A decimal number `digits · 10 ^ exponent`. -/
structure Scientific where
  digits : Nat
  exponent : Int
deriving DecidableEq, Repr

namespace Double

/-- The interval of reals that round to a magnitude, over a common denominator. -/
structure Rounding where
  low : Nat
  value : Nat
  high : Nat
  den : Nat
  /-- Whether the ends belong to the interval. -/
  closed : Bool
deriving DecidableEq, Repr

/-- The rounding interval of a double. Below a power of two the doubles lie twice as dense. -/
def rounding (x : Double) : Rounding :=
  let narrow := x.significand = Nat.pow 2 (precision - 1) ∧ minExponent < x.exponent
  let unit := Ratio.scale ⟨1, 4⟩ x.exponent
  { low := (4 * x.significand - if narrow then 1 else 2) * unit.num
    value := 4 * x.significand * unit.num
    high := (4 * x.significand + 2) * unit.num
    den := unit.den
    closed := x.significand % 2 = 0 }

/-- Whether the decimal `d · num / den` lies in the interval. -/
def Rounding.holds (i : Rounding) (d : Nat) (unit : Ratio) : Bool :=
  let scaled := d * unit.num * i.den
  if i.closed then i.low * unit.den ≤ scaled && scaled ≤ i.high * unit.den
  else i.low * unit.den < scaled && scaled < i.high * unit.den

/-- A power of ten as a ratio. -/
def tenTo (k : Int) : Ratio :=
  ⟨Nat.pow 10 k.toNat, Nat.pow 10 (-k).toNat⟩

/-- The exponent `p` with `10 ^ (p - 1) ≤ r < 10 ^ p`. -/
def decimalExponent (r : Ratio) : Int :=
  if r.den ≤ r.num then Decimals.count (r.num / r.den)
  else 1 - Decimals.count ((r.den - 1) / r.num)

/-- Which of two equally near decimals is taken. -/
inductive Tie where
  /-- The one of larger magnitude. -/
  | away
  /-- The one with an even last digit. -/
  | even
deriving DecidableEq, Repr

/-- Whether the decimal above is taken when the one below has the given digits. -/
def Tie.takesUpper : Tie → Nat → Bool
  | .away, _ => true
  | .even, below => below % 2 = 1

/-- The decimal on the grid `10 ^ k` next to the value that lies in the interval. -/
def Rounding.candidate (tie : Tie) (i : Rounding) (k : Int) : Option Scientific :=
  let unit := tenTo k
  let below := i.value * unit.den / (i.den * unit.num)
  let lower := i.holds below unit
  let upper := i.holds (below + 1) unit
  if lower && upper then
    let twice := 2 * (i.value * unit.den - below * (i.den * unit.num))
    let up := i.den * unit.num < twice || (i.den * unit.num = twice && tie.takesUpper below)
    some ⟨if up then below + 1 else below, k⟩
  else if lower then some ⟨below, k⟩
  else if upper then some ⟨below + 1, k⟩
  else none

/-- Drop the trailing zeros of the digits. -/
def trim : Nat → Scientific → Scientific
  | 0, s => s
  | fuel + 1, s =>
    if s.digits ≠ 0 ∧ s.digits % 10 = 0 then trim fuel ⟨s.digits / 10, s.exponent + 1⟩ else s

/-- The decimal of fewest digits that reads back as the magnitude of a double. -/
def shortest (tie : Tie) (x : Double) : Scientific :=
  if x.significand = 0 then ⟨0, 0⟩
  else
    let i := x.rounding
    let p := decimalExponent ⟨i.value, i.den⟩
    let tries := (List.range 17).findSome? fun (n : Nat) => i.candidate tie (p - 1 - (n : Int))
    trim 20 (tries.getD ⟨0, 0⟩)

/-! ### Texts -/

/-- Digits with the point after the given number of them, without exponent. -/
def positional (digits : List Char) (point : Int) : List Char :=
  if point ≤ 0 then ['0', '.'] ++ List.replicate (-point).toNat '0' ++ digits
  else
    let n := point.toNat
    if digits.length ≤ n then digits ++ List.replicate (n - digits.length) '0'
    else digits.take n ++ '.' :: digits.drop n

/-- The text without exponent: `0.0000001`, `100`. -/
def plain (x : Double) : String :=
  let s := x.shortest .away
  let ds := Decimals.digits s.digits
  let body := if s.digits = 0 then ['0'] else positional ds (ds.length + s.exponent)
  String.ofList (if x.negative then '-' :: body else body)

/-- A way of writing doubles: the exponents of the leading digit that keep the positional form. -/
structure Style where
  positionalFrom : Int
  positionalTo : Int
deriving DecidableEq, Repr

/-- JSON numbers from `0.00001` to below `1e+16` have no exponent. -/
def jsonStyle : Style := ⟨-5, 15⟩

/-- The JSON text: `1.0`, `0.00001`, `1e-6`, `1.5e+16`. -/
def json (x : Double) : String :=
  let s := x.shortest .even
  let ds := Decimals.digits s.digits
  let lead : Int := ds.length + s.exponent - 1
  let body :=
    if s.digits = 0 then ['0', '.', '0']
    else if jsonStyle.positionalFrom ≤ lead ∧ lead ≤ jsonStyle.positionalTo then
      let text := positional ds (lead + 1)
      if text.contains '.' then text else text ++ ['.', '0']
    else
      let mantissa :=
        match ds with
        | [] => []
        | [d] => [d]
        | d :: rest => d :: '.' :: rest
      let sign := if lead < 0 then '-' else '+'
      mantissa ++ 'e' :: sign :: Decimals.digits lead.natAbs
  String.ofList (if x.negative then '-' :: body else body)

end Double

end EntityModel
