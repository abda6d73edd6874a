import EntityModel.Number.Integer

/-!
# Times of day

A time counts hours, minutes, seconds and nanoseconds. In a leap second the nanoseconds go on from
`10^9`; its text shows the next second, which is the second `60` after the second `59`. After any
other second a leap second has the text of a time of the next second.
-/

namespace EntityModel

/-- The nanoseconds of a second. -/
def nanosPerSecond : Nat := 1000000000

/-- Whether four counts make a time of day. -/
def isTime (hour minute second nano : Nat) : Bool :=
  hour < 24 && minute < 60 && second < 60 && nano < 2 * nanosPerSecond

/-- A time of day. -/
structure Time where
  hour : Nat
  minute : Nat
  second : Nat
  nano : Nat
  valid : isTime hour minute second nano
deriving DecidableEq, Repr

namespace Time

/-- Whether a time is no leap second, or one after the second `59`. -/
def isRegular (t : Time) : Bool :=
  t.nano < nanosPerSecond || t.second = 59

/-- The regular time of four counts, if there is one. -/
def ofHms? (hour minute second nano : Nat) : Option Time :=
  if h : isTime hour minute second nano then
    let t : Time := ⟨hour, minute, second, nano, h⟩
    if t.isRegular then some t else none
  else none

/-- The digits of the fraction: none, or as many groups of three as it needs. -/
def fractionText (nano : Nat) : List Char :=
  if nano = 0 then []
  else if nano % 1000000 = 0 then '.' :: Decimals.padded 3 (nano / 1000000)
  else if nano % 1000 = 0 then '.' :: Decimals.padded 6 (nano / 1000)
  else '.' :: Decimals.padded 9 nano

/-- The characters of a time. -/
def chars (t : Time) : List Char :=
  let leap := nanosPerSecond ≤ t.nano
  Decimals.padded 2 t.hour ++ ':' :: Decimals.padded 2 t.minute ++
    ':' :: Decimals.padded 2 (if leap then t.second + 1 else t.second) ++
    fractionText (t.nano % nanosPerSecond)

/-- The text of a time, such as `09:30:00.250`. -/
def text (t : Time) : String :=
  String.ofList t.chars

theorem ofHms?_eq_some_iff {h m s n : Nat} {t : Time} :
    ofHms? h m s n = some t ↔
      t.isRegular ∧ t.hour = h ∧ t.minute = m ∧ t.second = s ∧ t.nano = n := by
  unfold ofHms?
  split
  · simp only [Option.ite_none_right_eq_some, Option.some.injEq]
    constructor
    · rintro ⟨hregular, rfl⟩
      exact ⟨hregular, rfl, rfl, rfl, rfl⟩
    · rintro ⟨hregular, rfl, rfl, rfl, rfl⟩
      exact ⟨hregular, rfl⟩
  · rename_i hv
    simp only [reduceCtorEq, false_iff]
    rintro ⟨-, rfl, rfl, rfl, rfl⟩
    exact hv t.valid

end Time

end EntityModel
