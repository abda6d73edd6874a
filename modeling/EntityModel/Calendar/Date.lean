import EntityModel.Number.Integer

/-!
# Dates

Days of the proleptic Gregorian calendar, in the years `-262143` to `262142`. The text of a date
has four digits for the year, or a sign and at least four outside the years `0` to `9999`.
-/

namespace EntityModel

/-! ### Months and years -/

/-- Whether a year has a 29th of February. -/
def isLeapYear (year : Int) : Bool :=
  year % 4 = 0 && (year % 100 ≠ 0 || year % 400 = 0)

/-- The number of days of a month. -/
def daysInMonth (year : Int) (month : Nat) : Nat :=
  match month with
  | 2 => if isLeapYear year then 29 else 28
  | 4 | 6 | 9 | 11 => 30
  | _ => 31

/-- Whether a year, a month and a day make a date of the calendar. -/
def isDate (year : Int) (month day : Nat) : Bool :=
  -262143 ≤ year && year ≤ 262142 && 1 ≤ month && month ≤ 12 && 1 ≤ day &&
    day ≤ daysInMonth year month

/-! ### Dates -/

/-- A day of the calendar. -/
structure Date where
  year : Int
  month : Nat
  day : Nat
  valid : isDate year month day
deriving DecidableEq, Repr

namespace Date

/-- The date of a year, a month and a day, if there is one. -/
def ofYmd? (year : Int) (month day : Nat) : Option Date :=
  if h : isDate year month day then some ⟨year, month, day, h⟩ else none

/-- The following day. -/
def next? (d : Date) : Option Date :=
  if d.day < daysInMonth d.year d.month then ofYmd? d.year d.month (d.day + 1)
  else if d.month < 12 then ofYmd? d.year (d.month + 1) 1
  else ofYmd? (d.year + 1) 1 1

/-- The day before. -/
def previous? (d : Date) : Option Date :=
  if 1 < d.day then ofYmd? d.year d.month (d.day - 1)
  else if 1 < d.month then ofYmd? d.year (d.month - 1) (daysInMonth d.year (d.month - 1))
  else ofYmd? (d.year - 1) 12 31

/-- The characters of a year. -/
def yearText (year : Int) : List Char :=
  if 0 ≤ year ∧ year ≤ 9999 then Decimals.padded 4 year.toNat
  else (if year < 0 then '-' else '+') :: Decimals.padded 4 year.natAbs

/-- The characters of a date. -/
def chars (d : Date) : List Char :=
  yearText d.year ++ '-' :: Decimals.padded 2 d.month ++ '-' :: Decimals.padded 2 d.day

/-- The text of a date, such as `2023-05-02`. -/
def text (d : Date) : String :=
  String.ofList d.chars

theorem ofYmd?_eq_some_iff {y : Int} {m n : Nat} {d : Date} :
    ofYmd? y m n = some d ↔ d.year = y ∧ d.month = m ∧ d.day = n := by
  unfold ofYmd?
  split
  · simp only [Option.some.injEq]
    constructor
    · rintro rfl; exact ⟨rfl, rfl, rfl⟩
    · rintro ⟨rfl, rfl, rfl⟩; rfl
  · rename_i h
    simp only [reduceCtorEq, false_iff]
    rintro ⟨rfl, rfl, rfl⟩
    exact h d.valid

end Date

end EntityModel
