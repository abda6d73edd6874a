import EntityModel.Calendar.Date
import EntityModel.Calendar.Time
import EntityModel.Text.Blank

/-!
# Reading dates and times

A pattern is a list of fields and literal characters. A field may be preceded by blanks; it takes
as many digits as it has room for, and a year more than four only after a sign. A count outside
its range is refused as soon as it is read.

An internet timestamp has fixed widths and an offset; its relaxed form has the freedom of patterns.
-/

namespace EntityModel

/-- Why a text is not a date or time. -/
inductive CalendarFault where
  /-- A character that does not belong there. -/
  | invalid
  /-- The text ends too early. -/
  | tooShort
  /-- The text goes on after the pattern. -/
  | tooLong
  /-- A count outside its range. -/
  | outOfRange
  /-- Counts that no date has together. -/
  | impossible
deriving DecidableEq, Repr

/-- The wording of a fault. -/
def CalendarFault.message : CalendarFault → String
  | .invalid => "input contains invalid characters"
  | .tooShort => "premature end of input"
  | .tooLong => "trailing input"
  | .outOfRange => "input is out of range"
  | .impossible => "no possible date and time matching input"

/-- The fields read so far. -/
structure CalendarFields where
  year : Int := 0
  month : Nat := 1
  day : Nat := 1
  hour : Nat := 0
  minute : Nat := 0
  second : Nat := 0
  nano : Nat := 0
deriving DecidableEq, Repr

/-- A piece of a pattern. -/
inductive PatternItem where
  | year
  | month
  | day
  | hour
  | minute
  | second
  /-- A point and digits; it may be missing. -/
  | fraction
  /-- Any number of blanks. -/
  | blanks
  | literal (c : Char)
deriving DecidableEq, Repr

namespace CalendarFields

/-- Read at least one digit and at most `width`, when there is a width. -/
def number (width : Option Nat) (cs : List Char) : Except CalendarFault (Nat × List Char) :=
  let digits := ((width.elim cs cs.take)).takeWhile Char.isDigit
  match cs with
  | [] => .error .tooShort
  | _ =>
    if digits.isEmpty then .error .invalid
    else if Nat.pow 2 63 ≤ Decimals.value digits then .error .outOfRange
    else .ok (Decimals.value digits, cs.drop digits.length)

/-- Read a count of up to two digits within bounds. -/
def count (low high : Nat) (cs : List Char) : Except CalendarFault (Nat × List Char) := do
  let (n, rest) ← number (some 2) (skipBlanks cs)
  if low ≤ n ∧ n ≤ high then .ok (n, rest) else .error .outOfRange

/-- Read a year. -/
def yearNumber (cs : List Char) : Except CalendarFault (Int × List Char) := do
  let (y, rest) : Int × List Char ←
    match skipBlanks cs with
    | '-' :: cs => (number none cs).map fun (n, rest) => (-(n : Int), rest)
    | '+' :: cs => (number none cs).map fun (n, rest) => ((n : Int), rest)
    | cs => (number (some 4) cs).map fun (n, rest) => ((n : Int), rest)
  if Int32.minValue.toInt ≤ y ∧ y ≤ Int32.maxValue.toInt then .ok (y, rest) else .error .outOfRange

/-- Read the digits of a fraction as nanoseconds; digits after the ninth are dropped. -/
def nanoseconds (cs : List Char) : Except CalendarFault (Nat × List Char) := do
  let (n, rest) ← number (some 9) cs
  .ok (n * Nat.pow 10 (9 - (cs.length - rest.length)), rest.dropWhile Char.isDigit)

/-- Read one piece of a pattern. -/
def readItem (f : CalendarFields) (item : PatternItem) (cs : List Char) :
    Except CalendarFault (CalendarFields × List Char) :=
  match item with
  | .year => (yearNumber cs).map fun (n, rest) => ({ f with year := n }, rest)
  | .month => (count 1 12 cs).map fun (n, rest) => ({ f with month := n }, rest)
  | .day => (count 1 31 cs).map fun (n, rest) => ({ f with day := n }, rest)
  | .hour => (count 0 23 cs).map fun (n, rest) => ({ f with hour := n }, rest)
  | .minute => (count 0 59 cs).map fun (n, rest) => ({ f with minute := n }, rest)
  | .second => (count 0 60 cs).map fun (n, rest) => ({ f with second := n }, rest)
  | .fraction =>
    match cs with
    | '.' :: cs => (nanoseconds cs).map fun (n, rest) => ({ f with nano := n }, rest)
    | cs => .ok (f, cs)
  | .blanks => .ok (f, skipBlanks cs)
  | .literal c =>
    match cs with
    | [] => .error .tooShort
    | d :: rest => if d = c then .ok (f, rest) else .error .invalid

/-- Read a pattern from the start of a text. -/
def readItems : CalendarFields → List PatternItem → List Char →
    Except CalendarFault (CalendarFields × List Char)
  | f, [], cs => .ok (f, cs)
  | f, item :: items, cs => do
    let (f, rest) ← readItem f item cs
    readItems f items rest

/-- Read a pattern that takes the whole text. -/
def readAll (items : List PatternItem) (cs : List Char) : Except CalendarFault CalendarFields := do
  let (f, rest) ← readItems {} items cs
  if rest.isEmpty then .ok f else .error .tooLong

/-- The date of the fields. -/
def date (f : CalendarFields) : Except CalendarFault Date :=
  (Date.ofYmd? f.year f.month f.day).elim (.error .outOfRange) .ok

/-- The time of the fields; the second `60` is a leap second. -/
def time (f : CalendarFields) : Except CalendarFault Time :=
  let t? :=
    if f.second = 60 then Time.ofHms? f.hour f.minute 59 (nanosPerSecond + f.nano)
    else Time.ofHms? f.hour f.minute f.second f.nano
  t?.elim (.error .outOfRange) .ok

end CalendarFields

open CalendarFields

/-! ### Patterns -/

/-- Year, month and day between hyphens. -/
def datePattern : List PatternItem :=
  [.year, .literal '-', .month, .literal '-', .day]

/-- Hour, minute, second and an optional fraction. -/
def timePattern : List PatternItem :=
  [.hour, .literal ':', .minute, .literal ':', .second, .fraction]

/-- Hour and minute. -/
def shortTimePattern : List PatternItem :=
  [.hour, .literal ':', .minute]

/-- A date pattern and a time pattern with a `T` between them. -/
def dateTimePattern : List PatternItem :=
  datePattern ++ .literal 'T' :: timePattern

/-! ### Offsets and timestamps -/

/-- Read exactly so many digits. -/
def fixedDigits (width : Nat) (cs : List Char) : Except CalendarFault (Nat × List Char) :=
  let digits := cs.take width
  if digits.length < width then .error .tooShort
  else if digits.all Char.isDigit then .ok (Decimals.value digits, cs.drop width)
  else .error .invalid

/-- Read one given character. -/
def expectChar (c : Char) (cs : List Char) : Except CalendarFault (List Char) :=
  match cs with
  | [] => .error .tooShort
  | d :: rest => if d = c then .ok rest else .error .invalid

/-- Read an offset from universal time in minutes: `Z`, or a sign, two digits for the hours, a
separator and two digits for the minutes. -/
def readOffset (separator : List Char → Except CalendarFault (List Char)) (cs : List Char) :
    Except CalendarFault (Int × List Char) :=
  let minutes (sign : Int) (cs : List Char) : Except CalendarFault (Int × List Char) := do
    let (h, cs) ← fixedDigits 2 cs
    let cs ← separator cs
    let (m, cs) ← fixedDigits 2 cs
    if m < 60 then .ok (sign * (60 * h + m : Nat), cs) else .error .outOfRange
  match cs with
  | [] => .error .tooShort
  | 'Z' :: rest => .ok (0, rest)
  | 'z' :: rest => .ok (0, rest)
  | '+' :: rest => minutes 1 rest
  | '-' :: rest => minutes (-1) rest
  | '−' :: rest => minutes (-1) rest
  | _ => .error .invalid

/-- Offsets are shorter than a day. -/
def isOffset (minutes : Int) : Bool :=
  minutes.natAbs < 24 * 60

/-- Read the separator of date and time: a `T` in either case or a space. -/
def expectTimeMark (cs : List Char) : Except CalendarFault (List Char) :=
  match cs with
  | [] => .error .tooShort
  | c :: rest => if c = 'T' || c = 't' || c = ' ' then .ok rest else .error .invalid

/-- Keep a count that is within bounds. -/
def inRange (low high n : Nat) : Except CalendarFault Unit :=
  if low ≤ n ∧ n ≤ high then .ok () else .error .outOfRange

/-- Read an internet timestamp of fixed widths: the local date and time, and the offset. -/
def readTimestamp (cs : List Char) : Except CalendarFault (Date × Time × Int) := do
  let (year, cs) ← fixedDigits 4 cs
  let cs ← expectChar '-' cs
  let (month, cs) ← fixedDigits 2 cs
  inRange 1 12 month
  let cs ← expectChar '-' cs
  let (day, cs) ← fixedDigits 2 cs
  inRange 1 31 day
  let cs ← expectTimeMark cs
  let (hour, cs) ← fixedDigits 2 cs
  inRange 0 23 hour
  let cs ← expectChar ':' cs
  let (minute, cs) ← fixedDigits 2 cs
  inRange 0 59 minute
  let cs ← expectChar ':' cs
  let (second, cs) ← fixedDigits 2 cs
  inRange 0 60 second
  let (nano, cs) ←
    match cs with
    | '.' :: cs => nanoseconds cs
    | cs => .ok (0, cs)
  let (offset, cs) ← readOffset (expectChar ':') cs
  if !isOffset offset then .error .outOfRange
  else if !cs.isEmpty then .error .tooLong
  else
    let f : CalendarFields := ⟨year, month, day, hour, minute, second, nano⟩
    .ok (← f.date, ← f.time, offset)

/-! ### Texts of dates and times -/

/-- The date that a text shows: a date, an internet timestamp, or a date and a time. The time and
the offset are read and dropped. -/
def Date.ofText? (s : String) : Option Date :=
  match (readAll datePattern s.toList).bind date with
  | .ok d => some d
  | .error _ =>
    match readTimestamp s.toList with
    | .ok (d, _, _) => some d
    | .error _ =>
      let both : Except CalendarFault Date := do
        let f ← readAll dateTimePattern s.toList
        let _ ← f.time
        f.date
      both.toOption

/-- The time that a text shows, with or without seconds. -/
def Time.ofText (s : String) : Except CalendarFault Time :=
  match (readAll timePattern s.toList).bind time with
  | .ok t => .ok t
  | .error _ => (readAll shortTimePattern s.toList).bind time

end EntityModel
