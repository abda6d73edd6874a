import EntityModel.Calendar.Reader

/-!
# Timestamps

A timestamp is a date and a time of day in universal time. It is written in the internet format
with the suffix `Z`, and read in the relaxed form of that format, in which fields may be short and
blanks may stand between them, with any offset.
-/

namespace EntityModel

open CalendarFields

/-- A date and a time in universal time, in which leap seconds come after the second `59`. -/
structure Timestamp where
  date : Date
  time : Time
  regular : time.isRegular
deriving DecidableEq, Repr

namespace Timestamp

/-- The text of a timestamp, such as `2023-05-02T06:00:00Z`. -/
def text (t : Timestamp) : String :=
  String.ofList (t.date.chars ++ 'T' :: t.time.chars ++ ['Z'])

/-- The universal time of a local date and time at an offset in minutes. -/
def ofLocal (date : Date) (time : Time) (offset : Int) : Except CalendarFault Timestamp :=
  let minutes : Int := 60 * time.hour + time.minute - offset
  let day? :=
    if minutes < 0 then date.previous?
    else if 24 * 60 ≤ minutes then date.next?
    else some date
  let minuteOfDay := (minutes % (24 * 60)).toNat
  let time? := Time.ofHms? (minuteOfDay / 60) (minuteOfDay % 60) time.second time.nano
  match day?, time? with
  | some day, some time =>
    if h : time.isRegular then .ok ⟨day, time, h⟩ else .error .impossible
  | _, _ => .error .impossible

/-- The date of a relaxed timestamp: blanks may stand before the hyphens. -/
def relaxedDate : List PatternItem :=
  [.year, .blanks, .literal '-', .month, .blanks, .literal '-', .day]

/-- The time of a relaxed timestamp: blanks may stand before the colons and at the end. -/
def relaxedTime : List PatternItem :=
  [.hour, .blanks, .literal ':', .minute, .blanks, .literal ':', .second, .fraction, .blanks]

/-- Skip colons and blanks. -/
def skipColons (cs : List Char) : Except CalendarFault (List Char) :=
  .ok (cs.dropWhile fun c => c = ':' || isBlank c)

/-- Read an offset, which may also be the word `UTC` in any case. -/
def readZone (cs : List Char) : Except CalendarFault (Int × List Char) :=
  match cs with
  | [] => .error .tooShort
  | cs =>
    if (cs.take 3).map Char.toUpper = ['U', 'T', 'C'] then .ok (0, cs.drop 3)
    else readOffset skipColons cs

/-- Read a relaxed timestamp. -/
def ofText (s : String) : Except CalendarFault Timestamp := do
  let (f, cs) ← readItems {} relaxedDate s.toList
  let cs ← expectTimeMark cs
  let (f, cs) ← readItems f relaxedTime cs
  let (offset, cs) ← readZone cs
  if !(skipBlanks cs).isEmpty then .error .tooLong
  else
    let date ← f.date
    let time ← f.time
    if isOffset offset then ofLocal date time offset else .error .outOfRange

end Timestamp

end EntityModel
