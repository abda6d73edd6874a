import EntityModel.Proofs.Conversion.RoundTrip
import EntityModel.Proofs.Number.Notation

/-!
# Dates of timestamps

A date is read from a text that goes on with a time of day and an offset from universal time. The
date is the one that is written: neither the time nor the offset moves it, even where the date in
universal time is another.
-/

namespace EntityModel

open CalendarFields Decimals

/-! ### Times and offsets as they are written -/

/-- A time of day as it is written: two digits each for the hour, the minute and the second, and any
number of digits behind a point. Without such digits there is no point. -/
structure WrittenTime where
  hour : Fin 24
  minute : Fin 60
  second : Fin 60
  fraction : List Char
  isDigit : ∀ c ∈ fraction, c.isDigit

namespace WrittenTime

/-- The point and the digits behind it. -/
def fractionChars (t : WrittenTime) : List Char :=
  if t.fraction = [] then [] else '.' :: t.fraction

/-- The characters of a time. -/
def chars (t : WrittenTime) : List Char :=
  padded 2 t.hour ++ ':' :: padded 2 t.minute ++ ':' :: padded 2 t.second ++ t.fractionChars

/-- The nanoseconds of a time. Digits behind the ninth do not count. -/
def nano (t : WrittenTime) : Nat :=
  value (t.fraction.take 9) * Nat.pow 10 (9 - t.fraction.length)

end WrittenTime

/-- How far a time is from universal time, as it is written behind the time. -/
inductive WrittenZone where
  /-- Nothing is written. -/
  | unknown
  /-- The letter `Z`. -/
  | universal
  /-- A sign, two digits for the hours and two for the minutes. -/
  | offset (isWest : Bool) (hour : Fin 24) (minute : Fin 60)

namespace WrittenZone

/-- The characters of a zone. -/
def chars : WrittenZone → List Char
  | .unknown => []
  | .universal => ['Z']
  | .offset isWest hour minute =>
    (if isWest then '-' else '+') :: padded 2 hour ++ ':' :: padded 2 minute

/-- The offset in minutes. -/
def minutes : WrittenZone → Int
  | .unknown => 0
  | .universal => 0
  | .offset isWest hour minute => (if isWest then -1 else 1) * (60 * hour.val + minute.val : Nat)

end WrittenZone

/-! ### Digits -/

section Digits

variable {ds rest : List Char}

lemma fixedDigits_padded {width n : Nat} (hw : 0 < width) (h : n < Nat.pow 10 width)
    (rest : List Char) : fixedDigits width (padded width n ++ rest) = .ok (n, rest) := by
  have hlen := length_padded hw h
  have hdigits : (padded width n).all Char.isDigit := List.all_eq_true.2 (isDigit_padded width n)
  rw [fixedDigits, List.take_left' hlen, List.drop_left' hlen, hlen, value_padded]
  simp [hdigits]

lemma value_lt (hd : ∀ c ∈ ds, c.isDigit) : value ds < Nat.pow 10 ds.length := by
  have h := Decimal.ofDigitChars_lt hd 0
  rwa [Nat.zero_add, Nat.one_mul] at h

lemma expectChar_self (c : Char) (cs : List Char) : expectChar c (c :: cs) = .ok cs :=
  if_pos rfl

/-- The digits of a fraction are read up to the ninth and skipped from there on. -/
lemma nanoseconds_digits (hd : ∀ c ∈ ds, c.isDigit) (hne : ds ≠ [])
    (hrest : ∀ c ∈ rest.head?, c.isDigit = false) :
    nanoseconds (ds ++ rest) =
      .ok (value (ds.take 9) * Nat.pow 10 (9 - ds.length), rest) := by
  have hfirst : ∀ c ∈ ds.take 9, c.isDigit := fun c hc => hd c (List.mem_of_mem_take hc)
  have hlast : ∀ c ∈ ds.drop 9, c.isDigit := fun c hc => hd c (List.mem_of_mem_drop hc)
  have hsplit : ds ++ rest = ds.take 9 ++ (ds.drop 9 ++ rest) := by
    rw [← List.append_assoc, List.take_append_drop]
  have hvalue : value (ds.take 9) < Nat.pow 2 63 := by
    refine Nat.lt_of_lt_of_le (value_lt hfirst) ?_
    refine Nat.le_trans (Nat.pow_le_pow_right (by decide) (List.length_take_le 9 ds)) (by decide)
  have hnumber : number (some 9) (ds ++ rest) = .ok (value (ds.take 9), ds.drop 9 ++ rest) := by
    have hrun : ((ds.take 9 ++ (ds.drop 9 ++ rest)).take 9).takeWhile Char.isDigit = ds.take 9 := by
      rw [← hsplit, List.take_append, List.takeWhile_append_of_pos hfirst,
        takeWhile_isDigit_eq_nil hrest, List.append_nil]
    rw [hsplit]
    exact number_eq (by simpa using hne) hvalue hrun
  have hlen : (ds ++ rest).length - (ds.drop 9 ++ rest).length = min 9 ds.length := by
    rw [List.length_append, List.length_append, List.length_drop]
    omega
  have hexp : 9 - min 9 ds.length = 9 - ds.length := by omega
  rw [nanoseconds, hnumber]
  change Except.ok (value (ds.take 9) * Nat.pow 10 (9 - ((ds ++ rest).length -
    (ds.drop 9 ++ rest).length)), (ds.drop 9 ++ rest).dropWhile Char.isDigit) = _
  rw [hlen, hexp, dropWhile_append_of_head hlast hrest]

end Digits

/-! ### Fields -/

lemma WrittenTime.nano_lt (t : WrittenTime) : t.nano < nanosPerSecond := by
  have hfirst : ∀ c ∈ t.fraction.take 9, c.isDigit :=
    fun c hc => t.isDigit c (List.mem_of_mem_take hc)
  have hexp : (t.fraction.take 9).length + (9 - t.fraction.length) = 9 := by
    rw [List.length_take]
    omega
  calc t.nano < Nat.pow 10 (t.fraction.take 9).length * Nat.pow 10 (9 - t.fraction.length) :=
        Nat.mul_lt_mul_of_pos_right (value_lt hfirst) (Nat.pow_pos (by decide))
    _ = Nat.pow 10 ((t.fraction.take 9).length + (9 - t.fraction.length)) :=
        (Nat.pow_add 10 _ _).symm
    _ = nanosPerSecond := by rw [hexp]; rfl

lemma WrittenTime.isTime_written (t : WrittenTime) : isTime t.hour t.minute t.second t.nano := by
  have hnano := t.nano_lt
  simp only [isTime, Bool.and_eq_true, decide_eq_true_eq]
  omega

/-- The time of day that is written. -/
def WrittenTime.time (t : WrittenTime) : Time where
  hour := t.hour
  minute := t.minute
  second := t.second
  nano := t.nano
  valid := t.isTime_written

lemma CalendarFields.time_eq (t : WrittenTime) {f : CalendarFields} (hh : f.hour = t.hour)
    (hm : f.minute = t.minute) (hs : f.second = t.second) (hn : f.nano = t.nano) :
    f.time = .ok t.time := by
  have hsecond : f.second ≠ 60 := by omega
  have htime : Time.ofHms? t.hour t.minute t.second t.nano = some t.time :=
    Time.ofHms?_eq_some_iff.2 ⟨Time.isRegular_iff.2 (.inl t.nano_lt), rfl, rfl, rfl, rfl⟩
  rw [time, if_neg hsecond, hh, hm, hs, hn, htime]
  rfl

/-! ### Internet timestamps -/

lemma WrittenTime.fractionChars_cases (t : WrittenTime) :
    t.fractionChars = [] ∧ t.nano = 0 ∨
      ∃ ds, t.fractionChars = '.' :: ds ∧ ∀ rest : List Char,
        (∀ c ∈ rest.head?, c.isDigit = false) → nanoseconds (ds ++ rest) = .ok (t.nano, rest) := by
  rw [fractionChars, nano]
  split_ifs with h
  · exact .inl ⟨rfl, by rw [h]; rfl⟩
  · exact .inr ⟨t.fraction, rfl, fun rest hrest => nanoseconds_digits t.isDigit h hrest⟩

/-- A timestamp in the fixed widths of the internet format is read up to its zone. -/
lemma readTimestamp_local {d : Date} (hyear : 0 ≤ d.year ∧ d.year ≤ 9999) (t : WrittenTime)
    {rest : List Char} (hrest : ∀ c ∈ rest.head?, c.isDigit = false ∧ c ≠ '.') :
    readTimestamp (d.chars ++ 'T' :: (t.chars ++ rest)) =
      (readOffset (expectChar ':') rest).bind fun p =>
        if !isOffset p.1 then .error .outOfRange
        else if !p.2.isEmpty then .error .tooLong
        else .ok (d, t.time, p.1) := by
  obtain ⟨-, -, hm, hm', hd, hd'⟩ := d.bounds
  have hyears (cs : List Char) :
      fixedDigits 4 (padded 4 d.year.toNat ++ cs) = .ok (d.year.toNat, cs) :=
    fixedDigits_padded (by decide) (show d.year.toNat < 10000 by omega) cs
  have hdigits (n : Nat) (hn : n < 100) (cs : List Char) :
      fixedDigits 2 (padded 2 n ++ cs) = .ok (n, cs) :=
    fixedDigits_padded (by decide) hn cs
  have hmark (cs : List Char) : expectTimeMark ('T' :: cs) = .ok cs := rfl
  have hmonth : inRange 1 12 d.month = .ok () := if_pos ⟨hm, hm'⟩
  have hday : inRange 1 31 d.day = .ok () := if_pos ⟨hd, hd'⟩
  have hhour : inRange 0 23 t.hour = .ok () := if_pos (by omega)
  have hminute : inRange 0 59 t.minute = .ok () := if_pos (by omega)
  have hsecond : inRange 0 60 t.second = .ok () := if_pos (by omega)
  have hdate (h m s n : Nat) : date ⟨d.year.toNat, d.month, d.day, h, m, s, n⟩ = .ok d :=
    date_eq d (Int.toNat_of_nonneg hyear.1) rfl rfl
  have htime : time ⟨d.year.toNat, d.month, d.day, t.hour, t.minute, t.second, t.nano⟩ =
      .ok t.time := time_eq t rfl rfl rfl rfl
  have hchars : d.chars ++ 'T' :: (t.chars ++ rest) =
      padded 4 d.year.toNat ++ '-' :: (padded 2 d.month ++ '-' :: (padded 2 d.day ++
        'T' :: (padded 2 t.hour ++ ':' :: (padded 2 t.minute ++ ':' :: (padded 2 t.second ++
          (t.fractionChars ++ rest)))))) := by
    simp only [Date.chars, Date.yearText, if_pos hyear, WrittenTime.chars, List.append_assoc,
      List.cons_append]
  rw [hchars]
  simp only [readTimestamp, hyears, hdigits d.month (by omega), hdigits d.day (by omega),
    hdigits t.hour (by omega), hdigits t.minute (by omega), hdigits t.second (by omega),
    expectChar_self, hmark, hmonth, hday, hhour, hminute, hsecond, bind, Except.bind]
  obtain ⟨hnone, hnano⟩ | ⟨ds, hsome, hnano⟩ := t.fractionChars_cases
  · rw [hnano] at htime
    rw [hnone, List.nil_append]
    split
    · exact absurd rfl (hrest '.' rfl).2
    · simp only [hdate, htime]
  · rw [hsome, List.cons_append]
    simp only [hnano rest fun c hc => (hrest c hc).1, hdate, htime]

/-! ### Zones -/

namespace WrittenZone

lemma head_chars (z : WrittenZone) : ∀ c ∈ z.chars.head?, c.isDigit = false ∧ c ≠ '.' := by
  intro c hc
  cases z with
  | unknown => cases hc
  | universal =>
    cases hc
    decide
  | offset isWest hour minute =>
    cases isWest <;>
    · cases hc
      decide

/-- A zone is read as the offset that is written, and there is none if nothing is written. -/
lemma readOffset_chars {z : WrittenZone} (hz : z ≠ .unknown) :
    readOffset (expectChar ':') z.chars = .ok (z.minutes, []) := by
  cases z with
  | unknown => exact absurd rfl hz
  | universal => rfl
  | offset isWest hour minute =>
    have hhour (cs : List Char) : fixedDigits 2 (padded 2 hour ++ cs) = .ok (hour.val, cs) :=
      fixedDigits_padded (by decide) (show hour.val < 100 by omega) cs
    have hminute : fixedDigits 2 (padded 2 minute ++ []) = .ok (minute.val, []) :=
      fixedDigits_padded (by decide) (show minute.val < 100 by omega) []
    rw [List.append_nil] at hminute
    cases isWest <;>
      simp [chars, minutes, readOffset, bind, Except.bind, hhour, hminute, expectChar_self]

lemma isOffset_minutes (z : WrittenZone) : isOffset z.minutes := by
  rw [isOffset, decide_eq_true_eq]
  cases z with
  | unknown => decide
  | universal => decide
  | offset isWest hour minute =>
    rw [minutes]
    cases isWest <;>
    · simp
      omega

end WrittenZone

/-! ### Dates with times and zones -/

/-- The characters of a date with a time of day and a zone behind it. -/
def Date.charsWith (d : Date) (t : WrittenTime) (z : WrittenZone) : List Char :=
  d.chars ++ 'T' :: (t.chars ++ z.chars)

section Text

variable {d : Date} (t : WrittenTime) {z : WrittenZone}

lemma readAll_date_charsWith (d : Date) (z : WrittenZone) :
    readAll datePattern (d.charsWith t z) = .error .tooLong := by
  have hread := readItems_date d {} [] ('T' :: (t.chars ++ z.chars))
  rw [List.append_nil] at hread
  rw [readAll, Date.charsWith, hread]
  rfl

lemma readTimestamp_charsWith (hyear : 0 ≤ d.year ∧ d.year ≤ 9999) (hz : z ≠ .unknown) :
    readTimestamp (d.charsWith t z) = .ok (d, t.time, z.minutes) := by
  rw [Date.charsWith, readTimestamp_local hyear t z.head_chars, z.readOffset_chars hz]
  simp [Except.bind, z.isOffset_minutes]

lemma readTimestamp_charsWith_unknown (hyear : 0 ≤ d.year ∧ d.year ≤ 9999) :
    readTimestamp (d.charsWith t .unknown) = .error .tooShort := by
  rw [Date.charsWith, readTimestamp_local hyear t (WrittenZone.head_chars .unknown)]
  rfl

lemma readItem_fractionChars {f : CalendarFields} (hf : f.nano = 0) :
    readItem f .fraction t.fractionChars = .ok ({ f with nano := t.nano }, []) := by
  obtain ⟨hnone, hnano⟩ | ⟨ds, hsome, hnano⟩ := t.fractionChars_cases
  · rw [hnone, hnano, ← hf]
    rfl
  · have hread := hnano [] (by simp)
    rw [List.append_nil] at hread
    rw [hsome, readItem, hread]
    rfl

lemma readAll_dateTime_charsWith (d : Date) :
    readAll dateTimePattern (d.charsWith t .unknown) =
      .ok ⟨d.year, d.month, d.day, t.hour, t.minute, t.second, t.nano⟩ := by
  have hchars : t.chars ++ WrittenZone.unknown.chars = padded 2 t.hour ++ ':' ::
      (padded 2 t.minute ++ ':' :: (padded 2 t.second ++ t.fractionChars)) := by
    simp only [WrittenTime.chars, WrittenZone.chars, List.append_assoc, List.cons_append,
      List.append_nil]
  rw [readAll, dateTimePattern, Date.charsWith, readItems_date,
    readItems_of_ok (readItem_literal 'T'), hchars, ← List.append_nil timePattern,
    readItems_counts (by omega) (by omega) (by omega),
    readItems_of_ok (readItem_fractionChars t rfl)]
  rfl

/-- The date is read from a text that goes on with a time and a zone. -/
theorem Date.ofText?_charsWith (hyear : 0 ≤ d.year ∧ d.year ≤ 9999) (z : WrittenZone) :
    Date.ofText? (String.ofList (d.charsWith t z)) = some d := by
  rw [Date.ofText?, String.toList_ofList, readAll_date_charsWith]
  by_cases hz : z = .unknown
  · subst hz
    have hdate : date ⟨d.year, d.month, d.day, t.hour, t.minute, t.second, t.nano⟩ = .ok d :=
      date_eq d rfl rfl rfl
    have htime : time ⟨d.year, d.month, d.day, t.hour, t.minute, t.second, t.nano⟩ = .ok t.time :=
      time_eq t rfl rfl rfl rfl
    simp only [Except.bind, readTimestamp_charsWith_unknown t hyear, readAll_dateTime_charsWith,
      bind, hdate, htime, Except.toOption]
  · simp only [Except.bind, readTimestamp_charsWith t hyear hz]

end Text

/-- A text that shows a date of four digits for the year, alone or with a time of day and a zone
behind it, is converted to this date, without a warning. The zone does not move the date. -/
theorem Conversions.convert_written_date {d : Date} (hyear : 0 ≤ d.year ∧ d.year ≤ 9999)
    (t : WrittenTime) (z : WrittenZone) :
    builtin.convert (.string (String.ofList (d.charsWith t z))) .date = pure (.date d) ∧
      builtin.convert (.string d.text) .date = pure (.date d) := by
  have hne : d.charsWith t z ≠ [] := List.append_ne_nil_of_left_ne_nil d.chars_ne_nil _
  exact ⟨convert_string_date hne (d.ofText?_charsWith t hyear z), convert_date d⟩

/-- The last day of a year in a zone in which universal time is in the next year. -/
theorem Conversions.convert_exampleNewYearsEve :
    builtin.convert (.string "1999-12-31T23:59:59.9999999999-11:30") .date =
      pure (.date ⟨1999, 12, 31, rfl⟩) := by
  have htext : "1999-12-31T23:59:59.9999999999-11:30" =
      String.ofList (Date.charsWith ⟨1999, 12, 31, rfl⟩
        ⟨23, 59, 59, List.replicate 10 '9', List.all_eq_true.1 rfl⟩ (.offset true 11 30)) := by
    decide
  rw [htext]
  exact (convert_written_date (by decide) _ _).1

end EntityModel
