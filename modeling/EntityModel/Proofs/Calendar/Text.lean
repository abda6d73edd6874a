import EntityModel.Calendar.Reader
import EntityModel.Proofs.Number.Digits
import Mathlib.Data.List.TakeWhile

/-!
# Dates and times read back

Each piece of a pattern reads what is written for it and leaves the rest of the text, so a date is
read back from its text, years with a sign included. A time is read as the regular time that has its
text, so it is read back, with its fraction and as a leap second, if and only if it is regular.
-/

namespace EntityModel

open CalendarFields Decimals

/-! ### Counts -/

namespace CalendarFields

variable {ds rest : List Char} {width : Option Nat}

lemma number_eq (hne : ds ≠ []) (hvalue : value ds < Nat.pow 2 63)
    (hdigits : (width.elim (ds ++ rest) (ds ++ rest).take).takeWhile Char.isDigit = ds) :
    number width (ds ++ rest) = .ok (value ds, rest) := by
  cases ds with
  | nil => exact absurd rfl hne
  | cons d ds =>
    rw [number, hdigits]
    · simp only [List.isEmpty_cons, Bool.false_eq_true, if_false, List.drop_left,
        if_neg (Nat.not_le_of_lt hvalue)]
    · exact fun h => nomatch h

/-- A run of digits is read to its end if nothing else of that sort follows. -/
lemma number_none (hd : ∀ c ∈ ds, c.isDigit) (hne : ds ≠ []) (hvalue : value ds < Nat.pow 2 63)
    (hrest : ∀ c ∈ rest.head?, c.isDigit = false) :
    number none (ds ++ rest) = .ok (value ds, rest) := by
  refine number_eq hne hvalue ?_
  rw [Option.elim_none]
  exact takeWhile_append_of_head hd hrest

/-- A run of digits that fills the width is read, whatever follows. -/
lemma number_some {n : Nat} (hd : ∀ c ∈ ds, c.isDigit) (hne : ds ≠ [])
    (hvalue : value ds < Nat.pow 2 63) (hlen : ds.length = n) :
    number (some n) (ds ++ rest) = .ok (value ds, rest) := by
  refine number_eq hne hvalue ?_
  rw [Option.elim_some, ← hlen, List.take_left]
  exact List.takeWhile_eq_self_iff.2 hd

lemma count_padded {low high n : Nat} (hlow : low ≤ n) (hhigh : n ≤ high) (h : n < 100)
    (rest : List Char) : count low high (padded 2 n ++ rest) = .ok (n, rest) := by
  have hvalue := value_padded_lt (Nat.lt_trans h (by decide)) 2
  rw [count, skipBlanks_digits (isDigit_padded 2 n) (padded_ne_nil 2 n),
    number_some (isDigit_padded 2 n) (padded_ne_nil 2 n) hvalue (length_padded (by decide) h)]
  change (if low ≤ value (padded 2 n) ∧ value (padded 2 n) ≤ high then _ else _) = _
  rw [value_padded, if_pos ⟨hlow, hhigh⟩]

/-! ### Years -/

lemma isDigit_of_append_eq_cons (hd : ∀ c ∈ ds, c.isDigit) (hne : ds ≠ []) {c : Char}
    {cs : List Char} (h : ds ++ rest = c :: cs) : c.isDigit := by
  cases ds with
  | nil => exact absurd rfl hne
  | cons d ds =>
    cases h
    exact hd c List.mem_cons_self

lemma yearNumber_unsigned {n : Nat} (h : n ≤ 9999) :
    yearNumber (padded 4 n ++ rest) = .ok ((n : Int), rest) := by
  have hd := isDigit_padded 4 n
  have hlen : (padded 4 n).length = 4 := length_padded (by decide) (Nat.lt_succ_of_le h)
  have hvalue := value_padded_lt (Nat.lt_of_le_of_lt h (by decide)) 4
  have hrange : Int32.minValue.toInt ≤ (n : Int) ∧ (n : Int) ≤ Int32.maxValue.toInt :=
    ⟨Int.le_trans (by decide) (Int.natCast_nonneg n),
      Int.le_trans (Int.ofNat_le.2 h) (by decide)⟩
  rw [yearNumber, skipBlanks_digits hd (padded_ne_nil 4 n)]
  split
  · rename_i cs heq
    exact absurd (isDigit_of_append_eq_cons hd (padded_ne_nil 4 n) heq) (by decide)
  · rename_i cs heq
    exact absurd (isDigit_of_append_eq_cons hd (padded_ne_nil 4 n) heq) (by decide)
  · rw [number_some hd (padded_ne_nil 4 n) hvalue hlen, value_padded]
    exact if_pos hrange

/-- A year with a sign takes all digits that follow. -/
lemma yearNumber_signed {n : Nat} (h : n ≤ 262143) (hrest : ∀ c ∈ rest.head?, c.isDigit = false) :
    yearNumber ('-' :: (padded 4 n ++ rest)) = .ok (-(n : Int), rest) ∧
      yearNumber ('+' :: (padded 4 n ++ rest)) = .ok ((n : Int), rest) := by
  have hvalue := value_padded_lt (Nat.lt_of_le_of_lt h (by decide)) 4
  have hle : (n : Int) ≤ 262143 := Int.ofNat_le.2 h
  have hnonneg : 0 ≤ (n : Int) := Int.natCast_nonneg n
  have hnumber := number_none (isDigit_padded 4 n) (padded_ne_nil 4 n) hvalue hrest
  have hmin : Int32.minValue.toInt = -2147483648 := by decide
  have hmax : Int32.maxValue.toInt = 2147483647 := by decide
  constructor
  · have hrange : Int32.minValue.toInt ≤ -(n : Int) ∧ -(n : Int) ≤ Int32.maxValue.toInt := by omega
    rw [yearNumber, skipBlanks_cons (by decide)]
    simp only [hnumber, value_padded]
    exact if_pos hrange
  · have hrange : Int32.minValue.toInt ≤ (n : Int) ∧ (n : Int) ≤ Int32.maxValue.toInt := by omega
    rw [yearNumber, skipBlanks_cons (by decide)]
    simp only [hnumber, value_padded]
    exact if_pos hrange

lemma yearNumber_yearText {y : Int} (hlow : -262143 ≤ y) (hhigh : y ≤ 262142)
    (hrest : ∀ c ∈ rest.head?, c.isDigit = false) :
    yearNumber (Date.yearText y ++ rest) = .ok (y, rest) := by
  rw [Date.yearText]
  split_ifs with hfour hneg
  · rw [yearNumber_unsigned (by omega), Int.toNat_of_nonneg hfour.1]
  · have habs : -(y.natAbs : Int) = y := by omega
    have hminus := (yearNumber_signed (n := y.natAbs) (by omega) hrest).1
    rw [habs] at hminus
    exact hminus
  · have habs : (y.natAbs : Int) = y := by omega
    have hplus := (yearNumber_signed (n := y.natAbs) (by omega) hrest).2
    rw [habs] at hplus
    exact hplus

/-! ### Fractions -/

lemma takeWhile_isDigit_eq_nil (hrest : ∀ c ∈ rest.head?, c.isDigit = false) (n : Nat) :
    (rest.take n).takeWhile Char.isDigit = [] := by
  cases rest with
  | nil => simp
  | cons c rest =>
    cases n with
    | zero => rfl
    | succ n => simp [hrest c rfl]

lemma nanoseconds_padded {n k : Nat} (hpos : 0 < n) (hle : n ≤ 9) (hk : k < Nat.pow 10 n)
    (hrest : ∀ c ∈ rest.head?, c.isDigit = false) :
    nanoseconds (padded n k ++ rest) = .ok (k * Nat.pow 10 (9 - n), rest) := by
  have hlen : (padded n k).length = n := length_padded hpos hk
  have hpow : Nat.pow 10 n ≤ Nat.pow 10 9 := Nat.pow_le_pow_right (by decide) hle
  have hvalue := value_padded_lt (Nat.lt_of_lt_of_le hk hpow) n
  have hnumber : number (some 9) (padded n k ++ rest) = .ok (k, rest) := by
    rw [number_eq (padded_ne_nil n k) hvalue, value_padded]
    rw [Option.elim_some, List.take_append, hlen, List.take_of_length_le (by omega),
      List.takeWhile_append_of_pos (isDigit_padded n k), takeWhile_isDigit_eq_nil hrest,
      List.append_nil]
  have hdrop : rest.dropWhile Char.isDigit = rest := by
    cases rest with
    | nil => rfl
    | cons c rest => simp [hrest c rfl]
  rw [nanoseconds, hnumber]
  change Except.ok (k * Nat.pow 10 (9 - ((padded n k ++ rest).length - rest.length)),
    rest.dropWhile Char.isDigit) = _
  rw [hdrop, List.length_append, hlen, Nat.add_sub_cancel]

/-! ### Patterns -/

variable {f f' : CalendarFields} {item : PatternItem} {items : List PatternItem} {cs : List Char}

lemma readItems_of_ok (h : readItem f item cs = .ok (f', rest)) :
    readItems f (item :: items) cs = readItems f' items rest := by
  rw [readItems, h]
  rfl

lemma readItem_literal (c : Char) : readItem f (.literal c) (c :: rest) = .ok (f, rest) :=
  if_pos rfl

lemma readItem_year {y : Int} (hlow : -262143 ≤ y) (hhigh : y ≤ 262142)
    (hrest : ∀ c ∈ rest.head?, c.isDigit = false) :
    readItem f .year (Date.yearText y ++ rest) = .ok ({ f with year := y }, rest) := by
  rw [readItem, yearNumber_yearText hlow hhigh hrest]
  rfl

lemma readItem_month {n : Nat} (hlow : 1 ≤ n) (hhigh : n ≤ 12) :
    readItem f .month (padded 2 n ++ rest) = .ok ({ f with month := n }, rest) := by
  rw [readItem, count_padded hlow hhigh (by omega)]
  rfl

lemma readItem_day {n : Nat} (hlow : 1 ≤ n) (hhigh : n ≤ 31) :
    readItem f .day (padded 2 n ++ rest) = .ok ({ f with day := n }, rest) := by
  rw [readItem, count_padded hlow hhigh (by omega)]
  rfl

lemma readItem_hour {n : Nat} (h : n ≤ 23) :
    readItem f .hour (padded 2 n ++ rest) = .ok ({ f with hour := n }, rest) := by
  rw [readItem, count_padded (Nat.zero_le _) h (by omega)]
  rfl

lemma readItem_minute {n : Nat} (h : n ≤ 59) :
    readItem f .minute (padded 2 n ++ rest) = .ok ({ f with minute := n }, rest) := by
  rw [readItem, count_padded (Nat.zero_le _) h (by omega)]
  rfl

lemma readItem_second {n : Nat} (h : n ≤ 60) :
    readItem f .second (padded 2 n ++ rest) = .ok ({ f with second := n }, rest) := by
  rw [readItem, count_padded (Nat.zero_le _) h (by omega)]
  rfl

lemma readItem_point {n k : Nat} (hpos : 0 < n) (hle : n ≤ 9) (hk : k < Nat.pow 10 n)
    (hrest : ∀ c ∈ rest.head?, c.isDigit = false) :
    readItem f .fraction ('.' :: padded n k ++ rest) =
      .ok ({ f with nano := k * Nat.pow 10 (9 - n) }, rest) := by
  rw [List.cons_append, readItem, nanoseconds_padded hpos hle hk hrest]
  rfl

/-- A fraction is read from as many digits as it is written with, or from none. -/
lemma readItem_fraction {n : Nat} (hn : n < nanosPerSecond) (hf : f.nano = 0)
    (hrest : ∀ c ∈ rest.head?, c.isDigit = false ∧ c ≠ '.') :
    readItem f .fraction (Time.fractionText n ++ rest) = .ok ({ f with nano := n }, rest) := by
  have hdigit : ∀ c ∈ rest.head?, c.isDigit = false := fun c hc => (hrest c hc).1
  rw [nanosPerSecond] at hn
  rw [Time.fractionText]
  split_ifs with h₀ h₆ h₃
  · subst h₀
    rw [← hf, List.nil_append]
    cases rest with
    | nil => rfl
    | cons c rest =>
      rw [readItem]
      intro cs heq
      cases heq
      exact (hrest '.' rfl).2 rfl
  · have hlt : n / 1000000 < Nat.pow 10 3 := by
      show n / 1000000 < 1000
      omega
    have hnano : n / 1000000 * Nat.pow 10 (9 - 3) = n := by
      show n / 1000000 * 1000000 = n
      omega
    rw [readItem_point (by decide) (by decide) hlt hdigit, hnano]
  · have hlt : n / 1000 < Nat.pow 10 6 := by
      show n / 1000 < 1000000
      omega
    have hnano : n / 1000 * Nat.pow 10 (9 - 6) = n := by
      show n / 1000 * 1000 = n
      omega
    rw [readItem_point (by decide) (by decide) hlt hdigit, hnano]
  · have hlt : n < Nat.pow 10 9 := hn
    have hnano : n * Nat.pow 10 (9 - 9) = n := Nat.mul_one n
    rw [readItem_point (by decide) (by decide) hlt hdigit, hnano]

end CalendarFields

/-! ### Dates -/

lemma Date.chars_ne_nil (d : Date) : d.chars ≠ [] := by
  rw [Date.chars]
  simp

lemma Date.bounds (d : Date) :
    -262143 ≤ d.year ∧ d.year ≤ 262142 ∧ 1 ≤ d.month ∧ d.month ≤ 12 ∧ 1 ≤ d.day ∧ d.day ≤ 31 := by
  have hvalid := d.valid
  simp only [isDate, Bool.and_eq_true, decide_eq_true_eq] at hvalid
  obtain ⟨⟨⟨⟨⟨hlow, hhigh⟩, hm⟩, hm'⟩, hd⟩, hd'⟩ := hvalid
  have hdays : daysInMonth d.year d.month ≤ 31 := by
    unfold daysInMonth
    split
    · split <;> decide
    all_goals decide
  exact ⟨hlow, hhigh, hm, hm', hd, Nat.le_trans hd' hdays⟩

/-- A date pattern reads the characters of a date. -/
lemma CalendarFields.readItems_date (d : Date) (f : CalendarFields) (items : List PatternItem)
    (rest : List Char) :
    readItems f (datePattern ++ items) (d.chars ++ rest) =
      readItems { f with year := d.year, month := d.month, day := d.day } items rest := by
  obtain ⟨hlow, hhigh, hm, hm', hd, hd'⟩ := d.bounds
  have hhyphen (cs : List Char) : ∀ c ∈ ('-' :: cs).head?, c.isDigit = false := by
    intro c hc
    cases hc
    rfl
  have hchars : d.chars ++ rest =
      Date.yearText d.year ++ '-' :: (padded 2 d.month ++ '-' :: (padded 2 d.day ++ rest)) := by
    simp only [Date.chars, List.append_assoc, List.cons_append]
  rw [hchars, datePattern]
  simp only [List.cons_append, List.nil_append]
  rw [readItems_of_ok (readItem_year hlow hhigh (hhyphen _)),
    readItems_of_ok (readItem_literal '-'), readItems_of_ok (readItem_month hm hm'),
    readItems_of_ok (readItem_literal '-'), readItems_of_ok (readItem_day hd hd')]

lemma CalendarFields.date_eq (d : Date) {f : CalendarFields} (hy : f.year = d.year)
    (hm : f.month = d.month) (hd : f.day = d.day) : f.date = .ok d := by
  rw [date, hy, hm, hd, Date.ofYmd?_eq_some_iff.2 ⟨rfl, rfl, rfl⟩]
  rfl

/-- A date is read back from its text. -/
theorem Date.ofText?_text (d : Date) : Date.ofText? d.text = some d := by
  have hread := readItems_date d {} [] []
  rw [List.append_nil, List.append_nil] at hread
  have hall : (readAll datePattern d.chars).bind date = .ok d := by
    rw [readAll, hread]
    exact date_eq d rfl rfl rfl
  rw [Date.ofText?, Date.text, String.toList_ofList, hall]

/-! ### Times -/

namespace Time

/-- The second that the text of a time shows. -/
def shownSecond (t : Time) : Nat :=
  if nanosPerSecond ≤ t.nano then t.second + 1 else t.second

lemma bounds (t : Time) :
    t.hour ≤ 23 ∧ t.minute ≤ 59 ∧ t.shownSecond ≤ 60 ∧ t.nano < 2 * nanosPerSecond := by
  have hvalid := t.valid
  simp only [isTime, Bool.and_eq_true, decide_eq_true_eq] at hvalid
  obtain ⟨⟨⟨hh, hm⟩, hs⟩, hn⟩ := hvalid
  rw [shownSecond]
  split_ifs <;> exact ⟨by omega, by omega, by omega, hn⟩

lemma isRegular_iff {t : Time} : t.isRegular ↔ t.nano < nanosPerSecond ∨ t.second = 59 := by
  rw [isRegular, Bool.or_eq_true, decide_eq_true_eq, decide_eq_true_eq]

lemma shownSecond_cases {t : Time} (h : t.isRegular) :
    t.nano < nanosPerSecond ∧ t.shownSecond = t.second ∧ t.second ≠ 60 ∨
      nanosPerSecond ≤ t.nano ∧ t.shownSecond = 60 ∧ t.second = 59 := by
  have hvalid := t.valid
  simp only [isTime, Bool.and_eq_true, decide_eq_true_eq] at hvalid
  rw [isRegular_iff] at h
  rw [shownSecond]
  split_ifs with hn
  · exact .inr ⟨hn, by omega, by omega⟩
  · exact .inl ⟨by omega, rfl, by omega⟩

/-! A leap second that is not regular has the text of a time of the next second. -/

lemma isTime_next {t : Time} (h : ¬ t.isRegular) :
    isTime t.hour t.minute (t.second + 1) (t.nano - nanosPerSecond) := by
  have hvalid := t.valid
  simp only [isTime, Bool.and_eq_true, decide_eq_true_eq] at hvalid ⊢
  rw [isRegular_iff] at h
  omega

/-- The regular time that has the text of a time. -/
def shown (t : Time) : Time :=
  if h : t.isRegular then t
  else ⟨t.hour, t.minute, t.second + 1, t.nano - nanosPerSecond, isTime_next h⟩

lemma shown_of_isRegular {t : Time} (h : t.isRegular) : t.shown = t :=
  dif_pos h

lemma isRegular_shown (t : Time) : t.shown.isRegular := by
  rw [shown]
  split_ifs with h
  · exact h
  · have hn := t.bounds.2.2.2
    exact isRegular_iff.2 (.inl (show t.nano - nanosPerSecond < nanosPerSecond by omega))

/-- The text of a time shows it if and only if it is regular. -/
lemma shown_eq_self_iff {t : Time} : t.shown = t ↔ t.isRegular := by
  constructor
  · intro h
    rw [← h]
    exact t.isRegular_shown
  · exact shown_of_isRegular

lemma chars_shown (t : Time) : t.shown.chars = t.chars := by
  rw [shown]
  split_ifs with h
  · rfl
  · have hn := t.bounds.2.2.2
    have hleap : nanosPerSecond ≤ t.nano := by
      rw [isRegular_iff] at h
      omega
    have hplain : ¬ nanosPerSecond ≤ t.nano - nanosPerSecond := by omega
    have hnano : (t.nano - nanosPerSecond) % nanosPerSecond = t.nano % nanosPerSecond :=
      (Nat.mod_eq_sub_mod hleap).symm
    simp only [chars, hplain, hleap, if_true, if_false, hnano]

end Time

/-- A time pattern reads the counts of a time, up to the fraction. -/
lemma CalendarFields.readItems_counts {h m s : Nat} (hh : h ≤ 23) (hm : m ≤ 59) (hs : s ≤ 60)
    (f : CalendarFields) (items : List PatternItem) (rest : List Char) :
    readItems f (timePattern ++ items)
        (padded 2 h ++ ':' :: (padded 2 m ++ ':' :: (padded 2 s ++ rest))) =
      readItems { f with hour := h, minute := m, second := s } (.fraction :: items) rest := by
  rw [timePattern]
  simp only [List.cons_append, List.nil_append]
  rw [readItems_of_ok (readItem_hour hh), readItems_of_ok (readItem_literal ':'),
    readItems_of_ok (readItem_minute hm), readItems_of_ok (readItem_literal ':'),
    readItems_of_ok (readItem_second hs)]

/-- A time pattern reads the characters of a time. -/
lemma CalendarFields.readItems_time (t : Time) {f : CalendarFields} (hf : f.nano = 0)
    (items : List PatternItem) (rest : List Char)
    (hrest : ∀ c ∈ rest.head?, c.isDigit = false ∧ c ≠ '.') :
    readItems f (timePattern ++ items) (t.chars ++ rest) =
      readItems { f with hour := t.hour, minute := t.minute, second := t.shownSecond,
                         nano := t.nano % nanosPerSecond } items rest := by
  obtain ⟨hh, hm, hs, -⟩ := t.bounds
  have hnano : t.nano % nanosPerSecond < nanosPerSecond := Nat.mod_lt _ (by decide)
  have hchars : t.chars ++ rest =
      padded 2 t.hour ++ ':' :: (padded 2 t.minute ++ ':' :: (padded 2 t.shownSecond ++
        (Time.fractionText (t.nano % nanosPerSecond) ++ rest))) := by
    simp only [Time.chars, Time.shownSecond, List.append_assoc, List.cons_append]
  rw [hchars, readItems_counts hh hm hs]
  exact readItems_of_ok (readItem_fraction hnano hf hrest)

/-- The counts that the text of a regular time shows make this time. -/
lemma CalendarFields.time_shown {t : Time} (h : t.isRegular) {f : CalendarFields}
    (hh : f.hour = t.hour) (hm : f.minute = t.minute) (hs : f.second = t.shownSecond)
    (hn : f.nano = t.nano % nanosPerSecond) : f.time = .ok t := by
  have hlt := t.bounds.2.2.2
  rw [time, hh, hm, hs, hn]
  rcases Time.shownSecond_cases h with ⟨hnano, hs, hne⟩ | ⟨hnano, hs, hs'⟩
  · have hplain : Time.ofHms? t.hour t.minute t.second t.nano = some t :=
      Time.ofHms?_eq_some_iff.2 ⟨h, rfl, rfl, rfl, rfl⟩
    simp only [hs, if_neg hne, Nat.mod_eq_of_lt hnano, hplain, Option.elim_some]
  · have hrest : nanosPerSecond + t.nano % nanosPerSecond = t.nano := by
      rw [nanosPerSecond] at hlt hnano ⊢
      omega
    have hleap : Time.ofHms? t.hour t.minute 59 t.nano = some t :=
      Time.ofHms?_eq_some_iff.2 ⟨h, rfl, rfl, hs', rfl⟩
    simp only [hs, if_true, hrest, hleap, Option.elim_some]

lemma Time.ofText_text_of_isRegular {t : Time} (h : t.isRegular) : Time.ofText t.text = .ok t := by
  have hread := readItems_time t (f := {}) rfl [] [] fun c hc => nomatch hc
  rw [List.append_nil, List.append_nil] at hread
  have hall : (readAll timePattern t.chars).bind time = .ok t := by
    rw [readAll, hread]
    exact time_shown h rfl rfl rfl rfl
  rw [Time.ofText, Time.text, String.toList_ofList, hall]

/-- What is read from the text of a time is the regular time that has this text. -/
theorem Time.ofText_text (t : Time) : Time.ofText t.text = .ok t.shown := by
  rw [Time.text, ← t.chars_shown]
  exact ofText_text_of_isRegular t.isRegular_shown

end EntityModel
