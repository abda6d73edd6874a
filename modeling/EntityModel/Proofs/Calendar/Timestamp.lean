import EntityModel.Calendar.Timestamp
import EntityModel.Proofs.Calendar.Text

/-!
# Timestamps read back

The relaxed patterns of timestamps allow blanks where their texts have none, and the zone of these
texts is universal time, so a timestamp is read back from its text.
-/

namespace EntityModel

open CalendarFields Decimals

/-! ### Relaxed patterns -/

namespace CalendarFields

variable {f : CalendarFields} {rest : List Char} {c : Char}

/-- Blanks that a pattern allows may be missing. -/
lemma readItem_blanks (h : isBlank c = false) :
    readItem f .blanks (c :: rest) = .ok (f, c :: rest) := by
  rw [readItem, skipBlanks_cons h]

lemma readItems_relaxedDate (d : Date) :
    readItems f Timestamp.relaxedDate (d.chars ++ rest) =
      .ok ({ f with year := d.year, month := d.month, day := d.day }, rest) := by
  obtain ⟨hlow, hhigh, hm, hm', hd, hd'⟩ := d.bounds
  have hhyphen (cs : List Char) : ∀ c ∈ ('-' :: cs).head?, c.isDigit = false := by
    intro c hc
    cases hc
    rfl
  have hblanks (f : CalendarFields) (cs : List Char) :
      readItem f .blanks ('-' :: cs) = .ok (f, '-' :: cs) := readItem_blanks (by decide)
  have hchars : d.chars ++ rest =
      Date.yearText d.year ++ '-' :: (padded 2 d.month ++ '-' :: (padded 2 d.day ++ rest)) := by
    simp only [Date.chars, List.append_assoc, List.cons_append]
  rw [hchars, Timestamp.relaxedDate, readItems_of_ok (readItem_year hlow hhigh (hhyphen _)),
    readItems_of_ok (hblanks _ _), readItems_of_ok (readItem_literal '-'),
    readItems_of_ok (readItem_month hm hm'), readItems_of_ok (hblanks _ _),
    readItems_of_ok (readItem_literal '-'), readItems_of_ok (readItem_day hd hd')]
  rfl

lemma readItems_relaxedTime (t : Time) (hf : f.nano = 0)
    (hc : c.isDigit = false ∧ c ≠ '.' ∧ isBlank c = false) :
    readItems f Timestamp.relaxedTime (t.chars ++ c :: rest) =
      .ok ({ f with hour := t.hour, minute := t.minute, second := t.shownSecond,
                    nano := t.nano % nanosPerSecond }, c :: rest) := by
  obtain ⟨hh, hm, hs, -⟩ := t.bounds
  have hnano : t.nano % nanosPerSecond < nanosPerSecond := Nat.mod_lt _ (by decide)
  have hblanks (f : CalendarFields) (cs : List Char) :
      readItem f .blanks (':' :: cs) = .ok (f, ':' :: cs) := readItem_blanks (by decide)
  have hhead : ∀ d ∈ (c :: rest).head?, d.isDigit = false ∧ d ≠ '.' := by
    intro d hd
    cases hd
    exact ⟨hc.1, hc.2.1⟩
  have hchars : t.chars ++ c :: rest =
      padded 2 t.hour ++ ':' :: (padded 2 t.minute ++ ':' :: (padded 2 t.shownSecond ++
        (Time.fractionText (t.nano % nanosPerSecond) ++ c :: rest))) := by
    simp only [Time.chars, Time.shownSecond, List.append_assoc, List.cons_append]
  rw [hchars, Timestamp.relaxedTime, readItems_of_ok (readItem_hour hh),
    readItems_of_ok (hblanks _ _), readItems_of_ok (readItem_literal ':'),
    readItems_of_ok (readItem_minute hm), readItems_of_ok (hblanks _ _),
    readItems_of_ok (readItem_literal ':'), readItems_of_ok (readItem_second hs)]
  refine (readItems_of_ok (readItem_fraction hnano ?_ hhead)).trans ?_
  · exact hf
  · exact readItems_of_ok (readItem_blanks hc.2.2)

end CalendarFields

/-! ### Universal time -/

namespace Timestamp

/-- A local time that is universal time is that time. -/
lemma ofLocal_zero (d : Date) {t : Time} (h : t.isRegular) : ofLocal d t 0 = .ok ⟨d, t, h⟩ := by
  obtain ⟨hh, hm, -, -⟩ := t.bounds
  have hlow : ¬ (60 * t.hour + t.minute - 0 : Int) < 0 := by omega
  have hhigh : ¬ (24 * 60 : Int) ≤ 60 * t.hour + t.minute - 0 := by omega
  have hminutes : ((60 * t.hour + t.minute - 0 : Int) % (24 * 60)).toNat =
      60 * t.hour + t.minute := by omega
  have hhour : (60 * t.hour + t.minute) / 60 = t.hour := by omega
  have hminute : (60 * t.hour + t.minute) % 60 = t.minute := by omega
  have htime : Time.ofHms? t.hour t.minute t.second t.nano = some t :=
    Time.ofHms?_eq_some_iff.2 ⟨h, rfl, rfl, rfl, rfl⟩
  simp only [ofLocal, if_neg hlow, if_neg hhigh, hminutes, hhour, hminute, htime, dif_pos h]

/-- A timestamp is read back from its text. -/
theorem ofText_text (t : Timestamp) : ofText t.text = .ok t := by
  obtain ⟨d, t, h⟩ := t
  let f : CalendarFields :=
    ⟨d.year, d.month, d.day, t.hour, t.minute, t.shownSecond, t.nano % nanosPerSecond⟩
  have hdate : readItems {} relaxedDate (d.chars ++ 'T' :: (t.chars ++ ['Z'])) =
      .ok ({ year := d.year, month := d.month, day := d.day }, 'T' :: (t.chars ++ ['Z'])) :=
    readItems_relaxedDate d
  have htime : readItems { year := d.year, month := d.month, day := d.day } relaxedTime
      (t.chars ++ ['Z']) = .ok (f, ['Z']) := readItems_relaxedTime t rfl (by decide)
  have hmark (cs : List Char) : expectTimeMark ('T' :: cs) = .ok cs := rfl
  have hzone : readZone ['Z'] = .ok (0, []) := rfl
  have hday : f.date = .ok d := date_eq d rfl rfl rfl
  have htimeOfDay : f.time = .ok t := time_shown h rfl rfl rfl rfl
  simp only [ofText, text, String.toList_ofList, List.append_assoc, List.cons_append, hdate, bind,
    Except.bind, hmark, htime, hzone, hday, htimeOfDay, ofLocal_zero d h]
  rfl

end Timestamp

end EntityModel
