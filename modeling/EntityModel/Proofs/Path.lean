import EntityModel.Path
import EntityModel.Proofs.Log

/-!
# Joining paths

The texts of two paths with a point between them are the text of a path, which takes the steps of
the first path and then those of the second.
-/

namespace EntityModel

/-! ### Characters of names -/

lemma ne_of_isIdentifierChar {c d : Char} (hc : isIdentifierChar c)
    (hd : isIdentifierChar d = false) : c ≠ d := by
  rintro rfl
  exact Bool.false_ne_true (hd.symm.trans hc)

lemma isIdentifierChar_of_isDigit {c : Char} (h : c.isDigit) : isIdentifierChar c := by
  rw [isIdentifierChar, Char.isAlphanum, h, Bool.or_true, Bool.true_or]

lemma isDigit_eq_false_of_isAlpha {c : Char} (h : c.isAlpha) : c.isDigit = false := by
  have hfirst : 'A'.toNat ≤ c.toNat := by
    rcases Bool.or_eq_true_iff.1 h with hupper | hlower
    · exact UInt32.le_iff_toNat_le.1 (of_decide_eq_true hupper).1
    · have hlower : 'a'.val ≤ c.val := of_decide_eq_true (Bool.and_eq_true_iff.1 hlower).1
      exact Nat.le_trans (by decide) (UInt32.le_iff_toNat_le.1 hlower)
  refine Bool.eq_false_iff.2 fun hdigit => ?_
  have hlast := (Char.isDigit_iff_toNat.1 hdigit).2
  exact absurd (Nat.le_trans hfirst hlast) (by decide)

/-! ### Parts of a text -/

lemma splitAt_ne_nil (separator : Char) (cs : List Char) : splitAt separator cs ≠ [] := by
  cases cs with
  | nil => simp [splitAt]
  | cons c cs =>
    rw [splitAt]
    split
    · simp
    · split <;> simp

lemma splitAt_append (separator : Char) (p q : List Char) :
    splitAt separator (p ++ separator :: q) = splitAt separator p ++ splitAt separator q := by
  induction p with
  | nil =>
    obtain ⟨part, parts, hq⟩ := List.exists_cons_of_ne_nil (splitAt_ne_nil separator q)
    simp [splitAt, hq]
  | cons c p ih =>
    obtain ⟨part, parts, hp⟩ := List.exists_cons_of_ne_nil (splitAt_ne_nil separator p)
    rw [List.cons_append, splitAt, splitAt, ih, hp]
    by_cases hc : c = separator
    · simp [hc]
    · simp [hc]

lemma splitAt_of_notMem {separator : Char} {cs : List Char} (h : separator ∉ cs) :
    splitAt separator cs = [cs] := by
  induction cs with
  | nil => rfl
  | cons c cs ih =>
    obtain ⟨hc, hcs⟩ := not_or.1 (mt List.mem_cons.2 h)
    rw [splitAt, ih hcs]
    simp only [if_neg (Ne.symm hc)]

/-- The first part is the whole text, or a separator and the other parts follow it. -/
lemma splitAt_eq_cons {separator : Char} {cs part : List Char} {parts : List (List Char)}
    (h : splitAt separator cs = part :: parts) :
    (parts = [] ∧ cs = part) ∨
      ∃ rest, cs = part ++ separator :: rest ∧ splitAt separator rest = parts := by
  induction cs generalizing part with
  | nil =>
    cases h
    exact .inl ⟨rfl, rfl⟩
  | cons c cs ih =>
    obtain ⟨first, others, hsplit⟩ := List.exists_cons_of_ne_nil (splitAt_ne_nil separator cs)
    rw [splitAt, hsplit] at h
    by_cases hc : c = separator
    · simp only [if_pos hc] at h
      cases h
      exact .inr ⟨cs, by rw [hc, List.nil_append], hsplit⟩
    · simp only [if_neg hc] at h
      cases h
      rcases ih hsplit with ⟨hnil, rfl⟩ | ⟨rest, rfl, hrest⟩
      · exact .inl ⟨hnil, rfl⟩
      · exact .inr ⟨rest, rfl, hrest⟩

namespace Path

variable {p q : String} {P Q : Path}

lemma readParts_singleton (part : List Char) : readParts [part] = readPart part := by
  rw [readParts, readParts]
  cases readPart part with
  | error fault => rfl
  | ok segments =>
    change Except.ok (segments ++ []) = _
    rw [List.append_nil]

lemma readParts_append {parts parts' : List (List Char)} {segments segments' : List Segment}
    (h : readParts parts = .ok segments) (h' : readParts parts' = .ok segments') :
    readParts (parts ++ parts') = .ok (segments ++ segments') := by
  induction parts generalizing segments with
  | nil =>
    cases h
    exact h'
  | cons part parts ih =>
    obtain ⟨first, hfirst, h⟩ := bind_eq_ok_iff.1 h
    obtain ⟨others, hothers, h⟩ := bind_eq_ok_iff.1 h
    cases h
    refine bind_eq_ok_iff.2 ⟨first, hfirst, bind_eq_ok_iff.2 ⟨others ++ segments', ih hothers, ?_⟩⟩
    rw [List.append_assoc]

lemma parse_eq_ok_iff :
    parse p = .ok P ↔ p ≠ "" ∧ readParts (splitAt '.' p.toList) = .ok P.segments ∧ P.text = p := by
  rw [parse]
  split
  · simp_all
  · rename_i hne
    cases h : readParts (splitAt '.' p.toList) with
    | error fault => simp
    | ok segments =>
      obtain ⟨text, segments'⟩ := P
      simp [hne, eq_comm, and_comm]

/-- A path starts with a name. -/
lemma exists_field_of_parse (h : parse p = .ok P) :
    ∃ name segments, P.segments = .field name :: segments := by
  obtain ⟨-, h, -⟩ := parse_eq_ok_iff.1 h
  obtain ⟨part, parts, hparts⟩ := List.exists_cons_of_ne_nil (splitAt_ne_nil '.' p.toList)
  rw [hparts] at h
  obtain ⟨first, hfirst, h⟩ := bind_eq_ok_iff.1 h
  obtain ⟨others, -, h⟩ := bind_eq_ok_iff.1 h
  rw [readPart] at hfirst
  split at hfirst
  · cases hfirst
  · split at hfirst
    · cases hfirst
    · obtain ⟨indices, -, rfl⟩ := map_eq_ok_iff.1 hfirst
      injection h with h
      exact ⟨_, _, h.symm⟩

/-- The path of two paths, one after the other. -/
theorem parse_join (hp : parse p = .ok P) (hq : parse q = .ok Q) :
    parse (p ++ "." ++ q) = .ok ⟨p ++ "." ++ q, P.segments ++ Q.segments⟩ := by
  obtain ⟨hne, hp, -⟩ := parse_eq_ok_iff.1 hp
  obtain ⟨-, hq, -⟩ := parse_eq_ok_iff.1 hq
  have htext : (p ++ "." ++ q).toList = p.toList ++ '.' :: q.toList := by
    simp
  refine parse_eq_ok_iff.2 ⟨?_, ?_, rfl⟩
  · intro h
    rw [h] at htext
    simp at htext
  · rw [htext, splitAt_append]
    exact readParts_append hp hq

end Path

end EntityModel
