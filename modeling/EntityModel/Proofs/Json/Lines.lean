import EntityModel.Proofs.Number.Digits
import EntityModel.Writer
import Mathlib.Tactic.SplitIfs

/-!
# Line breaks in JSON texts

Strings are written with their line breaks escaped and numbers have none, so a compact text is a
single line, and the only line breaks of an indented text are those that the layout puts between
items and fields. Moving the lines of such a text to the right is therefore the same as writing the
value one level deeper.
-/

namespace EntityModel

/-! ### Texts without line breaks -/

lemma newline_notMem_escapeChar (c : Char) : '\n' ∉ escapeChar c := by
  have hhex : ∀ n < 16, hexDigit n ≠ '\n' := by decide
  rw [escapeChar]
  split_ifs with _ _ hbreak
  case neg => simpa using Ne.symm hbreak
  all_goals simp
  exact ⟨(hhex _ (by omega)).symm, (hhex _ (by omega)).symm⟩

lemma newline_notMem_quoted (s : String) : '\n' ∉ quoted s := by
  simp [quoted, newline_notMem_escapeChar]

lemma newline_notMem_digits (n : Nat) : '\n' ∉ Decimals.digits n := by
  intro h
  have := Decimals.isDigit_of_mem_digits h
  cases this

namespace Double

lemma newline_notMem_positional {digits : List Char} (h : '\n' ∉ digits) (point : Int) :
    '\n' ∉ positional digits point := by
  simp only [positional]
  split_ifs
  · simp [h]
  · simp [h]
  · simp only [List.mem_append, List.mem_cons, not_or]
    refine ⟨?_, by decide, ?_⟩
    · exact fun hmem => h (List.mem_of_mem_take hmem)
    · exact fun hmem => h (List.mem_of_mem_drop hmem)

lemma newline_notMem_signed {body : List Char} (h : '\n' ∉ body) (isNegative : Bool) :
    '\n' ∉ if isNegative then '-' :: body else body := by
  cases isNegative <;> simp [h]

lemma newline_notMem_json (x : Double) : '\n' ∉ x.json.toList := by
  have hdigits := newline_notMem_digits (x.shortest .even).digits
  simp only [json, String.toList_ofList]
  apply newline_notMem_signed
  generalize Decimals.digits (x.shortest .even).digits = ds at hdigits ⊢
  split
  · decide
  · split
    · split
      · exact newline_notMem_positional hdigits _
      · simp [newline_notMem_positional hdigits]
    · rw [List.mem_append, not_or]
      constructor
      · split
        · simp
        · exact hdigits
        · simpa using hdigits
      · split_ifs <;> simp [newline_notMem_digits]

end Double

lemma JsonNumber.newline_notMem_chars (n : JsonNumber) : '\n' ∉ n.chars := by
  cases n with
  | integer n =>
    have hrepr (m : Nat) : '\n' ∉ m.repr.toList := by
      rw [Nat.repr, String.toList_ofList]
      exact newline_notMem_digits m
    cases n with
    | ofNat m => exact hrepr m
    | negSucc m =>
      rw [chars, Int.repr, String.toList_append, List.mem_append, not_or]
      exact ⟨by decide, hrepr _⟩
  | double x => exact x.newline_notMem_json

namespace Json

mutual

/-- A compact text is a single line. -/
lemma newline_notMem_chars : (v : Json) → '\n' ∉ chars v
  | .null => by decide
  | .bool true => by decide
  | .bool false => by decide
  | .number n => n.newline_notMem_chars
  | .string s => newline_notMem_quoted s
  | .array vs => by simpa [chars] using newline_notMem_itemsChars vs
  | .object fs => by simpa [chars] using newline_notMem_fieldsChars fs

lemma newline_notMem_itemsChars : (vs : List Json) → '\n' ∉ itemsChars vs
  | [] => List.not_mem_nil
  | [v] => newline_notMem_chars v
  | v :: w :: vs => by
    have hitem := newline_notMem_chars v
    have hitems := newline_notMem_itemsChars (w :: vs)
    simp [itemsChars, hitem, hitems]

lemma newline_notMem_fieldsChars : (fs : List (String × Json)) → '\n' ∉ fieldsChars fs
  | [] => List.not_mem_nil
  | [(k, v)] => by
    have hvalue := newline_notMem_chars v
    simp [fieldsChars, newline_notMem_quoted k, hvalue]
  | (k, v) :: f :: fs => by
    have hvalue := newline_notMem_chars v
    have hfields := newline_notMem_fieldsChars (f :: fs)
    simp [fieldsChars, newline_notMem_quoted k, hvalue, hfields]

end

end Json

/-! ### Lines moved to the right -/

lemma shiftLines_append (cs ds : List Char) :
    shiftLines (cs ++ ds) = shiftLines cs ++ shiftLines ds :=
  List.flatMap_append

lemma shiftLines_cons {c : Char} (h : c ≠ '\n') (cs : List Char) :
    shiftLines (c :: cs) = c :: shiftLines cs := by
  rw [shiftLines, List.flatMap_cons, if_neg h]
  rfl

lemma shiftLines_of_notMem {cs : List Char} (h : '\n' ∉ cs) : shiftLines cs = cs := by
  induction cs with
  | nil => rfl
  | cons c cs ih =>
    rw [List.mem_cons, not_or] at h
    rw [shiftLines_cons (Ne.symm h.1), ih h.2]

lemma shiftLines_newline (depth : Nat) : shiftLines (newline depth) = newline (depth + 1) := by
  have hblanks : shiftLines (List.replicate (2 * depth) ' ') = List.replicate (2 * depth) ' ' :=
    shiftLines_of_notMem (by simp)
  rw [newline, ← List.singleton_append, shiftLines_append, hblanks]
  rfl

namespace Json

mutual

/-- Moving the lines of a value is writing it one level deeper. -/
lemma shiftLines_indented (depth : Nat) :
    (v : Json) → shiftLines (indented depth v) = indented (depth + 1) v
  | .null => rfl
  | .bool true => rfl
  | .bool false => rfl
  | .number n => shiftLines_of_notMem n.newline_notMem_chars
  | .string s => shiftLines_of_notMem (newline_notMem_quoted s)
  | .array [] => rfl
  | .array (v :: vs) => by
    simp (disch := decide) only [indented, List.cons_append, shiftLines_cons, shiftLines_append,
      shiftLines_newline, shiftLines_indentedItems]
    rfl
  | .object [] => rfl
  | .object (f :: fs) => by
    simp (disch := decide) only [indented, List.cons_append, shiftLines_cons, shiftLines_append,
      shiftLines_newline, shiftLines_indentedFields]
    rfl

lemma shiftLines_indentedItems (depth : Nat) :
    (vs : List Json) → shiftLines (indentedItems depth vs) = indentedItems (depth + 1) vs
  | [] => rfl
  | [v] => by
    simp only [indentedItems, shiftLines_append, shiftLines_newline, shiftLines_indented]
  | v :: w :: vs => by
    simp (disch := decide) only [indentedItems, shiftLines_append, shiftLines_cons,
      shiftLines_newline, shiftLines_indented, shiftLines_indentedItems]

lemma shiftLines_indentedFields (depth : Nat) : (fs : List (String × Json)) →
    shiftLines (indentedFields depth fs) = indentedFields (depth + 1) fs
  | [] => rfl
  | [(k, v)] => by
    simp (disch := decide) only [indentedFields, shiftLines_append, shiftLines_cons,
      shiftLines_newline, shiftLines_of_notMem (newline_notMem_quoted k), shiftLines_indented]
  | (k, v) :: f :: fs => by
    simp (disch := decide) only [indentedFields, shiftLines_append, shiftLines_cons,
      shiftLines_newline, shiftLines_of_notMem (newline_notMem_quoted k), shiftLines_indented,
      shiftLines_indentedFields]

end

end Json

end EntityModel
