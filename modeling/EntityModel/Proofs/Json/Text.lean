import EntityModel.Json.Printer
import EntityModel.Json.Reader
import EntityModel.Proofs.Dict
import Mathlib.Data.List.DropRight
import Mathlib.Tactic.SplitIfs

/-!
# JSON texts read back

A JSON text may have blanks between its tokens, and the fields of an object may stand in any order.
Whatever the blanks and the order, a text of a value without numbers is read as that value, and both
forms of writing give such a text.
-/

namespace EntityModel

namespace Json

/-! ### Strings -/

lemma codeUnit?_hexDigit {n : Nat} (h : n < 32) :
    codeUnit? '0' '0' (hexDigit (n / 16)) (hexDigit (n % 16)) = some n := by
  have hall : ∀ n < 32, codeUnit? '0' '0' (hexDigit (n / 16)) (hexDigit (n % 16)) = some n := by
    decide
  exact hall n h

/-- An escaped character is read as the character. -/
lemma readString_escapeChar (c : Char) (acc rest : List Char) :
    readString acc (escapeChar c ++ rest) = readString (c :: acc) rest := by
  rw [escapeChar]
  split_ifs with hquote hbackslash hbreak hreturn htab hback hfeed hcontrol
  · subst hquote; rfl
  · subst hbackslash; rfl
  · subst hbreak; rfl
  · subst hreturn; rfl
  · subst htab; rfl
  · rw [← Char.ofNat_toNat c, hback]; rfl
  · rw [← Char.ofNat_toNat c, hfeed]; rfl
  · simp only [List.cons_append, List.nil_append]
    rw [readString, codeUnit?_hexDigit hcontrol]
    simp only [Char.ofNat_toNat]
    rw [if_neg (by omega), if_neg (by omega)]
  · rw [List.singleton_append, readString, if_neg hcontrol]
    · exact hquote
    · exact fun _ _ _ _ _ h _ => hbackslash h
    · exact fun _ _ h _ => hbackslash h

lemma readString_flatMap_escapeChar (cs acc rest : List Char) :
    readString acc (cs.flatMap escapeChar ++ '"' :: rest) =
      some (String.ofList (acc.reverse ++ cs), rest) := by
  induction cs generalizing acc with
  | nil => simp [readString]
  | cons c cs ih =>
    rw [List.flatMap_cons, List.append_assoc, readString_escapeChar, ih]
    simp

lemma quoted_eq_cons (s : String) : quoted s = '"' :: (quoted s).tail := rfl

/-- A string is read back from its quotes, of which the first one is read already. -/
lemma readString_quoted (s : String) (rest : List Char) :
    readString [] ((quoted s).tail ++ rest) = some (s, rest) := by
  have h := readString_flatMap_escapeChar s.toList [] rest
  rw [List.reverse_nil, List.nil_append, String.ofList_toList] at h
  simpa [quoted] using h

/-! ### Blanks -/

/-- Nothing but blanks. -/
def IsGap (cs : List Char) : Prop :=
  ∀ c ∈ cs, isSpace c = true

lemma isGap_nil : IsGap [] := fun _ h => nomatch h

lemma isGap_newline (depth : Nat) : IsGap (newline depth) := by
  intro c hc
  rcases List.mem_cons.1 hc with rfl | hc
  · rfl
  · rw [(List.mem_replicate.1 hc).2]
    rfl

lemma skipSpace_cons {c : Char} (h : isSpace c = false) (cs : List Char) :
    skipSpace (c :: cs) = c :: cs :=
  List.dropWhile_cons_of_neg (by simp [h])

lemma IsGap.skipSpace_append {gap : List Char} (h : IsGap gap) (cs : List Char) :
    skipSpace (gap ++ cs) = skipSpace cs :=
  List.dropWhile_append_of_pos h

lemma IsGap.skipSpace_append_cons {gap : List Char} (h : IsGap gap) {c : Char}
    (hc : isSpace c = false) (cs : List Char) : skipSpace (gap ++ c :: cs) = c :: cs := by
  rw [h.skipSpace_append, skipSpace_cons hc]

lemma skipSpace_skipSpace (cs : List Char) : skipSpace (skipSpace cs) = skipSpace cs :=
  List.dropWhile_idempotent _ _

lemma readValue_skipSpace (fuel depth : Nat) (cs : List Char) :
    readValue fuel depth (skipSpace cs) = readValue fuel depth cs := by
  cases fuel with
  | zero => rfl
  | succ fuel => rw [readValue, readValue, skipSpace_skipSpace]

lemma readItems_skipSpace (fuel depth : Nat) (acc : List Json) (cs : List Char) :
    readItems fuel depth acc (skipSpace cs) = readItems fuel depth acc cs := by
  cases fuel with
  | zero => rfl
  | succ fuel => rw [readItems, readItems, readValue_skipSpace]

lemma readFields_skipSpace (fuel depth : Nat) (acc : Dict Json) (cs : List Char) :
    readFields fuel depth acc (skipSpace cs) = readFields fuel depth acc cs := by
  cases fuel with
  | zero => rfl
  | succ fuel => rw [readFields, readFields, skipSpace_skipSpace]

/-! ### Texts of values -/

mutual

/-- A value without numbers and a text of it, with its containers nested so deep at most. The
fields of an object may be written in any order, each of them once. -/
inductive WrittenAs : Nat → Json → List Char → Prop
  | null (depth : Nat) : WrittenAs depth .null ['n', 'u', 'l', 'l']
  | boolTrue (depth : Nat) : WrittenAs depth (.bool true) ['t', 'r', 'u', 'e']
  | boolFalse (depth : Nat) : WrittenAs depth (.bool false) ['f', 'a', 'l', 's', 'e']
  | string (depth : Nat) (s : String) : WrittenAs depth (.string s) (quoted s)
  | emptyArray (depth : Nat) {gap : List Char} :
      IsGap gap → WrittenAs (depth + 1) (.array []) ('[' :: gap ++ [']'])
  | array {depth : Nat} {items : List Json} {cs : List Char} :
      ItemsWrittenAs depth items cs → WrittenAs (depth + 1) (.array items) ('[' :: cs)
  | emptyObject (depth : Nat) {gap : List Char} :
      IsGap gap → WrittenAs (depth + 1) (.object []) ('{' :: gap ++ ['}'])
  | object {depth : Nat} {fields written : List (String × Json)} {cs : List Char} :
      Dict.Sorted fields → fields.Perm written → FieldsWrittenAs depth written cs →
      WrittenAs (depth + 1) (.object fields) ('{' :: cs)

/-- Items and a text of them, up to the bracket behind them. -/
inductive ItemsWrittenAs : Nat → List Json → List Char → Prop
  | last {depth : Nat} {before after : List Char} {v : Json} {cs : List Char} :
      IsGap before → WrittenAs depth v cs → IsGap after →
      ItemsWrittenAs depth [v] (before ++ (cs ++ (after ++ [']'])))
  | cons {depth : Nat} {before after : List Char} {v : Json} {cs : List Char}
      {items : List Json} {ds : List Char} :
      IsGap before → WrittenAs depth v cs → IsGap after → ItemsWrittenAs depth items ds →
      ItemsWrittenAs depth (v :: items) (before ++ (cs ++ (after ++ ',' :: ds)))

/-- Fields and a text of them, up to the brace behind them. -/
inductive FieldsWrittenAs : Nat → List (String × Json) → List Char → Prop
  | last {depth : Nat} {before beforeColon afterColon after : List Char} (name : String)
      {v : Json} {cs : List Char} :
      IsGap before → IsGap beforeColon → IsGap afterColon → WrittenAs depth v cs → IsGap after →
      FieldsWrittenAs depth [(name, v)]
        (before ++
          (quoted name ++ (beforeColon ++ ':' :: (afterColon ++ (cs ++ (after ++ ['}']))))))
  | cons {depth : Nat} {before beforeColon afterColon after : List Char} (name : String)
      {v : Json} {cs : List Char} {fields : List (String × Json)} {ds : List Char} :
      IsGap before → IsGap beforeColon → IsGap afterColon → WrittenAs depth v cs → IsGap after →
      FieldsWrittenAs depth fields ds →
      FieldsWrittenAs depth ((name, v) :: fields)
        (before ++
          (quoted name ++ (beforeColon ++ ':' :: (afterColon ++ (cs ++ (after ++ ',' :: ds))))))

end

/-- A text starts with a character that is neither a blank nor a closing bracket. -/
lemma exists_cons_of_writtenAs {depth : Nat} {v : Json} {cs : List Char}
    (h : WrittenAs depth v cs) : ∃ c ds, cs = c :: ds ∧ isSpace c = false ∧ c ≠ ']' := by
  cases h <;> exact ⟨_, _, rfl, rfl, by decide⟩

/-! ### Reading -/

lemma readValue_of_gap {gap : List Char} (h : IsGap gap) (fuel depth : Nat) (cs : List Char) :
    readValue fuel depth (gap ++ cs) = readValue fuel depth cs := by
  rw [← readValue_skipSpace, h.skipSpace_append, readValue_skipSpace]

/-- What follows a bracket are items, unless it is the closing bracket. -/
lemma readValue_bracket {cs : List Char} (h : ∀ ds, skipSpace cs ≠ ']' :: ds) (fuel depth : Nat) :
    readValue (fuel + 1) (depth + 1) ('[' :: cs) = readItems fuel depth [] cs := by
  rw [readValue, skipSpace_cons rfl, ← readItems_skipSpace]
  generalize hds : skipSpace cs = ds at h
  split <;> rename_i heq
  case h_6 =>
    obtain rfl := (List.cons.inj heq).2
    rw [hds]
    split
    · contradiction
    · exact absurd rfl (h _)
    · rename_i hdepth _
      cases hdepth
      rfl
  all_goals simp_all

/-- What follows a brace are fields, unless it is the closing brace. -/
lemma readValue_brace {cs : List Char} (h : ∀ ds, skipSpace cs ≠ '}' :: ds) (fuel depth : Nat) :
    readValue (fuel + 1) (depth + 1) ('{' :: cs) = readFields fuel depth [] cs := by
  rw [readValue, skipSpace_cons rfl, ← readFields_skipSpace]
  generalize hds : skipSpace cs = ds at h
  split <;> rename_i heq
  case h_7 =>
    obtain rfl := (List.cons.inj heq).2
    rw [hds]
    split
    · contradiction
    · exact absurd rfl (h _)
    · rename_i hdepth _
      cases hdepth
      rfl
  all_goals simp_all

section Steps

variable {fuel depth : Nat} {v : Json} {after cs rest : List Char}

lemma readItems_last {acc : List Json} (hafter : IsGap after)
    (hv : readValue fuel depth cs = some (v, after ++ ']' :: rest)) :
    readItems (fuel + 1) depth acc cs = some (.array (v :: acc).reverse, rest) := by
  rw [readItems, hv]
  simp only [hafter.skipSpace_append_cons (c := ']') rfl]

lemma readItems_cons {acc : List Json} (hafter : IsGap after)
    (hv : readValue fuel depth cs = some (v, after ++ ',' :: rest)) :
    readItems (fuel + 1) depth acc cs = readItems fuel depth (v :: acc) rest := by
  rw [readItems, hv]
  simp only [hafter.skipSpace_append_cons (c := ',') rfl]

variable {before beforeColon : List Char} {acc : Dict Json}

lemma readFields_last (name : String) (hbefore : IsGap before) (hcolon : IsGap beforeColon)
    (hafter : IsGap after) (hv : readValue fuel depth cs = some (v, after ++ '}' :: rest)) :
    readFields (fuel + 1) depth acc (before ++ (quoted name ++ (beforeColon ++ ':' :: cs))) =
      some (.object (acc.insert name v), rest) := by
  rw [readFields, quoted_eq_cons, List.cons_append, hbefore.skipSpace_append_cons rfl]
  simp only [readString_quoted, hcolon.skipSpace_append_cons (c := ':') rfl, hv,
    hafter.skipSpace_append_cons (c := '}') rfl]

lemma readFields_cons (name : String) (hbefore : IsGap before) (hcolon : IsGap beforeColon)
    (hafter : IsGap after) (hv : readValue fuel depth cs = some (v, after ++ ',' :: rest)) :
    readFields (fuel + 1) depth acc (before ++ (quoted name ++ (beforeColon ++ ':' :: cs))) =
      readFields fuel depth (acc.insert name v) rest := by
  rw [readFields, quoted_eq_cons, List.cons_append, hbefore.skipSpace_append_cons rfl]
  simp only [readString_quoted, hcolon.skipSpace_append_cons (c := ':') rfl, hv,
    hafter.skipSpace_append_cons (c := ',') rfl]

end Steps

/-! ### Values read from their texts -/

lemma skipSpace_ne_of_itemsWrittenAs {depth : Nat} {items : List Json} {cs : List Char}
    (h : ItemsWrittenAs depth items cs) (rest ds : List Char) :
    skipSpace (cs ++ rest) ≠ ']' :: ds := by
  have hfirst {gap ds : List Char} {v : Json} (hgap : IsGap gap) (hv : WrittenAs depth v ds)
      (es fs : List Char) : skipSpace (gap ++ (ds ++ es)) ≠ ']' :: fs := by
    obtain ⟨c, ds, rfl, hspace, hne⟩ := exists_cons_of_writtenAs hv
    rw [List.cons_append, hgap.skipSpace_append_cons hspace]
    simp [hne]
  cases h with
  | last hgap hv | cons hgap hv => simpa using hfirst hgap hv _ ds

lemma skipSpace_ne_of_fieldsWrittenAs {depth : Nat} {fields : List (String × Json)}
    {cs : List Char} (h : FieldsWrittenAs depth fields cs) (rest ds : List Char) :
    skipSpace (cs ++ rest) ≠ '}' :: ds := by
  have hfirst {gap : List Char} (hgap : IsGap gap) (name : String) (es fs : List Char) :
      skipSpace (gap ++ (quoted name ++ es)) ≠ '}' :: fs := by
    rw [quoted, List.cons_append, List.cons_append, hgap.skipSpace_append_cons rfl]
    simp
  cases h with
  | last name hgap | cons name hgap => simpa using hfirst hgap name _ ds

mutual

/-- A value is read from each of its texts. -/
lemma readValue_of_writtenAs {fuel depth : Nat} {v : Json} {cs : List Char}
    (h : WrittenAs depth v cs) (hfuel : 2 * cs.length ≤ fuel) (rest : List Char) :
    readValue fuel depth (cs ++ rest) = some (v, rest) := by
  match fuel with
  | 0 =>
    obtain ⟨c, ds, rfl, -⟩ := exists_cons_of_writtenAs h
    cases hfuel
  | fuel + 1 =>
  cases h with
  | null | boolTrue | boolFalse => rfl
  | string _ s =>
    show (readString [] ((quoted s).tail ++ rest)).map _ = _
    rw [readString_quoted]
    rfl
  | emptyArray _ hgap =>
    rw [List.cons_append, List.cons_append, readValue, skipSpace_cons rfl, List.append_assoc,
      List.singleton_append]
    simp only [hgap.skipSpace_append_cons (c := ']') rfl]
  | @array _ items cs hitems =>
    rw [List.length_cons] at hfuel
    rw [List.cons_append, readValue_bracket (skipSpace_ne_of_itemsWrittenAs hitems rest)]
    exact readItems_of_writtenAs hitems (by omega) [] rest
  | emptyObject _ hgap =>
    rw [List.cons_append, List.cons_append, readValue, skipSpace_cons rfl, List.append_assoc,
      List.singleton_append]
    simp only [hgap.skipSpace_append_cons (c := '}') rfl]
  | @object _ fields written cs hsorted hperm hfields =>
    rw [List.length_cons] at hfuel
    rw [List.cons_append, readValue_brace (skipSpace_ne_of_fieldsWrittenAs hfields rest),
      readFields_of_writtenAs hfields (by omega) [] rest]
    show some (Json.object (Dict.ofList written), rest) = _
    rw [Dict.ofList_of_perm hsorted hperm]
termination_by cs.length

lemma readItems_of_writtenAs {fuel depth : Nat} {items : List Json} {cs : List Char}
    (h : ItemsWrittenAs depth items cs) (hfuel : 2 * cs.length < fuel) (acc : List Json)
    (rest : List Char) :
    readItems fuel depth acc (cs ++ rest) = some (.array (acc.reverse ++ items), rest) := by
  match fuel with
  | fuel + 1 =>
  cases h with
  | @last _ before after v cs hbefore hv hafter =>
    simp only [List.length_append] at hfuel
    simp only [List.append_assoc, List.singleton_append]
    rw [readItems_last hafter
      ((readValue_of_gap hbefore ..).trans (readValue_of_writtenAs hv (by omega) _)),
      List.reverse_cons]
  | @cons _ before after v cs items ds hbefore hv hafter hitems =>
    simp only [List.length_append, List.length_cons] at hfuel
    simp only [List.append_assoc, List.cons_append]
    rw [readItems_cons hafter
      ((readValue_of_gap hbefore ..).trans (readValue_of_writtenAs hv (by omega) _)),
      readItems_of_writtenAs hitems (by omega), List.reverse_cons, List.append_assoc,
      List.singleton_append]
termination_by cs.length

lemma readFields_of_writtenAs {fuel depth : Nat} {fields : List (String × Json)} {cs : List Char}
    (h : FieldsWrittenAs depth fields cs) (hfuel : 2 * cs.length < fuel) (acc : Dict Json)
    (rest : List Char) :
    readFields fuel depth acc (cs ++ rest) =
      some (.object (fields.foldl (fun d p => Dict.insert d p.1 p.2) acc), rest) := by
  match fuel with
  | fuel + 1 =>
  cases h with
  | @last _ before _ afterColon after name v cs hbefore hcolon hafterColon hv hafter =>
    simp only [List.length_append, List.length_cons] at hfuel
    simp only [List.append_assoc, List.cons_append, List.nil_append]
    rw [readFields_last name hbefore hcolon hafter
      ((readValue_of_gap hafterColon ..).trans (readValue_of_writtenAs hv (by omega) _))]
    rfl
  | @cons _ before _ afterColon after name v cs fields ds hbefore hcolon hafterColon hv hafter
      hfields =>
    simp only [List.length_append, List.length_cons] at hfuel
    simp only [List.append_assoc, List.cons_append]
    rw [readFields_cons name hbefore hcolon hafter
      ((readValue_of_gap hafterColon ..).trans (readValue_of_writtenAs hv (by omega) _)),
      readFields_of_writtenAs hfields (by omega)]
    rfl
termination_by cs.length

end

/-- A document of a value: a text of it, with blanks around it. -/
def HasText (v : Json) (text : String) : Prop :=
  ∃ before cs after, text.toList = before ++ (cs ++ after) ∧
    IsGap before ∧ WrittenAs maxDepth v cs ∧ IsGap after

theorem parse?_of_hasText {v : Json} {text : String} (h : v.HasText text) :
    parse? text = some v := by
  obtain ⟨before, cs, after, htext, hbefore, hv, hafter⟩ := h
  have hlength : cs.length ≤ text.toList.length := by
    rw [htext, List.length_append, List.length_append]
    omega
  have hread : readValue (2 * text.toList.length + 2) maxDepth text.toList = some (v, after) := by
    conv_lhs => rw [htext, readValue_of_gap hbefore, ← htext]
    exact readValue_of_writtenAs hv (by omega) after
  have hend : skipSpace after = [] := by
    rw [← List.append_nil after, hafter.skipSpace_append]
    rfl
  rw [parse?]
  simp only [hread, hend]
  rfl

/-! ### Both forms of writing -/

/-- A value without numbers, with its objects sorted and its containers nested so deep at most. -/
inductive Readable : Nat → Json → Prop
  | null (depth : Nat) : Readable depth .null
  | bool (depth : Nat) (b : Bool) : Readable depth (.bool b)
  | string (depth : Nat) (s : String) : Readable depth (.string s)
  | array {depth : Nat} {items : List Json} :
      (∀ v ∈ items, Readable depth v) → Readable (depth + 1) (.array items)
  | object {depth : Nat} {fields : Dict Json} :
      Dict.Sorted fields → (∀ f ∈ fields, Readable depth f.2) →
      Readable (depth + 1) (.object fields)

section Forms

variable {depth : Nat} {before colon after : List Char} {form : Json → List Char}

/-- Items are written as their texts, with the same gap before each of them. -/
lemma itemsWrittenAs_of_form (text : List Json → List Char)
    (hlast : ∀ v, text [v] = before ++ form v)
    (hcons : ∀ v w vs, text (v :: w :: vs) = before ++ (form v ++ ',' :: text (w :: vs)))
    (hbefore : IsGap before) (hafter : IsGap after) (v : Json) (vs : List Json)
    (h : ∀ w ∈ v :: vs, WrittenAs depth w (form w)) :
    ItemsWrittenAs depth (v :: vs) (text (v :: vs) ++ (after ++ [']'])) := by
  obtain ⟨hv, hvs⟩ := List.forall_mem_cons.1 h
  induction vs generalizing v with
  | nil => simpa [hlast] using ItemsWrittenAs.last hbefore hv hafter
  | cons w vs ih =>
    obtain ⟨hw, hrest⟩ := List.forall_mem_cons.1 hvs
    simpa [hcons] using ItemsWrittenAs.cons hbefore hv isGap_nil (ih w hvs hw hrest)

/-- Fields are written as their names and texts, with the same gaps before each of them. -/
lemma fieldsWrittenAs_of_form (text : List (String × Json) → List Char)
    (hlast : ∀ f, text [f] = before ++ (quoted f.1 ++ ':' :: (colon ++ form f.2)))
    (hcons : ∀ f g fs, text (f :: g :: fs) =
      before ++ (quoted f.1 ++ ':' :: (colon ++ (form f.2 ++ ',' :: text (g :: fs)))))
    (hbefore : IsGap before) (hcolon : IsGap colon) (hafter : IsGap after) (f : String × Json)
    (fs : List (String × Json)) (h : ∀ g ∈ f :: fs, WrittenAs depth g.2 (form g.2)) :
    FieldsWrittenAs depth (f :: fs) (text (f :: fs) ++ (after ++ ['}'])) := by
  obtain ⟨hf, hfs⟩ := List.forall_mem_cons.1 h
  induction fs generalizing f with
  | nil =>
    simpa [hlast] using FieldsWrittenAs.last f.1 hbefore isGap_nil hcolon hf hafter
  | cons g fs ih =>
    obtain ⟨hg, hrest⟩ := List.forall_mem_cons.1 hfs
    simpa [hcons] using
      FieldsWrittenAs.cons f.1 hbefore isGap_nil hcolon hf isGap_nil (ih g hfs hg hrest)

/-- The compact form is a text of the value. -/
lemma writtenAs_chars {v : Json} (h : Readable depth v) : WrittenAs depth v v.chars := by
  induction h with
  | null depth => exact .null depth
  | bool depth b =>
    cases b with
    | true => exact .boolTrue depth
    | false => exact .boolFalse depth
  | string depth s => exact .string depth s
  | @array depth items _ ih =>
    cases items with
    | nil => exact .emptyArray depth isGap_nil
    | cons v vs =>
      have hitems := itemsWrittenAs_of_form itemsChars (fun _ => rfl) (fun _ _ _ => rfl) isGap_nil
        isGap_nil v vs ih
      exact .array hitems
  | @object depth fields hsorted _ ih =>
    cases fields with
    | nil => exact .emptyObject depth isGap_nil
    | cons f fs =>
      have hfields := fieldsWrittenAs_of_form fieldsChars (fun _ => rfl)
        (fun _ _ _ => by simp [fieldsChars]) isGap_nil isGap_nil isGap_nil f fs ih
      exact .object hsorted (.refl _) hfields

/-- The indented form is a text of the value at every level. -/
lemma writtenAs_indented {v : Json} (h : Readable depth v) (level : Nat) :
    WrittenAs depth v (v.indented level) := by
  induction h generalizing level with
  | null depth => exact .null depth
  | bool depth b =>
    cases b with
    | true => exact .boolTrue depth
    | false => exact .boolFalse depth
  | string depth s => exact .string depth s
  | @array depth items _ ih =>
    cases items with
    | nil => exact .emptyArray depth isGap_nil
    | cons v vs =>
      have hitems := itemsWrittenAs_of_form (indentedItems (level + 1)) (fun _ => rfl)
        (fun _ _ _ => by simp [indentedItems]) (isGap_newline (level + 1)) (isGap_newline level)
        v vs fun w hw => ih w hw (level + 1)
      simpa [indented] using WrittenAs.array hitems
  | @object depth fields hsorted _ ih =>
    cases fields with
    | nil => exact .emptyObject depth isGap_nil
    | cons f fs =>
      have hblank : IsGap [' '] := by simp [IsGap, isSpace]
      have hfields := fieldsWrittenAs_of_form (indentedFields (level + 1))
        (fun _ => by simp [indentedFields]) (fun _ _ _ => by simp [indentedFields])
        (isGap_newline (level + 1)) hblank (isGap_newline level) f fs
        fun g hg => ih g hg (level + 1)
      simpa [indented] using WrittenAs.object hsorted (.refl _) hfields

end Forms

lemma hasText_of_writtenAs {v : Json} {cs : List Char} (h : WrittenAs maxDepth v cs) :
    v.HasText (String.ofList cs) :=
  ⟨[], cs, [], by simp, isGap_nil, h, isGap_nil⟩

lemma hasText_compact {v : Json} (h : Readable maxDepth v) : v.HasText v.compact :=
  hasText_of_writtenAs (writtenAs_chars h)

lemma hasText_pretty {v : Json} (h : Readable maxDepth v) : v.HasText v.pretty :=
  hasText_of_writtenAs (writtenAs_indented h 0)

end Json

end EntityModel
