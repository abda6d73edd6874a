import EntityModel.Proofs.Path.Offsets

/-!
# Texts of paths

A path is written as parts with points between them. A part is a name, which is a run of letters,
digits and underscores, and after it indices in brackets, each a run of digits with perhaps a plus
sign in front. These texts and no others are read as paths, with the names and the values of the
indices as their steps.
-/

namespace EntityModel

namespace Path

/-- A text that stands for an index. -/
inductive IndexSpelled : Nat → List Char → Prop
  | mk {sign ds} : sign = [] ∨ sign = ['+'] → ds ≠ [] → (∀ d ∈ ds, d.isDigit) →
      Decimals.value ds < Nat.pow 2 indexBits → IndexSpelled (Decimals.value ds) (sign ++ ds)

/-- Indices in brackets, one after another. -/
inductive IndicesSpelled : List Segment → List Char → Prop
  | nil : IndicesSpelled [] []
  | cons {i inside indices text} : IndexSpelled i inside → IndicesSpelled indices text →
      IndicesSpelled (.index i :: indices) ('[' :: (inside ++ ']' :: text))

/-- A name: letters, digits and underscores. -/
def NameSpelled (name : List Char) : Prop :=
  name ≠ [] ∧ ∀ c ∈ name, isIdentifierChar c

/-- A name and indices after it. -/
inductive PartSpelled : List Segment → List Char → Prop
  | mk {name indices text} : NameSpelled name → IndicesSpelled indices text →
      PartSpelled (.field (String.ofList name) :: indices) (name ++ text)

/-- Parts with points between them: a text that stands for steps. -/
inductive Spelled : List Segment → List Char → Prop
  | one {segments text} : PartSpelled segments text → Spelled segments text
  | more {segments others text rest} : PartSpelled segments text → Spelled others rest →
      Spelled (segments ++ others) (text ++ '.' :: rest)

/-! ### Indices -/

lemma readNatural_eq_ok_iff {i : Nat} {cs : List Char} :
    readNatural indexBits cs = .ok i ↔ IndexSpelled i cs := by
  have hlimit {n : Nat} : n ≤ Nat.pow 2 indexBits - 1 ↔ n < Nat.pow 2 indexBits :=
    Nat.le_sub_one_iff_lt (Nat.pow_pos Nat.two_pos)
  constructor
  · intro h
    unfold readNatural at h
    split at h
    · cases h
    · next ds =>
      obtain ⟨hne, hdigits, rfl, hle⟩ := readMagnitude_eq_ok_iff.1 h
      exact .mk (.inr rfl) hne hdigits (hlimit.1 hle)
    · obtain ⟨hne, hdigits, rfl, hle⟩ := readMagnitude_eq_ok_iff.1 h
      exact .mk (.inl rfl) hne hdigits (hlimit.1 hle)
  · rintro ⟨rfl | rfl, hne, hdigits, hlt⟩
    · rename_i ds
      have hsign : ∀ cs, ds ≠ '+' :: cs := by
        rintro cs rfl
        exact absurd (hdigits '+' List.mem_cons_self) (by decide)
      rw [List.nil_append, readNatural.eq_3 _ _ hne hsign]
      exact readMagnitude_eq_ok_iff.2 ⟨hne, hdigits, rfl, hlimit.2 hlt⟩
    · exact readMagnitude_eq_ok_iff.2 ⟨hne, hdigits, rfl, hlimit.2 hlt⟩

lemma IndexSpelled.eq_plus_or_isDigit {i : Nat} {inside : List Char} (h : IndexSpelled i inside) :
    ∀ c ∈ inside, c = '+' ∨ c.isDigit := by
  obtain ⟨hsign, -, hdigits, -⟩ := h
  intro c hc
  rcases List.mem_append.1 hc with hc | hc
  · rcases hsign with rfl | rfl
    · cases hc
    · exact .inl (List.mem_singleton.1 hc)
  · exact .inr (hdigits c hc)

lemma IndexSpelled.notMem {i : Nat} {inside : List Char} (h : IndexSpelled i inside) {c : Char}
    (hplus : c ≠ '+') (hdigit : c.isDigit = false) : c ∉ inside := by
  intro hc
  rcases h.eq_plus_or_isDigit c hc with heq | hd
  · exact hplus heq
  · exact Bool.false_ne_true (hdigit.symm.trans hd)

lemma IndicesSpelled.head_eq {indices : List Segment} {text : List Char}
    (h : IndicesSpelled indices text) : ∀ c ∈ text.head?, c = '[' := by
  cases h with
  | nil =>
    intro c hc
    cases hc
  | cons =>
    intro c hc
    cases hc
    rfl

/-- An index in brackets is read and then what follows it, which opens another bracket if any. -/
lemma readIndices_cons {part inside text : List Char} {i : Nat} (hinside : IndexSpelled i inside)
    (htext : ∀ c ∈ text.head?, c = '[') :
    readIndices part ('[' :: (inside ++ ']' :: text)) =
      (readIndices part text).map (.index i :: ·) := by
  have hinner : ∀ c ∈ inside, decide (c ≠ ']') = true := by
    rintro c hc
    refine decide_eq_true ?_
    rintro rfl
    exact hinside.notMem (by decide) (by decide) hc
  have hclose : ∀ c ∈ (']' :: text).head?, decide (c ≠ ']') = false := by simp
  have htake := takeWhile_append_of_head hinner hclose
  have hdrop := dropWhile_append_of_head hinner hclose
  rw [readIndices]
  split
  · next h =>
    rw [hdrop] at h
    cases h
  · next h =>
    rw [hdrop] at h
    cases h
    rw [htake, readNatural_eq_ok_iff.2 hinside]
    cases text with
    | nil =>
      rw [readIndices]
      rfl
    | cons c text =>
      obtain rfl := htext c rfl
      simp

/-- What opens with a bracket is read as indices if and only if it is some. -/
lemma readIndices_eq_ok_iff {part text : List Char} {indices : List Segment}
    (htext : ∀ c ∈ text.head?, c = '[') :
    readIndices part text = .ok indices ↔ IndicesSpelled indices text := by
  have hindex {b d : Char} {cs after : List Char} {i : Nat} {others : List Segment}
      (hread : readNatural indexBits (cs.takeWhile (· ≠ ']')) = .ok i)
      (hdrop : cs.dropWhile (· ≠ ']') = d :: after) (hb : b = '[')
      (hothers : IndicesSpelled others after) : IndicesSpelled (.index i :: others) (b :: cs) := by
    obtain ⟨hcs, hd⟩ := eq_append_of_dropWhile hdrop
    obtain rfl : d = ']' := by simpa using hd
    rw [hb, hcs]
    exact .cons (readNatural_eq_ok_iff.1 hread) hothers
  constructor
  · intro h
    fun_induction readIndices part text generalizing indices with
    | case1 =>
      cases h
      exact .nil
    | case2 | case3 | case6 => cases h
    | case4 b cs inside d i hread hdrop =>
      cases h
      exact hindex hread hdrop (htext b rfl) .nil
    | case5 b cs inside d i hread rest hdrop =>
      rename_i ih
      obtain ⟨others, hothers, rfl⟩ := map_eq_ok_iff.1 h
      have hbracket : ∀ c ∈ ('[' :: rest).head?, c = '[' := by simp
      exact hindex hread hdrop (htext b rfl) (ih hbracket hothers)
  · intro h
    induction h with
    | nil => rw [readIndices]
    | cons hinside hindices ih =>
      rw [readIndices_cons hinside hindices.head_eq, ih hindices.head_eq]
      rfl

/-! ### Parts -/

lemma isIdentifierChar_openBracket : isIdentifierChar '[' = false := by decide

/-- A name ends where the first bracket opens. -/
lemma takeWhile_name {name text : List Char} (hname : ∀ c ∈ name, isIdentifierChar c)
    (htext : ∀ c ∈ text.head?, c = '[') : (name ++ text).takeWhile (· ≠ '[') = name := by
  apply takeWhile_append_of_head
  · intro c hc
    exact decide_eq_true (ne_of_isIdentifierChar (hname c hc) isIdentifierChar_openBracket)
  · simpa using htext

lemma readPart_eq_ok_iff {part : List Char} {segments : List Segment} :
    readPart part = .ok segments ↔ PartSpelled segments part := by
  constructor
  · intro h
    have hrest : ∀ c ∈ (part.dropWhile (· ≠ '[')).head?, c = '[' := by
      intro c hc
      simpa using eq_false_of_mem_head?_dropWhile hc
    rw [readPart, drop_length_takeWhile] at h
    split at h
    · cases h
    · next hne =>
      split at h
      · cases h
      · next hname =>
        obtain ⟨indices, hindices, rfl⟩ := map_eq_ok_iff.1 h
        rw [Bool.not_eq_true', Bool.not_eq_false, List.all_eq_true] at hname
        rw [List.isEmpty_iff] at hne
        have hpart := PartSpelled.mk ⟨hne, hname⟩ ((readIndices_eq_ok_iff hrest).1 hindices)
        rwa [List.takeWhile_append_dropWhile] at hpart
  · rintro ⟨⟨hne, hname⟩, hindices⟩
    have htake := takeWhile_name hname hindices.head_eq
    rw [readPart, htake, if_neg (by simpa using hne), if_neg (by simpa using hname),
      List.drop_left, (readIndices_eq_ok_iff hindices.head_eq).2 hindices]
    rfl

/-! ### Texts -/

lemma IndicesSpelled.dot_notMem {indices : List Segment} {text : List Char}
    (h : IndicesSpelled indices text) : '.' ∉ text := by
  induction h with
  | nil => exact List.not_mem_nil
  | cons hinside _ ih =>
    have hdot := hinside.notMem (c := '.') (by decide) (by decide)
    simp [hdot, ih]

lemma PartSpelled.dot_notMem {segments : List Segment} {part : List Char}
    (h : PartSpelled segments part) : '.' ∉ part := by
  obtain ⟨⟨-, hname⟩, hindices⟩ := h
  rw [List.mem_append, not_or]
  exact ⟨fun hc => ne_of_isIdentifierChar (hname '.' hc) (by decide) rfl, hindices.dot_notMem⟩

lemma readParts_eq_ok_iff {text : List Char} {segments : List Segment} :
    readParts (splitAt '.' text) = .ok segments ↔ Spelled segments text := by
  constructor
  · intro h
    generalize hparts : splitAt '.' text = parts at h
    induction parts generalizing text segments with
    | nil => exact absurd hparts (splitAt_ne_nil '.' text)
    | cons part parts ih =>
      rcases splitAt_eq_cons hparts with ⟨rfl, rfl⟩ | ⟨rest, rfl, hrest⟩
      · rw [readParts_singleton] at h
        exact .one (readPart_eq_ok_iff.1 h)
      · obtain ⟨first, hfirst, h⟩ := bind_eq_ok_iff.1 h
        obtain ⟨others, hothers, h⟩ := bind_eq_ok_iff.1 h
        cases h
        exact .more (readPart_eq_ok_iff.1 hfirst) (ih hrest hothers)
  · intro h
    induction h with
    | one hpart =>
      rw [splitAt_of_notMem hpart.dot_notMem, readParts_singleton]
      exact readPart_eq_ok_iff.2 hpart
    | more hpart _ ih =>
      rw [splitAt_append, splitAt_of_notMem hpart.dot_notMem]
      refine readParts_append ?_ ih
      rw [readParts_singleton]
      exact readPart_eq_ok_iff.2 hpart

lemma Spelled.ne_nil {text : List Char} {segments : List Segment} (h : Spelled segments text) :
    text ≠ [] := by
  cases h with
  | one hpart =>
    obtain ⟨⟨hne, -⟩, -⟩ := hpart
    simp [hne]
  | more => simp

lemma parse_eq_ok_iff_spelled {text : String} {P : Path} :
    parse text = .ok P ↔ P.text = text ∧ Spelled P.segments text.toList := by
  rw [parse_eq_ok_iff, readParts_eq_ok_iff]
  constructor
  · rintro ⟨-, hspelled, htext⟩
    exact ⟨htext, hspelled⟩
  · rintro ⟨htext, hspelled⟩
    refine ⟨?_, hspelled, htext⟩
    rintro rfl
    exact hspelled.ne_nil rfl

/-- A text is read as a path if and only if it is one or more parts with points between them, and
then the steps of the path are what the parts stand for and its text is kept. Reading the text by
byte offsets comes to the same: no cut of it fails. -/
theorem parse_accepts_exactly (text : String) :
    ((∃ P, parse text = .ok P) ↔ ∃ segments, Spelled segments text.toList) ∧
      (∀ P, parse text = .ok P ↔ P.text = text ∧ Spelled P.segments text.toList) ∧
      sliceParse text = some (parse text) := by
  refine ⟨?_, fun P => parse_eq_ok_iff_spelled, sliceParse_eq text⟩
  constructor
  · rintro ⟨P, h⟩
    exact ⟨P.segments, (parse_eq_ok_iff_spelled.1 h).2⟩
  · rintro ⟨segments, h⟩
    exact ⟨⟨text, segments⟩, parse_eq_ok_iff_spelled.2 ⟨rfl, h⟩⟩

end Path

end EntityModel
