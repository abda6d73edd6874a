import EntityModel.Proofs.Expression.Spelling
import Mathlib.Data.List.TakeWhile

/-!
# Reading paths by byte offsets

A path is read from its text by looking brackets up and cutting the text at the byte offsets found.
A cut fails beyond the end of the text and inside a character. No cut that is made on the way fails,
whatever characters the text has, so reading by offsets is `Path.parse`: `sliceParse_eq`.
-/

namespace EntityModel

open Token (byteWidth byteWidth_append byteWidth_cons)

/-! ### Cuts -/

/-- The byte offset of the first occurrence of a character. -/
def offset? (c : Char) : List Char → Option Nat
  | [] => none
  | d :: cs => if d = c then some 0 else (offset? c cs).map (d.utf8Size + ·)

/-- A text cut in two at a byte offset, which must not lie beyond its end or inside a character. -/
def cut? : List Char → Nat → Option (List Char × List Char)
  | cs, 0 => some ([], cs)
  | [], _ + 1 => none
  | c :: cs, n + 1 =>
    if c.utf8Size ≤ n + 1 then
      (cut? cs (n + 1 - c.utf8Size)).map fun (front, back) => (c :: front, back)
    else none

/-- The text between two byte offsets. -/
def slice? (cs : List Char) (start stop : Nat) : Option (List Char) :=
  if start ≤ stop then
    (cut? cs start).bind fun (_, back) => (cut? back (stop - start)).map fun (inside, _) => inside
  else none

lemma eq_append_of_cut? {cs front back : List Char} {n : Nat}
    (h : cut? cs n = some (front, back)) : cs = front ++ back := by
  fun_induction cut? cs n generalizing front back with
  | case1 =>
    cases h
    rfl
  | case2 | case4 => cases h
  | case3 c cs n hsize ih =>
    obtain ⟨⟨front, back⟩, h, heq⟩ := Option.map_eq_some_iff.1 h
    cases heq
    rw [ih h]
    rfl

lemma length_le_of_cut? {c : Char} {cs front back : List Char} {n : Nat}
    (h : cut? (c :: cs) (n + 1) = some (front, back)) : back.length ≤ cs.length := by
  rw [cut?] at h
  split at h
  · obtain ⟨⟨front', back'⟩, h, heq⟩ := Option.map_eq_some_iff.1 h
    cases heq
    rw [eq_append_of_cut? h, List.length_append]
    exact Nat.le_add_left _ _
  · cases h

section Cut

variable {c : Char} {front : List Char}

lemma cut?_append (front back : List Char) :
    cut? (front ++ back) (byteWidth front) = some (front, back) := by
  induction front with
  | nil => cases back <;> rfl
  | cons c front ih =>
    obtain ⟨n, hn⟩ := Nat.exists_eq_add_of_le' (Nat.add_pos_left c.utf8Size_pos (byteWidth front))
    rw [byteWidth_cons, List.cons_append, hn, cut?, ← hn, Nat.add_sub_cancel_left, ih,
      if_pos (Nat.le_add_right _ _)]
    rfl

lemma offset?_append (h : c ∉ front) (back : List Char) :
    offset? c (front ++ c :: back) = some (byteWidth front) := by
  induction front with
  | nil =>
    rw [List.nil_append, offset?, if_pos rfl]
    rfl
  | cons d front ih =>
    obtain ⟨hd, hfront⟩ := not_or.1 (mt List.mem_cons.2 h)
    rw [List.cons_append, offset?, if_neg (Ne.symm hd), ih hfront, byteWidth_cons]
    rfl

lemma offset?_of_notMem {cs : List Char} (h : c ∉ cs) : offset? c cs = none := by
  induction cs with
  | nil => rfl
  | cons d cs ih =>
    obtain ⟨hd, hcs⟩ := not_or.1 (mt List.mem_cons.2 h)
    rw [offset?, if_neg (Ne.symm hd), ih hcs]
    rfl

end Cut

namespace Path

/-- Read the indices that follow a name, by offsets; nothing where a cut fails. -/
def sliceIndices (part rest : List Char) : Option (Except PathFault (List Segment)) :=
  match rest with
  | [] => some (.ok [])
  | c :: cs =>
    match offset? ']' (c :: cs) with
    | none => some (.error (.unterminatedIndex (String.ofList part)))
    | some close =>
      match slice? (c :: cs) 1 close with
      | none => none
      | some inside =>
        match readNatural indexBits inside with
        | .error _ => some (.error (.notAnIndex (String.ofList inside)))
        | .ok i =>
          match _h : cut? (c :: cs) (close + 1) with
          | none => none
          | some (_, after) =>
            match after with
            | [] => some (.ok [.index i])
            | d :: ds =>
              if d = '[' then (sliceIndices part (d :: ds)).map (·.map (.index i :: ·))
              else some (.error (.trailing (String.ofList (d :: ds))))
termination_by rest.length
decreasing_by
  exact Nat.lt_succ_of_le (length_le_of_cut? _h)

/-- Read one part of a path, by offsets. -/
def slicePart (part : List Char) : Option (Except PathFault (List Segment)) :=
  match cut? part ((offset? '[' part).getD (byteWidth part)) with
  | none => none
  | some (name, rest) =>
    if name.isEmpty then some (.error .missingName)
    else if !name.all isIdentifierChar then some (.error (.invalidName (String.ofList name)))
    else (sliceIndices part rest).map (·.map (.field (String.ofList name) :: ·))

/-- Read the parts of a path in order, by offsets. -/
def sliceParts : List (List Char) → Option (Except PathFault (List Segment))
  | [] => some (.ok [])
  | part :: parts =>
    match slicePart part with
    | none => none
    | some (.error fault) => some (.error fault)
    | some (.ok segments) => (sliceParts parts).map (·.map (segments ++ ·))

/-- Read a path, by offsets. -/
def sliceParse (text : String) : Option (Except PathError Path) :=
  if text = "" then some (.error ⟨text, .empty⟩)
  else
    (sliceParts (splitAt '.' text.toList)).map fun
      | .ok segments => .ok ⟨text, segments⟩
      | .error fault => .error ⟨text, fault⟩

/-! ### No cut fails -/

/-- The cuts around an index, which ends where the first bracket closes. -/
lemma cuts_of_dropWhile {cs after : List Char} {d : Char}
    (h : cs.dropWhile (· ≠ ']') = d :: after) :
    ∃ close front, offset? ']' ('[' :: cs) = some close ∧
      slice? ('[' :: cs) 1 close = some (cs.takeWhile (· ≠ ']')) ∧
      cut? ('[' :: cs) (close + 1) = some (front, after) := by
  obtain ⟨hcs, hd⟩ := eq_append_of_dropWhile h
  obtain rfl : d = ']' := by simpa using hd
  have hnotMem : ']' ∉ '[' :: cs.takeWhile (· ≠ ']') := by
    intro hmem
    rcases List.mem_cons.1 hmem with heq | hmem
    · cases heq
    · simpa using List.mem_takeWhile_imp hmem
  generalize cs.takeWhile (· ≠ ']') = inside at hcs hnotMem ⊢
  subst hcs
  have hwidth : byteWidth ('[' :: inside) = 1 + byteWidth inside := byteWidth_cons '[' inside
  refine ⟨byteWidth ('[' :: inside), '[' :: inside ++ [']'], ?_, ?_, ?_⟩
  · exact offset?_append hnotMem after
  · have hopen := cut?_append ['['] (inside ++ ']' :: after)
    have hclose := cut?_append inside (']' :: after)
    rw [slice?, hwidth, if_pos (Nat.le_add_right 1 _), Nat.add_sub_cancel_left]
    change (cut? (['['] ++ (inside ++ ']' :: after)) (byteWidth ['['])).bind _ = _
    rw [hopen]
    change (cut? (inside ++ ']' :: after) (byteWidth inside)).map _ = _
    rw [hclose]
    rfl
  · have hafter := cut?_append ('[' :: inside ++ [']']) after
    rw [byteWidth_append, List.append_assoc] at hafter
    exact hafter

section Indices

variable {part cs inside after front : List Char} {c : Char} {close i : Nat}

lemma sliceIndices_of_error {fault : IntegerFault} (hclose : offset? ']' (c :: cs) = some close)
    (hslice : slice? (c :: cs) 1 close = some inside)
    (hread : readNatural indexBits inside = .error fault) :
    sliceIndices part (c :: cs) = some (.error (.notAnIndex (String.ofList inside))) := by
  rw [sliceIndices]
  simp only [hclose, hslice, hread]

/-- Behind an index, the text ends, the next bracket opens, or a fault is found. -/
lemma sliceIndices_of_ok (hclose : offset? ']' (c :: cs) = some close)
    (hslice : slice? (c :: cs) 1 close = some inside)
    (hread : readNatural indexBits inside = .ok i)
    (hcut : cut? (c :: cs) (close + 1) = some (front, after)) :
    (after = [] → sliceIndices part (c :: cs) = some (.ok [.index i])) ∧
      ∀ d ds, after = d :: ds → sliceIndices part (c :: cs) =
        if d = '[' then (sliceIndices part after).map (·.map (.index i :: ·))
        else some (.error (.trailing (String.ofList after))) := by
  rw [sliceIndices]
  simp only [hclose, hslice, hread]
  split
  · next hnone => cases hcut.symm.trans hnone
  · next hsome =>
    cases hcut.symm.trans hsome
    constructor
    · rintro rfl
      rfl
    · rintro d ds rfl
      rfl

/-- What opens with a bracket is read as indices without a cut that fails. -/
lemma sliceIndices_eq {rest : List Char} (hrest : ∀ c ∈ rest.head?, c = '[') :
    sliceIndices part rest = some (readIndices part rest) := by
  fun_induction readIndices part rest with
  | case1 => rw [sliceIndices]
  | case2 b cs hdrop =>
    obtain rfl := hrest b rfl
    have hnotMem : ']' ∉ '[' :: cs := by
      intro hmem
      rcases List.mem_cons.1 hmem with heq | hmem
      · cases heq
      · simpa using List.dropWhile_eq_nil_iff.1 hdrop _ hmem
    rw [sliceIndices, offset?_of_notMem hnotMem]
  | case3 b cs inside d after hdrop fault hread =>
    obtain rfl := hrest b rfl
    obtain ⟨close, front, hclose, hslice, hcut⟩ := cuts_of_dropWhile hdrop
    exact sliceIndices_of_error hclose hslice hread
  | case4 b cs inside d i hread hdrop =>
    obtain rfl := hrest b rfl
    obtain ⟨close, front, hclose, hslice, hcut⟩ := cuts_of_dropWhile hdrop
    exact (sliceIndices_of_ok hclose hslice hread hcut).1 rfl
  | case5 b cs inside d i hread rest hdrop =>
    rename_i ih
    obtain rfl := hrest b rfl
    obtain ⟨close, front, hclose, hslice, hcut⟩ := cuts_of_dropWhile hdrop
    rw [(sliceIndices_of_ok hclose hslice hread hcut).2 _ _ rfl, if_pos rfl, ih (by simp)]
    rfl
  | case6 b cs inside d i hread c rest hdrop hbracket =>
    obtain rfl := hrest b rfl
    obtain ⟨close, front, hclose, hslice, hcut⟩ := cuts_of_dropWhile hdrop
    rw [(sliceIndices_of_ok hclose hslice hread hcut).2 _ _ rfl, if_neg hbracket]

end Indices

/-- The cut behind a name, which ends where the first bracket opens. -/
lemma cut?_name (part : List Char) :
    cut? part ((offset? '[' part).getD (byteWidth part)) =
      some (part.takeWhile (· ≠ '['), part.dropWhile (· ≠ '[')) := by
  have hnotMem : '[' ∉ part.takeWhile (· ≠ '[') := by
    intro hmem
    simpa using List.mem_takeWhile_imp hmem
  cases h : part.dropWhile (· ≠ '[') with
  | nil =>
    have htake : part.takeWhile (· ≠ '[') = part :=
      List.takeWhile_eq_self_iff.2 (List.dropWhile_eq_nil_iff.1 h)
    rw [htake] at hnotMem ⊢
    have hcut := cut?_append part []
    rw [List.append_nil] at hcut
    rw [offset?_of_notMem hnotMem]
    exact hcut
  | cons c rest =>
    obtain ⟨hpart, hc⟩ := eq_append_of_dropWhile h
    obtain rfl : c = '[' := by simpa using hc
    generalize part.takeWhile (· ≠ '[') = name at hpart hnotMem ⊢
    subst hpart
    rw [offset?_append hnotMem]
    exact cut?_append name ('[' :: rest)

lemma slicePart_eq (part : List Char) : slicePart part = some (readPart part) := by
  have hrest : ∀ c ∈ (part.dropWhile (· ≠ '[')).head?, c = '[' := by
    intro c hc
    simpa using eq_false_of_mem_head?_dropWhile hc
  rw [slicePart, cut?_name, readPart, drop_length_takeWhile]
  simp only [sliceIndices_eq hrest]
  split
  · rfl
  · split <;> rfl

lemma sliceParts_eq (parts : List (List Char)) : sliceParts parts = some (readParts parts) := by
  induction parts with
  | nil => rfl
  | cons part parts ih =>
    rw [sliceParts, slicePart_eq, readParts]
    cases readPart part with
    | error fault => rfl
    | ok segments =>
      simp only [ih]
      cases readParts parts <;> rfl

/-- Reading by offsets makes no cut that fails, and reads what `parse` does. -/
lemma sliceParse_eq (text : String) : sliceParse text = some (parse text) := by
  rw [sliceParse, parse, sliceParts_eq]
  split
  · rfl
  · cases readParts (splitAt '.' text.toList) <;> rfl

end Path

end EntityModel
