import EntityModel.Proofs.Path.Language

/-!
# Texts of paths, step by step

A path is written as a name and the steps after it, each of them a point and a name or an index in
brackets. This is another view of the texts of `Path.Spelled`. The canonical text of names and
indices is one of these texts, so that it is read as the path that it was made of.
-/

namespace EntityModel

namespace Path

/-- Steps after a name, one after another. -/
inductive StepsSpelled : List Segment → List Char → Prop
  | nil : StepsSpelled [] []
  | field {name steps text} : NameSpelled name → StepsSpelled steps text →
      StepsSpelled (.field (String.ofList name) :: steps) ('.' :: (name ++ text))
  | index {i inside steps text} : IndexSpelled i inside → StepsSpelled steps text →
      StepsSpelled (.index i :: steps) ('[' :: (inside ++ ']' :: text))

lemma IndicesSpelled.append {indices steps : List Segment} {text rest : List Char}
    (h : IndicesSpelled indices text) (hsteps : StepsSpelled steps rest) :
    StepsSpelled (indices ++ steps) (text ++ rest) := by
  induction h with
  | nil => exact hsteps
  | cons hinside _ ih =>
    rw [List.cons_append, List.cons_append, List.append_assoc, List.cons_append]
    exact .index hinside ih

lemma IndicesSpelled.concat {indices : List Segment} {text inside : List Char} {i : Nat}
    (h : IndicesSpelled indices text) (hinside : IndexSpelled i inside) :
    IndicesSpelled (indices ++ [.index i]) (text ++ ('[' :: (inside ++ [']']))) := by
  induction h with
  | nil => exact .cons hinside .nil
  | cons hfirst _ ih =>
    rw [List.cons_append, List.cons_append, List.append_assoc, List.cons_append]
    exact .cons hfirst ih

lemma partSpelled_name {name : List Char} (h : NameSpelled name) :
    PartSpelled [.field (String.ofList name)] name := by
  have hpart := PartSpelled.mk h .nil
  rwa [List.append_nil] at hpart

/-- A text that stands for a path is a name and the steps after it. -/
lemma Spelled.exists_steps {segments : List Segment} {text : List Char}
    (h : Spelled segments text) :
    ∃ name steps rest, NameSpelled name ∧ segments = .field (String.ofList name) :: steps ∧
      text = name ++ rest ∧ StepsSpelled steps rest := by
  induction h with
  | one hpart =>
    obtain ⟨hname, hindices⟩ := hpart
    have hsteps := hindices.append .nil
    rw [List.append_nil, List.append_nil] at hsteps
    exact ⟨_, _, _, hname, rfl, rfl, hsteps⟩
  | more hpart _ ih =>
    obtain ⟨name', steps, rest, hname', rfl, rfl, hsteps⟩ := ih
    obtain ⟨hname, hindices⟩ := hpart
    refine ⟨_, _, _, hname, rfl, ?_, hindices.append (.field hname' hsteps)⟩
    rw [List.append_assoc]

lemma PartSpelled.append {part steps : List Segment} {text rest : List Char}
    (h : PartSpelled part text) (hsteps : StepsSpelled steps rest) :
    Spelled (part ++ steps) (text ++ rest) := by
  induction hsteps generalizing part text with
  | nil =>
    rw [List.append_nil, List.append_nil]
    exact .one h
  | field hname _ ih => exact .more h (ih (partSpelled_name hname))
  | index hinside _ ih =>
    obtain ⟨hname, hindices⟩ := h
    have hlonger := PartSpelled.mk hname (hindices.concat hinside)
    simpa using ih hlonger

/-! ### Canonical texts -/

lemma indexSpelled_digits {i : Nat} (h : i < Nat.pow 2 indexBits) :
    IndexSpelled i (Decimals.digits i) := by
  have hne : Decimals.digits i ≠ [] := by
    rw [Decimals.digits]
    simp
  have hvalue := Decimals.value_digits i
  have hspelled := IndexSpelled.mk (.inl rfl) hne (fun _ => Decimals.isDigit_of_mem_digits)
    (hvalue.symm ▸ h)
  rwa [hvalue] at hspelled

lemma stepsSpelled_segmentChars {steps : List Segment}
    (hnames : ∀ name, .field name ∈ steps → NameSpelled name.toList)
    (hindices : ∀ i, .index i ∈ steps → i < Nat.pow 2 indexBits) :
    StepsSpelled steps (segmentChars true steps) := by
  induction steps with
  | nil => exact .nil
  | cons step steps ih =>
    have hsteps := ih (fun name hname => hnames name (List.mem_cons_of_mem step hname))
      (fun i hi => hindices i (List.mem_cons_of_mem step hi))
    cases step with
    | field name =>
      have hspelled := StepsSpelled.field (hnames name List.mem_cons_self) hsteps
      rw [String.ofList_toList] at hspelled
      exact hspelled
    | index i =>
      exact .index (indexSpelled_digits (hindices i List.mem_cons_self)) hsteps

/-- The canonical text of names and indices is read as the path of them. -/
lemma parse_ofSegments {root : String} {steps : List Segment}
    (hnames : ∀ name, .field name ∈ Segment.field root :: steps → NameSpelled name.toList)
    (hindices : ∀ i, .index i ∈ Segment.field root :: steps → i < Nat.pow 2 indexBits) :
    parse (ofSegments (.field root :: steps)).text = .ok (.ofSegments (.field root :: steps)) := by
  have hroot := hnames root List.mem_cons_self
  have hsteps : StepsSpelled steps (segmentChars true steps) :=
    stepsSpelled_segmentChars (fun name hname => hnames name (List.mem_cons_of_mem _ hname))
      (fun i hi => hindices i (List.mem_cons_of_mem _ hi))
  have hspelled := (partSpelled_name hroot).append hsteps
  have hstarted : (false || !root.toList.isEmpty) = true := by simpa using hroot.1
  refine parse_eq_ok_iff_spelled.2 ⟨rfl, ?_⟩
  rw [String.ofList_toList] at hspelled
  rw [ofSegments, String.toList_ofList, segmentChars, hstarted]
  exact hspelled

end Path

end EntityModel
