import EntityModel.Proofs.Expression.Scanning
import EntityModel.Proofs.Expression.Source
import EntityModel.Proofs.Path.Steps

/-!
# Texts of paths as expressions

Paths are read by two grammars: by themselves, from parts between points, and in expressions, from
tokens. Every path of an expression has a text that is read by itself as that path. A text that is
read by itself is an expression as well, if its names, its root and its indices are of the kinds
that expressions have, and is parsed as the path of the same steps, unless it has a plus sign in
front of an index: no token has one.
-/

namespace EntityModel

open Token (Written Spelled IsName breaks byteWidth byteWidth_append scan)

/-! ### Paths of what is parsed -/

lemma identifier_mem_of_derivesSteps {segments : List Segment} {ts : List Token} {name : String}
    (h : DerivesSteps segments ts) (hname : .field name ∈ segments) : .identifier name ∈ ts := by
  induction h with
  | nil => cases hname
  | field _ ih =>
    rcases List.mem_cons.1 hname with heq | hname
    · cases heq
      simp
    · exact List.mem_cons_of_mem _ (List.mem_cons_of_mem _ (ih hname))
  | index _ _ ih =>
    have hname := ih (List.mem_of_ne_of_mem (by simp) hname)
    exact List.mem_cons_of_mem _ (List.mem_cons_of_mem _ (List.mem_cons_of_mem _ hname))

/-- The paths of what is parsed can be written. -/
theorem Expression.plain_of_parse {source : String} {x : Expression} (h : parse source = .ok x) :
    x.Plain := by
  obtain ⟨lexemes, hlexemes, h⟩ := bind_eq_ok_iff.1 h
  obtain ⟨hderives, -, hroots⟩ := ofTokens_eq_ok_iff.1 h
  intro p hp
  have hroot := hroots p hp
  obtain ⟨root, segments, us, rfl, hsteps, hwithin⟩ := exists_derivesSteps_of_mem_paths hderives hp
  refine ⟨rfl, ⟨root, segments, rfl⟩, hroot, ?_, ?_⟩
  · intro name hname
    have hword : .identifier name ∈ .identifier root :: us := by
      rcases List.mem_cons.1 hname with heq | hname
      · cases heq
        exact List.mem_cons_self
      · exact List.mem_cons_of_mem _ (identifier_mem_of_derivesSteps hsteps hname)
    exact Token.isName_of_scan hlexemes (hwithin.subset hword)
  · intro i hi
    have hi : .index i ∈ segments := List.mem_of_ne_of_mem (by simp) hi
    obtain ⟨n, -, hn⟩ := exists_integer_of_derivesSteps hsteps hi
    have hlt : n.toInt < 2 ^ 63 := Int64.toInt_lt n
    have hlt : i < 2 ^ 63 := by omega
    exact hlt

lemma Path.nameSpelled_of_isName {name : String} (h : IsName name) : NameSpelled name.toList := by
  obtain ⟨c, cs, hcs, -, hall⟩ := h
  rw [hcs]
  exact ⟨List.cons_ne_nil c cs, hall⟩

/-- The text of a path that can be written in an expression is read as that path. -/
lemma Path.Plain.parse_text {p : Path} (h : p.Plain) : parse p.text = .ok p := by
  obtain ⟨root, steps, hsegments⟩ := h.starts
  have hnames := h.names
  have hindices := h.indices
  rw [hsegments] at hnames hindices
  have hbits : Nat.pow 2 63 < Nat.pow 2 indexBits := by decide
  rw [h.canonical, hsegments]
  exact parse_ofSegments (fun name hname => nameSpelled_of_isName (hnames name hname))
    (fun i hi => (hindices i hi).trans hbits)

/-! ### Paths that expressions have words for -/

/-- Every name of the path starts with a letter or an underscore, its root is no word of the
language, and its indices are integers of the language. -/
structure Path.Sayable (p : Path) : Prop where
  names : ∀ name, .field name ∈ p.segments → ∀ c ∈ name.toList.head?, c.isAlpha ∨ c = '_'
  root_notMem : p.root ∉ reservedWords
  indices : ∀ i, .index i ∈ p.segments → i < Nat.pow 2 63

lemma Path.isName_of_nameSpelled {name : String} (h : NameSpelled name.toList)
    (hstart : ∀ c ∈ name.toList.head?, c.isAlpha ∨ c = '_') : IsName name := by
  obtain ⟨c, cs, hcs⟩ := List.exists_cons_of_ne_nil h.1
  have hall := h.2
  rw [hcs] at hall hstart
  refine ⟨c, cs, hcs, ?_, hall⟩
  rcases hstart c rfl with hc | rfl
  · exact isDigit_eq_false_of_isAlpha hc
  · decide

lemma Path.StepsSpelled.nameSpelled {steps : List Segment} {text : List Char} {name : String}
    (h : StepsSpelled steps text) (hname : .field name ∈ steps) : NameSpelled name.toList := by
  induction h with
  | nil => cases hname
  | field hspelled _ ih =>
    rcases List.mem_cons.1 hname with heq | hname
    · cases heq
      rwa [String.toList_ofList]
    · exact ih hname
  | index _ _ ih => exact ih (List.mem_of_ne_of_mem (by simp) hname)

lemma Path.StepsSpelled.breaks_head {steps : List Segment} {text : List Char}
    (h : StepsSpelled steps text) : ∀ c ∈ text.head?, breaks c := by
  cases h with
  | nil =>
    intro c hc
    cases hc
  | _ =>
    intro c hc
    cases hc
    decide

/-- Steps whose names and indices are tokens. -/
structure Path.StepsPlain (steps : List Segment) : Prop where
  names : ∀ name, .field name ∈ steps → IsName name
  indices : ∀ i, .index i ∈ steps → i < Nat.pow 2 63

lemma Path.StepsPlain.tail {step : Segment} {steps : List Segment}
    (h : StepsPlain (step :: steps)) : StepsPlain steps :=
  ⟨fun name hname => h.names name (List.mem_cons_of_mem step hname),
    fun i hi => h.indices i (List.mem_cons_of_mem step hi)⟩

lemma Path.StepsPlain.spelled_name {name : List Char} {steps : List Segment}
    (h : StepsPlain (.field (String.ofList name) :: steps)) :
    Token.Spelled (.identifier (String.ofList name)) name := by
  have hspelled := Token.spelled_of_isName (h.names _ List.mem_cons_self)
  rwa [String.toList_ofList] at hspelled

lemma Path.StepsPlain.spelled_index {i : Nat} {inside : List Char} {steps : List Segment}
    (h : StepsPlain (.index i :: steps)) (hinside : IndexSpelled i inside) (hplus : '+' ∉ inside) :
    Token.Spelled (.integer (Int64.ofNat i)) inside := by
  have hi := h.indices i List.mem_cons_self
  obtain ⟨hsign, hne, hdigits, -⟩ := hinside
  rcases hsign with rfl | rfl
  · exact .natural hne hdigits (Int64.toInt_ofNat_of_lt hi)
  · exact absurd List.mem_cons_self hplus

/-- Without a plus sign, steps are written as their tokens. -/
lemma Path.StepsSpelled.written {steps : List Segment} {text : List Char}
    (h : StepsSpelled steps text) (hplain : StepsPlain steps) (hplus : '+' ∉ text) :
    Written (steps.flatMap Segment.tokens) text := by
  induction h with
  | nil => exact .nil (by simp)
  | @field name steps text _ _ ih =>
    have hsteps := ih hplain.tail fun hc => hplus (by simp [hc])
    exact .token (.mark rfl) (.token hplain.spelled_name hsteps)
  | @index i inside steps text hinside _ ih =>
    have hindex := hplain.spelled_index hinside fun hc => hplus (by simp [hc])
    have hsteps := ih hplain.tail fun hc => hplus (by simp [hc])
    exact .token (.mark rfl) (.token hindex (.token (.mark rfl) hsteps))

/-! ### Texts with a plus sign -/

/-- The refusal of a text for the plus sign that is first in it. -/
def plusRefusal (offset : Nat) (text : List Char) : ParseError :=
  .violation (.foreignChar '+' (offset + byteWidth (text.takeWhile (· ≠ '+'))))

/-- A text is refused for the plus sign that is first in it. -/
def RefusesPlus (text : List Char) : Prop :=
  ∀ offset, scan offset text = .error (plusRefusal offset text)

section Plus

variable {cs text : List Char}

lemma refusesPlus_cons (text : List Char) : RefusesPlus ('+' :: text) := by
  intro offset
  rw [scan]
  rfl

lemma RefusesPlus.prepend {t : Token} (h : RefusesPlus text) (hspelled : Spelled t cs)
    (htext : t.isMark ∨ ∀ c ∈ text.head?, breaks c) (hplus : '+' ∉ cs) :
    RefusesPlus (cs ++ text) := by
  intro offset
  have htake : (cs ++ text).takeWhile (· ≠ '+') = cs ++ text.takeWhile (· ≠ '+') := by
    apply List.takeWhile_append_of_pos
    intro c hc
    refine decide_eq_true ?_
    rintro rfl
    exact hplus hc
  rw [Token.scan_spelled hspelled htext, h, plusRefusal, plusRefusal, htake, byteWidth_append,
    Nat.add_assoc]
  rfl

lemma Path.NameSpelled.plus_notMem {name : List Char} (h : NameSpelled name) : '+' ∉ name :=
  fun hc => ne_of_isIdentifierChar (h.2 '+' hc) (by decide) rfl

/-- A plus sign of an index stands in front of its digits. -/
lemma Path.IndexSpelled.exists_cons {i : Nat} {inside : List Char} (h : IndexSpelled i inside)
    (hplus : '+' ∈ inside) : ∃ ds, inside = '+' :: ds := by
  obtain ⟨hsign, -, hdigits, -⟩ := h
  rcases hsign with rfl | rfl
  · exact absurd (hdigits '+' hplus) (by decide)
  · exact ⟨_, rfl⟩

/-- With a plus sign, steps are refused for it, as what stands before it is cut into tokens. -/
lemma Path.StepsSpelled.refusesPlus {steps : List Segment} (h : StepsSpelled steps text)
    (hplain : StepsPlain steps) (hplus : '+' ∈ text) : RefusesPlus text := by
  induction h with
  | nil => cases hplus
  | @field name steps text hname hsteps ih =>
    have htext : '+' ∈ text := by simpa [hname.plus_notMem] using hplus
    have hrest : RefusesPlus (name ++ text) :=
      (ih hplain.tail htext).prepend hplain.spelled_name (.inr hsteps.breaks_head) hname.plus_notMem
    exact hrest.prepend (.mark rfl) (.inl rfl) (by decide)
  | @index i inside steps text hinside hsteps ih =>
    have hinner : RefusesPlus (inside ++ ']' :: text) := by
      by_cases hsign : '+' ∈ inside
      · obtain ⟨ds, rfl⟩ := hinside.exists_cons hsign
        exact refusesPlus_cons _
      · have htext : '+' ∈ text := by simpa [hsign] using hplus
        have hclose : RefusesPlus (']' :: text) :=
          (ih hplain.tail htext).prepend (.mark rfl) (.inl rfl) (by decide)
        have hbreaks : ∀ c ∈ (']' :: text).head?, breaks c := by
          intro c hc
          cases hc
          decide
        exact hclose.prepend (hplain.spelled_index hinside hsign) (.inr hbreaks) hsign
    exact hinner.prepend (.mark rfl) (.inl rfl) (by decide)

end Plus

/-! ### Texts of paths -/

section Parse

variable {text : String} {P : Path}

/-- The text of a path that expressions have words for is a name and the steps after it, of which
the path is made. -/
lemma Path.Sayable.exists_steps (hP : P.Sayable) (h : parse text = .ok P) :
    ∃ name steps rest, NameSpelled name ∧ StepsPlain (.field (String.ofList name) :: steps) ∧
      P.segments = .field (String.ofList name) :: steps ∧ text.toList = name ++ rest ∧
      StepsSpelled steps rest := by
  obtain ⟨-, hspelled⟩ := parse_eq_ok_iff_spelled.1 h
  obtain ⟨name, steps, rest, hname, hsegments, htext, hsteps⟩ := hspelled.exists_steps
  refine ⟨name, steps, rest, hname, ⟨fun other hother => ?_, fun i hi => ?_⟩, hsegments, htext,
    hsteps⟩
  · have hspelled : NameSpelled other.toList := by
      rcases List.mem_cons.1 hother with heq | hother
      · cases heq
        rwa [String.toList_ofList]
      · exact hsteps.nameSpelled hother
    exact isName_of_nameSpelled hspelled (hP.names other (hsegments ▸ hother))
  · exact hP.indices i (hsegments ▸ hi)

/-- The path of the same steps can be written in an expression. -/
lemma Path.Sayable.plain (hP : P.Sayable) (h : parse text = .ok P) :
    (ofSegments P.segments).Plain := by
  obtain ⟨name, steps, rest, -, hplain, hsegments, -⟩ := hP.exists_steps h
  have hroot := hP.root_notMem
  refine ⟨rfl, ⟨_, _, hsegments⟩, hroot, ?_, hP.indices⟩
  rw [ofSegments, hsegments]
  exact hplain.names

lemma Expression.parse_of_plus_notMem (h : Path.parse text = .ok P) (hP : P.Sayable)
    (hplus : '+' ∉ text.toList) : parse text = .ok (.path (.ofSegments P.segments)) := by
  obtain ⟨name, steps, rest, -, hplain, hsegments, htext, hsteps⟩ := hP.exists_steps h
  have hwritten : Written (Path.ofSegments P.segments).tokens text.toList := by
    rw [htext] at hplus ⊢
    rw [Path.ofSegments, hsegments]
    refine .token hplain.spelled_name (hsteps.written hplain.tail ?_)
    exact fun hc => hplus (List.mem_append_right name hc)
  have hroots : ∀ p ∈ (Expression.path (.ofSegments P.segments)).paths, p.root ∉ reservedWords :=
    List.forall_mem_singleton.2 hP.root_notMem
  exact parse_of_written (hP.plain h).derives hroots hwritten

lemma Path.plus_notMem_segmentChars {steps : List Segment}
    (hnames : ∀ name, .field name ∈ steps → NameSpelled name.toList) (started : Bool) :
    '+' ∉ segmentChars started steps := by
  induction steps generalizing started with
  | nil => exact List.not_mem_nil
  | cons step steps ih =>
    have hsteps := ih fun name hname => hnames name (List.mem_cons_of_mem step hname)
    cases step with
    | field name =>
      have hname := (hnames name List.mem_cons_self).plus_notMem
      cases started <;> simp [segmentChars, hname, hsteps]
    | index i =>
      have hdigits : '+' ∉ Decimals.digits i :=
        fun hc => absurd (Decimals.isDigit_of_mem_digits hc) (by decide)
      simp [segmentChars, hdigits, hsteps]

/-- The canonical text of the same steps is parsed as their path. -/
lemma Expression.parse_canonical (h : Path.parse text = .ok P) (hP : P.Sayable) :
    parse (Path.ofSegments P.segments).text = .ok (.path (.ofSegments P.segments)) := by
  have hplain := hP.plain h
  have hplus : '+' ∉ (Path.ofSegments P.segments).text.toList := by
    rw [Path.ofSegments, String.toList_ofList]
    apply Path.plus_notMem_segmentChars
    exact fun name hname => Path.nameSpelled_of_isName (hplain.names name hname)
  have hsayable : (Path.ofSegments P.segments).Sayable := ⟨hP.names, hP.root_notMem, hP.indices⟩
  exact parse_of_plus_notMem (P := .ofSegments P.segments) hplain.parse_text hsayable hplus

lemma Expression.parse_of_plus_mem (h : Path.parse text = .ok P) (hP : P.Sayable)
    (hplus : '+' ∈ text.toList) : parse text = .error (plusRefusal 0 text.toList) := by
  obtain ⟨name, steps, rest, hname, hplain, -, htext, hsteps⟩ := hP.exists_steps h
  have hrefuses : RefusesPlus text.toList := by
    rw [htext] at hplus ⊢
    have hrest := (List.mem_append.1 hplus).resolve_left hname.plus_notMem
    exact (hsteps.refusesPlus hplain.tail hrest).prepend hplain.spelled_name
      (.inr hsteps.breaks_head) hname.plus_notMem
  rw [parse, Token.tokenize, hrefuses 0]
  rfl

end Parse

end EntityModel
