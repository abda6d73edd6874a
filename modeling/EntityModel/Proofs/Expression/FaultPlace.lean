import EntityModel.Proofs.Expression.Coverage
import EntityModel.Proofs.Expression.Parsing

/-!
# Where a text is malformed

A text that is malformed has its fault in a place that it has: at the start of a token that the
fault is about, at the end of the text, or at the start of a literal that is cut off or is no
integer, behind tokens that can be cut.
-/

namespace EntityModel

namespace Token

/-! ### Literals that are none -/

/-- A text that begins with a literal which is cut off or malformed. -/
inductive BadLiteral : List Char → SyntaxFault → Prop
  /-- Up to the end of the text, every quote is written twice. -/
  | unterminated {quote cs} : quote = '\'' ∨ quote = '"' →
      BadLiteral (quote :: doubled quote cs) .unterminatedString
  /-- All digits that follow are taken, and they make no integer of the language. -/
  | notAnInteger {c ds rest} : c.isDigit ∨ c = '-' → (∀ d ∈ ds, d.isDigit) →
      (∀ d ∈ rest.head?, d.isDigit = false) → (∀ n, ¬ Spelled (.integer n) (c :: ds)) →
      BadLiteral (c :: ds ++ rest) (.notAnInteger (String.ofList (c :: ds)))

section BadLiteral

variable {quote c : Char} {cs : List Char}

/-- A quote that is never closed has every later one doubled. -/
lemma exists_doubled_of_readQuoted (h : readQuoted quote cs = none) :
    ∃ inside, cs = doubled quote inside := by
  fun_induction readQuoted quote cs with
  | case1 => exact ⟨[], rfl⟩
  | case2 | case4 => cases h
  | case3 rest ih =>
    obtain ⟨inside, rfl⟩ := ih (Option.map_eq_none_iff.1 h)
    exact ⟨quote :: inside, (doubled_cons_self inside).symm⟩
  | case5 c cs hc ih =>
    obtain ⟨inside, rfl⟩ := ih (Option.map_eq_none_iff.1 h)
    exact ⟨c :: inside, (doubled_cons_of_ne hc inside).symm⟩

lemma readInt64_of_spelled {n : Int64} (h : Spelled (.integer n) cs) : readInt64 cs = .ok n := by
  cases h with
  | mark hmark =>
    unfold ofPunctuation? at hmark
    split at hmark <;> cases hmark
  | natural hne hdigits hvalue => exact readInt64_natural hne hdigits hvalue
  | negative hne hdigits hvalue => exact readInt64_negative hne hdigits hvalue

lemma badLiteral_of_readQuoted (hquote : quote = '\'' ∨ quote = '"')
    (h : readQuoted quote cs = none) : BadLiteral (quote :: cs) .unterminatedString := by
  obtain ⟨inside, rfl⟩ := exists_doubled_of_readQuoted h
  exact .unterminated hquote

lemma badLiteral_of_readInt64 {fault : IntegerFault} (hc : c.isDigit ∨ c = '-')
    (h : readInt64 (c :: cs.takeWhile Char.isDigit) = .error fault) :
    BadLiteral (c :: cs) (.notAnInteger (String.ofList (c :: cs.takeWhile Char.isDigit))) := by
  have hbad : BadLiteral (c :: cs.takeWhile Char.isDigit ++ cs.dropWhile Char.isDigit)
      (.notAnInteger (String.ofList (c :: cs.takeWhile Char.isDigit))) := by
    refine .notAnInteger hc (List.all_eq_true.1 List.all_takeWhile)
      (fun d hd => eq_false_of_mem_head?_dropWhile hd) fun n hn => ?_
    rw [readInt64_of_spelled hn] at h
    cases h
  rwa [List.cons_append, List.takeWhile_append_dropWhile] at hbad

end BadLiteral

/-- A text is cut up to some offset, where a bad literal begins. -/
def StopsAt (start : Nat) (cs : List Char) (offset : Nat) (fault : SyntaxFault) : Prop :=
  ∃ ts front back, cs = front ++ back ∧ Placed start ts front ∧
    offset = start + byteWidth front ∧ BadLiteral back fault

section StopsAt

variable {start offset : Nat} {c : Char} {cs text : List Char} {fault : SyntaxFault}

lemma StopsAt.here (h : BadLiteral cs fault) : StopsAt start cs start fault :=
  ⟨[], [], cs, rfl, .nil (by simp), rfl, h⟩

lemma StopsAt.blank (hc : isBlank c) (h : StopsAt (start + c.utf8Size) cs offset fault) :
    StopsAt start (c :: cs) offset fault := by
  obtain ⟨ts, front, back, rfl, hplaced, rfl, hbad⟩ := h
  refine ⟨ts, c :: front, back, rfl, hplaced.blank hc, ?_, hbad⟩
  rw [byteWidth_cons, Nat.add_assoc]

lemma StopsAt.token {t : Token} (hspelled : Spelled t cs)
    (h : StopsAt (start + byteWidth cs) text offset fault) :
    StopsAt start (cs ++ text) offset fault := by
  obtain ⟨ts, front, back, rfl, hplaced, rfl, hbad⟩ := h
  refine ⟨_, cs ++ front, back, (List.append_assoc ..).symm, hplaced.token hspelled, ?_, hbad⟩
  rw [byteWidth_append, Nat.add_assoc]

/-- Where cutting a text stops for a fault, a bad literal begins. -/
lemma stopsAt_of_scan (h : scan start cs = .error (.malformed offset fault)) :
    StopsAt start cs offset fault := by
  fun_induction scan start cs with
  | case1 => cases h
  | case2 start c cs hblank ih => exact .blank hblank (ih h)
  | case3 start c cs hblank t hmark ih =>
    have hstops := ih (map_eq_error_iff.1 h)
    rw [← byteWidth_singleton] at hstops
    exact .token (.mark hmark) hstops
  | case4 start c cs hblank hmark hquote hread =>
    cases h
    exact .here (badLiteral_of_readQuoted hquote hread)
  | case5 start c cs hblank hmark hquote inside after hread token =>
    rename_i ih
    have hstops := ih (map_eq_error_iff.1 h)
    rw [readQuoted_eq_append hread]
    rw [Nat.add_assoc, ← byteWidth_singleton, ← byteWidth_append] at hstops
    have htoken := StopsAt.token (spelled_of_readQuoted hquote hread) hstops
    simpa using htoken
  | case6 start c cs hblank hmark hquote hstart digits fault hread =>
    cases h
    exact .here (badLiteral_of_readInt64 (by simpa using hstart) hread)
  | case7 start c cs hblank hmark hquote hstart digits n hread =>
    rename_i ih
    have hspelled := spelled_of_readInt64 (by simpa using hstart) hread
    have htoken := StopsAt.token hspelled (ih (map_eq_error_iff.1 h))
    rwa [List.cons_append, List.takeWhile_append_dropWhile] at htoken
  | case8 start c cs hblank hmark hquote hstart hc name =>
    rename_i ih
    have hdigit : c.isDigit = false := by simp_all
    have hname : ∀ d ∈ c :: cs.takeWhile isIdentifierChar, isIdentifierChar d :=
      List.forall_mem_cons.2 ⟨hc, List.all_eq_true.1 List.all_takeWhile⟩
    have htoken := StopsAt.token (Spelled.identifier hdigit hname) (ih (map_eq_error_iff.1 h))
    rwa [List.cons_append, List.takeWhile_append_dropWhile] at htoken
  | case9 => cases h

end StopsAt

end Token

/-! ### Tokens that are not as they should be -/

/-- What a fault of the parser is about: the token that stands at the place, or that there is
none. -/
def SyntaxFault.IsAbout : SyntaxFault → Option Token → Prop
  | .unexpected found, t => found = t
  | .noSeparator found, t => found = t
  | .noName found, t => found = t
  | .noIndex found, t => found = t
  | .expected _ found, t => found = t
  | .negativeIndex n, t => t = some (.integer n)
  | .unterminatedString, _ => False
  | .notAnInteger _, _ => False

/-- What an error of the parser points to: a token that is there, or the end of the text. A
violation points to no place. -/
def PointsInto (stop : Nat) (ts : List Lexeme) : ParseError → Prop
  | .violation _ => True
  | .malformed offset fault =>
    (∃ l ∈ ts, l.offset = offset ∧ fault.IsAbout (some l.token)) ∨
      offset = stop ∧ fault.IsAbout none

section PointsInto

variable {stop : Nat} {ts us : List Lexeme} {e : ParseError}

lemma PointsInto.mono (h : PointsInto stop ts e) (hsub : ts ⊆ us) : PointsInto stop us e := by
  cases e with
  | violation v => trivial
  | malformed offset fault =>
    rcases h with ⟨l, hl, hplace⟩ | hend
    · exact .inl ⟨l, hsub hl, hplace⟩
    · exact .inr hend

lemma pointsInto_token {l : Lexeme} {fault : SyntaxFault} (hl : l ∈ ts)
    (h : fault.IsAbout (some l.token)) : PointsInto stop ts (.malformed l.offset fault) :=
  .inl ⟨l, hl, rfl, h⟩

lemma pointsInto_stop {fault : SyntaxFault} (h : fault.IsAbout none) :
    PointsInto stop ts (.malformed stop fault) :=
  .inr ⟨rfl, h⟩

namespace Expression

lemma pointsInto_of_readSteps (h : readSteps stop ts = .error e) : PointsInto stop ts e := by
  fun_induction readSteps stop ts with
  | case1 =>
    cases h
    trivial
  | case2 offset name offset' ts hnext ih =>
    have hrest := ih (map_eq_error_iff.1 h)
    exact hrest.mono (List.subset_cons_of_subset _ (List.subset_cons_self _ _))
  | case3 | case7 | case9 =>
    cases h
    exact pointsInto_stop rfl
  | case4 | case8 | case10 =>
    cases h
    exact pointsInto_token (by simp) rfl
  | case5 offset n offset' ts hn =>
    cases h
    exact pointsInto_token (l := ⟨.integer n, offset'⟩) (by simp) rfl
  | case6 offset n offset' hn offset'' ts ih =>
    have hrest := ih (map_eq_error_iff.1 h)
    refine hrest.mono (List.subset_cons_of_subset _ (List.subset_cons_of_subset _ ?_))
    exact List.subset_cons_self _ _
  | case11 =>
    cases h
    trivial
  | case12 => cases h

lemma pointsInto_of_readName {name : String} (h : readName stop name ts = .error e) :
    PointsInto stop ts e := by
  by_cases hname : name ∈ reservedWords
  · simp only [reservedWords, List.mem_cons, List.not_mem_nil, or_false] at hname
    rcases hname with rfl | rfl | rfl | rfl
    · cases h
    · cases h
    · cases h
    · cases h
      trivial
  · rw [readName_of_notMem hname] at h
    exact pointsInto_of_readSteps (map_eq_error_iff.1 h)

lemma pointsInto_of_checkAfterCall {f : Builtin} {rest : List Lexeme}
    (h : checkAfterCall f rest = .error e) : PointsInto stop ts e := by
  unfold checkAfterCall at h
  split at h
  · cases h
    trivial
  · cases h
    trivial
  · cases h

/-- A call is refused as such, or for its arguments. -/
lemma pointsInto_of_outcome_read_call {levels offset offset' : Nat} {name : String}
    (hargs : ∀ inner cause, outcome (readArguments inner stop ts) = .error cause →
      PointsInto stop ts cause)
    (h : outcome (read levels stop (⟨.identifier name, offset⟩ :: ⟨.openParen, offset'⟩ :: ts)) =
      .error e) :
    PointsInto stop (⟨.identifier name, offset⟩ :: ⟨.openParen, offset'⟩ :: ts) e := by
  cases hf : Builtin.lookup? name with
  | none =>
    rw [read.eq_4 _ _ _ _ _ _ hf] at h
    cases h
    trivial
  | some f =>
    obtain rfl := Builtin.lookup?_eq_some_iff.1 hf
    cases levels with
    | zero =>
      rw [outcome_read_call_zero] at h
      cases h
      trivial
    | succ inner =>
      by_cases hclose : ∀ t ∈ ts.head?, t.token ≠ .closeParen
      · rw [outcome_read_call f hclose] at h
        rcases bind_eq_error_iff.1 h with h | ⟨⟨args, rest⟩, -, h⟩
        · have hpoints := hargs inner e h
          exact hpoints.mono (List.subset_cons_of_subset _ (List.subset_cons_self _ _))
        · exact pointsInto_of_checkAfterCall (map_eq_error_iff.1 h)
      · obtain ⟨offset'', ts, rfl⟩ := exists_cons_of_head_token hclose
        rw [outcome_read_call_nil] at h
        exact pointsInto_of_checkAfterCall (map_eq_error_iff.1 h)

/-- Behind an argument, the fault is the token there, or in the arguments that follow. -/
lemma pointsInto_of_readMore {levels : Nat} {arg : Expression}
    (hmore : ∀ offset rest cause, ts = ⟨.comma, offset⟩ :: rest →
      outcome (readArguments levels stop rest) = .error cause → PointsInto stop rest cause)
    (h : readMore levels stop arg ts = .error e) : PointsInto stop ts e := by
  unfold readMore at h
  split at h
  · next offset rest =>
    have hpoints := hmore offset rest e rfl (map_eq_error_iff.1 h)
    exact hpoints.mono (List.subset_cons_self _ _)
  · cases h
  · cases h
    exact pointsInto_stop rfl
  · cases h
    exact pointsInto_token List.mem_cons_self rfl

mutual

lemma pointsInto_of_outcome_read {levels stop : Nat} {ts : List Lexeme} {e : ParseError}
    (h : outcome (read levels stop ts) = .error e) : PointsInto stop ts e := by
  match ts with
  | [] =>
    rw [read] at h
    cases h
    exact pointsInto_stop rfl
  | ⟨.string s, offset⟩ :: ts =>
    rw [outcome_read_string] at h
    cases h
  | ⟨.integer n, offset⟩ :: ts =>
    rw [outcome_read_integer] at h
    cases h
  | ⟨.identifier name, offset⟩ :: ts =>
    by_cases hopen : ∀ t ∈ ts.head?, t.token ≠ .openParen
    · rw [outcome_read_name name hopen] at h
      exact (pointsInto_of_readName h).mono (List.subset_cons_self _ _)
    · obtain ⟨offset', ts, rfl⟩ := exists_cons_of_head_token hopen
      exact pointsInto_of_outcome_read_call
        (fun _ _ hargs => pointsInto_of_outcome_readArguments hargs) h
  | ⟨.dot, _⟩ :: _ | ⟨.comma, _⟩ :: _ | ⟨.openParen, _⟩ :: _ | ⟨.closeParen, _⟩ :: _
  | ⟨.openBracket, _⟩ :: _ | ⟨.closeBracket, _⟩ :: _ =>
    rw [read] at h
    · cases h
      exact pointsInto_token List.mem_cons_self rfl
    all_goals simp
termination_by (ts.length, 0)

lemma pointsInto_of_outcome_readArguments {levels stop : Nat} {ts : List Lexeme} {e : ParseError}
    (h : outcome (readArguments levels stop ts) = .error e) : PointsInto stop ts e := by
  rw [outcome_readArguments] at h
  rcases bind_eq_error_iff.1 h with harg | ⟨⟨arg, rest⟩, harg, hmore⟩
  · exact pointsInto_of_outcome_read harg
  · obtain ⟨used, rfl, hderives⟩ := (between_of_outcome_read harg).derives
    refine (pointsInto_of_readMore (fun offset rest' cause heq hargs => ?_) hmore).mono
      (List.subset_append_right used rest)
    have hlt : rest'.length < (used ++ rest).length := by
      rw [heq, List.length_append, List.length_cons]
      omega
    exact pointsInto_of_outcome_readArguments hargs
termination_by (ts.length, 1)

end

/-- An error of the parser points to one of the tokens that it was given, or to the end. -/
lemma pointsInto_of_ofTokens (h : ofTokens stop ts = .error e) : PointsInto stop ts e := by
  rw [ofTokens_eq_bind] at h
  rcases bind_eq_error_iff.1 h with hread | ⟨⟨x, rest⟩, hread, hrest⟩
  · exact pointsInto_of_outcome_read hread
  · obtain ⟨used, rfl, -⟩ := (between_of_outcome_read hread).derives
    cases rest with
    | nil => cases hrest
    | cons t rest =>
      cases hrest
      exact pointsInto_token (by simp) rfl

end Expression

end PointsInto

/-! ### Whole texts -/

/-- Where the fault of a malformed text lies. -/
inductive FaultAt (source : String) (offset : Nat) (fault : SyntaxFault) : Prop
  /-- At a token that the fault is about. -/
  | token {ts l} : Token.tokenize source = .ok ts → l ∈ ts → l.offset = offset →
      fault.IsAbout (some l.token) → FaultAt source offset fault
  /-- At the end of the text, where a token is missing. -/
  | stop {ts} : Token.tokenize source = .ok ts → offset = source.utf8ByteSize →
      fault.IsAbout none → FaultAt source offset fault
  /-- At a literal that is cut off or malformed, before which the text is made of tokens. -/
  | literal {before after pieces} : source = before ++ after → before.utf8ByteSize = offset →
      Token.MadeOf before 0 pieces → Token.BadLiteral after.toList fault →
      FaultAt source offset fault

section FaultAt

variable {source : String} {offset : Nat} {fault : SyntaxFault}

lemma Token.madeOf_of_placed {ts : List Lexeme} (h : Placed 0 ts source.toList) :
    ∃ pieces, pieces.map (·.lexeme) = ts ∧ MadeOf source 0 pieces :=
  exists_madeOf_of_placed h (List.nil_append _).symm rfl

lemma faultAt_of_stopsAt (h : Token.StopsAt 0 source.toList offset fault) :
    FaultAt source offset fault := by
  obtain ⟨ts, front, back, hsource, hplaced, rfl, hbad⟩ := h
  have hfront : Token.Placed 0 ts (String.ofList front).toList := by rwa [String.toList_ofList]
  obtain ⟨pieces, -, hmade⟩ := Token.madeOf_of_placed hfront
  have hsplit : source = String.ofList front ++ String.ofList back := by
    rw [← String.ofList_append, ← hsource, String.ofList_toList]
  refine .literal hsplit ?_ hmade (by rwa [String.toList_ofList])
  rw [Nat.zero_add, Token.byteWidth_eq_utf8ByteSize]

lemma faultAt_of_parse (h : Expression.parse source = .error (.malformed offset fault)) :
    FaultAt source offset fault := by
  rcases bind_eq_error_iff.1 h with hscan | ⟨ts, hts, hread⟩
  · exact faultAt_of_stopsAt (Token.stopsAt_of_scan hscan)
  · rcases Expression.pointsInto_of_ofTokens hread with ⟨l, hl, hoffset, habout⟩ | ⟨hend, habout⟩
    · exact .token hts hl hoffset habout
    · exact .stop hts hend habout

end FaultAt

/-- A text that is cut into tokens is made of their spellings and of blanks. The offsets of the
tokens and of the end ascend, and each lies between two characters. Where a text is malformed, the
fault lies at one of these offsets, or where a literal begins that is none. -/
theorem Expression.tokens_and_faults_in_place (source : String) :
    (∀ ts, Token.tokenize source = .ok ts →
      (Token.offsets source ts).Pairwise (· < ·) ∧
      (∀ offset ∈ Token.offsets source ts, String.Pos.Raw.IsValid source ⟨offset⟩) ∧
      ∃ pieces, pieces.map (·.lexeme) = ts ∧ Token.MadeOf source 0 pieces) ∧
    ∀ offset fault, parse source = .error (.malformed offset fault) →
      FaultAt source offset fault := by
  constructor
  · intro ts hts
    obtain ⟨pieces, rfl, hmade⟩ := Token.madeOf_of_placed (Token.placed_of_scan hts)
    exact ⟨hmade.pairwise_offsets, hmade.isValid_offsets, pieces, rfl, hmade⟩
  · intro offset fault h
    exact faultAt_of_parse h

/-- A source with a character of two bytes, behind which a comma is missing. -/
def exampleUnseparated : String := "concat('é' x)"

/-- The tokens of the example. -/
def exampleUnseparatedLexemes : List Lexeme :=
  [⟨.identifier "concat", 0⟩, ⟨.openParen, 6⟩, ⟨.string "é", 7⟩, ⟨.identifier "x", 12⟩,
    ⟨.closeParen, 13⟩]

lemma tokenize_exampleUnseparated :
    Token.tokenize exampleUnseparated = .ok exampleUnseparatedLexemes := by
  decide +kernel

lemma Expression.parse_exampleUnseparated : parse exampleUnseparated =
    .error (.malformed 12 (.noSeparator (some (.identifier "x")))) := by
  have hargs : outcome (readArguments 63 14 (exampleUnseparatedLexemes.drop 2)) =
      .error (.malformed 12 (.noSeparator (some (.identifier "x")))) := by
    rw [outcome_readArguments]
    show (outcome (read 63 14 (⟨.string "é", 7⟩ :: _))).bind _ = _
    rw [outcome_read_string]
    rfl
  have hread : outcome (read maxDepth 14 exampleUnseparatedLexemes) =
      .error (.malformed 12 (.noSeparator (some (.identifier "x")))) := by
    have hnext : ∀ t ∈ (exampleUnseparatedLexemes.drop 2).head?, t.token ≠ .closeParen := by decide
    refine (outcome_read_call .concat hnext).trans ?_
    rw [hargs]
    rfl
  rw [parse, tokenize_exampleUnseparated]
  show ofTokens 14 exampleUnseparatedLexemes = _
  rw [ofTokens_eq_bind, hread]
  rfl

theorem Expression.tokens_and_faults_in_place_of_exampleUnseparated :
    Token.tokenize exampleUnseparated = .ok exampleUnseparatedLexemes ∧
      [0, 6, 7, 12, 13, 14].Pairwise (· < ·) ∧
      (∀ offset ∈ [0, 6, 7, 12, 13, 14],
        String.Pos.Raw.IsValid exampleUnseparated ⟨offset⟩) ∧
      (∃ pieces, pieces.map (·.lexeme) = exampleUnseparatedLexemes ∧
        Token.MadeOf exampleUnseparated 0 pieces) ∧
      parse exampleUnseparated =
        .error (.malformed 12 (.noSeparator (some (.identifier "x")))) ∧
      FaultAt exampleUnseparated 12 (.noSeparator (some (.identifier "x"))) := by
  obtain ⟨hcovered, hlocated⟩ := tokens_and_faults_in_place exampleUnseparated
  obtain ⟨hascend, hvalid, hmade⟩ := hcovered _ tokenize_exampleUnseparated
  exact ⟨tokenize_exampleUnseparated, hascend, hvalid, hmade, parse_exampleUnseparated,
    hlocated _ _ parse_exampleUnseparated⟩

end EntityModel
