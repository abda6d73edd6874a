import EntityModel.Proofs.Expression.Parsing
import EntityModel.Proofs.Expression.Spelling

/-!
# Sources of expressions

An expression is written as its tokens, in any of their spellings and with any blanks between them.
What is parsed from a source is the one derivation of its tokens within the sandbox; what a plain
expression is written as is parsed as that expression, or refused because calls nest too deep.
-/

namespace EntityModel

open Token (Written Spelled Separated)

/-! ### Expressions as tokens -/

/-- A step of a path, as tokens. -/
def Segment.tokens : Segment → List Token
  | .field name => [.dot, .identifier name]
  | .index i => [.openBracket, .integer (Int64.ofNat i), .closeBracket]

/-- A path, as tokens; no point stands before its root. -/
def Path.tokens (p : Path) : List Token :=
  match p.segments with
  | .field root :: steps => .identifier root :: steps.flatMap Segment.tokens
  | steps => steps.flatMap Segment.tokens

namespace Expression

mutual

/-- An expression, as tokens. -/
def tokens : Expression → List Token
  | .literal l => [l.token]
  | .path p => p.tokens
  | .call f args => .identifier f.name :: .openParen :: (argumentTokens args ++ [.closeParen])

/-- Arguments and the commas between them, as tokens. -/
def argumentTokens : List Expression → List Token
  | [] => []
  | [arg] => tokens arg
  | arg :: next :: args => tokens arg ++ .comma :: argumentTokens (next :: args)

end

end Expression

/-- A path that can be written in an expression, with its canonical text. -/
structure Path.Plain (p : Path) : Prop where
  canonical : p = .ofSegments p.segments
  starts : ∃ root steps, p.segments = .field root :: steps
  root_notMem : p.root ∉ reservedWords
  names : ∀ name, .field name ∈ p.segments → Token.IsName name
  indices : ∀ i, .index i ∈ p.segments → i < Nat.pow 2 63

/-- An expression that can be written: all of its paths can. -/
def Expression.Plain (x : Expression) : Prop :=
  ∀ p ∈ x.paths, p.Plain

/-! ### Plain expressions derive their tokens -/

lemma derivesSteps_tokens {steps : List Segment} (h : ∀ i, .index i ∈ steps → i < Nat.pow 2 63) :
    DerivesSteps steps (steps.flatMap Segment.tokens) := by
  induction steps with
  | nil => exact .nil
  | cons step steps ih =>
    have hsteps := ih fun i hi => h i (List.mem_cons_of_mem step hi)
    cases step with
    | field name => exact .field hsteps
    | index i =>
      have hi : (Int64.ofNat i).toInt = i := Int64.toInt_ofNat_of_lt (h i List.mem_cons_self)
      have hindex : DerivesSteps (.index (Int64.ofNat i).toInt.toNat :: steps) _ :=
        .index (hi ▸ Int.natCast_nonneg i) hsteps
      rw [hi, Int.toNat_natCast] at hindex
      exact hindex

lemma Path.Plain.derives {p : Path} (h : p.Plain) : Derives (.path p) p.tokens := by
  obtain ⟨root, steps, hsegments⟩ := h.starts
  have hp : p = .ofSegments (.field root :: steps) := hsegments ▸ h.canonical
  have hindices := h.indices
  rw [hsegments] at hindices
  rw [hp]
  exact .path (derivesSteps_tokens fun i hi => hindices i (List.mem_cons_of_mem _ hi))

lemma Literal.isName_of_token {l : Literal} {name : String} (h : l.token = .identifier name) :
    Token.IsName name := by
  cases l with
  | null =>
    cases h
    exact ⟨'n', ['u', 'l', 'l'], rfl, rfl, List.all_eq_true.1 rfl⟩
  | boolean b =>
    cases b with
    | true =>
      cases h
      exact ⟨'t', ['r', 'u', 'e'], rfl, rfl, List.all_eq_true.1 rfl⟩
    | false =>
      cases h
      exact ⟨'f', ['a', 'l', 's', 'e'], rfl, rfl, List.all_eq_true.1 rfl⟩
  | integer n => cases h
  | string s => cases h

lemma Builtin.isName_name (f : Builtin) : Token.IsName f.name := by
  cases f
  exact ⟨'c', ['o', 'n', 'c', 'a', 't'], rfl, rfl, List.all_eq_true.1 rfl⟩

lemma field_mem_of_derivesSteps {segments : List Segment} {ts : List Token} {name : String}
    (h : DerivesSteps segments ts) (hname : .identifier name ∈ ts) : .field name ∈ segments := by
  induction h with
  | nil => cases hname
  | field _ ih =>
    simp only [List.mem_cons, reduceCtorEq, Token.identifier.injEq, false_or] at hname
    rcases hname with rfl | hname
    · exact List.mem_cons_self
    · exact List.mem_cons_of_mem _ (ih hname)
  | index _ _ ih =>
    simp only [List.mem_cons, reduceCtorEq, false_or] at hname
    exact List.mem_cons_of_mem _ (ih hname)

namespace Expression

mutual

lemma derives_tokens {x : Expression} (h : x.Plain) : Derives x x.tokens := by
  match x with
  | .literal l => exact .literal
  | .path p => exact (h p List.mem_cons_self).derives
  | .call f args => exact .call (derivesArguments_tokens h)

lemma derivesArguments_tokens {args : List Expression} (h : ∀ p ∈ argumentPaths args, p.Plain) :
    DerivesArguments args (argumentTokens args) := by
  match args with
  | [] => exact .nil
  | [arg] => exact .one (derives_tokens (forall_mem_argumentPaths_cons.1 h).1)
  | arg :: next :: args =>
    obtain ⟨hleft, hright⟩ := forall_mem_argumentPaths_cons.1 h
    exact .more (derives_tokens hleft) (derivesArguments_tokens hright)

end

/-! ### Neighbours in a derivation -/

section Separated

variable {t : Token} {ts us : List Token}

lemma separated_append_cons (hts : Separated ts) (ht : t.isMark) (hus : Separated us) :
    Separated (ts ++ t :: us) := by
  apply List.isChain_append.2
  refine ⟨hts, List.isChain_cons.2 ⟨fun _ _ => .inl ht, hus⟩, ?_⟩
  intro _ _ u hu
  cases hu
  exact .inr ht

lemma separated_of_derivesSteps {segments : List Segment} (h : DerivesSteps segments ts)
    (t : Token) : Separated (t :: ts) := by
  induction h generalizing t with
  | nil => exact List.isChain_singleton t
  | field _ ih => exact separated_append_cons (List.isChain_singleton t) rfl (ih _)
  | index _ _ ih =>
    apply separated_append_cons (List.isChain_singleton t) rfl
    exact separated_append_cons (List.isChain_singleton _) rfl (List.isChain_cons.1 (ih t)).2

mutual

lemma separated_of_derives {e : Expression} {ts : List Token} (h : Derives e ts) :
    Separated ts := by
  cases h with
  | literal => exact List.isChain_singleton _
  | path hsteps => exact separated_of_derivesSteps hsteps _
  | call hargs =>
    apply separated_append_cons (List.isChain_singleton _) rfl
    exact separated_append_cons (separated_of_derivesArguments hargs) rfl List.isChain_nil

lemma separated_of_derivesArguments {args : List Expression} {ts : List Token}
    (h : DerivesArguments args ts) : Separated ts := by
  cases h with
  | nil => exact List.isChain_nil
  | one harg => exact separated_of_derives harg
  | more harg hargs =>
    exact separated_append_cons (separated_of_derives harg) rfl
      (separated_of_derivesArguments hargs)

end

end Separated

/-- The sources of a derivation are parsed as its expression, if its calls do not nest too deep. -/
lemma parse_of_written {source : String} {x : Expression} {ts : List Token} (h : Derives x ts)
    (hroots : ∀ p ∈ x.paths, p.root ∉ reservedWords) (hwritten : Written ts source.toList) :
    parse source = within maxDepth x.depth x := by
  obtain ⟨lexemes, hscan, rfl⟩ := Token.scan_written hwritten (separated_of_derives h)
  rw [parse, Token.tokenize, hscan]
  exact ofTokens_of_derives h hroots

/-! ### The words of a plain expression -/

mutual

lemma isName_of_derives {e : Expression} {ts : List Token} {name : String} (h : Derives e ts)
    (he : e.Plain) (hname : .identifier name ∈ ts) : Token.IsName name := by
  cases h with
  | literal => exact Literal.isName_of_token (List.mem_singleton.1 hname).symm
  | path hsteps =>
    refine (he _ List.mem_cons_self).names name ?_
    rcases List.mem_cons.1 hname with heq | hname
    · cases heq
      exact List.mem_cons_self
    · exact List.mem_cons_of_mem _ (field_mem_of_derivesSteps hsteps hname)
  | @call f args ts hargs =>
    simp only [List.mem_cons, List.mem_append, reduceCtorEq, Token.identifier.injEq, false_or,
      List.not_mem_nil, or_false] at hname
    rcases hname with rfl | hname
    · exact Builtin.isName_name f
    · exact isName_of_derivesArguments hargs he hname

lemma isName_of_derivesArguments {args : List Expression} {ts : List Token} {name : String}
    (h : DerivesArguments args ts) (hargs : ∀ p ∈ argumentPaths args, p.Plain)
    (hname : .identifier name ∈ ts) : Token.IsName name := by
  cases h with
  | nil => cases hname
  | one harg => exact isName_of_derives harg (forall_mem_argumentPaths_cons.1 hargs).1 hname
  | more harg hmore =>
    obtain ⟨hleft, hright⟩ := forall_mem_argumentPaths_cons.1 hargs
    simp only [List.mem_cons, List.mem_append, reduceCtorEq, false_or] at hname
    rcases hname with hname | hname
    · exact isName_of_derives harg hleft hname
    · exact isName_of_derivesArguments hmore hright hname

end

/-! ### What is parsed -/

/-- What is parsed is the one derivation of its tokens, and these stay within the sandbox. -/
theorem sandboxed_of_parse {source : String} {x : Expression} (h : parse source = .ok x) :
    ∃ lexemes ts, Token.tokenize source = .ok lexemes ∧ lexemes.map (·.token) = ts ∧
      Derives x ts ∧
      (∀ y, Derives y ts → (∀ p ∈ y.paths, p.root ∉ reservedWords) → y = x) ∧
      Sandboxed ts ∧
      (∀ p ∈ x.paths, p.root ∉ reservedWords ∧ ∀ i : Nat, .index i ∈ p.segments →
        ∃ n : Int64, [.openBracket, .integer n, .closeBracket] <:+: ts ∧ n.toInt = i) ∧
      x.depth ≤ maxDepth := by
  obtain ⟨lexemes, hlexemes, h⟩ := bind_eq_ok_iff.1 h
  obtain ⟨hderives, hdepth, hroots⟩ := ofTokens_eq_ok_iff.1 h
  refine ⟨lexemes, _, hlexemes, rfl, hderives, ?_, sandboxed_of_derives hderives hroots, ?_, hdepth⟩
  · intro y hy hyroots
    exact eq_of_derives hy hderives hyroots hroots
  · intro p hp
    exact ⟨hroots p hp, fun i hi => exists_integer_of_mem_paths hderives hp hi⟩

/-- A call with a quoted string, and with a path whose index is written with zeros in front. -/
def exampleExpression : Expression :=
  .call .concat [.literal (.string "it's"), .path (.ofSegments [.field "a", .index 7, .field "b"])]

/-- A text of the example. -/
def exampleSource : String := "concat( 'it''s', a[007].b )"

lemma plain_exampleExpression : exampleExpression.Plain := by
  intro p hp
  obtain rfl := List.mem_singleton.1 hp
  refine ⟨rfl, ⟨_, _, rfl⟩, by decide, ?_, ?_⟩
  · intro name hname
    simp only [Path.ofSegments, List.mem_cons, Segment.field.injEq, reduceCtorEq, false_or,
      List.not_mem_nil, or_false] at hname
    rcases hname with rfl | rfl
    · exact ⟨'a', [], rfl, rfl, List.all_eq_true.1 rfl⟩
    · exact ⟨'b', [], rfl, rfl, List.all_eq_true.1 rfl⟩
  · intro i hi
    simp only [Path.ofSegments, List.mem_cons, Segment.index.injEq, reduceCtorEq, false_or,
      List.not_mem_nil, or_false] at hi
    rw [hi]
    decide

lemma written_exampleSource : Written exampleExpression.tokens exampleSource.toList := by
  have hnone : ∀ b ∈ ([] : List Char), isBlank b := List.all_eq_true.1 rfl
  have hspace : ∀ b ∈ [' '], isBlank b := List.all_eq_true.1 rfl
  have hconcat : Spelled (.identifier "concat") "concat".toList :=
    .identifier rfl (List.all_eq_true.1 rfl)
  have hstring : Spelled (.string "it's") "'it''s'".toList := .string (.inl rfl)
  have ha : Spelled (.identifier "a") "a".toList := .identifier rfl (List.all_eq_true.1 rfl)
  have hindex : Spelled (.integer 7) "007".toList :=
    .natural (by decide) (List.all_eq_true.1 rfl) rfl
  have hb : Spelled (.identifier "b") "b".toList := .identifier rfl (List.all_eq_true.1 rfl)
  exact .cons hnone hconcat <| .cons hnone (.mark rfl) <| .cons hspace hstring <|
    .cons hnone (.mark rfl) <| .cons hspace ha <| .cons hnone (.mark rfl) <|
    .cons hnone hindex <| .cons hnone (.mark rfl) <| .cons hnone (.mark rfl) <|
    .cons hnone hb <| .cons hspace (.mark rfl) <| .nil hnone

lemma parse_exampleSource : parse exampleSource = .ok exampleExpression := by
  have hroots : ∀ p ∈ exampleExpression.paths, p.root ∉ reservedWords :=
    fun p hp => (plain_exampleExpression p hp).root_notMem
  exact parse_of_written (derives_tokens plain_exampleExpression) hroots written_exampleSource

theorem sandboxed_exampleSource :
    parse exampleSource = .ok exampleExpression ∧
      ∃ lexemes ts, Token.tokenize exampleSource = .ok lexemes ∧ lexemes.map (·.token) = ts ∧
        Derives exampleExpression ts ∧ Sandboxed ts ∧ exampleExpression.depth ≤ maxDepth := by
  refine ⟨parse_exampleSource, ?_⟩
  obtain ⟨lexemes, ts, htokenize, htokens, hderives, -, hsandboxed, -, hdepth⟩ :=
    sandboxed_of_parse parse_exampleSource
  exact ⟨lexemes, ts, htokenize, htokens, hderives, hsandboxed, hdepth⟩

/-! ### What is written -/

/-- Arguments nest as deep as the deepest of them, however many they are. -/
lemma argumentDepth_lt_iff {args : List Expression} {n : Nat} (hn : 0 < n) :
    argumentDepth args < n ↔ ∀ arg ∈ args, arg.depth < n := by
  induction args with
  | nil => simp [argumentDepth, hn]
  | cons arg args ih => rw [argumentDepth, Nat.max_lt, ih, List.forall_mem_cons]

/-- A plain expression can be written, and every text that it is written as is parsed as it again,
or refused for its nesting. -/
theorem parse_eq_ok_of_written {x : Expression} (hx : x.Plain) :
    (∃ source : String, Written x.tokens source.toList) ∧
      ∀ source : String, Written x.tokens source.toList →
        (x.depth ≤ maxDepth → parse source = .ok x) ∧
        (maxDepth < x.depth → parse source = .error (.violation (.tooDeep maxDepth))) ∧
        (∀ f args, x = .call f args → (∀ arg ∈ args, arg.depth < maxDepth) →
          parse source = .ok x) := by
  have hderives := derives_tokens hx
  have hroots : ∀ p ∈ x.paths, p.root ∉ reservedWords := fun p hp => (hx p hp).root_notMem
  constructor
  · obtain ⟨cs, hcs⟩ := Token.exists_written fun name => isName_of_derives hderives hx
    refine ⟨String.ofList cs, ?_⟩
    rw [String.toList_ofList]
    exact hcs
  · intro source hwritten
    have hparse := parse_of_written hderives hroots hwritten
    refine ⟨fun hdepth => hparse.trans (within_of_le hdepth),
      fun hdepth => hparse.trans (within_of_lt hdepth), ?_⟩
    rintro f args rfl hargs
    have hdepth : argumentDepth args < maxDepth := (argumentDepth_lt_iff (by decide)).2 hargs
    exact hparse.trans (within_of_le hdepth)

theorem parse_eq_ok_of_written_exampleSource :
    exampleExpression.Plain ∧ Written exampleExpression.tokens exampleSource.toList ∧
      exampleExpression.depth ≤ maxDepth ∧ parse exampleSource = .ok exampleExpression := by
  have hdepth : exampleExpression.depth ≤ maxDepth := by decide
  have hparse := (parse_eq_ok_of_written plain_exampleExpression).2 _ written_exampleSource
  exact ⟨plain_exampleExpression, written_exampleSource, hdepth, hparse.1 hdepth⟩

end Expression

end EntityModel
