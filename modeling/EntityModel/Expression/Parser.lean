import EntityModel.Expression.Token

/-!
# The grammar of expressions

    expression ::= literal | path | call
    call       ::= IDENTIFIER '(' [expression (',' expression)*] ')'
    path       ::= IDENTIFIER ('.' IDENTIFIER | '[' INTEGER ']')*
    literal    ::= STRING | INTEGER | 'null' | 'true' | 'false'

A name followed by an opening parenthesis must be that of a built-in function, and calls nest at
most `Expression.maxDepth` deep. A literal or a call cannot be followed by a point or a bracket.
-/

namespace EntityModel

namespace Expression

/-- How deep calls may nest. -/
def maxDepth : Nat := 64

/-- A shorter list of tokens: what is left after something was read. -/
abbrev After (ts : List Lexeme) := { rest : List Lexeme // rest.length < ts.length }

/-- Read the steps of a path after its root; `stop` is the offset of the end of the text. -/
def readSteps (stop : Nat) : List Lexeme → Except ParseError (List Segment × List Lexeme)
  | ⟨.dot, _⟩ :: ⟨.identifier name, _⟩ :: ts =>
    match ts with
    | ⟨.openParen, _⟩ :: _ => .error (.violation (.methodCall name))
    | ts => (readSteps stop ts).map fun (segments, rest) => (.field name :: segments, rest)
  | [⟨.dot, _⟩] => .error (.malformed stop (.noName none))
  | ⟨.dot, _⟩ :: t :: _ => .error (.malformed t.offset (.noName (some t.token)))
  | ⟨.openBracket, _⟩ :: ⟨.integer n, offset⟩ :: ts =>
    if n.toInt < 0 then .error (.malformed offset (.negativeIndex n))
    else
      match ts with
      | ⟨.closeBracket, _⟩ :: ts =>
        (readSteps stop ts).map fun (segments, rest) => (.index n.toInt.toNat :: segments, rest)
      | [] => .error (.malformed stop (.expected .closeBracket none))
      | t :: _ => .error (.malformed t.offset (.expected .closeBracket (some t.token)))
  | [⟨.openBracket, _⟩] => .error (.malformed stop (.noIndex none))
  | ⟨.openBracket, _⟩ :: t :: _ => .error (.malformed t.offset (.noIndex (some t.token)))
  | ⟨.openParen, _⟩ :: _ => .error (.violation .callOfPath)
  | ts => .ok ([], ts)

theorem length_le_of_readSteps {stop : Nat} {ts rest : List Lexeme} {segments : List Segment}
    (h : readSteps stop ts = .ok (segments, rest)) : rest.length ≤ ts.length := by
  fun_induction readSteps stop ts generalizing segments rest with
  | case2 _ _ _ ts _ ih =>
    cases hr : readSteps stop ts with
    | error => simp [hr, Except.map] at h
    | ok p =>
      simp only [hr, Except.map, Except.ok.injEq, Prod.mk.injEq] at h
      have := ih hr
      simp only [List.length_cons, ← h.2]
      omega
  | case6 _ _ _ _ _ ts ih =>
    cases hr : readSteps stop ts with
    | error => simp [hr, Except.map] at h
    | ok p =>
      simp only [hr, Except.map, Except.ok.injEq, Prod.mk.injEq] at h
      have := ih hr
      simp only [List.length_cons, ← h.2]
      omega
  | case12 => simp_all
  | _ => simp at h

/-- What a name stands for when no parenthesis follows: a constant, a refused word, or the root of
a path. -/
def readName (stop : Nat) (name : String) (ts : List Lexeme) :
    Except ParseError (Expression × List Lexeme) :=
  if name = "null" then .ok (.literal .null, ts)
  else if name = "true" then .ok (.literal (.boolean true), ts)
  else if name = "false" then .ok (.literal (.boolean false), ts)
  else if name = "new" then .error (.violation .construction)
  else
    (readSteps stop ts).map fun (segments, rest) =>
      (.path (.ofSegments (.field name :: segments)), rest)

theorem length_le_of_readName {stop : Nat} {name : String} {ts rest : List Lexeme}
    {e : Expression} (h : readName stop name ts = .ok (e, rest)) : rest.length ≤ ts.length := by
  unfold readName at h
  repeat' split at h
  all_goals try simp_all
  cases hr : readSteps stop ts with
  | error e => simp [hr, Except.map] at h
  | ok p =>
    obtain ⟨segments, rest'⟩ := p
    simp only [hr, Except.map, Except.ok.injEq, Prod.mk.injEq] at h
    rw [← h.2]
    exact length_le_of_readSteps hr

/-- Refuse a point or a bracket after a call. -/
def checkAfterCall (function : Builtin) (ts : List Lexeme) : Except ParseError Unit :=
  match ts with
  | ⟨.dot, _⟩ :: _ => .error (.violation (.memberOfCall function))
  | ⟨.openBracket, _⟩ :: _ => .error (.violation (.memberOfCall function))
  | _ => .ok ()

mutual

/-- Read an expression; `levels` is how deep calls may still nest and `stop` the offset of the end
of the text. -/
def read (levels stop : Nat) (ts : List Lexeme) : Except ParseError (Expression × After ts) :=
  match ts with
  | [] => .error (.malformed stop (.unexpected none))
  | ⟨.string s, _⟩ :: ts => .ok (.literal (.string s), ⟨ts, by simp⟩)
  | ⟨.integer n, _⟩ :: ts => .ok (.literal (.integer n), ⟨ts, by simp⟩)
  | ⟨.identifier name, _⟩ :: ⟨.openParen, _⟩ :: ts =>
    match Builtin.lookup? name, levels with
    | none, _ => .error (.violation (.unknownFunction name))
    | some _, 0 => .error (.violation (.tooDeep maxDepth))
    | some function, levels + 1 =>
      match ts with
      | ⟨.closeParen, _⟩ :: ts => do
        checkAfterCall function ts
        .ok (.call function [], ⟨ts, by simp; omega⟩)
      | ts => do
        let (args, rest) ← readArguments levels stop ts
        checkAfterCall function rest.1
        .ok (.call function args, ⟨rest.1, by have := rest.2; simp; omega⟩)
  | ⟨.identifier name, _⟩ :: ts =>
    match h : readName stop name ts with
    | .error e => .error e
    | .ok (e, rest) => .ok (e, ⟨rest, by have := length_le_of_readName h; simp; omega⟩)
  | t :: _ => .error (.malformed t.offset (.unexpected (some t.token)))
termination_by 2 * ts.length

/-- Read the arguments of a call and its closing parenthesis. -/
def readArguments (levels stop : Nat) (ts : List Lexeme) :
    Except ParseError (List Expression × After ts) := do
  let (arg, rest) ← read levels stop ts
  match h : rest.1 with
  | ⟨.comma, _⟩ :: ts' => do
    have hlt : ts'.length < ts.length := by have := rest.2; simp [h] at this; omega
    let (args, after) ← readArguments levels stop ts'
    .ok (arg :: args, ⟨after.1, by have := after.2; omega⟩)
  | ⟨.closeParen, _⟩ :: ts' =>
    .ok ([arg], ⟨ts', by have := rest.2; simp [h] at this; omega⟩)
  | [] => .error (.malformed stop (.noSeparator none))
  | t :: _ => .error (.malformed t.offset (.noSeparator (some t.token)))
termination_by 2 * ts.length + 1

end

/-- Read tokens that make one whole expression. -/
def ofTokens (stop : Nat) (ts : List Lexeme) : Except ParseError Expression := do
  let (e, rest) ← read maxDepth stop ts
  match rest.1 with
  | [] => .ok e
  | t :: _ => .error (.malformed t.offset (.unexpected (some t.token)))

/-- Read the text of an expression. -/
def parse (source : String) : Except ParseError Expression :=
  (Token.tokenize source).bind (ofTokens source.utf8ByteSize)

end Expression

end EntityModel
