import EntityModel.Expression.Token
import Mathlib.Tactic.Lemma

/-!
# The grammar of expressions and its sandbox

`Derives e ts` states the documented grammar as a relation between expressions and whole lists of
tokens, without regard to how they are read. The tokens of a derivation whose paths start at no
reserved word call functions only, and reach into paths only: `sandboxed_of_derives`.
-/

namespace EntityModel

/-- The words that name a constant, or that the language refuses. -/
def reservedWords : List String := ["null", "true", "false", "new"]

/-- The token of a constant. -/
def Literal.token : Literal → Token
  | .null => .identifier "null"
  | .boolean true => .identifier "true"
  | .boolean false => .identifier "false"
  | .integer n => .integer n
  | .string s => .string s

/-- The steps of a path after its root, as tokens. -/
inductive DerivesSteps : List Segment → List Token → Prop
  | nil : DerivesSteps [] []
  | field {name segments ts} : DerivesSteps segments ts →
      DerivesSteps (.field name :: segments) (.dot :: .identifier name :: ts)
  | index {n : Int64} {segments ts} : 0 ≤ n.toInt → DerivesSteps segments ts →
      DerivesSteps (.index n.toInt.toNat :: segments)
        (.openBracket :: .integer n :: .closeBracket :: ts)

mutual

/-- An expression, as tokens. -/
inductive Derives : Expression → List Token → Prop
  | literal {l} : Derives (.literal l) [l.token]
  | path {root segments ts} : DerivesSteps segments ts →
      Derives (.path (.ofSegments (.field root :: segments))) (.identifier root :: ts)
  | call {f args ts} : DerivesArguments args ts →
      Derives (.call f args) (.identifier f.name :: .openParen :: (ts ++ [.closeParen]))

/-- The arguments of a call and the commas between them, as tokens. -/
inductive DerivesArguments : List Expression → List Token → Prop
  | nil : DerivesArguments [] []
  | one {arg ts} : Derives arg ts → DerivesArguments [arg] ts
  | more {arg next args ts rest} : Derives arg ts → DerivesArguments (next :: args) rest →
      DerivesArguments (arg :: next :: args) (ts ++ .comma :: rest)

end

/-! ### The sandbox -/

/-- Tokens that end with a constant or with a call. A word after a point is the name of a step. -/
inductive EndsValue : List Token → Prop
  | closeParen {front} : EndsValue (front ++ [.closeParen])
  | integer {front n} : EndsValue (front ++ [.integer n])
  | string {front s} : EndsValue (front ++ [.string s])
  | word {front name} : name ∈ ["null", "true", "false"] → front.getLast? ≠ some .dot →
      EndsValue (front ++ [.identifier name])

/-- What the sandbox asks of a token that follows others. -/
structure Admits (before : List Token) (t : Token) : Prop where
  /-- A parenthesis opens behind the name of a function only, which is no step of a path. -/
  calls : t = .openParen →
    ∃ front f, before = front ++ [.identifier (Builtin.name f)] ∧ front.getLast? ≠ some .dot
  /-- Neither a constant nor a call is followed by a step or by a parenthesis that opens. -/
  values : EndsValue before → t ≠ .dot ∧ t ≠ .openBracket ∧ t ≠ .openParen

/-- The sandbox admits every token behind the ones before it. -/
def Sandboxed (ts : List Token) : Prop :=
  ∀ before t after, ts = before ++ t :: after → Admits before t

/-- The sandbox admits tokens behind those already there, one after another. -/
def AdmitsAll (before : List Token) : List Token → Prop
  | [] => True
  | t :: ts => Admits before t ∧ AdmitsAll (before ++ [t]) ts

section AdmitsAll

variable {before ts us : List Token} {t : Token}

lemma admitsAll_append :
    AdmitsAll before (ts ++ us) ↔ AdmitsAll before ts ∧ AdmitsAll (before ++ ts) us := by
  induction ts generalizing before with
  | nil => simp [AdmitsAll]
  | cons t ts ih => simp [AdmitsAll, ih, and_assoc]

lemma sandboxed_of_admitsAll (h : AdmitsAll [] ts) : Sandboxed ts := by
  rintro before t after rfl
  have hadmits := (admitsAll_append.1 h).2.1
  rwa [List.nil_append] at hadmits

end AdmitsAll

section Sandbox

variable {before front ts : List Token} {t : Token}

lemma admits_of_ne (hdot : t ≠ .dot) (hbracket : t ≠ .openBracket) (hparen : t ≠ .openParen) :
    Admits before t :=
  ⟨fun h => absurd h hparen, fun _ => ⟨hdot, hbracket, hparen⟩⟩

lemma admits_step (h : ¬ EndsValue before) (hparen : t ≠ .openParen) : Admits before t :=
  ⟨fun ht => absurd ht hparen, fun hv => absurd hv h⟩

lemma endsValue_concat_iff : EndsValue (front ++ [t]) ↔
    t = .closeParen ∨ (∃ n, t = .integer n) ∨ (∃ s, t = .string s) ∨
      ∃ name ∈ ["null", "true", "false"], t = .identifier name ∧ front.getLast? ≠ some .dot := by
  constructor
  · intro h
    generalize heq : front ++ [t] = ts at h
    cases h with
    | closeParen => exact .inl (List.append_inj_right' heq rfl |> List.singleton_inj.1)
    | integer => exact .inr (.inl ⟨_, List.append_inj_right' heq rfl |> List.singleton_inj.1⟩)
    | string =>
      exact .inr (.inr (.inl ⟨_, List.append_inj_right' heq rfl |> List.singleton_inj.1⟩))
    | word hname hdot =>
      obtain ⟨rfl, ht⟩ := List.append_inj' heq rfl
      exact .inr (.inr (.inr ⟨_, hname, List.singleton_inj.1 ht, hdot⟩))
  · rintro (rfl | ⟨n, rfl⟩ | ⟨s, rfl⟩ | ⟨name, hname, rfl, hdot⟩)
    · exact .closeParen
    · exact .integer
    · exact .string
    · exact .word hname hdot

/-- A name that is no constant may be followed by anything. -/
lemma not_endsValue_of_name {name : String} (h : name ∉ ["null", "true", "false"]) :
    ¬ EndsValue (before ++ [.identifier name]) := by
  simp only [endsValue_concat_iff, not_or]
  refine ⟨by simp, by simp, by simp, ?_⟩
  rintro ⟨name', hname', heq, -⟩
  cases heq
  exact h hname'

lemma not_endsValue_of_field (name : String) :
    ¬ EndsValue (before ++ [.dot] ++ [.identifier name]) := by
  rw [endsValue_concat_iff]
  simp

lemma not_endsValue_of_index : ¬ EndsValue (before ++ [.closeBracket]) := by
  simp [endsValue_concat_iff]

lemma admitsAll_of_derivesSteps {segments : List Segment} (h : DerivesSteps segments ts)
    (hbefore : ¬ EndsValue before) : AdmitsAll before ts := by
  induction h generalizing before with
  | nil => exact trivial
  | field _ ih =>
    refine ⟨admits_step hbefore (by simp), admits_of_ne (by simp) (by simp) (by simp), ?_⟩
    exact ih (not_endsValue_of_field _)
  | index _ _ ih =>
    refine ⟨admits_step hbefore (by simp), admits_of_ne (by simp) (by simp) (by simp),
      admits_of_ne (by simp) (by simp) (by simp), ?_⟩
    exact ih not_endsValue_of_index

lemma Literal.admits_token (l : Literal) : Admits before l.token := by
  cases l with
  | boolean b =>
    cases b <;> exact admits_of_ne (by simp [token]) (by simp [token]) (by simp [token])
  | _ => exact admits_of_ne (by simp [token]) (by simp [token]) (by simp [token])

lemma admits_openParen (f : Builtin) (hbefore : before.getLast? ≠ some .dot) :
    Admits (before ++ [.identifier f.name]) .openParen := by
  refine ⟨fun _ => ⟨before, f, rfl, hbefore⟩, fun h => absurd h ?_⟩
  apply not_endsValue_of_name
  cases f
  decide

lemma Expression.forall_mem_argumentPaths_cons {P : Path → Prop} {arg : Expression}
    {args : List Expression} : (∀ p ∈ argumentPaths (arg :: args), P p) ↔
      (∀ p ∈ arg.paths, P p) ∧ ∀ p ∈ argumentPaths args, P p :=
  List.forall_mem_append

mutual

-- The token before an expression matters only in that it is no point: what opens a call would
-- otherwise follow the name of a step.
lemma admitsAll_of_derives {e : Expression} {before ts : List Token} (h : Derives e ts)
    (hroots : ∀ p ∈ e.paths, p.root ∉ reservedWords) (hbefore : before.getLast? ≠ some .dot) :
    AdmitsAll before ts := by
  cases h with
  | literal => exact ⟨Literal.admits_token _, trivial⟩
  | @path root segments ts hsteps =>
    refine ⟨admits_of_ne (by simp) (by simp) (by simp), ?_⟩
    have hroot : root ∉ reservedWords := hroots _ List.mem_cons_self
    apply admitsAll_of_derivesSteps hsteps
    apply not_endsValue_of_name
    exact fun hmem => hroot (List.mem_append_left ["new"] hmem)
  | @call f args ts hargs =>
    refine ⟨admits_of_ne (by simp) (by simp) (by simp), admits_openParen f hbefore, ?_⟩
    refine admitsAll_append.2 ⟨?_, admits_of_ne (by simp) (by simp) (by simp), trivial⟩
    exact admitsAll_of_derivesArguments hargs hroots (by simp)

lemma admitsAll_of_derivesArguments {args : List Expression} {before ts : List Token}
    (h : DerivesArguments args ts)
    (hroots : ∀ p ∈ Expression.argumentPaths args, p.root ∉ reservedWords)
    (hbefore : before.getLast? ≠ some .dot) : AdmitsAll before ts := by
  cases h with
  | nil => exact trivial
  | one harg =>
    have hleft := (Expression.forall_mem_argumentPaths_cons.1 hroots).1
    exact admitsAll_of_derives harg hleft hbefore
  | more harg hargs =>
    obtain ⟨hleft, hright⟩ := Expression.forall_mem_argumentPaths_cons.1 hroots
    refine admitsAll_append.2 ⟨?_, admits_of_ne (by simp) (by simp) (by simp), ?_⟩
    · exact admitsAll_of_derives harg hleft hbefore
    · exact admitsAll_of_derivesArguments hargs hright (by simp)

end

/-- The tokens of an expression whose paths start at names stay within the sandbox. -/
theorem sandboxed_of_derives {e : Expression} (h : Derives e ts)
    (hroots : ∀ p ∈ e.paths, p.root ∉ reservedWords) : Sandboxed ts :=
  sandboxed_of_admitsAll (admitsAll_of_derives h hroots (by simp))

end Sandbox

/-! ### Where paths are written -/

section Path

variable {ts : List Token} {p : Path}

lemma exists_integer_of_derivesSteps {segments : List Segment} {i : Nat}
    (h : DerivesSteps segments ts) (hi : .index i ∈ segments) :
    ∃ n : Int64, [.openBracket, .integer n, .closeBracket] <:+: ts ∧ n.toInt = i := by
  induction h with
  | nil => cases hi
  | @field name segments ts _ ih =>
    obtain ⟨n, hn, heq⟩ := ih (List.mem_of_ne_of_mem (by simp) hi)
    have hsuffix := List.suffix_append [.dot, .identifier name] ts
    exact ⟨n, hn.trans hsuffix.isInfix, heq⟩
  | @index n segments ts hn _ ih =>
    rcases List.mem_cons.1 hi with heq | hi
    · cases heq
      exact ⟨n, (List.prefix_append _ ts).isInfix, (Int.toNat_of_nonneg hn).symm⟩
    · obtain ⟨m, hm, heq⟩ := ih hi
      have hsuffix := List.suffix_append [.openBracket, .integer n, .closeBracket] ts
      exact ⟨m, hm.trans hsuffix.isInfix, heq⟩

mutual

/-- Every path of an expression is written in its tokens, from its root to its last step. -/
lemma exists_derivesSteps_of_mem_paths {e : Expression} {p : Path} {ts : List Token}
    (h : Derives e ts) (hp : p ∈ e.paths) :
    ∃ root segments us, p = .ofSegments (.field root :: segments) ∧ DerivesSteps segments us ∧
      .identifier root :: us <:+: ts := by
  cases h with
  | literal => cases hp
  | path hsteps =>
    obtain rfl := List.mem_singleton.1 hp
    exact ⟨_, _, _, rfl, hsteps, List.infix_rfl⟩
  | @call f args ts hargs =>
    obtain ⟨root, segments, us, rfl, hsteps, hinfix⟩ :=
      exists_derivesSteps_of_mem_argumentPaths hargs hp
    have hts : ts <:+: .identifier f.name :: .openParen :: (ts ++ [.closeParen]) :=
      ⟨[_, _], [_], rfl⟩
    exact ⟨root, segments, us, rfl, hsteps, hinfix.trans hts⟩

lemma exists_derivesSteps_of_mem_argumentPaths {args : List Expression} {p : Path}
    {ts : List Token} (h : DerivesArguments args ts) (hp : p ∈ Expression.argumentPaths args) :
    ∃ root segments us, p = .ofSegments (.field root :: segments) ∧ DerivesSteps segments us ∧
      .identifier root :: us <:+: ts := by
  cases h with
  | nil => cases hp
  | one harg =>
    rw [Expression.argumentPaths, Expression.argumentPaths, List.append_nil] at hp
    exact exists_derivesSteps_of_mem_paths harg hp
  | more harg hargs =>
    rcases List.mem_append.1 hp with hp | hp
    · obtain ⟨root, segments, us, rfl, hsteps, hinfix⟩ :=
        exists_derivesSteps_of_mem_paths harg hp
      exact ⟨root, segments, us, rfl, hsteps, hinfix.trans (List.prefix_append _ _).isInfix⟩
    · obtain ⟨root, segments, us, rfl, hsteps, hinfix⟩ :=
        exists_derivesSteps_of_mem_argumentPaths hargs hp
      refine ⟨root, segments, us, rfl, hsteps, hinfix.trans ?_⟩
      exact ((List.suffix_cons _ _).trans (List.suffix_append _ _)).isInfix

end

/-- Every index of a path was written as an integer in brackets. -/
lemma exists_integer_of_mem_paths {e : Expression} {i : Nat} (h : Derives e ts)
    (hp : p ∈ e.paths) (hi : .index i ∈ p.segments) :
    ∃ n : Int64, [.openBracket, .integer n, .closeBracket] <:+: ts ∧ n.toInt = i := by
  obtain ⟨root, segments, us, rfl, hsteps, hinfix⟩ := exists_derivesSteps_of_mem_paths h hp
  have hi : .index i ∈ segments := List.mem_of_ne_of_mem (by simp) hi
  obtain ⟨n, hn, heq⟩ := exists_integer_of_derivesSteps hsteps hi
  exact ⟨n, (hn.trans (List.suffix_cons _ _).isInfix).trans hinfix, heq⟩

end Path

end EntityModel
