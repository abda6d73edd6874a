import EntityModel.Expression.Parser
import EntityModel.Proofs.Expression.Grammar
import EntityModel.Proofs.Log

/-!
# What the parser reads

The parser reads exactly the derivations of the grammar whose paths start at no reserved word and
whose calls do not nest too deep.
-/

namespace EntityModel

namespace Expression

/-! ### Reading without the bounds on the rest -/

/-- What is read, without the fact that less is left. -/
def outcome {α : Type} {ts : List Lexeme} (r : Except ParseError (α × After ts)) :
    Except ParseError (α × List Lexeme) :=
  r.map fun p => (p.1, p.2.1)

section Outcome

variable {levels stop offset : Nat} {ts : List Lexeme}

lemma outcome_read_string (s : String) :
    outcome (read levels stop (⟨.string s, offset⟩ :: ts)) = .ok (.literal (.string s), ts) := by
  rw [read]
  rfl

lemma outcome_read_integer (n : Int64) :
    outcome (read levels stop (⟨.integer n, offset⟩ :: ts)) = .ok (.literal (.integer n), ts) := by
  rw [read]
  rfl

lemma outcome_read_name (name : String) (h : ∀ t ∈ ts.head?, t.token ≠ .openParen) :
    outcome (read levels stop (⟨.identifier name, offset⟩ :: ts)) = readName stop name ts := by
  rw [read.eq_8]
  · split
    · simp [outcome, Except.map, *]
    · simp [outcome, Except.map, *]
  · rintro o ts' rfl
    exact h _ rfl rfl

lemma outcome_read_call_zero (f : Builtin) {offset' : Nat} :
    outcome (read 0 stop (⟨.identifier f.name, offset⟩ :: ⟨.openParen, offset'⟩ :: ts)) =
      .error (.violation (.tooDeep maxDepth)) := by
  rw [read.eq_5 _ _ _ _ _ f (Builtin.lookup?_eq_some_iff.2 rfl)]
  rfl

lemma outcome_read_call_nil (f : Builtin) {offset' offset'' : Nat} :
    outcome (read (levels + 1) stop (⟨.identifier f.name, offset⟩ :: ⟨.openParen, offset'⟩ ::
      ⟨.closeParen, offset''⟩ :: ts)) =
      (checkAfterCall f ts).map fun _ => (.call f [], ts) := by
  rw [read.eq_6 _ _ _ _ f _ _ _ (Builtin.lookup?_eq_some_iff.2 rfl)]
  cases checkAfterCall f ts <;> rfl

lemma outcome_read_call (f : Builtin) {offset' : Nat}
    (h : ∀ t ∈ ts.head?, t.token ≠ .closeParen) :
    outcome (read (levels + 1) stop (⟨.identifier f.name, offset⟩ :: ⟨.openParen, offset'⟩ :: ts)) =
      (outcome (readArguments levels stop ts)).bind fun (args, rest) =>
        (checkAfterCall f rest).map fun _ => (.call f args, rest) := by
  rw [read.eq_7 _ _ _ _ _ f _ (Builtin.lookup?_eq_some_iff.2 rfl)]
  · cases readArguments levels stop ts with
    | error cause => rfl
    | ok p =>
      show outcome ((checkAfterCall f p.2.1).bind _) = (checkAfterCall f p.2.1).map _
      cases checkAfterCall f p.2.1 <;> rfl
  · rintro o ts' rfl
    exact h _ rfl rfl

/-- After an argument comes a comma and more arguments, or the end of the call. -/
def readMore (levels stop : Nat) (arg : Expression) (ts : List Lexeme) :
    Except ParseError (List Expression × List Lexeme) :=
  match ts with
  | ⟨.comma, _⟩ :: ts =>
    (outcome (readArguments levels stop ts)).map fun (args, after) => (arg :: args, after)
  | ⟨.closeParen, _⟩ :: ts => .ok ([arg], ts)
  | [] => .error (.malformed stop (.noSeparator none))
  | t :: _ => .error (.malformed t.offset (.noSeparator (some t.token)))

lemma outcome_readArguments :
    outcome (readArguments levels stop ts) =
      (outcome (read levels stop ts)).bind fun (arg, rest) => readMore levels stop arg rest := by
  rw [readArguments]
  cases read levels stop ts with
  | error cause => rfl
  | ok p =>
    obtain ⟨arg, rest, hrest⟩ := p
    show _ = readMore levels stop arg rest
    simp only [Bind.bind, Except.bind]
    split
    · next ts' =>
      rw [readMore]
      cases readArguments levels stop ts' <;> rfl
    · rfl
    · rfl
    · next hcomma hclose =>
      rw [readMore]
      · rfl
      · exact hcomma
      · exact hclose

end Outcome

/-! ### Paths and constants -/

/-- What follows is no step of a path and no call. -/
def Stops (ts : List Lexeme) : Prop :=
  ∀ t ∈ ts.head?, t.token ≠ .dot ∧ t.token ≠ .openBracket ∧ t.token ≠ .openParen

/-- The lexeme of a leading token. -/
lemma exists_cons_of_map_token {ts : List Lexeme} {t : Token} {tokens : List Token}
    (h : ts.map (·.token) = t :: tokens) :
    ∃ offset rest, ts = ⟨t, offset⟩ :: rest ∧ rest.map (·.token) = tokens := by
  obtain ⟨⟨t', offset⟩, rest, rfl, rfl, hrest⟩ := List.map_eq_cons_iff.1 h
  exact ⟨offset, rest, rfl, hrest⟩

lemma exists_cons_of_head_token {ts : List Lexeme} {token : Token}
    (h : ¬ ∀ t ∈ ts.head?, t.token ≠ token) : ∃ offset rest, ts = ⟨token, offset⟩ :: rest := by
  simp only [ne_eq, Classical.not_forall, Classical.not_not] at h
  obtain ⟨⟨_, offset⟩, ht, rfl⟩ := h
  obtain ⟨rest, rfl⟩ := List.head?_eq_some_iff.1 ht
  exact ⟨offset, rest, rfl⟩

section Steps

variable {stop : Nat} {segments : List Segment} {ts used rest : List Lexeme}

lemma readSteps_of_stops (h : Stops rest) : readSteps stop rest = .ok ([], rest) := by
  unfold readSteps
  split
  case h_8 => rfl
  all_goals simp [Stops] at h

lemma derivesSteps_of_readSteps (h : readSteps stop ts = .ok (segments, rest)) :
    ∃ used, ts = used ++ rest ∧ DerivesSteps segments (used.map (·.token)) := by
  fun_induction readSteps stop ts generalizing segments rest with
  | case2 offset name offset' ts _ ih =>
    obtain ⟨⟨segments', rest'⟩, h', heq⟩ := map_eq_ok_iff.1 h
    cases heq
    obtain ⟨used, rfl, hsteps⟩ := ih h'
    exact ⟨_ :: _ :: used, rfl, .field hsteps⟩
  | case6 _ n _ hn _ ts ih =>
    obtain ⟨⟨segments', rest'⟩, h', heq⟩ := map_eq_ok_iff.1 h
    cases heq
    obtain ⟨used, rfl, hsteps⟩ := ih h'
    exact ⟨_ :: _ :: _ :: used, rfl, .index (Int.not_lt.1 hn) hsteps⟩
  | case12 ts =>
    cases h
    exact ⟨[], rfl, .nil⟩
  | _ => cases h

lemma ne_openParen_of_derivesSteps (h : DerivesSteps segments (used.map (·.token)))
    (hrest : Stops rest) : ∀ t ∈ (used ++ rest).head?, t.token ≠ .openParen := by
  cases used with
  | nil => exact fun t ht => (hrest t ht).2.2
  | cons t used =>
    intro t' ht heq
    cases ht
    rw [List.map_cons, heq] at h
    cases h

lemma readSteps_of_derivesSteps (h : DerivesSteps segments (used.map (·.token)))
    (hrest : Stops rest) : readSteps stop (used ++ rest) = .ok (segments, rest) := by
  generalize htokens : used.map (·.token) = tokens at h
  induction h generalizing used with
  | nil =>
    obtain rfl := List.map_eq_nil_iff.1 htokens
    exact readSteps_of_stops hrest
  | field hsteps ih =>
    obtain ⟨_, _, rfl, htail⟩ := exists_cons_of_map_token htokens
    obtain ⟨_, used, rfl, rfl⟩ := exists_cons_of_map_token htail
    have hnext := ne_openParen_of_derivesSteps hsteps hrest
    rw [List.cons_append, List.cons_append, readSteps.eq_2, ih rfl]
    · rfl
    · intro _ _ heq
      rw [heq] at hnext
      exact hnext _ rfl rfl
  | index hn hsteps ih =>
    obtain ⟨_, _, rfl, hinteger⟩ := exists_cons_of_map_token htokens
    obtain ⟨_, _, rfl, hclose⟩ := exists_cons_of_map_token hinteger
    obtain ⟨_, used, rfl, rfl⟩ := exists_cons_of_map_token hclose
    rw [List.cons_append, List.cons_append, List.cons_append, readSteps, if_neg (Int.not_lt.2 hn),
      ih rfl]
    rfl

end Steps

section Name

variable {levels stop offset : Nat} {name : String} {ts rest : List Lexeme} {e : Expression}

lemma readName_of_notMem (h : name ∉ reservedWords) :
    readName stop name ts = (readSteps stop ts).map fun (segments, rest) =>
      (.path (.ofSegments (.field name :: segments)), rest) := by
  simp only [reservedWords, List.mem_cons, List.not_mem_nil, or_false, not_or] at h
  rw [readName, if_neg h.1, if_neg h.2.1, if_neg h.2.2.1, if_neg h.2.2.2]

lemma cases_of_readName (h : readName stop name ts = .ok (e, rest)) :
    (∃ l : Literal, e = .literal l ∧ .identifier name = l.token ∧ ts = rest) ∨
      name ∉ reservedWords ∧ ∃ segments, readSteps stop ts = .ok (segments, rest) ∧
        e = .path (.ofSegments (.field name :: segments)) := by
  by_cases hname : name ∈ reservedWords
  · left
    simp only [reservedWords, List.mem_cons, List.not_mem_nil, or_false] at hname
    rcases hname with rfl | rfl | rfl | rfl
    · cases h
      exact ⟨.null, rfl, rfl, rfl⟩
    · cases h
      exact ⟨.boolean true, rfl, rfl, rfl⟩
    · cases h
      exact ⟨.boolean false, rfl, rfl, rfl⟩
    · cases h
  · right
    rw [readName_of_notMem hname] at h
    obtain ⟨⟨segments, _⟩, hsteps, heq⟩ := map_eq_ok_iff.1 h
    cases heq
    exact ⟨hname, segments, hsteps, rfl⟩

lemma outcome_read_literal (l : Literal) (h : Stops rest) :
    outcome (read levels stop (⟨l.token, offset⟩ :: rest)) = .ok (.literal l, rest) := by
  have hnext : ∀ t ∈ rest.head?, t.token ≠ .openParen := fun t ht => (h t ht).2.2
  cases l with
  | null => exact outcome_read_name "null" hnext
  | boolean b =>
    cases b with
    | true => exact outcome_read_name "true" hnext
    | false => exact outcome_read_name "false" hnext
  | integer n => exact outcome_read_integer n
  | string s => exact outcome_read_string s

end Name

/-! ### What is read is derived -/

section Call

variable {levels stop offset offset' : Nat} {name : String} {ts rest : List Lexeme}
  {e : Expression}

/-- A name before a parenthesis is that of a function, and one level is used. -/
lemma exists_of_outcome_read_call
    (h : outcome (read levels stop (⟨.identifier name, offset⟩ :: ⟨.openParen, offset'⟩ :: ts)) =
      .ok (e, rest)) :
    ∃ f inner args, name = Builtin.name f ∧ levels = inner + 1 ∧ e = .call f args ∧
      ((args = [] ∧ ∃ offset'', ts = ⟨.closeParen, offset''⟩ :: rest) ∨
        outcome (readArguments inner stop ts) = .ok (args, rest)) := by
  cases hf : Builtin.lookup? name with
  | none =>
    rw [read.eq_4 _ _ _ _ _ _ hf] at h
    cases h
  | some f =>
    obtain rfl := Builtin.lookup?_eq_some_iff.1 hf
    cases levels with
    | zero =>
      rw [outcome_read_call_zero] at h
      cases h
    | succ inner =>
      by_cases hclose : ∀ t ∈ ts.head?, t.token ≠ .closeParen
      · rw [outcome_read_call f hclose] at h
        obtain ⟨⟨args, _⟩, hargs, h⟩ := bind_eq_ok_iff.1 h
        obtain ⟨-, -, heq⟩ := map_eq_ok_iff.1 h
        cases heq
        exact ⟨f, inner, args, rfl, rfl, rfl, .inr hargs⟩
      · obtain ⟨offset'', ts, rfl⟩ := exists_cons_of_head_token hclose
        rw [outcome_read_call_nil] at h
        obtain ⟨-, -, heq⟩ := map_eq_ok_iff.1 h
        cases heq
        exact ⟨f, inner, [], rfl, rfl, rfl, .inl ⟨rfl, offset'', rfl⟩⟩

lemma cases_of_readMore {arg : Expression} {args : List Expression}
    (h : readMore levels stop arg ts = .ok (args, rest)) :
    (args = [arg] ∧ ∃ offset, ts = ⟨.closeParen, offset⟩ :: rest) ∨
      ∃ offset ts' more, ts = ⟨.comma, offset⟩ :: ts' ∧
        outcome (readArguments levels stop ts') = .ok (more, rest) ∧ args = arg :: more := by
  unfold readMore at h
  split at h
  · obtain ⟨⟨more, _⟩, hmore, heq⟩ := map_eq_ok_iff.1 h
    cases heq
    exact .inr ⟨_, _, more, rfl, hmore, rfl⟩
  · cases h
    exact .inl ⟨rfl, _, rfl⟩
  · cases h
  · cases h

end Call

/-- What stands between two places of a text is an expression within the bounds of the sandbox. -/
structure Between (levels : Nat) (ts rest : List Lexeme) (e : Expression) : Prop where
  derives : ∃ used, ts = used ++ rest ∧ Derives e (used.map (·.token))
  depth_le : e.depth ≤ levels
  roots : ∀ p ∈ e.paths, p.root ∉ reservedWords

/-- What stands between two places of a text are arguments and the end of their call. -/
structure ArgumentsBetween (levels : Nat) (ts rest : List Lexeme) (args : List Expression) :
    Prop where
  derives : ∃ used offset, ts = used ++ ⟨.closeParen, offset⟩ :: rest ∧
    DerivesArguments args (used.map (·.token))
  ne_nil : args ≠ []
  depth_le : argumentDepth args ≤ levels
  roots : ∀ p ∈ argumentPaths args, p.root ∉ reservedWords

section Between

variable {levels : Nat} {ts rest : List Lexeme}

lemma between_literal (l : Literal) (offset : Nat) :
    Between levels (⟨l.token, offset⟩ :: rest) rest (.literal l) :=
  ⟨⟨[⟨l.token, offset⟩], rfl, .literal⟩, Nat.zero_le _, by simp [paths]⟩

lemma between_path {stop offset : Nat} {name : String} {segments : List Segment}
    (hname : name ∉ reservedWords) (h : readSteps stop ts = .ok (segments, rest)) :
    Between levels (⟨.identifier name, offset⟩ :: ts) rest
      (.path (.ofSegments (.field name :: segments))) := by
  obtain ⟨used, rfl, hsteps⟩ := derivesSteps_of_readSteps h
  refine ⟨⟨⟨.identifier name, offset⟩ :: used, rfl, .path hsteps⟩, Nat.zero_le _, ?_⟩
  intro p hp
  obtain rfl := List.mem_singleton.1 hp
  exact hname

lemma between_call_nil (f : Builtin) (offset offset' offset'' : Nat) :
    Between (levels + 1) (⟨.identifier f.name, offset⟩ :: ⟨.openParen, offset'⟩ ::
      ⟨.closeParen, offset''⟩ :: rest) rest (.call f []) :=
  ⟨⟨[⟨.identifier f.name, offset⟩, ⟨.openParen, offset'⟩, ⟨.closeParen, offset''⟩], rfl,
    .call .nil⟩, Nat.le_add_left 1 levels, by simp [paths, argumentPaths]⟩

lemma ArgumentsBetween.between_call {args : List Expression}
    (h : ArgumentsBetween levels ts rest args) (f : Builtin) (offset offset' : Nat) :
    Between (levels + 1) (⟨.identifier f.name, offset⟩ :: ⟨.openParen, offset'⟩ :: ts) rest
      (.call f args) := by
  obtain ⟨used, offset'', rfl, hargs⟩ := h.derives
  refine ⟨⟨⟨.identifier f.name, offset⟩ :: ⟨.openParen, offset'⟩ ::
    (used ++ [⟨.closeParen, offset''⟩]), by simp, ?_⟩, Nat.succ_le_succ h.depth_le, h.roots⟩
  rw [List.map_cons, List.map_cons, List.map_append]
  exact .call hargs

lemma Between.one {arg : Expression} {offset : Nat}
    (h : Between levels ts (⟨.closeParen, offset⟩ :: rest) arg) :
    ArgumentsBetween levels ts rest [arg] := by
  obtain ⟨used, rfl, harg⟩ := h.derives
  refine ⟨⟨used, offset, rfl, .one harg⟩, by simp, ?_, ?_⟩
  · rw [argumentDepth, argumentDepth, Nat.max_zero]
    exact h.depth_le
  · rw [argumentPaths, argumentPaths, List.append_nil]
    exact h.roots

lemma Between.more {arg : Expression} {args : List Expression} {offset : Nat} {ts' : List Lexeme}
    (h : Between levels ts (⟨.comma, offset⟩ :: ts') arg)
    (hargs : ArgumentsBetween levels ts' rest args) :
    ArgumentsBetween levels ts rest (arg :: args) := by
  obtain ⟨used, rfl, harg⟩ := h.derives
  obtain ⟨used', offset', rfl, hargs'⟩ := hargs.derives
  refine ⟨⟨used ++ ⟨.comma, offset⟩ :: used', offset', by simp, ?_⟩, by simp,
    Nat.max_le.2 ⟨h.depth_le, hargs.depth_le⟩, ?_⟩
  · rw [List.map_append, List.map_cons]
    obtain ⟨next, args, rfl⟩ := List.exists_cons_of_ne_nil hargs.ne_nil
    exact .more harg hargs'
  · exact forall_mem_argumentPaths_cons.2 ⟨h.roots, hargs.roots⟩

end Between

mutual

-- Arguments begin where their first expression does, so the second measure puts them above it.
lemma between_of_outcome_read {levels stop : Nat} {ts rest : List Lexeme} {e : Expression}
    (h : outcome (read levels stop ts) = .ok (e, rest)) : Between levels ts rest e := by
  match ts with
  | [] =>
    rw [read] at h
    cases h
  | ⟨.string s, offset⟩ :: ts =>
    rw [outcome_read_string] at h
    cases h
    exact between_literal (.string s) offset
  | ⟨.integer n, offset⟩ :: ts =>
    rw [outcome_read_integer] at h
    cases h
    exact between_literal (.integer n) offset
  | ⟨.identifier name, offset⟩ :: ts =>
    by_cases hopen : ∀ t ∈ ts.head?, t.token ≠ .openParen
    · rw [outcome_read_name name hopen] at h
      rcases cases_of_readName h with ⟨l, rfl, hl, rfl⟩ | ⟨hname, segments, hsteps, rfl⟩
      · rw [hl]
        exact between_literal l offset
      · exact between_path hname hsteps
    · obtain ⟨offset', ts, rfl⟩ := exists_cons_of_head_token hopen
      obtain ⟨f, inner, args, rfl, rfl, rfl, ⟨rfl, offset'', rfl⟩ | hargs⟩ :=
        exists_of_outcome_read_call h
      · exact between_call_nil f offset offset' offset''
      · exact (argumentsBetween_of_outcome_readArguments hargs).between_call f offset offset'
  | ⟨.dot, _⟩ :: _ | ⟨.comma, _⟩ :: _ | ⟨.openParen, _⟩ :: _ | ⟨.closeParen, _⟩ :: _
  | ⟨.openBracket, _⟩ :: _ | ⟨.closeBracket, _⟩ :: _ =>
    rw [read] at h
    · cases h
    all_goals simp
termination_by (ts.length, 0)

lemma argumentsBetween_of_outcome_readArguments {levels stop : Nat} {ts rest : List Lexeme}
    {args : List Expression} (h : outcome (readArguments levels stop ts) = .ok (args, rest)) :
    ArgumentsBetween levels ts rest args := by
  rw [outcome_readArguments] at h
  obtain ⟨⟨arg, after⟩, harg, h⟩ := bind_eq_ok_iff.1 h
  have hbetween := between_of_outcome_read harg
  rcases cases_of_readMore h with ⟨rfl, offset, rfl⟩ | ⟨offset, ts', more, rfl, hmore, rfl⟩
  · exact hbetween.one
  · have hlt : ts'.length < ts.length := by
      obtain ⟨used, rfl, -⟩ := hbetween.derives
      rw [List.length_append, List.length_cons]
      omega
    exact hbetween.more (argumentsBetween_of_outcome_readArguments hmore)
termination_by (ts.length, 1)

end

/-! ### What is derived is read -/

lemma checkAfterCall_of_stops (f : Builtin) {rest : List Lexeme} (h : Stops rest) :
    checkAfterCall f rest = .ok () := by
  unfold checkAfterCall
  split
  · simp [Stops] at h
  · simp [Stops] at h
  · rfl

lemma exists_cons_of_derives {e : Expression} {ts : List Token} (h : Derives e ts) :
    ∃ t us, ts = t :: us ∧ t ≠ .closeParen := by
  cases h with
  | @literal l =>
    refine ⟨l.token, [], rfl, ?_⟩
    cases l with
    | boolean b => cases b <;> simp [Literal.token]
    | _ => simp [Literal.token]
  | path => exact ⟨_, _, rfl, by simp⟩
  | call => exact ⟨_, _, rfl, by simp⟩

lemma exists_cons_of_derivesArguments {args : List Expression} {ts : List Token}
    (h : DerivesArguments args ts) (hne : args ≠ []) : ∃ t us, ts = t :: us ∧ t ≠ .closeParen := by
  cases h with
  | nil => exact absurd rfl hne
  | one harg => exact exists_cons_of_derives harg
  | more harg _ =>
    obtain ⟨t, us, rfl, ht⟩ := exists_cons_of_derives harg
    exact ⟨t, _, rfl, ht⟩

/-- A result that needs some levels of nesting, where so many may be used. -/
def within {α : Type} (levels needed : Nat) (x : α) : Except ParseError α :=
  if needed ≤ levels then .ok x else .error (.violation (.tooDeep maxDepth))

section Within

variable {α β : Type} {levels m n : Nat} {x : α} {y : β}

lemma within_of_le (h : n ≤ levels) : within levels n x = .ok x := if_pos h

lemma within_of_lt (h : levels < n) :
    within levels n x = .error (.violation (.tooDeep maxDepth)) :=
  if_neg (Nat.not_le.2 h)

lemma within_succ : within (levels + 1) (n + 1) x = within levels n x := by
  simp [within]

lemma map_within (f : α → β) : (within levels n x).map f = within levels n (f x) := by
  unfold within
  split <;> rfl

lemma within_bind_ok {f : α → Except ParseError β} (h : f x = .ok y) :
    (within levels n x).bind f = within levels n y := by
  unfold within
  split
  · exact h
  · rfl

/-- What comes one after another needs as many levels as either, not as both together. -/
lemma within_bind_within {f : α → Except ParseError β} (h : f x = within levels n y) :
    (within levels m x).bind f = within levels (max m n) y := by
  rcases Nat.lt_or_ge levels m with hm | hm
  · rw [within_of_lt hm, within_of_lt (Nat.lt_of_lt_of_le hm (Nat.le_max_left m n))]
    rfl
  · rw [within_of_le hm]
    refine h.trans ?_
    rcases Nat.lt_or_ge levels n with hn | hn
    · rw [within_of_lt hn, within_of_lt (Nat.lt_of_lt_of_le hn (Nat.le_max_right m n))]
    · rw [within_of_le hn, within_of_le (Nat.max_le.2 ⟨hm, hn⟩)]

end Within

/-- A call is read when its arguments are; it needs one level more. -/
lemma outcome_read_call_of_derivesArguments {levels stop offset offset' offset'' : Nat}
    {used rest : List Lexeme} {f : Builtin} {args : List Expression}
    (h : DerivesArguments args (used.map (·.token))) (hrest : Stops rest)
    (hargs : args ≠ [] →
      outcome (readArguments levels stop (used ++ ⟨.closeParen, offset''⟩ :: rest)) =
        within levels (argumentDepth args) (args, rest)) :
    outcome (read (levels + 1) stop (⟨.identifier f.name, offset⟩ :: ⟨.openParen, offset'⟩ ::
      (used ++ ⟨.closeParen, offset''⟩ :: rest))) =
      within levels (argumentDepth args) (.call f args, rest) := by
  have hcheck := checkAfterCall_of_stops f hrest
  by_cases hne : args = []
  · subst hne
    generalize htokens : used.map (·.token) = tokens at h
    cases h
    obtain rfl := List.map_eq_nil_iff.1 htokens
    rw [List.nil_append, outcome_read_call_nil, hcheck]
    exact (within_of_le (Nat.zero_le levels)).symm
  · obtain ⟨t, us, hcons, ht⟩ := exists_cons_of_derivesArguments h hne
    obtain ⟨o, used, rfl, -⟩ := exists_cons_of_map_token hcons
    rw [outcome_read_call f (by simpa using ht), hargs hne]
    apply within_bind_ok
    show (checkAfterCall f rest).map _ = _
    rw [hcheck]
    rfl

mutual

lemma outcome_read_of_derives {levels stop : Nat} {used rest : List Lexeme} {tokens : List Token}
    {e : Expression} (h : Derives e tokens) (hused : used.map (·.token) = tokens)
    (hroots : ∀ p ∈ e.paths, p.root ∉ reservedWords) (hrest : Stops rest) :
    outcome (read levels stop (used ++ rest)) = within levels e.depth (e, rest) := by
  cases h with
  | @literal l =>
    obtain ⟨offset, used, rfl, hnil⟩ := exists_cons_of_map_token hused
    obtain rfl := List.map_eq_nil_iff.1 hnil
    rw [depth, within_of_le (Nat.zero_le levels)]
    exact outcome_read_literal l hrest
  | @path root segments ts hsteps =>
    obtain ⟨offset, used, rfl, rfl⟩ := exists_cons_of_map_token hused
    have hroot : root ∉ reservedWords := hroots _ List.mem_cons_self
    rw [depth, within_of_le (Nat.zero_le levels), List.cons_append,
      outcome_read_name root (ne_openParen_of_derivesSteps hsteps hrest),
      readName_of_notMem hroot, readSteps_of_derivesSteps hsteps hrest]
    rfl
  | @call f args ts hargs =>
    obtain ⟨offset, _, rfl, hopen⟩ := exists_cons_of_map_token hused
    obtain ⟨offset', _, rfl, happend⟩ := exists_cons_of_map_token hopen
    obtain ⟨used, _, rfl, rfl, hclose⟩ := List.map_eq_append_iff.1 happend
    obtain ⟨offset'', _, rfl, hnil⟩ := exists_cons_of_map_token hclose
    obtain rfl := List.map_eq_nil_iff.1 hnil
    rw [List.cons_append, List.cons_append, List.append_assoc, depth]
    cases levels with
    | zero => rw [outcome_read_call_zero, within_of_lt (Nat.zero_lt_succ _)]
    | succ inner =>
      rw [within_succ]
      apply outcome_read_call_of_derivesArguments hargs hrest
      intro hne
      exact outcome_readArguments_of_derives hargs hne rfl hroots

lemma outcome_readArguments_of_derives {levels stop offset : Nat} {used rest : List Lexeme}
    {tokens : List Token} {args : List Expression} (h : DerivesArguments args tokens)
    (hne : args ≠ []) (hused : used.map (·.token) = tokens)
    (hroots : ∀ p ∈ argumentPaths args, p.root ∉ reservedWords) :
    outcome (readArguments levels stop (used ++ ⟨.closeParen, offset⟩ :: rest)) =
      within levels (argumentDepth args) (args, rest) := by
  rw [outcome_readArguments]
  cases h with
  | nil => exact absurd rfl hne
  | one harg =>
    have hleft := (forall_mem_argumentPaths_cons.1 hroots).1
    rw [outcome_read_of_derives harg hused hleft (by simp [Stops]), argumentDepth, argumentDepth,
      Nat.max_zero]
    exact within_bind_ok rfl
  | @more arg next args tokens tokens' harg hargs =>
    obtain ⟨used, _, rfl, hmap, htail⟩ := List.map_eq_append_iff.1 hused
    obtain ⟨offset', used', rfl, hmap'⟩ := exists_cons_of_map_token htail
    obtain ⟨hleft, hright⟩ := forall_mem_argumentPaths_cons.1 hroots
    rw [List.append_assoc, outcome_read_of_derives harg hmap hleft (by simp [Stops]),
      argumentDepth]
    apply within_bind_within
    show (outcome (readArguments levels stop (used' ++ _ :: rest))).map _ = _
    rw [outcome_readArguments_of_derives hargs (by simp) hmap' hright, map_within]

end

/-! ### Whole texts -/

section Whole

variable {stop : Nat} {ts : List Lexeme} {e : Expression}

lemma ofTokens_eq_bind : ofTokens stop ts = (outcome (read maxDepth stop ts)).bind fun (e, rest) =>
    match rest with
    | [] => .ok e
    | t :: _ => .error (.malformed t.offset (.unexpected (some t.token))) := by
  rw [ofTokens]
  cases read maxDepth stop ts <;> rfl

lemma ofTokens_of_derives (h : Derives e (ts.map (·.token)))
    (hroots : ∀ p ∈ e.paths, p.root ∉ reservedWords) :
    ofTokens stop ts = within maxDepth e.depth e := by
  have hread : outcome (read maxDepth stop (ts ++ [])) = within maxDepth e.depth (e, []) :=
    outcome_read_of_derives h rfl hroots (by simp [Stops])
  rw [List.append_nil] at hread
  rw [ofTokens_eq_bind, hread]
  exact within_bind_ok rfl

lemma between_of_ofTokens (h : ofTokens stop ts = .ok e) : Between maxDepth ts [] e := by
  rw [ofTokens_eq_bind] at h
  obtain ⟨⟨e', rest⟩, hread, h⟩ := bind_eq_ok_iff.1 h
  cases rest with
  | nil =>
    cases h
    exact between_of_outcome_read hread
  | cons t rest => cases h

/-- The parser reads exactly the expressions within the bounds of the sandbox. -/
theorem ofTokens_eq_ok_iff : ofTokens stop ts = .ok e ↔
    Derives e (ts.map (·.token)) ∧ e.depth ≤ maxDepth ∧ ∀ p ∈ e.paths, p.root ∉ reservedWords := by
  constructor
  · intro h
    have hbetween := between_of_ofTokens h
    obtain ⟨used, rfl, hderives⟩ := hbetween.derives
    rw [List.append_nil]
    exact ⟨hderives, hbetween.depth_le, hbetween.roots⟩
  · rintro ⟨hderives, hdepth, hroots⟩
    rw [ofTokens_of_derives hderives hroots, within_of_le hdepth]

/-- Tokens derive at most one expression whose paths start at no reserved word. -/
theorem eq_of_derives {x y : Expression} {ts : List Token} (hx : Derives x ts) (hy : Derives y ts)
    (hxroots : ∀ p ∈ x.paths, p.root ∉ reservedWords)
    (hyroots : ∀ p ∈ y.paths, p.root ∉ reservedWords) : x = y := by
  let lexemes : List Lexeme := ts.map (⟨·, 0⟩)
  have hlexemes : lexemes.map (·.token) = ts := by
    rw [List.map_map]
    exact List.map_id ts
  have hstops : Stops [] := by simp [Stops]
  have hreadx : outcome (read (max x.depth y.depth) 0 (lexemes ++ [])) = .ok (x, []) :=
    (outcome_read_of_derives hx hlexemes hxroots hstops).trans (within_of_le (Nat.le_max_left _ _))
  have hready : outcome (read (max x.depth y.depth) 0 (lexemes ++ [])) = .ok (y, []) :=
    (outcome_read_of_derives hy hlexemes hyroots hstops).trans (within_of_le (Nat.le_max_right _ _))
  rw [hreadx] at hready
  cases hready
  rfl

end Whole

end Expression

end EntityModel
