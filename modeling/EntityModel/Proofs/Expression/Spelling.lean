import EntityModel.Expression.Token
import EntityModel.Proofs.Log
import EntityModel.Proofs.Number.Digits
import EntityModel.Proofs.Path
import Mathlib.Data.List.Chain

/-!
# Texts of tokens

A token has many spellings: a string stands in either quote, an integer may have zeros in front.
Tokens are written one after another with any blanks between them. What is written so is cut into
the same tokens again, provided that of two neighbours one is a mark: `scan_written`.
-/

namespace EntityModel

namespace Token

/-- Whether a token is a punctuation character. -/
def isMark : Token → Bool
  | .identifier _ | .string _ | .integer _ => false
  | _ => true

/-- Characters with every quote written twice. -/
def doubled (quote : Char) (cs : List Char) : List Char :=
  cs.flatMap fun c => if c = quote then [c, c] else [c]

/-- A text that stands for a token. -/
inductive Spelled : Token → List Char → Prop
  | mark {c t} : ofPunctuation? c = some t → Spelled t [c]
  | identifier {c cs} : c.isDigit = false → (∀ d ∈ c :: cs, isIdentifierChar d) →
      Spelled (.identifier (String.ofList (c :: cs))) (c :: cs)
  | string {quote s} : quote = '\'' ∨ quote = '"' →
      Spelled (.string s) (quote :: (doubled quote s.toList ++ [quote]))
  | natural {n : Int64} {ds} : ds ≠ [] → (∀ d ∈ ds, d.isDigit) → n.toInt = Decimals.value ds →
      Spelled (.integer n) ds
  | negative {n : Int64} {ds} : ds ≠ [] → (∀ d ∈ ds, d.isDigit) →
      n.toInt = -(Decimals.value ds : Int) → Spelled (.integer n) ('-' :: ds)

/-- Tokens as texts one after another, with blanks before, between and after them. -/
inductive Written : List Token → List Char → Prop
  | nil {bs} : (∀ b ∈ bs, isBlank b) → Written [] bs
  | cons {bs t cs ts text} : (∀ b ∈ bs, isBlank b) → Spelled t cs → Written ts text →
      Written (t :: ts) (bs ++ (cs ++ text))

/-- A name in expressions: letters, digits and underscores, with no digit in front. -/
def IsName (name : String) : Prop :=
  ∃ c cs, name.toList = c :: cs ∧ c.isDigit = false ∧ ∀ d ∈ c :: cs, isIdentifierChar d

/-! ### Characters -/

section Chars

variable {c : Char}

lemma cases_of_ofPunctuation? {t : Token} (h : ofPunctuation? c = some t) :
    c = '.' ∨ c = ',' ∨ c = '(' ∨ c = ')' ∨ c = '[' ∨ c = ']' := by
  unfold ofPunctuation? at h
  split at h <;> simp at h ⊢

lemma isBlank_eq_false_of_mark {t : Token} (h : ofPunctuation? c = some t) :
    isBlank c = false := by
  rcases cases_of_ofPunctuation? h with rfl | rfl | rfl | rfl | rfl | rfl <;> decide

lemma isIdentifierChar_eq_false_of_mark {t : Token} (h : ofPunctuation? c = some t) :
    isIdentifierChar c = false := by
  rcases cases_of_ofPunctuation? h with rfl | rfl | rfl | rfl | rfl | rfl <;> decide

lemma ofPunctuation?_eq_none (h : isIdentifierChar c) : ofPunctuation? c = none := by
  rw [Option.eq_none_iff_forall_ne_some]
  intro t ht
  rw [isIdentifierChar_eq_false_of_mark ht] at h
  cases h

lemma isBlank_eq_false_of_isIdentifierChar (h : isIdentifierChar c) : isBlank c = false := by
  rcases Bool.or_eq_true_iff.1 h with h | h
  · exact isBlank_eq_false_of_isAlphanum h
  · rw [of_decide_eq_true h]
    decide

/-- A character that no token before it goes on with. -/
def breaks (c : Char) : Bool :=
  isBlank c || (ofPunctuation? c).isSome

lemma isIdentifierChar_eq_false_of_breaks (h : breaks c) : isIdentifierChar c = false := by
  rcases Bool.or_eq_true_iff.1 h with h | h
  · refine Bool.eq_false_iff.2 fun hc => ?_
    rw [isBlank_eq_false_of_isIdentifierChar hc] at h
    cases h
  · obtain ⟨t, ht⟩ := Option.isSome_iff_exists.1 h
    exact isIdentifierChar_eq_false_of_mark ht

lemma isDigit_eq_false_of_breaks (h : breaks c) : c.isDigit = false := by
  refine Bool.eq_false_iff.2 fun hc => ?_
  have hname := isIdentifierChar_of_isDigit hc
  rw [isIdentifierChar_eq_false_of_breaks h] at hname
  cases hname

end Chars

/-! ### Widths -/

lemma foldl_utf8Size (cs : List Char) (n : Nat) :
    cs.foldl (fun n c => n + c.utf8Size) n = n + byteWidth cs := by
  induction cs generalizing n with
  | nil => rfl
  | cons c cs ih =>
    rw [byteWidth, List.foldl_cons, List.foldl_cons, ih, ih (0 + c.utf8Size), Nat.zero_add,
      Nat.add_assoc]

lemma byteWidth_append (cs ds : List Char) :
    byteWidth (cs ++ ds) = byteWidth cs + byteWidth ds := by
  rw [byteWidth, List.foldl_append, foldl_utf8Size ds]
  rfl

lemma byteWidth_singleton (c : Char) : byteWidth [c] = c.utf8Size :=
  Nat.zero_add _

lemma byteWidth_cons (c : Char) (cs : List Char) :
    byteWidth (c :: cs) = c.utf8Size + byteWidth cs := by
  rw [← List.singleton_append, byteWidth_append, byteWidth_singleton]

/-! ### Quoted texts -/

section Quoted

variable {quote : Char}

lemma doubled_cons_of_ne {c : Char} (h : c ≠ quote) (cs : List Char) :
    doubled quote (c :: cs) = c :: doubled quote cs := by
  rw [doubled, List.flatMap_cons, if_neg h]
  rfl

lemma doubled_cons_self (cs : List Char) :
    doubled quote (quote :: cs) = quote :: quote :: doubled quote cs := by
  rw [doubled, List.flatMap_cons, if_pos rfl]
  rfl

lemma unquote_doubled (cs : List Char) : unquote quote (doubled quote cs) = cs := by
  induction cs with
  | nil => rfl
  | cons c cs ih =>
    by_cases hc : c = quote
    · subst hc
      rw [doubled_cons_self, unquote.eq_def]
      simp only [if_true, ih]
    · rw [doubled_cons_of_ne hc, unquote.eq_def]
      simp only [if_neg hc, ih]

/-- A quoted text is read to its closing quote, unless another quote follows. -/
lemma readQuoted_doubled (cs : List Char) {rest : List Char} (h : ∀ c ∈ rest.head?, c ≠ quote) :
    readQuoted quote (doubled quote cs ++ quote :: rest) = some (doubled quote cs, rest) := by
  induction cs with
  | nil =>
    cases rest with
    | nil => simp [doubled, readQuoted]
    | cons c rest => simp [doubled, readQuoted, h c rfl]
  | cons c cs ih =>
    by_cases hc : c = quote
    · subst hc
      rw [doubled_cons_self, List.cons_append, List.cons_append, readQuoted.eq_def]
      simp [ih]
    · rw [doubled_cons_of_ne hc, List.cons_append, readQuoted.eq_def]
      simp [hc, ih]

end Quoted

/-! ### One token -/

section Scan

variable {offset : Nat} {c quote : Char} {cs text : List Char}

lemma scan_blank (h : isBlank c) : scan offset (c :: cs) = scan (offset + c.utf8Size) cs := by
  rw [scan, if_pos h]

lemma scan_mark {t : Token} (h : ofPunctuation? c = some t) :
    scan offset (c :: cs) = (scan (offset + c.utf8Size) cs).map (⟨t, offset⟩ :: ·) := by
  rw [scan, isBlank_eq_false_of_mark h, if_neg Bool.false_ne_true, h]

lemma scan_identifier (hdigit : c.isDigit = false) (hcs : ∀ d ∈ c :: cs, isIdentifierChar d)
    (htext : ∀ d ∈ text.head?, breaks d) :
    scan offset (c :: (cs ++ text)) = (scan (offset + byteWidth (c :: cs)) text).map
      (⟨.identifier (String.ofList (c :: cs)), offset⟩ :: ·) := by
  have hc := hcs c List.mem_cons_self
  have hcs : ∀ d ∈ cs, isIdentifierChar d := fun d hd => hcs d (List.mem_cons_of_mem c hd)
  have htext : ∀ d ∈ text.head?, isIdentifierChar d = false :=
    fun d hd => isIdentifierChar_eq_false_of_breaks (htext d hd)
  have hquote : ¬ (c = '\'' ∨ c = '"') := by
    rintro (rfl | rfl)
    · exact ne_of_isIdentifierChar hc (by decide) rfl
    · exact ne_of_isIdentifierChar hc (by decide) rfl
  have hminus : c ≠ '-' := ne_of_isIdentifierChar hc (by decide)
  rw [scan, isBlank_eq_false_of_isIdentifierChar hc, if_neg Bool.false_ne_true,
    ofPunctuation?_eq_none hc]
  simp only [if_neg hquote, hdigit, hminus, decide_false, Bool.or_self, Bool.false_eq_true,
    if_false, hc, if_true, takeWhile_append_of_head hcs htext, dropWhile_append_of_head hcs htext]

lemma scan_string (hquote : quote = '\'' ∨ quote = '"') (htext : ∀ d ∈ text.head?, breaks d) :
    scan offset (quote :: (doubled quote cs ++ quote :: text)) =
      (scan (offset + byteWidth (quote :: (doubled quote cs ++ [quote]))) text).map
        (⟨.string (String.ofList cs), offset⟩ :: ·) := by
  have hblank : isBlank quote = false := by
    rcases hquote with rfl | rfl <;> decide
  have hmark : ofPunctuation? quote = none := by
    rcases hquote with rfl | rfl <;> rfl
  have hbreaks : breaks quote = false := by
    rcases hquote with rfl | rfl <;> decide
  have hne : ∀ d ∈ text.head?, d ≠ quote := by
    rintro d hd rfl
    exact Bool.false_ne_true (hbreaks.symm.trans (htext d hd))
  have hwidth : byteWidth (quote :: (doubled quote cs ++ [quote])) =
      byteWidth (quote :: doubled quote cs) + quote.utf8Size := by
    rw [← List.cons_append, byteWidth_append, byteWidth_singleton]
  rw [scan, hblank, if_neg Bool.false_ne_true, hmark]
  simp only [if_pos hquote]
  split
  · next hnone =>
    rw [readQuoted_doubled cs hne] at hnone
    cases hnone
  · next hsome =>
    rw [readQuoted_doubled cs hne] at hsome
    cases hsome
    rw [unquote_doubled, hwidth, Nat.add_assoc]

lemma scan_integer {n : Int64} (hc : c.isDigit ∨ c = '-') (hcs : ∀ d ∈ cs, d.isDigit)
    (hread : readInt64 (c :: cs) = .ok n) (htext : ∀ d ∈ text.head?, breaks d) :
    scan offset (c :: (cs ++ text)) = (scan (offset + byteWidth (c :: cs)) text).map
      (⟨.integer n, offset⟩ :: ·) := by
  have hblank : isBlank c = false := by
    rcases hc with hc | rfl
    · exact isBlank_of_isDigit hc
    · decide
  have hmark : ofPunctuation? c = none := by
    rcases hc with hc | rfl
    · exact ofPunctuation?_eq_none (isIdentifierChar_of_isDigit hc)
    · rfl
  have hquote : ¬ (c = '\'' ∨ c = '"') := by
    rintro (rfl | rfl) <;> exact absurd hc (by decide)
  have hstart : (c.isDigit || decide (c = '-')) = true := by simpa using hc
  have htext : ∀ d ∈ text.head?, d.isDigit = false :=
    fun d hd => isDigit_eq_false_of_breaks (htext d hd)
  rw [scan, hblank, if_neg Bool.false_ne_true, hmark]
  simp only [if_neg hquote, hstart, if_true, takeWhile_append_of_head hcs htext,
    dropWhile_append_of_head hcs htext, hread]

/-- A token is cut off where its spelling ends, if what follows does not go on with it. -/
lemma scan_spelled {t : Token} (h : Spelled t cs) (htext : t.isMark ∨ ∀ d ∈ text.head?, breaks d) :
    scan offset (cs ++ text) = (scan (offset + byteWidth cs) text).map (⟨t, offset⟩ :: ·) := by
  cases h with
  | @mark c t hmark =>
    rw [byteWidth_singleton]
    exact scan_mark hmark
  | identifier hdigit hcs =>
    exact scan_identifier hdigit hcs (htext.resolve_left (by simp [isMark]))
  | @string quote s hquote =>
    rw [List.cons_append, List.append_assoc]
    refine (scan_string hquote (htext.resolve_left (by simp [isMark]))).trans ?_
    rw [String.ofList_toList]
  | @natural n ds hne hd hvalue =>
    have hread := readInt64_natural hne hd hvalue
    obtain ⟨d, ds, rfl⟩ := List.exists_cons_of_ne_nil hne
    apply scan_integer (.inl (hd d List.mem_cons_self)) _ hread
      (htext.resolve_left (by simp [isMark]))
    exact fun c hc => hd c (List.mem_cons_of_mem d hc)
  | negative hne hd hvalue =>
    exact scan_integer (.inr rfl) hd (readInt64_negative hne hd hvalue)
      (htext.resolve_left (by simp [isMark]))

end Scan

/-! ### Many tokens -/

section Written

variable {offset : Nat} {ts : List Token} {bs text : List Char}

lemma scan_blanks (h : ∀ b ∈ bs, isBlank b) (text : List Char) :
    scan offset (bs ++ text) = scan (offset + byteWidth bs) text := by
  induction bs generalizing offset with
  | nil => rfl
  | cons b bs ih =>
    have hb := h b List.mem_cons_self
    have hbs : ∀ d ∈ bs, isBlank d := fun d hd => h d (List.mem_cons_of_mem b hd)
    rw [List.cons_append, scan_blank hb, ih hbs]
    rw [← List.singleton_append, byteWidth_append, byteWidth_singleton, Nat.add_assoc]

lemma Written.token {t : Token} {cs : List Char} (h : Spelled t cs) (hwritten : Written ts text) :
    Written (t :: ts) (cs ++ text) :=
  @Written.cons [] _ _ _ _ (by simp) h hwritten

/-- Neighbours need no blank between them, as one of the two is a mark. -/
def Separated (ts : List Token) : Prop :=
  ts.IsChain fun t u => t.isMark ∨ u.isMark

lemma breaks_of_spelled {t : Token} {cs : List Char} (h : Spelled t cs) (ht : t.isMark) :
    ∀ d ∈ (cs ++ text).head?, breaks d := by
  cases h with
  | mark hmark =>
    intro d hd
    cases hd
    rw [breaks, hmark, Option.isSome_some, Bool.or_true]
  | _ => cases ht

lemma breaks_of_written (h : Written ts text) (hts : ∀ t ∈ ts.head?, t.isMark) :
    ∀ d ∈ text.head?, breaks d := by
  cases h with
  | nil hbs =>
    intro d hd
    rw [breaks, hbs d (List.mem_of_mem_head? hd), Bool.true_or]
  | @cons bs t cs ts text hbs hspelled _ =>
    cases bs with
    | nil =>
      rw [List.nil_append]
      exact breaks_of_spelled hspelled (hts t rfl)
    | cons b bs =>
      intro d hd
      cases hd
      rw [breaks, hbs b List.mem_cons_self, Bool.true_or]

lemma isMark_or_breaks {t : Token} (h : Written ts text) (hts : Separated (t :: ts)) :
    t.isMark ∨ ∀ d ∈ text.head?, breaks d := by
  by_cases ht : t.isMark
  · exact .inl ht
  · right
    apply breaks_of_written h
    exact fun u hu => ((List.isChain_cons.1 hts).1 u hu).resolve_left ht

/-- What is written is cut into its tokens. -/
theorem scan_written (h : Written ts text) (hts : Separated ts) :
    ∃ lexemes, scan offset text = .ok lexemes ∧ lexemes.map (·.token) = ts := by
  induction h generalizing offset with
  | @nil bs hbs =>
    refine ⟨[], ?_, rfl⟩
    rw [← List.append_nil bs, scan_blanks hbs, scan]
  | @cons bs t cs ts text hbs hspelled hwritten ih =>
    have hnext := isMark_or_breaks hwritten hts
    obtain ⟨lexemes, hscan, rfl⟩ :=
      @ih (offset + byteWidth bs + byteWidth cs) (List.IsChain.tail hts)
    refine ⟨⟨t, offset + byteWidth bs⟩ :: lexemes, ?_, rfl⟩
    rw [scan_blanks hbs, scan_spelled hspelled hnext, hscan]
    rfl

end Written

/-! ### Every token can be written -/

lemma spelled_of_isName {name : String} (h : IsName name) :
    Spelled (.identifier name) name.toList := by
  obtain ⟨c, cs, hcs, hdigit, hall⟩ := h
  have hspelled := Spelled.identifier hdigit hall
  rwa [← hcs, String.ofList_toList] at hspelled

lemma exists_spelled {t : Token} (h : ∀ name, t = .identifier name → IsName name) :
    ∃ cs, Spelled t cs := by
  cases t with
  | identifier name => exact ⟨_, spelled_of_isName (h name rfl)⟩
  | string s => exact ⟨_, .string (.inl rfl)⟩
  | integer n =>
    have hne : Decimals.digits n.toInt.natAbs ≠ [] := by
      rw [Decimals.digits]
      simp
    have hvalue := Decimals.value_digits n.toInt.natAbs
    rcases Int.natAbs_eq n.toInt with hn | hn
    · exact ⟨_, .natural hne (fun _ => Decimals.isDigit_of_mem_digits) (hvalue.symm ▸ hn)⟩
    · exact ⟨_, .negative hne (fun _ => Decimals.isDigit_of_mem_digits) (hvalue.symm ▸ hn)⟩
  | dot => exact ⟨['.'], .mark rfl⟩
  | comma => exact ⟨[','], .mark rfl⟩
  | openParen => exact ⟨['('], .mark rfl⟩
  | closeParen => exact ⟨[')'], .mark rfl⟩
  | openBracket => exact ⟨['['], .mark rfl⟩
  | closeBracket => exact ⟨[']'], .mark rfl⟩

lemma exists_written {ts : List Token} (h : ∀ name, .identifier name ∈ ts → IsName name) :
    ∃ cs, Written ts cs := by
  induction ts with
  | nil => exact ⟨[], .nil (by simp)⟩
  | cons t ts ih =>
    obtain ⟨cs, hcs⟩ := exists_spelled (t := t) fun name ht => h name (ht ▸ List.mem_cons_self)
    obtain ⟨text, htext⟩ := ih fun name hname => h name (List.mem_cons_of_mem t hname)
    exact ⟨_, .token hcs htext⟩

end Token

end EntityModel
