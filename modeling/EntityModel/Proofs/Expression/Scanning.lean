import EntityModel.Proofs.Expression.Spelling

/-!
# What is cut into tokens

A text that is cut into tokens is made of them: each stands at its offset in one of its spellings,
and between the spellings there are blanks only. In particular a name among the tokens is a name of
the language.
-/

namespace EntityModel

namespace Token

/-- Tokens that stand in a text at their offsets, with blanks before, between and after them; the
text begins at the given offset. -/
inductive Placed : Nat → List Lexeme → List Char → Prop
  | nil {offset bs} : (∀ b ∈ bs, isBlank b) → Placed offset [] bs
  | cons {offset bs t cs ts text} : (∀ b ∈ bs, isBlank b) → Spelled t cs →
      Placed (offset + byteWidth bs + byteWidth cs) ts text →
      Placed offset (⟨t, offset + byteWidth bs⟩ :: ts) (bs ++ (cs ++ text))

/-! ### One token -/

section One

variable {offset : Nat} {c quote : Char} {cs text : List Char} {ts : List Lexeme}

lemma Placed.blank (hc : isBlank c) (h : Placed (offset + c.utf8Size) ts cs) :
    Placed offset ts (c :: cs) := by
  cases h with
  | nil hbs => exact .nil (List.forall_mem_cons.2 ⟨hc, hbs⟩)
  | @cons _ bs t cs ts text hbs hspelled hplaced =>
    have hwidth : offset + c.utf8Size + byteWidth bs = offset + byteWidth (c :: bs) := by
      rw [byteWidth_cons, Nat.add_assoc]
    rw [hwidth] at hplaced ⊢
    exact .cons (List.forall_mem_cons.2 ⟨hc, hbs⟩) hspelled hplaced

lemma Placed.token {t : Token} (hspelled : Spelled t cs)
    (h : Placed (offset + byteWidth cs) ts text) : Placed offset (⟨t, offset⟩ :: ts) (cs ++ text) :=
  @Placed.cons _ [] _ _ _ _ (by simp) hspelled h

/-- A spelling between quotes is that of the string it stands for. -/
lemma doubled_unquote {inside after : List Char} (h : readQuoted quote cs = some (inside, after)) :
    doubled quote (unquote quote inside) = inside := by
  fun_induction readQuoted quote cs generalizing inside after with
  | case1 => cases h
  | case2 =>
    cases h
    rfl
  | case3 rest ih =>
    obtain ⟨⟨inside, after⟩, h, heq⟩ := Option.map_eq_some_iff.1 h
    cases heq
    rw [unquote.eq_def]
    simp only [if_true]
    rw [doubled_cons_self, ih h]
  | case4 =>
    cases h
    rfl
  | case5 c cs hc ih =>
    obtain ⟨⟨inside, after⟩, h, heq⟩ := Option.map_eq_some_iff.1 h
    cases heq
    rw [unquote.eq_def]
    simp only [if_neg hc]
    rw [doubled_cons_of_ne hc, ih h]

lemma spelled_of_readQuoted {inside after : List Char} (hquote : quote = '\'' ∨ quote = '"')
    (h : readQuoted quote cs = some (inside, after)) :
    Spelled (.string (String.ofList (unquote quote inside))) (quote :: (inside ++ [quote])) := by
  have hspelled := Spelled.string (s := String.ofList (unquote quote inside)) hquote
  rwa [String.toList_ofList, doubled_unquote h] at hspelled

lemma spelled_of_readInt64 {n : Int64} (hc : c.isDigit ∨ c = '-')
    (h : readInt64 (c :: cs) = .ok n) : Spelled (.integer n) (c :: cs) := by
  unfold readInt64 at h
  split at h
  · next heq => cases heq
  · next ds heq =>
    cases heq
    obtain ⟨_, hread, rfl⟩ := map_eq_ok_iff.1 h
    obtain ⟨m, hm, hread⟩ := bind_eq_ok_iff.1 hread
    cases hread
    obtain ⟨hne, hdigits, rfl, hle⟩ := readMagnitude_eq_ok_iff.1 hm
    have hle : Decimals.value cs ≤ 2 ^ 63 := hle
    exact .negative hne hdigits (Int64.toInt_ofInt_of_le (by omega) (by omega))
  · next ds heq =>
    cases heq
    exact absurd hc (by decide)
  · obtain ⟨_, hread, rfl⟩ := map_eq_ok_iff.1 h
    obtain ⟨m, hm, hread⟩ := bind_eq_ok_iff.1 hread
    cases hread
    obtain ⟨hne, hdigits, rfl, hle⟩ := readMagnitude_eq_ok_iff.1 hm
    have hle : Decimals.value (c :: cs) ≤ 2 ^ 63 - 1 := hle
    exact .natural hne hdigits (Int64.toInt_ofInt_of_le (by omega) (by omega))

lemma isName_of_spelled {name : String} (h : Spelled (.identifier name) cs) : IsName name := by
  cases h with
  | mark hmark =>
    unfold ofPunctuation? at hmark
    split at hmark <;> cases hmark
  | identifier hdigit hall => exact ⟨_, _, String.toList_ofList, hdigit, hall⟩

end One

/-! ### Many tokens -/

/-- The tokens that a text is cut into stand in it at their offsets. -/
theorem placed_of_scan {offset : Nat} {cs : List Char} {ts : List Lexeme}
    (h : scan offset cs = .ok ts) : Placed offset ts cs := by
  fun_induction scan offset cs generalizing ts with
  | case1 =>
    cases h
    exact .nil (by simp)
  | case2 offset c cs hblank ih => exact .blank hblank (ih h)
  | case3 offset c cs hblank t hmark ih =>
    obtain ⟨ts, hts, rfl⟩ := map_eq_ok_iff.1 h
    have hplaced := ih hts
    rw [← byteWidth_singleton] at hplaced
    exact .token (.mark hmark) hplaced
  | case5 offset c cs hblank hmark hquote inside after hread token =>
    rename_i ih
    obtain ⟨ts, hts, rfl⟩ := map_eq_ok_iff.1 h
    have hplaced := ih hts
    rw [readQuoted_eq_append hread]
    rw [Nat.add_assoc, ← byteWidth_singleton, ← byteWidth_append] at hplaced
    have htoken := Placed.token (spelled_of_readQuoted hquote hread) hplaced
    simpa using htoken
  | case7 offset c cs hblank hmark hquote hstart digits n hread =>
    rename_i ih
    obtain ⟨ts, hts, rfl⟩ := map_eq_ok_iff.1 h
    have hspelled := spelled_of_readInt64 (by simpa using hstart) hread
    have htoken := Placed.token hspelled (ih hts)
    rwa [List.cons_append, List.takeWhile_append_dropWhile] at htoken
  | case8 offset c cs hblank hmark hquote hstart hc name =>
    rename_i ih
    obtain ⟨ts, hts, rfl⟩ := map_eq_ok_iff.1 h
    have hdigit : c.isDigit = false := by simp_all
    have hname : ∀ d ∈ c :: cs.takeWhile isIdentifierChar, isIdentifierChar d :=
      List.forall_mem_cons.2 ⟨hc, List.all_eq_true.1 List.all_takeWhile⟩
    have hspelled := Spelled.identifier hdigit hname
    have htoken := Placed.token hspelled (ih hts)
    rwa [List.cons_append, List.takeWhile_append_dropWhile] at htoken
  | case4 | case6 | case9 => cases h

lemma Placed.exists_spelled {offset : Nat} {ts : List Lexeme} {text : List Char}
    (h : Placed offset ts text) : ∀ l ∈ ts, ∃ cs, Spelled l.token cs := by
  induction h with
  | nil =>
    intro l hl
    cases hl
  | cons _ hspelled _ ih => exact List.forall_mem_cons.2 ⟨⟨_, hspelled⟩, ih⟩

/-- Every name among the tokens of a text is a name of the language. -/
lemma isName_of_scan {offset : Nat} {cs : List Char} {ts : List Lexeme} {name : String}
    (h : scan offset cs = .ok ts) (hname : .identifier name ∈ ts.map (·.token)) :
    IsName name := by
  obtain ⟨⟨t, start⟩, hl, rfl⟩ := List.mem_map.1 hname
  obtain ⟨cs, hspelled⟩ := (placed_of_scan h).exists_spelled _ hl
  exact isName_of_spelled hspelled

end Token

end EntityModel
