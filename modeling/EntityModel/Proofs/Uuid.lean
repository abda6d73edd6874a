import EntityModel.Uuid
import Mathlib.Tactic.Lemma

/-!
# Identifiers read back

The digits of a number denote the number, and taking the hyphens out of grouped digits gives the
digits, so an identifier is read back from its text.
-/

namespace EntityModel

/-! ### Hexadecimal digits -/

lemma hexValue?_digitChar : ∀ d < 16, hexValue? (Nat.digitChar d) = some d := by
  decide

lemma hexNumber?_concat (cs : List Char) (c : Char) :
    hexNumber? (cs ++ [c]) =
      (hexNumber? cs).bind fun n => (hexValue? c).map fun d => 16 * n + d := by
  rw [hexNumber?, List.foldl_append]
  rfl

lemma hexNumber?_toDigits (n : Nat) : hexNumber? (Nat.toDigits 16 n) = some n := by
  induction n using Nat.strongRecOn with
  | ind n ih =>
    rw [Nat.toDigits_eq_if (by decide)]
    split
    · rename_i hlt
      have hone := hexNumber?_concat [] n.digitChar
      rw [hexValue?_digitChar n hlt, List.nil_append] at hone
      rw [hone]
      exact congrArg some (Nat.zero_add n)
    · rename_i hge
      rw [hexNumber?_concat, ih (n / 16) (by omega),
        hexValue?_digitChar (n % 16) (Nat.mod_lt n (by decide))]
      exact congrArg some (Nat.div_add_mod n 16)

lemma hexNumber?_replicate_zero (n : Nat) (cs : List Char) :
    hexNumber? (List.replicate n '0' ++ cs) = hexNumber? cs := by
  induction n with
  | zero => rfl
  | succ n ih => exact ih

lemma exists_digitChar_of_mem_toDigits {n : Nat} {c : Char} (h : c ∈ Nat.toDigits 16 n) :
    ∃ d < 16, c = Nat.digitChar d := by
  induction n using Nat.strongRecOn with
  | ind n ih =>
    rw [Nat.toDigits_eq_if (by decide)] at h
    split at h
    · rename_i hlt
      exact ⟨n, hlt, List.mem_singleton.1 h⟩
    · rcases List.mem_append.1 h with h | h
      · exact ih (n / 16) (by omega) h
      · exact ⟨n % 16, Nat.mod_lt n (by decide), List.mem_singleton.1 h⟩

namespace Uuid

/-! ### Groups of digits -/

lemma ungroup?_group {ns : List Nat} (hne : ns ≠ []) {ds : List Char}
    (hlen : ds.length = ns.foldr (· + ·) 0) : ungroup? ns (group ns ds) = some ds := by
  induction ns generalizing ds with
  | nil => exact absurd rfl hne
  | cons n ns ih =>
    cases ns with
    | nil => exact if_pos hlen
    | cons m ns =>
      rw [List.foldr_cons] at hlen
      have htake : (ds.take n).length = n := List.length_take_of_le (by omega)
      have hrest : (ds.drop n).length = (m :: ns).foldr (· + ·) 0 := by
        rw [List.length_drop]
        omega
      rw [group, ungroup?]
      · rw [List.drop_left' htake, List.take_left' htake]
        simp only [ih (List.cons_ne_nil m ns) hrest, Option.map_some, List.take_append_drop]
      · exact List.cons_ne_nil m ns
      · exact List.cons_ne_nil m ns

/-! ### Texts -/

lemma length_digits (u : Uuid) : u.digits.length = 32 := by
  have hlt : u.bits.toNat < 16 ^ 32 := u.bits.isLt
  have hle := (Nat.length_toDigits_le_iff (by decide) (by decide)).2 hlt
  rw [digits, List.length_append, List.length_replicate]
  omega

lemma exists_digitChar_of_mem_digits {u : Uuid} {c : Char} (h : c ∈ u.digits) :
    ∃ d < 16, c = Nat.digitChar d := by
  rcases List.mem_append.1 h with h | h
  · exact ⟨0, by decide, (List.mem_replicate.1 h).2⟩
  · exact exists_digitChar_of_mem_toDigits h

lemma ofDigits?_digits (u : Uuid) : ofDigits? u.digits = some u := by
  rw [ofDigits?, if_pos u.length_digits, digits, hexNumber?_replicate_zero, hexNumber?_toDigits,
    Option.map_some, BitVec.ofNat_toNat]
  simp

/-- No identifier is written with a brace or a label. -/
lemma digitChar_ne_brace_and_label :
    ∀ d < 16, Nat.digitChar d ≠ '{' ∧ (Nat.digitChar d).toLower ≠ 'u' := by
  decide

/-- An identifier is read back from its text. -/
theorem ofText?_text (u : Uuid) : ofText? u.text = some u := by
  have hgroups : groups.foldr (· + ·) 0 = 32 := rfl
  have hread : ofHyphenated? (group groups u.digits) = some u := by
    rw [ofHyphenated?, ungroup?_group (by decide) (u.length_digits.trans hgroups.symm)]
    exact u.ofDigits?_digits
  have hlen : (group groups u.digits).length = 36 := by
    simp [groups, group, u.length_digits]
  rw [ofText?, text, String.toList_ofList]
  cases hcs : group groups u.digits with
  | nil =>
    rw [hcs] at hlen
    cases hlen
  | cons c cs =>
    have hmem : c ∈ u.digits := by
      have htake : (u.digits.take 8).length = 8 :=
        List.length_take_of_le (by rw [u.length_digits]; decide)
      have hfirst : u.digits.take 8 = c :: cs.take 7 := by
        rw [← List.take_succ_cons, ← hcs, groups, group]
        · exact (List.take_left' htake).symm
        · exact List.cons_ne_nil _ _
      refine List.mem_of_mem_take (i := 8) ?_
      rw [hfirst]
      exact List.mem_cons_self
    obtain ⟨d, hd, rfl⟩ := exists_digitChar_of_mem_digits hmem
    obtain ⟨hbrace, hlabel⟩ := digitChar_ne_brace_and_label d hd
    have hunlabel : unlabel? (d.digitChar :: cs) = none := by
      refine if_neg fun heq => hlabel ?_
      have hhead := congrArg List.head? heq
      exact Option.some.inj hhead
    rw [hcs] at hread hlen
    split
    · rename_i cs' heq
      exact absurd (List.head_eq_of_cons_eq heq) hbrace
    · rw [hunlabel]
      simp only [hlen, hread]
      rfl

end Uuid

end EntityModel
