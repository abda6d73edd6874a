import EntityModel.Proofs.Delivery

/-!
# Lines of the output

The line layout frames each record with a line break. A record has no byte of a line break in it,
neither from a character of its own nor as a part of a longer one, so splitting the output at these
bytes gives back the records.
-/

namespace EntityModel

/-- The byte of a line break. -/
def lineBreak : UInt8 :=
  10

/-! ### Bytes of characters -/

/-- Every byte of a character of more than one byte is at least 128. -/
lemma lineBreak_notMem_utf8EncodeChar {c : Char} (h : c ≠ '\n') :
    lineBreak ∉ String.utf8EncodeChar c := by
  have hcode : c.val.toNat ≠ 10 := fun heq => h (Char.toNat_inj.1 heq)
  have hbyte (n : Nat) : lineBreak = UInt8.ofNat n ↔ n % 256 = 10 := by
    rw [← UInt8.toNat_inj, UInt8.toNat_ofNat', lineBreak]
    exact eq_comm
  simp only [String.utf8EncodeChar]
  split_ifs
  all_goals
    simp only [List.mem_cons, List.not_mem_nil, or_false, hbyte]
    omega

lemma lineBreak_notMem_utf8 {cs : List Char} (h : '\n' ∉ cs) : lineBreak ∉ utf8 cs := by
  rw [utf8, List.mem_flatMap]
  rintro ⟨c, hc, hbyte⟩
  exact lineBreak_notMem_utf8EncodeChar (ne_of_mem_of_not_mem hc h) hbyte

/-- The compact text of a value takes one line. -/
lemma Json.lineBreak_notMem_compact (v : Json) : lineBreak ∉ utf8 v.compact.toList := by
  rw [Json.compact, String.toList_ofList]
  exact lineBreak_notMem_utf8 v.newline_notMem_chars

/-! ### Lines -/

section Lines

variable {α β : Type} [BEq β] [LawfulBEq β] {x : β} {line : α → List β} {as : List α}

/-- Lines that are each ended by a mark are what is found between the marks, and nothing is found
behind the last one. -/
lemma splitOn_flatMap_concat (h : ∀ a ∈ as, x ∉ line a) :
    (as.flatMap fun a => line a ++ [x]).splitOn x = as.map line ++ [[]] := by
  induction as with
  | nil => rfl
  | cons a as ih =>
    obtain ⟨ha, has⟩ := List.forall_mem_cons.1 h
    rw [List.flatMap_cons, List.append_assoc, List.singleton_append,
      List.splitOn_append_cons_self_of_not_mem ha, ih has, List.map_cons, List.cons_append]

lemma count_flatMap_concat (h : ∀ a ∈ as, x ∉ line a) :
    (as.flatMap fun a => line a ++ [x]).count x = as.length := by
  induction as with
  | nil => rfl
  | cons a as ih =>
    obtain ⟨ha, has⟩ := List.forall_mem_cons.1 h
    rw [List.flatMap_cons, List.count_append, List.count_append, List.count_eq_zero.2 ha,
      List.count_singleton_self, ih has, List.length_cons]
    omega

end Lines

namespace Layout

lemma bytes_lines (es : List Entity) :
    bytes .lines es = es.flatMap fun e => utf8 e.toJson.compact.toList ++ [lineBreak] := by
  have hline (e : Entity) : utf8 (e.toJson.chars ++ ['\n']) =
      utf8 e.toJson.compact.toList ++ [lineBreak] := by
    rw [utf8, List.flatMap_append, Json.compact, String.toList_ofList]
    rfl
  rw [bytes, chars_lines, framed, utf8, List.flatMap_assoc]
  exact congrArg (es.flatMap ·) (funext hline)

/-- Split at the line breaks, the lines of entities are their compact texts in order, and nothing
behind the last one. There are as many line breaks as entities, and none in the text of an
entity. -/
theorem splitOn_bytes_lines (es : List Entity) :
    (bytes .lines es).splitOn lineBreak =
        (es.map fun e => utf8 e.toJson.compact.toList) ++ [[]] ∧
      (bytes .lines es).count lineBreak = es.length ∧
      ∀ e ∈ es, lineBreak ∉ utf8 e.toJson.compact.toList := by
  have hlines : ∀ e ∈ es, lineBreak ∉ utf8 e.toJson.compact.toList :=
    fun e _ => e.toJson.lineBreak_notMem_compact
  rw [bytes_lines]
  exact ⟨splitOn_flatMap_concat hlines, count_flatMap_concat hlines, hlines⟩

end Layout

end EntityModel
