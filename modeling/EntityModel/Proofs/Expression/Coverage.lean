import EntityModel.Proofs.Expression.Scanning

/-!
# What tokens cover

A text that is cut into tokens is made of their spellings and of blanks: no character is lost or
taken twice. The offsets of the tokens ascend to the length of the text, and each lies between two
characters.
-/

namespace EntityModel

namespace Token

/-! ### Places of a text -/

/-- Characters that stand in a text at a byte offset. -/
def StandsAt (source : String) (offset : Nat) (cs : List Char) : Prop :=
  ∃ before after, source = before ++ String.ofList cs ++ after ∧ before.utf8ByteSize = offset

lemma byteWidth_eq_utf8ByteSize (cs : List Char) :
    byteWidth cs = (String.ofList cs).utf8ByteSize := by
  induction cs with
  | nil => rfl
  | cons c cs ih =>
    rw [byteWidth_cons, ih, String.ofList_cons, String.utf8ByteSize_append,
      String.utf8ByteSize_singleton]

lemma byteWidth_toList (s : String) : byteWidth s.toList = s.utf8ByteSize := by
  rw [byteWidth_eq_utf8ByteSize, String.ofList_toList]

lemma eq_nil_of_byteWidth {cs : List Char} (h : byteWidth cs = 0) : cs = [] := by
  cases cs with
  | nil => rfl
  | cons c cs =>
    have hc := c.utf8Size_pos
    rw [byteWidth_cons] at h
    omega

section StandsAt

variable {source : String} {offset : Nat} {cs : List Char}

lemma standsAt_iff : StandsAt source offset cs ↔
    ∃ front back, source.toList = front ++ (cs ++ back) ∧ byteWidth front = offset := by
  constructor
  · rintro ⟨before, after, rfl, rfl⟩
    refine ⟨before.toList, after.toList, ?_, byteWidth_toList before⟩
    rw [String.toList_append, String.toList_append, String.toList_ofList, List.append_assoc]
  · rintro ⟨front, back, hsource, rfl⟩
    refine ⟨String.ofList front, String.ofList back, ?_, (byteWidth_eq_utf8ByteSize front).symm⟩
    rw [← String.toList_inj, hsource]
    simp

/-- What stands in a text begins between two of its characters. -/
lemma StandsAt.isValid (h : StandsAt source offset cs) :
    String.Pos.Raw.IsValid source ⟨offset⟩ := by
  obtain ⟨before, after, rfl, rfl⟩ := h
  apply String.Pos.Raw.isValid_iff_exists_append.2
  exact ⟨before, String.ofList cs ++ after, String.append_assoc .., rfl⟩

lemma StandsAt.add_le (h : StandsAt source offset cs) :
    offset + byteWidth cs ≤ source.utf8ByteSize := by
  obtain ⟨before, after, rfl, rfl⟩ := h
  rw [String.utf8ByteSize_append, String.utf8ByteSize_append, byteWidth_eq_utf8ByteSize]
  omega

/-- Of two starts of a text, the one with fewer bytes is the start of the other. -/
lemma isPrefix_of_byteWidth_le {front front' : List Char} (h : front <+: cs) (h' : front' <+: cs)
    (hle : byteWidth front ≤ byteWidth front') : front <+: front' := by
  rcases List.prefix_or_prefix_of_prefix h h' with hprefix | ⟨more, rfl⟩
  · exact hprefix
  · rw [byteWidth_append] at hle
    obtain rfl := eq_nil_of_byteWidth (show byteWidth more = 0 by omega)
    simp

/-- A character that stands within some part of a text is one of that part. -/
lemma mem_of_standsAt {front inside back : List Char} {c : Char}
    (hsource : source.toList = front ++ (inside ++ back)) (h : StandsAt source offset [c])
    (hle : byteWidth front ≤ offset) (hlt : offset < byteWidth front + byteWidth inside) :
    c ∈ inside := by
  obtain ⟨front', back', hsource', rfl⟩ := standsAt_iff.1 h
  have hprefix : front <+: front' :=
    isPrefix_of_byteWidth_le ⟨_, hsource.symm⟩ ⟨_, hsource'.symm⟩ hle
  obtain ⟨between, rfl⟩ := hprefix
  rw [byteWidth_append] at hlt
  rw [hsource, List.append_assoc] at hsource'
  have hrest : inside ++ back = between ++ ([c] ++ back') := List.append_cancel_left hsource'
  have hprefix : between <+: inside :=
    isPrefix_of_byteWidth_le ⟨_, hrest.symm⟩ (List.prefix_append inside back) (by omega)
  obtain ⟨more, rfl⟩ := hprefix
  rw [List.append_assoc] at hrest
  have hmore : more ++ back = [c] ++ back' := List.append_cancel_left hrest
  cases more with
  | nil =>
    rw [List.append_nil] at hlt
    omega
  | cons d more =>
    cases hmore
    simp

end StandsAt

/-! ### Pieces -/

/-- A token in its place, with the spelling that it has there. -/
structure Piece where
  lexeme : Lexeme
  spelling : List Char

/-- The offset of what follows a piece. -/
def Piece.stop (p : Piece) : Nat :=
  p.lexeme.offset + (String.ofList p.spelling).utf8ByteSize

/-- A text, from an offset on, is made of pieces one after another and of blanks. -/
structure MadeOf (source : String) (start : Nat) (pieces : List Piece) : Prop where
  /-- Every piece spells its token. -/
  spelled : ∀ p ∈ pieces, Spelled p.lexeme.token p.spelling
  /-- Every piece stands in the text at its offset. -/
  stands : ∀ p ∈ pieces, start ≤ p.lexeme.offset ∧ StandsAt source p.lexeme.offset p.spelling
  /-- No two pieces overlap. -/
  apart : pieces.Pairwise fun p q => p.stop ≤ q.lexeme.offset
  /-- Every character that belongs to no piece is a blank. -/
  blank : ∀ offset c, start ≤ offset → StandsAt source offset [c] →
    isBlank c ∨ ∃ p ∈ pieces, p.lexeme.offset ≤ offset ∧ offset < p.stop

section MadeOf

variable {source : String} {start : Nat} {front bs cs text : List Char} {pieces : List Piece}

lemma madeOf_nil (hsource : source.toList = front ++ bs) (hbs : ∀ b ∈ bs, isBlank b) :
    MadeOf source (byteWidth front) [] := by
  refine ⟨by simp, by simp, List.Pairwise.nil, fun offset c hle hc => .inl (hbs c ?_)⟩
  have hlt := hc.add_le
  have hsize := congrArg byteWidth hsource
  have hpos := c.utf8Size_pos
  rw [byteWidth_toList, byteWidth_append] at hsize
  rw [byteWidth_singleton] at hlt
  have hsource : source.toList = front ++ (bs ++ []) := by rwa [List.append_nil]
  exact mem_of_standsAt hsource hc hle (by omega)

lemma MadeOf.cons {t : Token} (h : MadeOf source (byteWidth (front ++ bs ++ cs)) pieces)
    (hsource : source.toList = front ++ bs ++ cs ++ text) (hbs : ∀ b ∈ bs, isBlank b)
    (hspelled : Spelled t cs) :
    MadeOf source (byteWidth front) (⟨⟨t, byteWidth (front ++ bs)⟩, cs⟩ :: pieces) := by
  have hstop : Piece.stop ⟨⟨t, byteWidth (front ++ bs)⟩, cs⟩ = byteWidth (front ++ bs ++ cs) := by
    rw [Piece.stop, ← byteWidth_eq_utf8ByteSize, ← byteWidth_append]
  have hwidth := byteWidth_append front bs
  have hwidth' := byteWidth_append (front ++ bs) cs
  refine ⟨List.forall_mem_cons.2 ⟨hspelled, h.spelled⟩, List.forall_mem_cons.2 ⟨?_, ?_⟩,
    List.pairwise_cons.2 ⟨?_, h.apart⟩, ?_⟩
  · refine ⟨?_, standsAt_iff.2 ⟨front ++ bs, text, ?_, rfl⟩⟩
    · show byteWidth front ≤ byteWidth (front ++ bs)
      omega
    · rw [hsource, List.append_assoc]
  · intro p hp
    obtain ⟨hle, hstands⟩ := h.stands p hp
    exact ⟨by omega, hstands⟩
  · intro p hp
    rw [hstop]
    exact (h.stands p hp).1
  -- A character stands among the blanks, in the first piece, or behind it.
  · intro offset c hle hc
    rcases Nat.lt_or_ge offset (byteWidth (front ++ bs)) with hlt | hge
    · have hinside : source.toList = front ++ (bs ++ (cs ++ text)) := by
        rw [hsource, List.append_assoc, List.append_assoc]
      exact .inl (hbs c (mem_of_standsAt hinside hc hle (by omega)))
    · rcases Nat.lt_or_ge offset (byteWidth (front ++ bs ++ cs)) with hlt | hge'
      · exact .inr ⟨_, List.mem_cons_self, hge, by rwa [hstop]⟩
      · rcases h.blank offset c hge' hc with hblank | ⟨p, hp, hin⟩
        · exact .inl hblank
        · exact .inr ⟨p, List.mem_cons_of_mem _ hp, hin⟩

/-- Where tokens stand in a text at their offsets, it is made of their spellings. -/
lemma exists_madeOf_of_placed {offset : Nat} {ts : List Lexeme} (h : Placed offset ts text)
    (hsource : source.toList = front ++ text) (hoffset : byteWidth front = offset) :
    ∃ pieces, pieces.map (·.lexeme) = ts ∧ MadeOf source offset pieces := by
  induction h generalizing front with
  | nil hbs =>
    subst hoffset
    exact ⟨[], rfl, madeOf_nil hsource hbs⟩
  | @cons offset bs t cs ts text hbs hspelled _ ih =>
    subst hoffset
    have hfront : source.toList = front ++ bs ++ cs ++ text := by
      rw [hsource, List.append_assoc, List.append_assoc]
    have hwidth : byteWidth (front ++ bs ++ cs) =
        byteWidth front + byteWidth bs + byteWidth cs := by
      rw [byteWidth_append, byteWidth_append]
    obtain ⟨pieces, hpieces, hmade⟩ := ih hfront hwidth
    rw [← hwidth] at hmade
    rw [← byteWidth_append]
    refine ⟨_, ?_, hmade.cons hfront hbs hspelled⟩
    rw [List.map_cons, hpieces]

lemma spelling_ne_nil {t : Token} (h : Spelled t cs) : cs ≠ [] := by
  cases h with
  | natural hne => exact hne
  | _ => exact List.cons_ne_nil _ _

/-- The offsets of the tokens of a text, and its length at their end. The end of a text is no token
here but the end of the list, and a fault at the end is reported at that length. -/
def offsets (source : String) (ts : List Lexeme) : List Nat :=
  ts.map (·.offset) ++ [source.utf8ByteSize]

lemma MadeOf.lt_stop (h : MadeOf source start pieces) {p : Piece} (hp : p ∈ pieces) :
    p.lexeme.offset < p.stop := by
  have hne := mt eq_nil_of_byteWidth (spelling_ne_nil (h.spelled p hp))
  rw [Piece.stop, ← byteWidth_eq_utf8ByteSize]
  omega

lemma MadeOf.stop_le (h : MadeOf source start pieces) {p : Piece} (hp : p ∈ pieces) :
    p.stop ≤ source.utf8ByteSize := by
  rw [Piece.stop, ← byteWidth_eq_utf8ByteSize]
  exact (h.stands p hp).2.add_le

/-- The offsets ascend, as no piece is empty and no two overlap. -/
lemma MadeOf.pairwise_offsets (h : MadeOf source start pieces) :
    (offsets source (pieces.map (·.lexeme))).Pairwise (· < ·) := by
  rw [offsets, List.map_map, List.pairwise_append]
  refine ⟨List.pairwise_map.2 ?_, List.pairwise_singleton _ _, ?_⟩
  · exact h.apart.imp_of_mem fun hp _ hle => Nat.lt_of_lt_of_le (h.lt_stop hp) hle
  · intro offset hoffset size hsize
    obtain ⟨p, hp, rfl⟩ := List.mem_map.1 hoffset
    obtain rfl := List.mem_singleton.1 hsize
    exact Nat.lt_of_lt_of_le (h.lt_stop hp) (h.stop_le hp)

lemma MadeOf.isValid_offsets (h : MadeOf source start pieces) :
    ∀ offset ∈ offsets source (pieces.map (·.lexeme)),
      String.Pos.Raw.IsValid source ⟨offset⟩ := by
  intro offset hoffset
  rw [offsets, List.map_map] at hoffset
  rcases List.mem_append.1 hoffset with hoffset | hoffset
  · obtain ⟨p, hp, rfl⟩ := List.mem_map.1 hoffset
    exact (h.stands p hp).2.isValid
  · obtain rfl := List.mem_singleton.1 hoffset
    exact String.Pos.Raw.isValid_rawEndPos

end MadeOf

end Token

end EntityModel
