import EntityModel.Proofs.Writer

/-!
# Sinks that fail

A sink that takes so many bytes and then fails has taken the first bytes of the output, and how the
writing fails tells where the first byte refused stands: within the compact text of an entity, or
elsewhere.
-/

namespace EntityModel

/-- The bytes of characters. -/
def utf8 (cs : List Char) : List UInt8 :=
  cs.flatMap String.utf8EncodeChar

lemma length_utf8_append (cs ds : List Char) :
    (utf8 (cs ++ ds)).length = (utf8 cs).length + (utf8 ds).length := by
  rw [utf8, List.flatMap_append, List.length_append, utf8, utf8]

/-! ### Pieces -/

/-- The first byte refused by a sink that takes so many bytes is in a piece. -/
inductive Refused : Nat → List Piece → Piece → Prop
  | here {limit p ps} : limit < p.bytes.length → Refused limit (p :: ps) p
  | later {limit p ps q} : Refused limit ps q → Refused (p.bytes.length + limit) (p :: ps) q

/-- The first byte refused is in a record. -/
def RecordRefused (limit : Nat) (ps : List Piece) : Prop :=
  ∃ p, p.isRecord ∧ Refused limit ps p

section Deliver

variable {reason : String} {limit : Nat} {ps : List Piece}

lemma written_deliver (reason : String) (limit : Nat) (ps : List Piece) :
    (deliver reason limit ps).written = (ps.flatMap Piece.bytes).take limit := by
  induction ps generalizing limit with
  | nil => rw [deliver, List.flatMap_nil, List.take_nil]
  | cons p ps ih =>
    rw [deliver, List.flatMap_cons, List.take_append]
    split
    · next hfits =>
      simp only [ih]
      rw [List.take_of_length_le hfits]
    · next hfull =>
      have hnone : limit - p.bytes.length = 0 := by omega
      rw [hnone, List.take_zero, List.append_nil]

lemma error_deliver_eq_none_iff :
    (deliver reason limit ps).error = none ↔ (ps.flatMap Piece.bytes).length ≤ limit := by
  induction ps generalizing limit with
  | nil => simp [deliver]
  | cons p ps ih =>
    rw [deliver, List.flatMap_cons, List.length_append]
    split
    · next hfits =>
      simp only [ih]
      omega
    · next hfull =>
      simp only [reduceCtorEq, false_iff]
      omega

/-- The writing fails within the piece of the first byte refused. -/
lemma error_deliver_eq_some_iff {cause : WriteError} :
    (deliver reason limit ps).error = some cause ↔
      ∃ p, Refused limit ps p ∧ p.failure reason = cause := by
  constructor
  · intro h
    induction ps generalizing limit with
    | nil => cases h
    | cons p ps ih =>
      rw [deliver] at h
      split at h
      · next hfits =>
        obtain ⟨q, hq, hcause⟩ := ih h
        have hlater := Refused.later (p := p) hq
        rw [Nat.add_sub_cancel' hfits] at hlater
        exact ⟨q, hlater, hcause⟩
      · next hfull =>
        cases h
        exact ⟨p, .here (Nat.lt_of_not_le hfull), rfl⟩
  · rintro ⟨p, h, rfl⟩
    induction h with
    | here hfull => rw [deliver, if_neg (Nat.not_le.2 hfull)]
    | @later limit p ps q _ ih =>
      rw [deliver, if_pos (Nat.le_add_right _ _), Nat.add_sub_cancel_left]
      exact ih

lemma error_deliver_eq_json_iff :
    (deliver reason limit ps).error = some (.json reason) ↔ RecordRefused limit ps := by
  rw [error_deliver_eq_some_iff]
  refine exists_congr fun p => and_comm.trans (and_congr_left fun _ => ?_)
  rw [Piece.failure]
  cases p.isRecord <;> simp

lemma error_deliver_eq_io_iff :
    (deliver reason limit ps).error = some (.io reason) ↔
      limit < (ps.flatMap Piece.bytes).length ∧ ¬ RecordRefused limit ps := by
  rw [← error_deliver_eq_json_iff, ← Nat.not_le, ← error_deliver_eq_none_iff]
  cases h : (deliver reason limit ps).error with
  | none => simp
  | some cause =>
    obtain ⟨p, -, rfl⟩ := error_deliver_eq_some_iff.1 h
    rw [Piece.failure]
    cases p.isRecord <;> simp

end Deliver

/-! ### Records -/

section Records

variable {limit : Nat} {p : Piece} {ps qs : List Piece}

lemma recordRefused_cons : RecordRefused limit (p :: ps) ↔
    (p.isRecord ∧ limit < p.bytes.length) ∨
      ∃ rest, limit = p.bytes.length + rest ∧ RecordRefused rest ps := by
  constructor
  · rintro ⟨q, hq, h⟩
    cases h with
    | here hfull => exact .inl ⟨hq, hfull⟩
    | later h => exact .inr ⟨_, rfl, q, hq, h⟩
  · rintro (⟨hp, hfull⟩ | ⟨rest, rfl, q, hq, h⟩)
    · exact ⟨p, hp, .here hfull⟩
    · exact ⟨q, hq, .later h⟩

lemma recordRefused_frame_cons (cs : List Char) : RecordRefused limit (.frame cs :: ps) ↔
    ∃ rest, limit = (utf8 cs).length + rest ∧ RecordRefused rest ps := by
  rw [recordRefused_cons]
  exact or_iff_right fun h => Bool.false_ne_true h.1

lemma not_recordRefused (hps : ∀ p ∈ ps, p.isRecord = false) : ¬ RecordRefused limit ps := by
  rintro ⟨p, hp, h⟩
  induction h with
  | here => exact Bool.false_ne_true ((hps _ List.mem_cons_self).symm.trans hp)
  | later _ ih => exact ih (fun q hq => hps q (List.mem_cons_of_mem _ hq)) hp

lemma recordRefused_append (hqs : ∀ q ∈ qs, q.isRecord = false) :
    RecordRefused limit (ps ++ qs) ↔ RecordRefused limit ps := by
  induction ps generalizing limit with
  | nil => exact iff_of_false (not_recordRefused hqs) (not_recordRefused (by simp))
  | cons p ps ih => simp only [List.cons_append, recordRefused_cons, ih]

/-- The compact texts of entities, each with some characters after it. -/
def framed (between : List Char) (es : List Entity) : List Char :=
  es.flatMap fun e => e.toJson.chars ++ between

/-- The pieces of the compact texts of entities, each with a piece of the frame after it. -/
def framedPieces (between : List Char) (es : List Entity) : List Piece :=
  es.flatMap fun e => [.record e, .frame between]

lemma framedPieces_cons (between : List Char) (e : Entity) (es : List Entity) :
    framedPieces between (e :: es) = .record e :: .frame between :: framedPieces between es :=
  rfl

lemma length_utf8_framed_cons (between : List Char) (e : Entity) (es : List Entity) :
    (utf8 (framed between (e :: es))).length =
      (utf8 e.toJson.chars).length + (utf8 between).length + (utf8 (framed between es)).length := by
  rw [framed, List.flatMap_cons, length_utf8_append, length_utf8_append, framed]

/-- The first byte refused is in a record if and only if it is in the compact text of an entity,
which stands after those of the entities before it. -/
lemma recordRefused_framedPieces {between : List Char} {es : List Entity} :
    RecordRefused limit (framedPieces between es) ↔ ∃ before e after, es = before ++ e :: after ∧
      (utf8 (framed between before)).length ≤ limit ∧
      limit < (utf8 (framed between before ++ e.toJson.chars)).length := by
  induction es generalizing limit with
  | nil =>
    refine iff_of_false (not_recordRefused (by simp [framedPieces])) ?_
    rintro ⟨before, e, after, h, -⟩
    simp at h
  | cons e es ih =>
    have hbytes : (Piece.record e).bytes = utf8 e.toJson.chars := rfl
    rw [framedPieces_cons, recordRefused_cons, hbytes]
    simp only [recordRefused_frame_cons, ih, length_utf8_append]
    -- a byte behind the first record and its frame is one of the rest, numbered from there
    constructor
    · rintro (⟨-, hfull⟩ | ⟨_, rfl, rest, rfl, before, e', after, rfl, hle, hlt⟩)
      · exact ⟨[], e, es, rfl, Nat.zero_le _, by simpa [framed, utf8] using hfull⟩
      · refine ⟨e :: before, e', after, rfl, ?_, ?_⟩ <;> rw [length_utf8_framed_cons] <;> omega
    · rintro ⟨before, e', after, heq, hle, hlt⟩
      cases before with
      | nil =>
        cases heq
        exact .inl ⟨rfl, by simpa [framed, utf8] using hlt⟩
      | cons b before =>
        cases heq
        rw [length_utf8_framed_cons] at hle hlt
        obtain ⟨rest, rfl⟩ := Nat.exists_eq_add_of_le hle
        refine .inr ⟨(utf8 between).length + ((utf8 (framed between before)).length + rest),
          by omega, _, rfl, before, e', after, rfl, ?_, ?_⟩ <;> omega

end Records

/-! ### Arrays -/

namespace ArrayWriter

lemma written_foldl_write {w : ArrayWriter} (h : w.isFirst = false) (es : List Entity) :
    (es.foldl write w).written =
      w.written ++ es.flatMap fun e => [.frame [','], entityPiece w.isPretty e] := by
  induction es generalizing w with
  | nil => simp
  | cons e es ih =>
    rw [List.foldl_cons, ih (isFirst_write w e), isPretty_write]
    simp [write, h]

lemma finish_foldl_write (isPretty : Bool) (e : Entity) (es : List Entity) :
    ((e :: es).foldl write (new isPretty)).finish =
      .frame ['['] :: (entityPiece isPretty e ::
        (es.flatMap fun e => [.frame [','], entityPiece isPretty e]) ++
        ((if isPretty then [.frame ['\n']] else []) ++ [.frame [']', '\n']])) := by
  have hfirst := isFirst_write (new isPretty) e
  rw [List.foldl_cons, finish, isFirst_foldl_write hfirst, isPretty_foldl_write,
    written_foldl_write hfirst, isPretty_write]
  simp [new, write]

/-- An array that indents has no records. -/
lemma isRecord_eq_false_of_mem_pieces {es : List Entity} :
    ∀ p ∈ Layout.pieces .pretty es, p.isRecord = false := by
  rw [Layout.pieces]
  cases es with
  | nil => simp [finish, new, Piece.frame]
  | cons e es =>
    have hitems : ∀ p ∈ es.flatMap fun e => [.frame [','], entityPiece true e],
        p.isRecord = false := by
      intro p hp
      obtain ⟨e, -, hp⟩ := List.mem_flatMap.1 hp
      simp only [List.mem_cons, List.not_mem_nil, or_false] at hp
      rcases hp with rfl | rfl <;> rfl
    have hend : ∀ p ∈ [Piece.frame ['\n'], .frame [']', '\n']], p.isRecord = false := by
      simp [Piece.frame]
    rw [finish_foldl_write]
    refine List.forall_mem_cons.2 ⟨rfl, List.forall_mem_append.2 ⟨?_, hend⟩⟩
    exact List.forall_mem_cons.2 ⟨rfl, hitems⟩

/-- But for the last one, the commas of an array stand after its records. -/
lemma records_append_comma (e : Entity) (es : List Entity) :
    .record e :: (es.flatMap fun e => [.frame [','], .record e]) ++ [.frame [',']] =
      framedPieces [','] (e :: es) := by
  induction es generalizing e with
  | nil => rfl
  | cons e' es ih => exact congrArg ([Piece.record e, .frame [',']] ++ ·) (ih e')

lemma recordRefused_array {limit : Nat} {es : List Entity} :
    RecordRefused limit (Layout.pieces .array es) ↔
      ∃ rest, limit = 1 + rest ∧ RecordRefused rest (framedPieces [','] es) := by
  have hopen : (utf8 ['[']).length = 1 := rfl
  cases es with
  | nil =>
    refine iff_of_false (not_recordRefused (by simp [Layout.pieces, finish, new, Piece.frame])) ?_
    rintro ⟨rest, -, h⟩
    exact not_recordRefused (by simp [framedPieces]) h
  | cons e es =>
    rw [Layout.pieces, finish_foldl_write, recordRefused_frame_cons, hopen]
    refine exists_congr fun rest => and_congr_right fun _ => ?_
    rw [recordRefused_append (by simp [Piece.frame]), ← records_append_comma,
      recordRefused_append (by simp [Piece.frame])]
    rfl

end ArrayWriter

/-! ### Layouts -/

namespace Layout

/-- The bytes that are written of entities. -/
def bytes (layout : Layout) (es : List Entity) : List UInt8 :=
  utf8 (layout.chars es)

/-- The bytes of the text of the generic forms of entities. -/
def listedBytes (layout : Layout) (es : List Entity) : List UInt8 :=
  utf8 (layout.listing (es.map Entity.toJson)).toList

/-- What stands before the compact text of an entity, given the entities before it. An indented
array has no compact texts of entities. -/
def leading? : Layout → List Entity → Option (List Char)
  | .lines, before => some (framed ['\n'] before)
  | .array, before => some ('[' :: framed [','] before)
  | .pretty, _ => none

/-- The byte of a number is in the compact text of an entity, where this stands in the text of all
generic forms. -/
def InRecord (layout : Layout) (es : List Entity) (i : Nat) : Prop :=
  ∃ before e after front, es = before ++ e :: after ∧ layout.leading? before = some front ∧
    front ++ e.toJson.chars <+: (layout.listing (es.map Entity.toJson)).toList ∧
    (utf8 front).length ≤ i ∧ i < (utf8 (front ++ e.toJson.chars)).length

lemma toList_listing (layout : Layout) (es : List Entity) :
    (layout.listing (es.map Entity.toJson)).toList = layout.chars es := by
  rw [← text_eq_listing, text, String.toList_ofList]

lemma flatMap_bytes_pieces (layout : Layout) (es : List Entity) :
    (layout.pieces es).flatMap Piece.bytes = layout.listedBytes es := by
  rw [listedBytes, toList_listing]
  exact (List.flatMap_assoc ..).symm

lemma chars_lines (es : List Entity) : chars .lines es = framed ['\n'] es := by
  rw [chars, pieces, List.flatMap_assoc, framed]
  simp [Piece.record, Piece.frame]

lemma isPrefix_framed {b e : Entity} {es before after : List Entity}
    (h : b :: es = before ++ e :: after) :
    framed [','] before ++ e.toJson.chars <+:
      b.toJson.chars ++ es.flatMap fun e => ',' :: e.toJson.chars := by
  induction before generalizing b es with
  | nil =>
    cases h
    exact List.prefix_append _ _
  | cons c before ih =>
    rw [List.cons_append] at h
    obtain ⟨rfl, rfl⟩ := List.cons.inj h
    obtain ⟨d, ds, hds⟩ : ∃ d ds, before ++ e :: after = d :: ds :=
      List.exists_cons_of_ne_nil (by simp)
    have hprefix := ih hds.symm
    rw [hds, List.flatMap_cons, framed, List.flatMap_cons]
    simpa [framed] using hprefix

/-- The compact text of an entity stands in the output behind what leads to it. -/
lemma isPrefix_leading {layout : Layout} {before after : List Entity} {e : Entity}
    {front : List Char} (h : layout.leading? before = some front) :
    front ++ e.toJson.chars <+:
      (layout.listing ((before ++ e :: after).map Entity.toJson)).toList := by
  rw [toList_listing]
  cases layout with
  | lines =>
    cases h
    rw [chars_lines, framed, framed, List.flatMap_append, List.flatMap_cons]
    simp
  | array =>
    cases h
    obtain ⟨b, es, hes⟩ : ∃ b es, before ++ e :: after = b :: es :=
      List.exists_cons_of_ne_nil (by simp)
    have hchars : chars .array (b :: es) =
        '[' :: ((b.toJson.chars ++ es.flatMap fun e => ',' :: e.toJson.chars) ++ [']', '\n']) := by
      rw [chars, pieces, ArrayWriter.chars_finish_foldl_write]
      simp [Json.itemChars, List.flatMap_map]
    rw [hes, hchars, List.cons_append, List.prefix_cons_inj]
    exact (isPrefix_framed hes.symm).trans (List.prefix_append _ _)
  | pretty => cases h

lemma recordRefused_iff_inRecord {layout : Layout} {es : List Entity} {limit : Nat} :
    RecordRefused limit (layout.pieces es) ↔ layout.InRecord es limit := by
  have hopen (cs : List Char) : (utf8 ('[' :: cs)).length = 1 + (utf8 cs).length :=
    length_utf8_append ['['] cs
  cases layout with
  | lines =>
    refine recordRefused_framedPieces.trans ⟨?_, ?_⟩
    · rintro ⟨before, e, after, rfl, hle, hlt⟩
      exact ⟨before, e, after, _, rfl, rfl, isPrefix_leading rfl, hle, hlt⟩
    · rintro ⟨before, e, after, front, rfl, hfront, -, hle, hlt⟩
      cases hfront
      exact ⟨before, e, after, rfl, hle, hlt⟩
  | array =>
    rw [ArrayWriter.recordRefused_array]
    simp only [recordRefused_framedPieces]
    constructor
    · rintro ⟨rest, rfl, before, e, after, rfl, hle, hlt⟩
      refine ⟨before, e, after, _, rfl, rfl, isPrefix_leading rfl, ?_, ?_⟩
      · rw [hopen]
        omega
      · rw [List.cons_append, hopen]
        omega
    · rintro ⟨before, e, after, front, rfl, hfront, -, hle, hlt⟩
      cases hfront
      rw [hopen] at hle
      rw [List.cons_append, hopen] at hlt
      obtain ⟨rest, rfl⟩ := Nat.exists_eq_add_of_le (Nat.le_of_add_right_le hle)
      exact ⟨rest, rfl, before, e, after, rfl, by omega, by omega⟩
  | pretty =>
    refine iff_of_false (not_recordRefused ArrayWriter.isRecord_eq_false_of_mem_pieces) ?_
    rintro ⟨_, _, _, _, -, h, -⟩
    cases h

/-- A sink that takes so many bytes takes the first ones of the text of the generic forms, and all
of them if and only if the writing succeeds. Otherwise it fails within a record where the first byte
refused is in the compact text of an entity, and elsewhere in every other case. -/
theorem deliver_pieces (layout : Layout) (es : List Entity) (reason : String) (limit : Nat) :
    (deliver reason limit (layout.pieces es)).written = (layout.listedBytes es).take limit ∧
      ((deliver reason limit (layout.pieces es)).error = none ↔
        (layout.listedBytes es).length ≤ limit) ∧
      ((deliver reason limit (layout.pieces es)).error = some (.json reason) ↔
        layout.InRecord es limit) ∧
      ((deliver reason limit (layout.pieces es)).error = some (.io reason) ↔
        limit < (layout.listedBytes es).length ∧ ¬ layout.InRecord es limit) := by
  rw [← flatMap_bytes_pieces, ← recordRefused_iff_inRecord]
  exact ⟨written_deliver _ _ _, error_deliver_eq_none_iff, error_deliver_eq_json_iff,
    error_deliver_eq_io_iff⟩

end Layout

/-! An entity without values has the compact text of two braces. A sink of one byte refuses the
second brace, and one of two bytes the line break. -/

example (s : Schema) : deliver "full" 1 (Layout.lines.pieces [⟨s, []⟩]) =
    ⟨[123], some (.json "full")⟩ := rfl

example (s : Schema) : deliver "full" 2 (Layout.lines.pieces [⟨s, []⟩]) =
    ⟨[123, 125], some (.io "full")⟩ := rfl

end EntityModel
