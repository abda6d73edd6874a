import EntityModel.Proofs.Json.Lines

/-!
# Arrays written one by one

A writer of an array gets the entities one by one and puts brackets, commas and, if it indents, line
breaks around texts that it makes of each entity alone. What it has written when it is closed is the
text of the whole array, and a line break.
-/

namespace EntityModel

namespace Json

/-- The text of an item with what stands before it in its array. -/
def itemChars (isPretty : Bool) (v : Json) : List Char :=
  if isPretty then newline 1 ++ v.indented 1 else v.chars

lemma itemsChars_cons (v : Json) (vs : List Json) :
    itemsChars (v :: vs) = itemChars false v ++ vs.flatMap fun w => ',' :: itemChars false w := by
  induction vs generalizing v with
  | nil => simp [itemsChars, itemChars]
  | cons w vs ih => simp [itemsChars, ih w, itemChars]

lemma indentedItems_one_cons (v : Json) (vs : List Json) :
    indentedItems 1 (v :: vs) =
      itemChars true v ++ vs.flatMap fun w => ',' :: itemChars true w := by
  induction vs generalizing v with
  | nil => simp [indentedItems, itemChars]
  | cons w vs ih => simp [indentedItems, ih w, itemChars]

end Json

namespace ArrayWriter

/-- What a writer has written. -/
def chars (w : ArrayWriter) : List Char :=
  w.written.flatMap Piece.chars

lemma chars_entityPiece (isPretty : Bool) (e : Entity) :
    (entityPiece isPretty e).chars = e.toJson.itemChars isPretty := by
  cases isPretty with
  | false => rfl
  | true =>
    change newline 1 ++ shiftLines (e.toJson.indented 0) = newline 1 ++ e.toJson.indented 1
    rw [Json.shiftLines_indented]

/-! ### Steps -/

section Write

variable (w : ArrayWriter) (e : Entity)

@[simp] lemma isPretty_write : (w.write e).isPretty = w.isPretty := rfl

@[simp] lemma isFirst_write : (w.write e).isFirst = false := rfl

lemma chars_write : (w.write e).chars =
    w.chars ++ (if w.isFirst then [] else [',']) ++ e.toJson.itemChars w.isPretty := by
  rw [← chars_entityPiece]
  cases h : w.isFirst <;> simp [write, chars, h, Piece.frame]

end Write

/-! ### Runs -/

/-- Entities that follow others are written with commas before them. -/
lemma chars_foldl_write {w : ArrayWriter} (h : w.isFirst = false) (es : List Entity) :
    (es.foldl write w).chars =
      w.chars ++ (es.map Entity.toJson).flatMap fun v => ',' :: v.itemChars w.isPretty := by
  induction es generalizing w with
  | nil => simp
  | cons e es ih => simp [ih (isFirst_write w e), chars_write, h]

lemma isFirst_foldl_write {w : ArrayWriter} (h : w.isFirst = false) (es : List Entity) :
    (es.foldl write w).isFirst = false := by
  induction es generalizing w with
  | nil => exact h
  | cons e es ih => exact ih (isFirst_write w e)

lemma isPretty_foldl_write (w : ArrayWriter) (es : List Entity) :
    (es.foldl write w).isPretty = w.isPretty := by
  induction es generalizing w with
  | nil => rfl
  | cons e es ih => exact ih (w.write e)

lemma chars_finish (w : ArrayWriter) : w.finish.flatMap Piece.chars =
    w.chars ++ (if w.isPretty && !w.isFirst then ['\n'] else []) ++ [']', '\n'] := by
  rw [finish]
  split_ifs with h <;> simp [chars, Piece.frame]

/-- What is written of one entity and more, from the opening of the array to its end. -/
lemma chars_finish_foldl_write (isPretty : Bool) (e : Entity) (es : List Entity) :
    ((e :: es).foldl write (new isPretty)).finish.flatMap Piece.chars =
      '[' :: (e.toJson.itemChars isPretty ++
        ((es.map Entity.toJson).flatMap fun v => ',' :: v.itemChars isPretty) ++
        (if isPretty then ['\n'] else []) ++ [']', '\n']) := by
  have hfirst := isFirst_write (new isPretty) e
  rw [List.foldl_cons, chars_finish, isFirst_foldl_write hfirst, isPretty_foldl_write,
    chars_foldl_write hfirst, chars_write, isPretty_write]
  simp [new, chars, Piece.frame]

end ArrayWriter

namespace Layout

/-- The text of generic forms: one line for each, or an array and a line break. -/
def listing : Layout → List Json → String
  | .lines, vs => String.join (vs.map fun v => v.compact ++ "\n")
  | .array, vs => (Json.array vs).compact ++ "\n"
  | .pretty, vs => (Json.array vs).pretty ++ "\n"

/-- What is written of entities is the text of their generic forms. -/
theorem text_eq_listing (layout : Layout) (es : List Entity) :
    layout.text es = layout.listing (es.map Entity.toJson) := by
  have hend : "\n" = String.ofList ['\n'] := rfl
  cases layout with
  | lines =>
    rw [← String.toList_inj, text, String.toList_ofList, chars, pieces, listing,
      String.toList_join, List.flatMap_assoc, List.map_map, List.flatMap_map]
    simp [Json.compact, Piece.record, Piece.frame]
  | array =>
    rw [text, listing, Json.compact, hend, ← String.ofList_append]
    cases es with
    | nil => rfl
    | cons e es =>
      rw [chars, pieces, ArrayWriter.chars_finish_foldl_write, List.map_cons, Json.chars,
        Json.itemsChars_cons]
      simp
  | pretty =>
    rw [text, listing, Json.pretty, hend, ← String.ofList_append]
    cases es with
    | nil => rfl
    | cons e es =>
      rw [chars, pieces, ArrayWriter.chars_finish_foldl_write, List.map_cons, Json.indented,
        Json.indentedItems_one_cons]
      · simp [newline]
      · exact List.cons_ne_nil _ _

/-- Whether it is indented or not, an array whose entities are written one by one is the text of the
array of their generic forms, and a line break. -/
theorem text_eq_arrayText (es : List Entity) :
    Layout.text .pretty es = (Json.array (es.map Entity.toJson)).pretty ++ "\n" ∧
      Layout.text .array es = (Json.array (es.map Entity.toJson)).compact ++ "\n" :=
  ⟨text_eq_listing .pretty es, text_eq_listing .array es⟩

end Layout

end EntityModel
