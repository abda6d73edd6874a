import EntityModel.Proofs.Entity.Composition
import EntityModel.Proofs.Expression.PathText

/-!
# Reading paths and evaluating them

A path can be read from an entity by its text, and it can be evaluated as an expression. Both come
to the same for every path of an expression, by its text, and for every text of a path that
expressions have words for, provided that it has no plus sign: reading takes one in front of an
index, expressions do not.
-/

namespace EntityModel

/-- What reading a value of any type gives: nothing where it is null. -/
def Value.present? (v : Value) : Option Value :=
  if v.isNull then none else some v

namespace Entity

variable {e : Entity} {text : String} {p P : Path}

lemma getByPath_any (h : Path.parse text = .ok P) :
    e.getByPath .any text = e.resolve P >>= fun v => pure v.present? := by
  rw [getByPath, h]
  refine Logged.bind_congr fun v _ => ?_
  rw [Value.present?]
  cases v.isNull <;> rfl

/-- Every path of what is parsed is read from its text, and reading its text from an entity is to
follow the path: with the same value, nothing standing for null, or the same error. -/
theorem getByPath_of_mem_paths {source : String} {x : Expression}
    (h : Expression.parse source = .ok x) (hp : p ∈ x.paths) :
    Path.parse p.text = .ok p ∧
      ∀ e : Entity, e.getByPath .any p.text = e.resolve p >>= fun v => pure v.present? := by
  have hparse := (Expression.plain_of_parse h p hp).parse_text
  exact ⟨hparse, fun e => getByPath_any hparse⟩

end Entity

/-- A person with two tags. -/
def exampleTagged : Entity :=
  ⟨examplePerson, [("tags", .list [.string "new", .string "old"])]⟩

/-- Blanks, zeros and a minus sign are no part of the text of a path. -/
theorem getByPath_of_mem_paths_of_exampleTagged :
    Expression.parse "tags [ -00 ]" = .ok (.path ⟨"tags[0]", [.field "tags", .index 0]⟩) ∧
      Path.parse "tags[0]" = .ok ⟨"tags[0]", [.field "tags", .index 0]⟩ ∧
      (exampleTagged.getByPath .any "tags[0]").result = .ok (some (.string "new")) := by
  have hnone : ∀ b ∈ ([] : List Char), isBlank b := List.all_eq_true.1 rfl
  have hspace : ∀ b ∈ [' '], isBlank b := List.all_eq_true.1 rfl
  have htags : Token.Spelled (.identifier "tags") "tags".toList :=
    .identifier rfl (List.all_eq_true.1 rfl)
  have hindex : Token.Spelled (.integer 0) "-00".toList :=
    .negative (by decide) (List.all_eq_true.1 rfl) rfl
  have hwritten : Token.Written [.identifier "tags", .openBracket, .integer 0, .closeBracket]
      "tags [ -00 ]".toList :=
    .cons hnone htags <| .cons hspace (.mark rfl) <| .cons hspace hindex <|
      .cons hspace (.mark rfl) <| .nil hnone
  have hderives : Derives (.path (.ofSegments [.field "tags", .index 0]))
      [.identifier "tags", .openBracket, .integer 0, .closeBracket] :=
    .path (.index (n := 0) (by decide) .nil)
  have hroots : ∀ p ∈ (Expression.path (.ofSegments [.field "tags", .index 0])).paths,
      p.root ∉ reservedWords := List.forall_mem_singleton.2 (by decide)
  have hparse : Expression.parse "tags [ -00 ]" =
      .ok (.path ⟨"tags[0]", [.field "tags", .index 0]⟩) :=
    Expression.parse_of_written hderives hroots hwritten
  have hvalue : (exampleTagged.resolve ⟨"tags[0]", [.field "tags", .index 0]⟩).result =
      .ok (.string "new") := by decide +kernel
  obtain ⟨htext, hread⟩ := Entity.getByPath_of_mem_paths hparse List.mem_cons_self
  refine ⟨hparse, htext, ?_⟩
  rw [hread]
  exact Logged.result_bind_of_ok hvalue _

/-! ### Texts of paths -/

namespace Entity

variable {e : Entity} {text : String} {p P : Path}

/-- What evaluating a text as a path of the same steps comes to, and what reading it comes to: the
same value, nothing standing for null, or both times an error. Each error quotes the path by its
own text, and is the same otherwise. -/
inductive ReadAlike (text canonical : String) :
    Except ExpressionError Value → Except EntityError (Option Value) → Prop
  | value (v : Value) : ReadAlike text canonical (.ok v) (.ok v.present?)
  | failure (cause : EntityError) : ReadAlike text canonical
      (.error (.resolution canonical cause)) (.error (cause.quoting text))

lemma ReadAlike.eq_of_ok {canonical : String} {v : Value}
    {read : Except EntityError (Option Value)} (h : ReadAlike text canonical (.ok v) read) :
    read = .ok v.present? := by
  cases h
  rfl

lemma result_evaluate_path (h : Expression.parse text = .ok (.path p)) :
    (evaluate text e).result = (e.resolve p).result.mapError (.resolution p.text) := by
  rw [evaluate, evaluateWith, Logged.result_bind_of_ok rfl, h]
  rfl

lemma resolve_quoting (h : Path.parse text = .ok P) :
    (e.resolve P).result =
      (e.resolve (.ofSegments P.segments)).result.mapError (.quoting text) := by
  obtain ⟨rfl, -⟩ := Path.parse_eq_ok_iff_spelled.1 h
  have hquoted := follow_quoting unquoted_compute (Path.ofSegments P.segments).text P.text e
    P.segments
  exact congrArg Logged.result hquoted

lemma readAlike_of_parse (h : Path.parse text = .ok P) {source : String}
    (hsource : Expression.parse source = .ok (.path (.ofSegments P.segments))) :
    ReadAlike text (Path.ofSegments P.segments).text (evaluate source e).result
      (e.getByPath .any text).result := by
  rw [result_evaluate_path hsource, getByPath_any h, Logged.result_bind, resolve_quoting h]
  cases (e.resolve (.ofSegments P.segments)).result with
  | ok v => exact .value v
  | error cause => exact .failure cause

/-- A path that expressions have words for is evaluated as it is read, by its canonical text, and by
its own text if that has no plus sign. A text with a plus sign is refused by expressions for the
first one in it. -/
theorem evaluate_text (h : Path.parse text = .ok P) (hP : P.Sayable) :
    (∀ e : Entity, ReadAlike text (Path.ofSegments P.segments).text
      (evaluate (Path.ofSegments P.segments).text e).result (e.getByPath .any text).result) ∧
    ('+' ∉ text.toList →
      Expression.parse text = .ok (.path (.ofSegments P.segments)) ∧
      ∀ e : Entity, ReadAlike text (Path.ofSegments P.segments).text
        (evaluate text e).result (e.getByPath .any text).result) ∧
    ('+' ∈ text.toList →
      Expression.parse text = .error (plusRefusal 0 text.toList) ∧
      ∀ e : Entity, (evaluate text e).result =
        .error (.unreadable text (plusRefusal 0 text.toList))) := by
  refine ⟨fun e => readAlike_of_parse h (Expression.parse_canonical h hP), ?_, ?_⟩
  · intro hplus
    have hparse := Expression.parse_of_plus_notMem h hP hplus
    exact ⟨hparse, fun e => readAlike_of_parse h hparse⟩
  · intro hplus
    have hparse := Expression.parse_of_plus_mem h hP hplus
    refine ⟨hparse, fun e => ?_⟩
    rw [evaluate, evaluateWith, Logged.result_bind_of_ok rfl, hparse]
    rfl

end Entity

/-- Both texts are read as the path to the second tag. -/
lemma parse_exampleTags :
    Path.parse "tags[01]" = .ok ⟨"tags[01]", [.field "tags", .index 1]⟩ ∧
      Path.parse "tags[+1]" = .ok ⟨"tags[+1]", [.field "tags", .index 1]⟩ := by
  have hname : Path.NameSpelled "tags".toList := ⟨by decide, List.all_eq_true.1 rfl⟩
  have hpart {i : Nat} {inside : List Char} (h : Path.IndexSpelled i inside) :
      Path.Spelled [.field "tags", .index i] ("tags".toList ++ '[' :: (inside ++ [']'])) := by
    have hpart := Path.PartSpelled.mk hname (.cons h .nil)
    rw [String.ofList_toList] at hpart
    exact .one hpart
  have hzero : Path.IndexSpelled 1 ['0', '1'] :=
    @Path.IndexSpelled.mk [] ['0', '1'] (.inl rfl) (by decide) (List.all_eq_true.1 rfl) (by decide)
  have hplus : Path.IndexSpelled 1 ['+', '1'] :=
    @Path.IndexSpelled.mk ['+'] ['1'] (.inr rfl) (by decide) (List.all_eq_true.1 rfl) (by decide)
  exact ⟨Path.parse_eq_ok_iff_spelled.2 ⟨rfl, hpart hzero⟩,
    Path.parse_eq_ok_iff_spelled.2 ⟨rfl, hpart hplus⟩⟩

lemma sayable_exampleTags (text : String) :
    Path.Sayable ⟨text, [.field "tags", .index 1]⟩ := by
  have hroot : "tags" ∉ reservedWords := by decide
  refine ⟨?_, hroot, ?_⟩
  · intro name hname c hc
    obtain rfl : name = "tags" := by simpa using hname
    cases hc
    exact .inl rfl
  · intro i hi
    obtain rfl : i = 1 := by simpa using hi
    decide

theorem evaluate_text_of_exampleTagged :
    Path.parse "tags[01]" = .ok ⟨"tags[01]", [.field "tags", .index 1]⟩ ∧
      Path.Sayable ⟨"tags[01]", [.field "tags", .index 1]⟩ ∧
      Expression.parse "tags[01]" = .ok (.path ⟨"tags[1]", [.field "tags", .index 1]⟩) ∧
      (Entity.evaluate "tags[01]" exampleTagged).result = .ok (.string "old") ∧
      (exampleTagged.getByPath .any "tags[01]").result = .ok (some (.string "old")) := by
  have hparse := parse_exampleTags.1
  have hsayable := sayable_exampleTags "tags[01]"
  have hplus : '+' ∉ "tags[01]".toList := by decide
  obtain ⟨hexpression, halike⟩ := (Entity.evaluate_text hparse hsayable).2.1 hplus
  have hvalue : (exampleTagged.resolve ⟨"tags[1]", [.field "tags", .index 1]⟩).result =
      .ok (.string "old") := by decide +kernel
  have hevaluate : (Entity.evaluate "tags[01]" exampleTagged).result = .ok (.string "old") := by
    rw [Entity.result_evaluate_path hexpression]
    exact congrArg (Except.mapError _) hvalue
  have hread := halike exampleTagged
  rw [hevaluate] at hread
  exact ⟨hparse, hsayable, hexpression, hevaluate, hread.eq_of_ok⟩

/-- An index with a plus sign is read, and is no part of an expression. -/
theorem evaluate_exampleTagged_refused :
    Path.parse "tags[+1]" = .ok ⟨"tags[+1]", [.field "tags", .index 1]⟩ ∧
      Path.Sayable ⟨"tags[+1]", [.field "tags", .index 1]⟩ ∧
      (exampleTagged.getByPath .any "tags[+1]").result = .ok (some (.string "old")) ∧
      Expression.parse "tags[+1]" = .error (.violation (.foreignChar '+' 5)) ∧
      (Entity.evaluate "tags[+1]" exampleTagged).result =
        .error (.unreadable "tags[+1]" (.violation (.foreignChar '+' 5))) := by
  have hparse := parse_exampleTags.2
  have hvalue : (exampleTagged.resolve ⟨"tags[+1]", [.field "tags", .index 1]⟩).result =
      .ok (.string "old") := by decide +kernel
  refine ⟨hparse, sayable_exampleTags _, ?_, by decide +kernel, by decide +kernel⟩
  rw [Entity.getByPath_any hparse]
  exact Logged.result_bind_of_ok hvalue _

end EntityModel
