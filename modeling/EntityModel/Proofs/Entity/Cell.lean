import EntityModel.Proofs.Entity.Shape

/-!
# Cells

An entity is a row of independent cells, one for each stored attribute. A cell starts as the empty
list if the attribute is a list, and unset otherwise. Whether an operation is accepted is for the
schema alone to say; a refused operation changes nothing, and an accepted one changes its own cell,
so what a cell holds after a run is what the accepted operations on it make of its start.
-/

namespace EntityModel

/-- Whether a name is that of a list attribute. -/
def Schema.isList (s : Schema) (name : String) : Bool :=
  (s.attribute? name).any fun a => a.type.isList

/-! ### The life of a cell -/

namespace Cell

/-- What a cell holds before any operation. -/
def start (isList : Bool) : Option Value :=
  if isList then some (.list []) else none

/-- What an accepted operation makes of a cell: it is overwritten, one element longer at the end, or
as at the start. -/
def step (isList : Bool) (cell : Option Value) : Operation → Option Value
  | .set _ v => if isList && v.isNull then some (.list []) else some v
  | .add _ v =>
    match cell with
    | some (.list items) => some (.list (items ++ [v]))
    | _ => cell
  | .unset _ => start isList

/-- What operations make of a cell, in order. -/
def replay (isList : Bool) (cell : Option Value) (ops : List Operation) : Option Value :=
  ops.foldl (step isList) cell

end Cell

/-- The operations of a run that are accepted, in order. -/
def Entity.accepted (e : Entity) : List Operation → List Operation
  | [] => []
  | op :: ops =>
    match e.perform op with
    | (.ok _, e) => op :: e.accepted ops
    | (.error _, e) => e.accepted ops

lemma Schema.start?_eq (s : Schema) (name : String) :
    s.start? name = Cell.start (s.isList name) := by
  unfold start? isList Cell.start
  cases s.attribute? name <;> rfl

/-- In a cell of a list attribute stands a list, so nothing is lost where an element is added. -/
lemma Operation.cell_eq_step {op : Operation} {type : AttributeType} {cell : Option Value}
    (hop : op.AcceptedBy type) (hcell : type.isList → ∃ items, cell = some (.list items)) :
    op.cell type cell = Cell.step type.isList cell op := by
  cases op with
  | set name v =>
    simp only [Operation.cell, Cell.step, AttributeType.normalize]
    split_ifs <;> rfl
  | add name v =>
    obtain ⟨items, rfl⟩ := hcell hop.1
    rfl
  | unset name => rfl

namespace Entity

variable {e : Entity}

/-! ### Runs -/

lemma accepted_eq_filter (e : Entity) (ops : List Operation) :
    e.accepted ops = ops.filter fun op => (op.target e.schema).toBool := by
  induction ops generalizing e with
  | nil => rfl
  | cons op ops ih =>
    rw [accepted, List.filter_cons]
    cases ht : op.target e.schema with
    | error cause =>
      rw [perform_of_error ht]
      exact ih e
    | ok a =>
      rw [perform_of_ok ht]
      simp only [ih, schema_write]
      rfl

lemma exists_list_of_consistent (h : e.Consistent) {name : String} {a : Attribute}
    (ha : e.schema.attribute? name = some a) (hl : a.type.isList) :
    ∃ items, e.stored? name = some (.list items) := by
  obtain ⟨hmem, rfl⟩ := Schema.attribute?_eq_some_iff.1 ha
  obtain ⟨v, hv⟩ := Option.isSome_iff_exists.1 (h.lists a hmem hl)
  obtain ⟨items, rfl, -⟩ := (AttributeType.admits_iff_of_isList hl).1 (h.admitted a hmem v hv)
  exact ⟨items, hv⟩

lemma stored?_perform_self (h : e.Consistent) {op : Operation} {a : Attribute}
    (ht : op.target e.schema = .ok a) :
    (e.perform op).2.stored? op.name =
      Cell.step (e.schema.isList op.name) (e.stored? op.name) op := by
  obtain ⟨-, ha, hacc⟩ := Operation.target_eq_ok_iff.1 ht
  have hl : e.schema.isList op.name = a.type.isList := by rw [Schema.isList, ha, Option.any_some]
  rw [perform_of_ok ht, stored?_write, if_pos rfl, hl]
  exact Operation.cell_eq_step hacc (exists_list_of_consistent h ha)

lemma stored?_perform_of_ne {op : Operation} {name : String} (h : op.name ≠ name) :
    (e.perform op).2.stored? name = e.stored? name := by
  cases ht : op.target e.schema with
  | error cause => rw [perform_of_error ht]
  | ok a => rw [perform_of_ok ht, stored?_write, if_neg h]

/-- A cell holds what the accepted operations on its attribute have made of it. -/
theorem stored?_after (h : e.Consistent) (ops : List Operation) (name : String) :
    (e.after ops).stored? name =
      Cell.replay (e.schema.isList name) (e.stored? name)
        ((e.accepted ops).filter fun op => op.name = name) := by
  induction ops generalizing e with
  | nil => rfl
  | cons op ops ih =>
    rw [after_cons, ih (consistent_perform h op), schema_perform, accepted_eq_filter,
      accepted_eq_filter, schema_perform, List.filter_cons]
    cases ht : op.target e.schema with
    | error cause =>
      rw [perform_of_error ht]
      rfl
    | ok a =>
      simp only [Except.toBool, if_true, List.filter_cons]
      by_cases hname : op.name = name
      · subst hname
        rw [stored?_perform_self h ht]
        simp [Cell.replay]
      · rw [stored?_perform_of_ne hname]
        simp [hname]

lemma ext_stored? {e' : Entity} (hs : e.schema = e'.schema) (h : Dict.Sorted e.store)
    (h' : Dict.Sorted e'.store) (heq : ∀ name, e.stored? name = e'.stored? name) : e = e' := by
  obtain ⟨s, store⟩ := e
  obtain ⟨s', store'⟩ := e'
  obtain rfl : s = s' := hs
  obtain rfl : store = store' := Dict.ext_get? h h' heq
  rfl

/-- Operations on different attributes commute. -/
theorem after_swap (h : e.Consistent) {op op' : Operation} (hne : op.name ≠ op'.name) :
    e.after [op, op'] = e.after [op', op] := by
  refine ext_stored? (by simp) (consistent_after h _).sorted (consistent_after h _).sorted ?_
  intro name
  rw [stored?_after h, stored?_after h, accepted_eq_filter, accepted_eq_filter,
    List.filter_filter, List.filter_filter]
  congr 1
  by_cases h₁ : op.name = name
  · have h₂ : op'.name ≠ name := fun h₂ => hne (h₁.trans h₂.symm)
    simp [List.filter_cons, h₁, h₂]
  · by_cases h₂ : op'.name = name <;> simp [List.filter_cons, h₁, h₂]

/-- The answer of an operation is for the schema alone to give. -/
lemma answer_perform (e : Entity) (op : Operation) :
    (e.perform op).1 = (op.target e.schema).map fun _ => () := by
  cases ht : op.target e.schema with
  | error cause => rw [perform_of_error ht]; rfl
  | ok a => rw [perform_of_ok ht]; rfl

/-- Operations act on independent cells: whether one is accepted depends on the schema only, a
refused one changes nothing, and a run leaves in each cell what the accepted operations on it, in
order, make of its start. An accepted addition finds a list and makes it one element longer, and
operations on different attributes commute. -/
theorem operations_act_on_cells (s : Schema) :
    (∀ (e e' : Entity) (op : Operation), e.schema = s → e'.schema = s →
      (e.perform op).1 = (e'.perform op).1) ∧
    (∀ (e : Entity) (op : Operation) (cause : EntityError), e.schema = s →
      (e.perform op).1 = .error cause → (e.perform op).2 = e) ∧
    (∀ (ops : List Operation) (name : String),
      ((new s).after ops).stored? name =
        Cell.replay (s.isList name) (Cell.start (s.isList name))
          (((new s).accepted ops).filter fun op => op.name = name)) ∧
    (∀ (ops : List Operation) (name : String) (v : Value),
      (((new s).after ops).perform (.add name v)).1 = .ok () →
      ∃ items, ((new s).after ops).stored? name = some (.list items) ∧
        ((new s).after (ops ++ [.add name v])).stored? name = some (.list (items ++ [v]))) ∧
    (∀ (ops : List Operation) (op op' : Operation), op.name ≠ op'.name →
      (new s).after (ops ++ [op, op']) = (new s).after (ops ++ [op', op])) := by
  refine ⟨?_, ?_, ?_, ?_, ?_⟩
  · intro e e' op he he'
    rw [answer_perform, answer_perform, he, he']
  · intro e op cause he herr
    cases ht : op.target e.schema with
    | error cause' => rw [perform_of_error ht]
    | ok a =>
      rw [perform_of_ok ht] at herr
      cases herr
  · intro ops name
    rw [stored?_after (consistent_new s), stored?_new, Schema.start?_eq, schema_new]
  · intro ops name v hok
    have hc := consistent_after (consistent_new s) ops
    cases ht : (Operation.add name v).target ((new s).after ops).schema with
    | error cause =>
      rw [perform_of_error ht] at hok
      cases hok
    | ok a =>
      obtain ⟨-, ha, hacc⟩ := Operation.target_eq_ok_iff.1 ht
      obtain ⟨items, hitems⟩ := exists_list_of_consistent hc ha hacc.1
      refine ⟨items, hitems, ?_⟩
      rw [after_append, after_cons, after_nil]
      have := stored?_perform_self hc ht
      rw [show (Operation.add name v).name = name from rfl] at this hitems
      rw [this, hitems]
      rfl
  · intro ops op op' hne
    rw [after_append, after_append]
    exact after_swap (consistent_after (consistent_new s) ops) hne

end Entity

theorem operations_act_on_cells_of_examplePerson :
    ((Entity.new examplePerson).perform (.add "tags" .null)).1 =
      (((Entity.new examplePerson).after exampleOperations).perform (.add "tags" .null)).1 ∧
    ((Entity.new examplePerson).perform (.set "label" .null)).2 = Entity.new examplePerson ∧
    ((Entity.new examplePerson).after exampleOperations).stored? "name" = some (.string "Ann") ∧
    (∃ items, ((Entity.new examplePerson).after exampleOperations).stored? "tags" =
        some (.list items) ∧
      ((Entity.new examplePerson).after (exampleOperations ++ [.add "tags" (.string "x")])).stored?
        "tags" = some (.list (items ++ [.string "x"]))) ∧
    (Entity.new examplePerson).after (exampleOperations ++ [.unset "tags", .unset "home"]) =
      (Entity.new examplePerson).after (exampleOperations ++ [.unset "home", .unset "tags"]) := by
  obtain ⟨answer, refusal, replay, append, swap⟩ := Entity.operations_act_on_cells examplePerson
  refine ⟨?_, ?_, ?_, ?_, ?_⟩
  · exact answer _ _ _ rfl (Entity.schema_after _ _)
  · exact refusal _ (.set "label" .null) (.computedAttributeWrite "person" "label") rfl rfl
  · rw [replay]
    rfl
  · exact append exampleOperations "tags" (.string "x")
      (by rw [Entity.answer_perform, Entity.schema_after]; rfl)
  · exact swap exampleOperations (.unset "tags") (.unset "home") (by decide)

end EntityModel
