import EntityModel.Proofs.Entity.Cell
import EntityModel.Proofs.Entity.Termination

/-!
# What computed attributes depend on

A computed attribute uses the names that the paths of its expression start at, and the names that
the computed attributes among them use. Of the entity it is computed on it reads nothing else: on
two entities of a schema that agree on the stored attributes in use it is the same, and operations
on other attributes do not touch it.
-/

namespace EntityModel

/-- The names that a computed attribute uses, the smallest set that is closed in this way. -/
inductive Schema.Uses (s : Schema) (c : ComputedAttribute) : String → Prop
  | root {name : String} (h : name ∈ rootsOf c.expression) : Uses s c name
  | through {d : ComputedAttribute} {name : String} (hd : d ∈ s.computed) (h : Uses s c d.name)
      (hname : name ∈ rootsOf d.expression) : Uses s c name

/-- A computed attribute uses all that the ones it starts from use. -/
lemma Schema.Uses.trans {s : Schema} {c d : ComputedAttribute} {name : String}
    (hd : d ∈ s.computed) (hc : s.Uses c d.name) (h : s.Uses d name) : s.Uses c name := by
  induction h with
  | root hname => exact .through hd hc hname
  | through hd' _ hname ih => exact .through hd' ih hname

namespace Entity

/-- Two entities of one schema that store the same under the names of a set. -/
structure AgreeOn (names : String → Prop) (e e' : Entity) : Prop where
  schema : e.schema = e'.schema
  stored : ∀ a ∈ e.schema.attributes, names a.name → e.stored? a.name = e'.stored? a.name

lemma AgreeOn.mono {names names' : String → Prop} {e e' : Entity} (h : AgreeOn names e e')
    (hsub : ∀ name, names' name → names name) : AgreeOn names' e e' :=
  ⟨h.schema, fun a ha hname => h.stored a ha (hsub a.name hname)⟩

/-! ### Reading from entities that agree -/

section Agree

variable {compute : Computation} {path : String} {e e' : Entity} {names : String → Prop}

/-- A name reads the same if it is stored alike or computed alike. -/
lemma lookup_eq_of_agreeOn {name : String} (h : AgreeOn names e e') (hname : names name)
    (hc : ∀ c ∈ e.schema.computed, c.name = name → compute e c = compute e' c) :
    lookup compute path e name = lookup compute path e' name := by
  rw [lookup, lookup, ← h.schema]
  cases hcomputed : e.schema.computed? name with
  | some c =>
    obtain ⟨hmem, hcname⟩ := Schema.computed?_eq_some_iff.1 hcomputed
    exact hc c hmem hcname
  | none =>
    cases ha : e.schema.attribute? name with
    | none => rfl
    | some a =>
      obtain ⟨hmem, rfl⟩ := Schema.attribute?_eq_some_iff.1 ha
      simp only [h.stored a hmem hname]

lemma follow_eq_of_agreeOn {p : Path} (h : AgreeOn names e e') (hroot : names p.root)
    (hc : ∀ c ∈ e.schema.computed, c.name = p.root → compute e c = compute e' c) :
    follow compute e p = follow compute e' p := by
  rw [follow, follow]
  split
  · rename_i name segments hp
    have hname : p.root = name := by rw [Path.root, hp]
    rw [hname] at hroot hc
    -- behind its first name a path sees nothing of the entity but the value it has got
    rw [lookup_eq_of_agreeOn h hroot hc]
  · rfl

lemma evaluateWith_eq_of_agreeOn {source : String} (h : AgreeOn names e e')
    (hroots : ∀ name ∈ rootsOf source, names name)
    (hc : ∀ c ∈ e.schema.computed, c.name ∈ rootsOf source → compute e c = compute e' c) :
    evaluateWith compute source e = evaluateWith compute source e' := by
  rw [evaluateWith, evaluateWith, ← h.schema]
  refine Logged.bind_congr fun _ _ => ?_
  cases hx : Expression.parse source with
  | error cause => rfl
  | ok x =>
    refine Expression.evaluate_congr x fun p hp => ?_
    have hroot : p.root ∈ rootsOf source := by
      rw [rootsOf, hx]
      exact List.mem_map_of_mem hp
    exact follow_eq_of_agreeOn h (hroots p.root hroot) fun c hmem hname =>
      hc c hmem (hname ▸ hroot)

/-- At every depth a computation is decided by the stored attributes that it uses. -/
lemma computeWithin_eq_of_agreeOn {c : ComputedAttribute} (n : Nat)
    (h : AgreeOn (e.schema.Uses c) e e') : computeWithin n e c = computeWithin n e' c := by
  induction n generalizing c with
  | zero => rfl
  | succ n ih =>
    rw [computeWithin, computeWithin, evaluateWith_eq_of_agreeOn h fun name => .root]
    intro d hd hroot
    exact ih (h.mono fun name => .trans hd (.root hroot))

end Agree

/-! ### Computed attributes -/

variable {e e' : Entity} {c : ComputedAttribute}

lemma get_eq_of_agreeOn (hc : c ∈ e.schema.computed) (h : AgreeOn (e.schema.Uses c) e e') :
    e.get c.name = e'.get c.name := by
  have hc' : c ∈ e'.schema.computed := h.schema ▸ hc
  -- the entities may differ in depth, so both are computed at one that is enough for either
  obtain ⟨n, hn, hn'⟩ := exists_computeWithin_eq_compute hc hc'
  rw [get_computed hc, get_computed hc', ← hn, ← hn']
  exact computeWithin_eq_of_agreeOn n h

lemma agreeOn_perform {names : String → Prop} (e : Entity) {op : Operation}
    (hop : ¬ names op.name) : AgreeOn names (e.perform op).2 e := by
  refine ⟨schema_perform e op, fun a _ hname => stored?_perform_of_ne ?_⟩
  rintro heq
  exact hop (heq ▸ hname)

lemma agreeOn_after {names : String → Prop} (e : Entity) {ops : List Operation}
    (hops : ∀ op ∈ ops, ¬ names op.name) : AgreeOn names (e.after ops) e := by
  induction ops generalizing e with
  | nil => exact ⟨rfl, fun _ _ _ => rfl⟩
  | cons op ops ih =>
    obtain ⟨hop, hrest⟩ := List.forall_mem_cons.1 hops
    rw [after_cons]
    have hfirst := agreeOn_perform e hop
    have hthen := ih (e.perform op).2 hrest
    refine ⟨hthen.schema.trans hfirst.schema, fun a ha hname => ?_⟩
    rw [hthen.stored a ha hname]
    exact hfirst.stored a (hthen.schema ▸ ha) hname

/-- A computed attribute is a function of the stored attributes that it uses: entities of the schema
that agree on these give it the same value or the same error, and with the same reports. Operations
on other attributes, one or many, accepted or refused, never change it. -/
theorem get_confined {s : Schema} {c : ComputedAttribute} (hc : c ∈ s.computed) :
    (∀ e e' : Entity, e.schema = s → e'.schema = s →
      (∀ a ∈ s.attributes, s.Uses c a.name → e.stored? a.name = e'.stored? a.name) →
        e.get c.name = e'.get c.name) ∧
    (∀ (e : Entity) (op : Operation), e.schema = s → ¬ s.Uses c op.name →
      (e.perform op).2.get c.name = e.get c.name) ∧
    ∀ (e : Entity) (ops : List Operation), e.schema = s → (∀ op ∈ ops, ¬ s.Uses c op.name) →
      (e.after ops).get c.name = e.get c.name := by
  refine ⟨?_, ?_, ?_⟩
  · rintro e e' rfl hs hstored
    exact get_eq_of_agreeOn hc ⟨hs.symm, hstored⟩
  · rintro e op rfl hop
    have h := agreeOn_perform e hop
    exact get_eq_of_agreeOn (h.schema ▸ hc) (h.schema.symm ▸ h)
  · rintro e ops rfl hops
    have h := agreeOn_after e hops
    exact get_eq_of_agreeOn (h.schema ▸ hc) (h.schema.symm ▸ h)

end Entity

/-! ### An example -/

/-- The label of a person, which is the label of the address at home. -/
def examplePersonLabel : ComputedAttribute :=
  ⟨"label", .scalar .string, "town"⟩

lemma uses_examplePersonLabel {name : String} (h : examplePerson.Uses examplePersonLabel name) :
    name = "town" ∨ name = "home" := by
  have hlabel : rootsOf "town" = ["town"] := by decide +kernel
  have htown : rootsOf "home.label" = ["home"] := by decide +kernel
  induction h with
  | root hname =>
    rw [examplePersonLabel, hlabel] at hname
    exact .inl (List.mem_singleton.1 hname)
  | @through d name hd _ hname ih =>
    have hd : d ∈ [examplePersonLabel, ⟨"town", .scalar .string, "home.label"⟩] := hd
    simp only [List.mem_cons, List.not_mem_nil, or_false] at hd
    rcases hd with rfl | rfl
    · rw [examplePersonLabel, hlabel] at hname
      exact .inl (List.mem_singleton.1 hname)
    · rw [htown] at hname
      exact .inr (List.mem_singleton.1 hname)

/-- A person with a name and an address. -/
def exampleResident : Entity :=
  (Entity.new examplePerson).after
    [.set "name" (.string "Ann"), .set "home" exampleHome.toValue, .set "label" .null]

/-- A person with tags and that address. -/
def exampleNeighbour : Entity :=
  (Entity.new examplePerson).after [.add "tags" .null, .set "home" exampleHome.toValue]

theorem get_confined_of_exampleResident :
    examplePersonLabel ∈ examplePerson.computed ∧
    exampleResident.get "label" = exampleNeighbour.get "label" ∧
    (exampleResident.perform (.set "name" .null)).2.get "label" = exampleResident.get "label" ∧
    (exampleResident.after
      [.add "tags" (.string "x"), .set "label" .null, .unset "name"]).get "label" =
        exampleResident.get "label" := by
  have hc : examplePersonLabel ∈ examplePerson.computed := by decide
  have hunused (name : String) (hne : name ≠ "town" ∧ name ≠ "home") :
      ¬ examplePerson.Uses examplePersonLabel name :=
    fun h => (uses_examplePersonLabel h).elim hne.1 hne.2
  obtain ⟨agree, one, many⟩ := Entity.get_confined hc
  refine ⟨hc, ?_, ?_, ?_⟩
  · refine agree _ _ (Entity.schema_after _ _) (Entity.schema_after _ _) fun a ha huses => ?_
    rcases uses_examplePersonLabel huses with hname | hname
    · have hstored : ∀ a ∈ examplePerson.attributes, a.name ≠ "town" := by decide
      exact absurd hname (hstored a ha)
    · rw [hname]
      rfl
  · exact one _ (.set "name" .null) (Entity.schema_after _ _) (hunused "name" (by decide))
  · refine many _ _ (Entity.schema_after _ _) ?_
    simp only [List.forall_mem_cons, Operation.name]
    exact ⟨hunused "tags" (by decide), hunused "label" (by decide), hunused "name" (by decide),
      by simp⟩

end EntityModel
