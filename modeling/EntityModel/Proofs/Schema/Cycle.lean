import EntityModel.Proofs.Log
import EntityModel.Proofs.Schema.Draft
import EntityModel.Proofs.Schema.Order
import Mathlib.Data.List.Chain

/-!
# Cycles are found exactly

A computed attribute depends on those that the paths of its expression start at. The search for
cycles reports one if and only if some attribute leads back to itself. What it reports is the part
of the way behind the name that was met twice, so it is a cycle without repetitions; if it reports
nothing, the order in which it cleared the names leaves no way back.
-/

namespace EntityModel

/-- A path of one computed attribute's expression starts at another computed attribute. -/
def DependsOn (computed : List ComputedAttribute) (name other : String) : Prop :=
  ∃ c ∈ computed, c.name = name ∧ ∃ x, Expression.parse c.expression = .ok x ∧
    (∃ p ∈ x.paths, p.root = other) ∧ ∃ d ∈ computed, d.name = other

/-- A way that ends where it starts and meets no other name twice. -/
def IsCycle (R : String → String → Prop) (names : List String) : Prop :=
  ∃ first rest, names = first :: (rest ++ [first]) ∧ (first :: rest).Nodup ∧ names.IsChain R

/-! ### Ways -/

section Way

variable {R : String → String → Prop} {way : List String} {name other : String}

lemma transGen_of_isChain {first : String} {rest : List String}
    (h : (first :: (rest ++ [other])).IsChain R) : Relation.TransGen R first other := by
  induction rest generalizing first with
  | nil => exact .single (List.isChain_pair.1 h)
  | cons next rest ih =>
    obtain ⟨hnext, hrest⟩ := List.isChain_cons_cons.1 h
    exact .head hnext (ih hrest)

lemma IsCycle.transGen {names : List String} (h : IsCycle R names) :
    ∃ name, Relation.TransGen R name name := by
  obtain ⟨first, rest, rfl, -, hchain⟩ := h
  exact ⟨first, transGen_of_isChain hchain⟩

/-- Every name on a cycle leads to a name. -/
lemma IsCycle.exists_next {names : List String} (h : IsCycle R names) (hname : name ∈ names) :
    ∃ other, R name other := by
  obtain ⟨first, rest, rfl, -, hchain⟩ := h
  have hmem : name ∈ first :: rest := by simpa [or_comm] using hname
  obtain ⟨before, after, heq⟩ := List.append_of_mem hmem
  have hsplit : first :: (rest ++ [first]) = before ++ name :: (after ++ [first]) := by
    rw [← List.cons_append, heq, List.append_assoc, List.cons_append]
  rw [hsplit] at hchain
  have hend := (List.isChain_append.1 hchain).2.1
  cases after with
  | nil => exact ⟨first, List.isChain_pair.1 hend⟩
  | cons next after => exact ⟨next, (List.isChain_cons_cons.1 hend).1⟩

/-- A way that comes back to a name closes a cycle at it. -/
lemma isCycle_of_mem (hchain : (way ++ [name]).IsChain R) (hnodup : way.Nodup)
    (hname : name ∈ way) : IsCycle R (way.dropWhile (· ≠ name) ++ [name]) := by
  obtain ⟨before, after, rfl, hbefore⟩ := List.eq_append_cons_of_mem hname
  have hdrop : (before ++ name :: after).dropWhile (· ≠ name) = name :: after := by
    rw [List.dropWhile_append_of_pos fun n hn => decide_eq_true (ne_of_mem_of_not_mem hn hbefore)]
    simp
  rw [hdrop]
  refine ⟨name, after, rfl, (List.nodup_append.1 hnodup).2.1, ?_⟩
  rw [List.append_assoc] at hchain
  exact (List.isChain_append.1 hchain).2.1

end Way

/-! ### What the search reports -/

section Search

variable {next : String → List String} {R : String → String → Prop} {way cycle : List String}

lemma exists_of_foldlM_eq_error {f : List String → String → Except (List String) (List String)}
    {l cleared : List String} (h : l.foldlM f cleared = .error cycle) :
    ∃ name ∈ l, ∃ cleared', f cleared' name = .error cycle := by
  induction l generalizing cleared with
  | nil => cases h
  | cons name l ih =>
    rw [List.foldlM_cons] at h
    cases hname : f cleared name with
    | error cycle' =>
      rw [hname] at h
      cases h
      exact ⟨name, List.mem_cons_self, cleared, hname⟩
    | ok cleared' =>
      rw [hname] at h
      obtain ⟨other, hother, hfound⟩ := ih h
      exact ⟨other, List.mem_cons_of_mem _ hother, hfound⟩

/-- What a search reports is a cycle, whatever it was told to be cleared. -/
theorem isCycle_of_searchCycle (hR : ∀ name other, other ∈ next name → R name other)
    {fuel : Nat} {cleared : List String} {name : String} (hchain : (way ++ [name]).IsChain R)
    (hnodup : way.Nodup) (h : searchCycle next fuel way cleared name = .error cycle) :
    IsCycle R cycle := by
  induction fuel generalizing way cleared name with
  | zero => cases h
  | succ fuel ih =>
    rw [searchCycle] at h
    split_ifs at h with hcleared hmem
    · cases h
      exact isCycle_of_mem hchain hnodup hmem
    · cases hrest : (next name).foldlM (searchCycle next fuel (way ++ [name])) cleared with
      | ok cleared' =>
        rw [hrest] at h
        cases h
      | error cycle' =>
        rw [hrest] at h
        cases h
        obtain ⟨other, hother, cleared', hfound⟩ := exists_of_foldlM_eq_error hrest
        refine ih ?_ ?_ hfound
        · refine hchain.append (List.isChain_singleton other) ?_
          intro n hn m hm
          obtain rfl : name = n := by simpa using hn
          obtain rfl : other = m := by simpa using hm
          exact hR name other hother
        · rw [← List.concat_eq_append]
          exact hnodup.concat hmem

end Search

section Computed

variable {computed : List ComputedAttribute} {name other : String}

lemma mem_dependencies_iff (h : (computed.map (·.name)).Nodup) :
    other ∈ dependencies computed name ↔ DependsOn computed name other := by
  have hfind {c : ComputedAttribute} : (computed.find? fun c => c.name = name) = some c ↔
      c ∈ computed ∧ c.name = name := find?_key_eq_some_iff h
  have hroots {c : ComputedAttribute} : other ∈ rootsOf c.expression ↔
      ∃ x, Expression.parse c.expression = .ok x ∧ ∃ p ∈ x.paths, p.root = other := by
    rw [rootsOf]
    cases Expression.parse c.expression <;> simp
  rw [dependencies]
  constructor
  · intro hother
    split at hother
    · cases hother
    · rename_i c hc
      obtain ⟨hmem, hname⟩ := hfind.1 hc
      obtain ⟨hread, hdeclared⟩ := List.mem_filter.1 hother
      obtain ⟨x, hx, hp⟩ := hroots.1 hread
      exact ⟨c, hmem, hname, x, hx, hp, by simpa using hdeclared⟩
  · rintro ⟨c, hmem, hname, x, hx, hp, hdeclared⟩
    rw [hfind.2 ⟨hmem, hname⟩]
    exact List.mem_filter.2 ⟨hroots.2 ⟨x, hx, hp⟩, by simpa using hdeclared⟩

/-- The cycle that is found is one of dependencies. -/
theorem isCycle_of_findCycle (h : (computed.map (·.name)).Nodup) {names : List String}
    (hfind : findCycle computed = some names) : IsCycle (DependsOn computed) names := by
  rw [findCycle] at hfind
  split at hfind
  · cases hfind
  · rename_i cycle hcycle
    cases hfind
    obtain ⟨name, -, cleared, hfound⟩ := exists_of_foldlM_eq_error hcycle
    exact isCycle_of_searchCycle (fun name other => (mem_dependencies_iff h).1)
      (List.isChain_singleton name) List.nodup_nil hfound

end Computed

namespace Schema

variable {s : Schema} {name other : String}

lemma rank_lt_of_dependsOn (h : DependsOn s.computed name other) : s.rank other < s.rank name := by
  have hnodup : (s.computed.map (·.name)).Nodup := (List.nodup_append.1 s.names_nodup).2.1
  have hmem := (mem_dependencies_iff hnodup).2 h
  obtain ⟨c, hc, rfl, -⟩ := h
  exact rank_lt_of_mem_dependencies hc hmem

/-- No computed attribute of a schema leads back to itself. -/
theorem not_transGen_dependsOn (s : Schema) (name : String) :
    ¬ Relation.TransGen (DependsOn s.computed) name name := by
  have hlt {other : String} (h : Relation.TransGen (DependsOn s.computed) name other) :
      s.rank other < s.rank name := by
    induction h with
    | single h => exact rank_lt_of_dependsOn h
    | tail _ h ih => exact Nat.lt_trans (rank_lt_of_dependsOn h) ih
  intro h
  exact Nat.lt_irrefl _ (hlt h)

end Schema

/-! ### Building -/

namespace Draft

variable {d : Draft}

lemma isCycle_of_build_eq_error (h : d.WellDeclared) {e : SchemaError}
    (he : d.build.result = .error e) :
    ∃ names, e = .computedCycle d.key names ∧ IsCycle (DependsOn d.computed) names := by
  have hfault := fault?_of_wellDeclared h
  rw [result_build] at he
  cases hfind : findCycle d.computed with
  | none =>
    rw [hfind] at hfault
    obtain ⟨s, hs, -⟩ := exists_toSchema_eq_ok hfault
    rw [hs] at he
    cases he
  | some names =>
    rw [hfind] at hfault
    rw [toSchema_of_fault? hfault] at he
    cases he
    exact ⟨names, rfl, isCycle_of_findCycle (List.nodup_append.1 h.names).2.1 hfind⟩

lemma exists_build_eq_error (h : d.WellDeclared) {name : String}
    (hname : Relation.TransGen (DependsOn d.computed) name name) :
    ∃ names, d.build.result = .error (.computedCycle d.key names) := by
  have hfault := fault?_of_wellDeclared h
  rw [result_build]
  cases hfind : findCycle d.computed with
  | none =>
    rw [hfind] at hfault
    obtain ⟨s, -, -, hcomputed⟩ := exists_toSchema_eq_ok hfault
    rw [← hcomputed] at hname
    exact absurd hname (s.not_transGen_dependsOn name)
  | some names =>
    rw [hfind] at hfault
    exact ⟨names, toSchema_of_fault? hfault⟩

lemma not_dependsOn_of_unreadable (h : d.WellDeclared) {c : ComputedAttribute}
    (hc : c ∈ d.computed) (hunreadable : ∀ x, Expression.parse c.expression ≠ .ok x)
    (other : String) : ¬ DependsOn d.computed c.name other := by
  rintro ⟨c', hc', hname, x, hx, -⟩
  obtain rfl := List.inj_on_of_nodup_map (List.nodup_append.1 h.names).2.1 hc' hc hname
  exact hunreadable x hx

end Draft

/-- A well-declared draft is refused if and only if some computed attribute depends, in one or more
steps, on itself. The error names such a cycle, and no attribute whose expression cannot be read
lies on it. -/
theorem Draft.build_eq_computedCycle_iff {d : Draft} (h : d.WellDeclared) :
    ((∃ names, d.build.result = .error (.computedCycle d.key names)) ↔
      ∃ name, Relation.TransGen (DependsOn d.computed) name name) ∧
    (∀ e, d.build.result = .error e →
      ∃ names, e = .computedCycle d.key names ∧ IsCycle (DependsOn d.computed) names) ∧
    ∀ c ∈ d.computed, (∀ x, Expression.parse c.expression ≠ .ok x) →
      (∀ other, ¬ DependsOn d.computed c.name other) ∧
        ∀ names, d.build.result = .error (.computedCycle d.key names) → c.name ∉ names := by
  refine ⟨⟨?_, ?_⟩, fun e => isCycle_of_build_eq_error h, ?_⟩
  · rintro ⟨names, hnames⟩
    obtain ⟨_, -, hcycle⟩ := isCycle_of_build_eq_error h hnames
    exact hcycle.transGen
  · rintro ⟨name, hname⟩
    exact exists_build_eq_error h hname
  · intro c hc hunreadable
    have hnone := not_dependsOn_of_unreadable h hc hunreadable
    refine ⟨hnone, ?_⟩
    intro names hnames hmem
    obtain ⟨_, heq, hcycle⟩ := isCycle_of_build_eq_error h hnames
    cases heq
    obtain ⟨other, hother⟩ := hcycle.exists_next hmem
    exact hnone other hother

/-! ### An example -/

/-- Orders, whose code and text are derived from each other. The note would be derived from itself,
if its expression could be read. -/
def exampleOrder : Draft where
  key := "order"
  attributes := [⟨"net", .scalar .decimal⟩]
  computed :=
    [⟨"label", .scalar .string, "concat(' ', code, net)"⟩, ⟨"note", .scalar .string, "concat(note"⟩,
      ⟨"code", .scalar .string, "text . first"⟩, ⟨"text", .scalar .string, "concat('', net, code)"⟩]

lemma wellDeclared_exampleOrder : exampleOrder.WellDeclared where
  key := by decide
  attributes := by decide
  computed := by decide
  names := by decide
  configurations := by decide

lemma findCycle_exampleOrder : findCycle exampleOrder.computed = some ["code", "text", "code"] := by
  decide +kernel

theorem computedCycle_of_exampleOrder :
    exampleOrder.WellDeclared ∧
      exampleOrder.build.result = .error (.computedCycle "order" ["code", "text", "code"]) ∧
      IsCycle (DependsOn exampleOrder.computed) ["code", "text", "code"] ∧
      ∀ other, ¬ DependsOn exampleOrder.computed "note" other := by
  have hbuild : exampleOrder.build.result =
      .error (.computedCycle "order" ["code", "text", "code"]) := by
    rw [Draft.result_build]
    apply Draft.toSchema_of_fault?
    rw [Draft.fault?_of_wellDeclared wellDeclared_exampleOrder, findCycle_exampleOrder]
    rfl
  have hnote : Expression.parse "concat(note" = .error (.malformed 11 (.noSeparator none)) := by
    decide +kernel
  obtain ⟨-, hcycle, hunreadable⟩ := Draft.build_eq_computedCycle_iff wellDeclared_exampleOrder
  obtain ⟨names, heq, hnames⟩ := hcycle _ hbuild
  cases heq
  refine ⟨wellDeclared_exampleOrder, hbuild, hnames, ?_⟩
  refine (hunreadable ⟨"note", .scalar .string, "concat(note"⟩ (by decide) fun x hx => ?_).1
  rw [hnote] at hx
  cases hx

end EntityModel
