import EntityModel.Proofs.Schema.Lookup
import Mathlib.Data.List.Perm.Subperm

/-!
# The order of computed attributes

A search that meets no cycle clears the names of computed attributes one by one, each after all
those it depends on. The place of a name in that order is its rank: what an attribute depends on has
a smaller rank, so computing it comes to an end.
-/

namespace EntityModel

/-- Every name stands before all that it leads to, and no name stands twice. -/
inductive Ordered (next : String → List String) : List String → Prop
  | nil : Ordered next []
  | cons {name : String} {names : List String} (fresh : name ∉ names)
      (below : next name ⊆ names) (rest : Ordered next names) : Ordered next (name :: names)

/-- The place of a name, counted from the end of a list; 0 if it is not there. -/
def rankIn : List String → String → Nat
  | [], _ => 0
  | m :: names, name => if m = name then names.length + 1 else rankIn names name

/-! ### Ranks -/

lemma rankIn_le_length (names : List String) (name : String) :
    rankIn names name ≤ names.length := by
  induction names with
  | nil => exact Nat.le_refl _
  | cons m names ih =>
    rw [rankIn, List.length_cons]
    split
    · exact Nat.le_refl _
    · exact Nat.le_succ_of_le ih

lemma rankIn_pos {names : List String} {name : String} (h : name ∈ names) :
    0 < rankIn names name := by
  induction names with
  | nil => cases h
  | cons m names ih =>
    rw [rankIn]
    split
    · exact Nat.succ_pos _
    · rename_i hne
      rcases List.mem_cons.1 h with rfl | hmem
      · exact absurd rfl hne
      · exact ih hmem

namespace Ordered

variable {next : String → List String} {names : List String} {name : String}

lemma nodup (h : Ordered next names) : names.Nodup := by
  induction h with
  | nil => exact List.nodup_nil
  | cons fresh _ _ ih => exact List.nodup_cons.2 ⟨fresh, ih⟩

lemma next_subset (h : Ordered next names) (hname : name ∈ names) : next name ⊆ names := by
  induction h with
  | nil => cases hname
  | cons _ below _ ih =>
    rcases List.mem_cons.1 hname with rfl | hmem
    · exact List.subset_cons_of_subset _ below
    · exact List.subset_cons_of_subset _ (ih hmem)

/-- What a name leads to has a smaller rank. -/
lemma rankIn_lt (h : Ordered next names) (hname : name ∈ names) {other : String}
    (hother : other ∈ next name) : rankIn names other < rankIn names name := by
  induction h with
  | nil => cases hname
  | @cons m names fresh below rest ih =>
    have skip {n : String} (hn : n ∈ names) : rankIn (m :: names) n = rankIn names n := by
      rw [rankIn, if_neg]
      rintro rfl
      exact fresh hn
    rcases List.mem_cons.1 hname with rfl | hmem
    · have hfirst : rankIn (name :: names) name = names.length + 1 := by rw [rankIn, if_pos rfl]
      rw [skip (below hother), hfirst]
      exact Nat.lt_succ_of_le (rankIn_le_length names other)
    · rw [skip hmem, skip (rest.next_subset hmem hother)]
      exact ih hmem

end Ordered

/-! ### The search -/

/-- What a search from the names of a way keeps of the names cleared so far. -/
structure Clearing (next : String → List String) (names way cleared : List String) : Prop where
  ordered : Ordered next cleared
  subset : cleared ⊆ names
  apart : ∀ name ∈ way, name ∉ cleared

section Search

variable {next : String → List String} {names way cleared cleared' : List String} {name : String}

/-- Steps that keep a property, lose nothing and clear their names do so one after the other. -/
lemma foldlM_clears {P : List String → Prop}
    {f : List String → String → Except (List String) (List String)} {l : List String}
    (step : ∀ n ∈ l, ∀ c c', P c → f c n = .ok c' → P c' ∧ c ⊆ c' ∧ n ∈ c')
    (hP : P cleared) (h : l.foldlM f cleared = .ok cleared') :
    P cleared' ∧ cleared ⊆ cleared' ∧ l ⊆ cleared' := by
  induction l generalizing cleared with
  | nil =>
    cases h
    exact ⟨hP, List.Subset.refl _, List.nil_subset _⟩
  | cons n l ih =>
    rw [List.foldlM_cons] at h
    cases hn : f cleared n with
    | error cycle =>
      rw [hn] at h
      cases h
    | ok middle =>
      rw [hn] at h
      obtain ⟨hmiddle, hsub, hmem⟩ := step n List.mem_cons_self cleared middle hP hn
      obtain ⟨hlast, hsub', hl⟩ :=
        ih (fun m hm => step m (List.mem_cons_of_mem _ hm)) hmiddle h
      exact ⟨hlast, List.Subset.trans hsub hsub', List.cons_subset.2 ⟨hsub' hmem, hl⟩⟩

/-- A search that meets no cycle clears its name, after all that the name leads to. -/
lemma searchCycle_clears (hnext : ∀ n ∈ names, next n ⊆ names) {fuel : Nat}
    (hfuel : names.length < fuel + way.length) (hnodup : way.Nodup) (hway : way ⊆ names)
    (hname : name ∈ names) (hc : Clearing next names way cleared)
    (h : searchCycle next fuel way cleared name = .ok cleared') :
    Clearing next names way cleared' ∧ cleared ⊆ cleared' ∧ name ∈ cleared' := by
  induction fuel generalizing way cleared cleared' name with
  | zero =>
    -- a way without repetitions cannot be longer than the names there are
    have := (List.subperm_of_subset hnodup hway).length_le
    omega
  | succ fuel ih =>
    rw [searchCycle] at h
    split at h
    · rename_i hdone
      cases h
      exact ⟨hc, List.Subset.refl _, hdone⟩
    · rename_i hfresh
      split at h
      · cases h
      · rename_i hoff
        have hnodup' : (way ++ [name]).Nodup := by
          rw [List.nodup_append]
          refine ⟨hnodup, List.nodup_singleton _, ?_⟩
          intro n hn m hm
          rw [List.mem_singleton.1 hm]
          rintro rfl
          exact hoff hn
        have hway' : way ++ [name] ⊆ names :=
          List.append_subset.2 ⟨hway, List.cons_subset.2 ⟨hname, List.nil_subset _⟩⟩
        have hc' : Clearing next names (way ++ [name]) cleared := by
          refine ⟨hc.ordered, hc.subset, ?_⟩
          intro n hn
          rcases List.mem_append.1 hn with hn | hn
          · exact hc.apart n hn
          · rw [List.mem_singleton.1 hn]
            exact hfresh
        cases hrest : (next name).foldlM (searchCycle next fuel (way ++ [name])) cleared with
        | error cycle =>
          rw [hrest] at h
          cases h
        | ok middle =>
          rw [hrest] at h
          cases h
          have step : ∀ n ∈ next name, ∀ c c', Clearing next names (way ++ [name]) c →
              searchCycle next fuel (way ++ [name]) c n = .ok c' →
              Clearing next names (way ++ [name]) c' ∧ c ⊆ c' ∧ n ∈ c' := by
            intro n hn c c' hc hok
            refine ih ?_ hnodup' hway' (hnext name hname hn) hc hok
            rw [List.length_append, List.length_singleton]
            omega
          obtain ⟨hm, hsub, hbelow⟩ := foldlM_clears step hc' hrest
          have hnew : name ∉ middle := hm.apart name (by simp)
          refine ⟨⟨.cons hnew hbelow hm.ordered, ?_, ?_⟩, ?_, List.mem_cons_self⟩
          · exact List.cons_subset.2 ⟨hname, hm.subset⟩
          · intro n hn hmem
            rcases List.mem_cons.1 hmem with rfl | hmem
            · exact hoff hn
            · exact hm.apart n (List.mem_append_left _ hn) hmem
          · exact List.subset_cons_of_subset _ hsub

end Search

/-! ### The order of a schema -/

lemma dependencies_subset (computed : List ComputedAttribute) (name : String) :
    dependencies computed name ⊆ computed.map (·.name) := by
  intro n hn
  rw [dependencies] at hn
  split at hn
  · cases hn
  · obtain ⟨c, hc, heq⟩ := List.any_eq_true.1 (List.mem_filter.1 hn).2
    exact List.mem_map.2 ⟨c, hc, by simpa using heq⟩

namespace Schema

/-- The names of computed attributes, each before all that it depends on. -/
def order (s : Schema) : List String :=
  let search := searchCycle (dependencies s.computed) (s.computed.length + 1) []
  match (s.computed.map (·.name)).foldlM search [] with
  | .ok cleared => cleared
  | .error _ => []

/-- How many computed attributes stand at or behind one in the order of a schema. -/
def rank (s : Schema) (name : String) : Nat :=
  rankIn s.order name

lemma order_spec (s : Schema) :
    Ordered (dependencies s.computed) s.order ∧ s.order ⊆ s.computed.map (·.name) ∧
      s.computed.map (·.name) ⊆ s.order := by
  have hacyclic := s.acyclic
  rw [findCycle] at hacyclic
  rw [order]
  cases h : (s.computed.map (·.name)).foldlM
      (searchCycle (dependencies s.computed) (s.computed.length + 1) []) [] with
  | error cycle =>
    rw [h] at hacyclic
    cases hacyclic
  | ok cleared =>
    have start : Clearing (dependencies s.computed) (s.computed.map (·.name)) [] [] :=
      ⟨.nil, List.nil_subset _, fun _ hn => nomatch hn⟩
    have step : ∀ n ∈ s.computed.map (·.name), ∀ c c',
        Clearing (dependencies s.computed) (s.computed.map (·.name)) [] c →
        searchCycle (dependencies s.computed) (s.computed.length + 1) [] c n = .ok c' →
        Clearing (dependencies s.computed) (s.computed.map (·.name)) [] c' ∧ c ⊆ c' ∧ n ∈ c' := by
      intro n hn c c' hc hok
      refine searchCycle_clears (fun m _ => dependencies_subset _ m) ?_ List.nodup_nil
        (List.nil_subset _) hn hc hok
      rw [List.length_map, List.length_nil]
      exact Nat.lt_succ_self _
    obtain ⟨hc, -, hall⟩ := foldlM_clears step start h
    exact ⟨hc.ordered, hc.subset, hall⟩

variable {s : Schema} {c : ComputedAttribute}

lemma rank_pos (hc : c ∈ s.computed) : 0 < s.rank c.name :=
  rankIn_pos (s.order_spec.2.2 (List.mem_map_of_mem hc))

lemma rank_le_length (s : Schema) (name : String) : s.rank name ≤ s.computed.length := by
  have hlen := (List.subperm_of_subset s.order_spec.1.nodup s.order_spec.2.1).length_le
  rw [List.length_map] at hlen
  exact Nat.le_trans (rankIn_le_length _ _) hlen

/-- An attribute has a larger rank than those it depends on. -/
theorem rank_lt_of_mem_dependencies (hc : c ∈ s.computed) {name : String}
    (h : name ∈ dependencies s.computed c.name) : s.rank name < s.rank c.name :=
  s.order_spec.1.rankIn_lt (s.order_spec.2.2 (List.mem_map_of_mem hc)) h

end Schema

end EntityModel
