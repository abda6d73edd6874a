import EntityModel.Proofs.Conversion.RoundTrip
import EntityModel.Proofs.Schema.Lookup
import Mathlib.Data.List.MinMax
import Mathlib.Tactic.Lemma

/-!
# Registration of rules

Registering a rule replaces the rule of its pair, so a registry holds one rule for each pair, in the
order in which the pairs were registered first. No two source kinds that accept a value are equally
specific; the rule for a value is therefore determined by the converters that were registered last,
whatever the order of the registrations.
-/

namespace EntityModel

/-! ### How specific a kind is -/

namespace SourceKind

/-- The rank of a kind: exact kinds come before numbers, and numbers before any value. -/
def specificity : SourceKind → ℕ
  | .any => 0
  | .number => 1
  | _ => 2

variable {actual declared other : SourceKind}

/-- An exact kind accepts itself alone. -/
lemma eq_of_accepts (h : declared.accepts actual) (hs : declared.specificity = 2) :
    declared = actual := by
  cases declared <;> first | exact of_decide_eq_true h | cases hs

/-- Kinds that accept a value are told apart by their rank. -/
lemma eq_of_specificity (hd : declared.accepts actual) (ho : other.accepts actual)
    (h : declared.specificity = other.specificity) : declared = other := by
  by_cases hs : declared.specificity = 2
  · rw [eq_of_accepts hd hs, eq_of_accepts ho (h.symm.trans hs)]
  · cases declared <;> cases other <;> first | rfl | exact absurd rfl hs | cases h

lemma pairwise_accepting (actual : SourceKind) :
    (accepting actual).Pairwise fun k l => l.specificity ≤ k.specificity := by
  cases actual <;> decide

end SourceKind

/-! ### The specification -/

/-- A JSON value is of a scalar kind by itself, as a value of an attribute. -/
inductive Json.IsNative : Json → ScalarKind → Value → Prop
  | string (s : String) : IsNative (.string s) .string (.string s)
  | boolean (b : Bool) : IsNative (.bool b) .boolean (.boolean b)
  | integer (n : Int64) : IsNative (.ofInt64 n) .integer (.integer n)

/-- The converter that was registered last for a pair. -/
def lastConverter? (rules : List ConversionRule) (source : SourceKind) (target : ScalarKind) :
    Option Converter :=
  (rules.reverse.find? fun r => r.pair = (source, target)).map (·.convert)

/-- What a value is converted to, given a converter for some of the pairs. -/
inductive Converts (converters : SourceKind → ScalarKind → Option Converter) :
    Json → ScalarKind → Logged ConversionError Value → Prop
  | null (target : ScalarKind) : Converts converters .null target (pure .null)
  | native {j : Json} {target : ScalarKind} {v : Value} (h : j.IsNative target v) :
      Converts converters j target (pure v)
  | rule {j : Json} {target : ScalarKind} {actual declared : SourceKind} {f : Converter}
      (hactual : SourceKind.of? j = some actual) (hnative : ∀ v, ¬ j.IsNative target v)
      (haccepts : declared.accepts actual) (hf : converters declared target = some f)
      (hmost : ∀ other, other.accepts actual → (converters other target).isSome →
        other ≠ declared → other.specificity < declared.specificity) :
      Converts converters j target (f j)
  | missing {j : Json} {target : ScalarKind} {actual : SourceKind}
      (hactual : SourceKind.of? j = some actual) (hnative : ∀ v, ¬ j.IsNative target v)
      (hnone : ∀ declared, declared.accepts actual → converters declared target = none) :
      Converts converters j target (.fail (.noConverter actual target))

lemma Json.IsNative.unique {j : Json} {target : ScalarKind} {v w : Value}
    (hv : j.IsNative target v) (hw : j.IsNative target w) : v = w := by
  cases hv with
  | string s => cases hw; rfl
  | boolean b => cases hw; rfl
  | integer n =>
    generalize hj : Json.ofInt64 n = j at hw
    cases hw with
    | integer m =>
      rw [Json.ofInt64, Json.ofInt64] at hj
      injection hj with hj
      injection hj with hj
      rw [Int64.toInt_inj.1 hj]

lemma Json.IsNative.ne_null {j : Json} {target : ScalarKind} {v : Value}
    (h : j.IsNative target v) : j ≠ .null := by
  cases h <;> simp [Json.ofInt64]

/-- What is specified for a value is one result. -/
theorem Converts.unique {converters : SourceKind → ScalarKind → Option Converter} {j : Json}
    {target : ScalarKind} {r r' : Logged ConversionError Value}
    (h : Converts converters j target r) (h' : Converts converters j target r') : r = r' := by
  have hnull {actual : SourceKind} (hactual : SourceKind.of? .null = some actual) : False := by
    cases hactual
  cases h with
  | null =>
    cases h' with
    | null => rfl
    | native h' => exact absurd rfl h'.ne_null
    | rule hactual => exact (hnull hactual).elim
    | missing hactual => exact (hnull hactual).elim
  | native h =>
    cases h' with
    | null => exact absurd rfl h.ne_null
    | native h' => rw [h.unique h']
    | rule _ hnative => exact absurd h (hnative _)
    | missing _ hnative => exact absurd h (hnative _)
  | @rule _ _ actual declared f hactual hnative haccepts hf hmost =>
    cases h' with
    | null => exact (hnull hactual).elim
    | native h' => exact absurd h' (hnative _)
    | @rule _ _ actual' declared' f' hactual' _ haccepts' hf' hmost' =>
      obtain rfl := Option.some.inj (hactual.symm.trans hactual')
      have hdeclared : declared = declared' := by
        by_contra hne
        exact Nat.lt_asymm (hmost declared' haccepts' (by rw [hf']; rfl) (Ne.symm hne))
          (hmost' declared haccepts (by rw [hf]; rfl) hne)
      subst hdeclared
      rw [Option.some.inj (hf.symm.trans hf')]
    | missing hactual' _ hnone =>
      obtain rfl := Option.some.inj (hactual.symm.trans hactual')
      rw [hnone declared haccepts] at hf
      cases hf
  | missing hactual hnative hnone =>
    cases h' with
    | null => exact (hnull hactual).elim
    | native h' => exact absurd h' (hnative _)
    | rule hactual' _ haccepts' hf' =>
      obtain rfl := Option.some.inj (hactual.symm.trans hactual')
      rw [hnone _ haccepts'] at hf'
      cases hf'
    | missing hactual' =>
      obtain rfl := Option.some.inj (hactual.symm.trans hactual')
      rfl

namespace Conversions

variable {c : Conversions} {rules : List ConversionRule} {rule : ConversionRule} {j : Json}
  {actual source : SourceKind} {target : ScalarKind}

/-! ### Values that are native -/

lemma toInt_of_int64? {n : JsonNumber} {i : Int64} (h : n.int64? = some i) :
    n = .integer i.toInt := by
  cases n with
  | integer n =>
    obtain ⟨hsigned, hi⟩ := Option.ite_none_right_eq_some.1 h
    rw [JsonNumber.isSigned, Bool.and_eq_true, decide_eq_true_eq, decide_eq_true_eq] at hsigned
    obtain ⟨hmin, hmax⟩ := hsigned
    cases hi
    rw [Int64.toInt_ofInt_of_le hmin (Int.lt_add_one_of_le hmax)]
  | double x => cases h

lemma native?_eq_some_iff {v : Value} : native? j target = some v ↔ j.IsNative target v := by
  constructor
  · intro h
    cases j with
    | string s => cases target <;> cases h; exact .string s
    | bool b => cases target <;> cases h; exact .boolean b
    | number n =>
      cases target with
      | integer =>
        obtain ⟨i, hi, rfl⟩ := Option.map_eq_some_iff.1 h
        rw [toInt_of_int64? hi]
        exact .integer i
      | _ => cases h
    | _ => cases h
  · intro h
    cases h with
    | string s => rfl
    | boolean b => rfl
    | integer n => exact congrArg (Option.map Value.integer) (int64?_ofInt64 n)

lemma native?_eq_none_iff : native? j target = none ↔ ∀ v, ¬ j.IsNative target v := by
  simp only [Option.eq_none_iff_forall_ne_some, ne_eq, native?_eq_some_iff]

/-! ### The rule for a value -/

/-- The rule that is found is of an accepting kind, and any other with a rule is less specific. -/
lemma best?_spec (h : c.best? actual target = some rule) :
    ∃ declared, declared.accepts actual ∧ c.rule? declared target = some rule ∧
      ∀ other, other.accepts actual → (c.rule? other target).isSome → other ≠ declared →
        other.specificity < declared.specificity := by
  obtain ⟨before, declared, after, hsplit, hrule, hbefore⟩ := List.findSome?_eq_some_iff.1 h
  have hmem {k : SourceKind} (hk : k ∈ before ++ declared :: after) : k.accepts actual :=
    SourceKind.mem_accepting_iff.1 (hsplit ▸ hk)
  have hpairwise := SourceKind.pairwise_accepting actual
  rw [hsplit, List.pairwise_append, List.pairwise_cons] at hpairwise
  obtain ⟨-, ⟨hle, -⟩, -⟩ := hpairwise
  have haccepts := hmem (List.mem_append_right _ List.mem_cons_self)
  refine ⟨declared, haccepts, hrule, fun other hother hsome hne => ?_⟩
  have hin : other ∈ before ++ declared :: after :=
    hsplit ▸ SourceKind.mem_accepting_iff.2 hother
  rcases List.mem_append.1 hin with hin | hin
  · rw [hbefore other hin] at hsome
    cases hsome
  · have hin := (List.mem_cons.1 hin).resolve_left hne
    exact lt_of_le_of_ne (hle other hin) fun heq =>
      hne (SourceKind.eq_of_specificity hother haccepts heq)

lemma best?_eq_none_iff :
    c.best? actual target = none ↔ ∀ declared, declared.accepts actual →
      c.rule? declared target = none := by
  simp only [best?, List.findSome?_eq_none_iff, SourceKind.mem_accepting_iff]

/-- A conversion gives what the converters of the rules specify. -/
lemma converts_convert (c : Conversions) (j : Json) (target : ScalarKind) :
    Converts (fun source target => (c.rule? source target).map (·.convert)) j target
      (c.convert j target) := by
  rw [convert]
  split
  · rename_i hnull
    cases j with
    | null => exact .null target
    | number n => cases n <;> cases hnull
    | _ => cases hnull
  · rename_i actual hactual
    split
    · rename_i v hv
      exact .native (native?_eq_some_iff.1 hv)
    · rename_i hnative
      rw [native?_eq_none_iff] at hnative
      split
      · rename_i rule hbest
        obtain ⟨declared, haccepts, hrule, hmost⟩ := best?_spec hbest
        refine .rule hactual hnative haccepts (by rw [hrule]; rfl) fun other hother hsome => ?_
        rw [Option.isSome_map] at hsome
        exact hmost other hother hsome
      · rename_i hbest
        refine .missing hactual hnative fun declared haccepts => ?_
        rw [best?_eq_none_iff.1 hbest declared haccepts]
        rfl

/-! ### Going through the rules -/

/-- The most specific of the rules that take a value; of equally specific ones the last. -/
def strongest? (c : Conversions) (actual : SourceKind) (target : ScalarKind) :
    Option ConversionRule :=
  (c.rules.filter fun r => r.target = target && r.source.accepts actual).reverse.argmax
    fun r => r.source.specificity

lemma rule?_eq_some_iff (h : c.pairs.Nodup) :
    c.rule? source target = some rule ↔ rule ∈ c.rules ∧ rule.pair = (source, target) :=
  find?_key_eq_some_iff h

lemma rule?_of_mem (h : c.pairs.Nodup) (hmem : rule ∈ c.rules) :
    c.rule? rule.source rule.target = some rule :=
  (rule?_eq_some_iff h).2 ⟨hmem, rfl⟩

/-- Looking up kinds from the most specific one on finds the same rule as going through all. -/
theorem best?_eq_strongest? (h : c.pairs.Nodup) (actual : SourceKind) (target : ScalarKind) :
    c.best? actual target = c.strongest? actual target := by
  have hmem {r : ConversionRule} :
      r ∈ (c.rules.filter fun r => r.target = target && r.source.accepts actual).reverse ↔
        r ∈ c.rules ∧ r.target = target ∧ r.source.accepts actual := by
    simp
  cases hbest : c.best? actual target with
  | none =>
    symm
    rw [strongest?, List.argmax_eq_none, List.eq_nil_iff_forall_not_mem]
    intro r hr
    obtain ⟨hin, rfl, haccepts⟩ := hmem.1 hr
    have hrule := best?_eq_none_iff.1 hbest r.source haccepts
    rw [rule?_of_mem h hin] at hrule
    cases hrule
  | some rule =>
    obtain ⟨declared, haccepts, hrule, hmost⟩ := best?_spec hbest
    obtain ⟨hin, hpair⟩ := (rule?_eq_some_iff h).1 hrule
    cases hpair
    have hcandidate := hmem.2 ⟨hin, rfl, haccepts⟩
    cases hstrongest : c.strongest? actual rule.target with
    | none =>
      rw [strongest?, List.argmax_eq_none] at hstrongest
      rw [hstrongest] at hcandidate
      cases hcandidate
    | some other =>
      obtain ⟨hother, htarget, hother_accepts⟩ := hmem.1 (List.argmax_mem hstrongest)
      have hle := List.le_of_mem_argmax hcandidate hstrongest
      have hother_rule := rule?_of_mem h hother
      rw [htarget] at hother_rule
      -- a rule of another kind would be less specific than the one that was found
      have hsource : other.source = rule.source := by
        by_contra hne
        exact absurd hle
          (not_le_of_gt (hmost other.source hother_accepts (by rw [hother_rule]; rfl) hne))
      rw [hsource, hrule] at hother_rule
      exact hother_rule

/-! ### Sequences of registrations -/

lemma registerAll_concat (c : Conversions) (rules : List ConversionRule) (rule : ConversionRule) :
    c.registerAll (rules ++ [rule]) = (c.registerAll rules).register rule := by
  rw [registerAll, registerAll, List.foldl_append]
  rfl

/-- The rule of a pair is the one that was registered last for it. -/
lemma rule?_registerAll (rules : List ConversionRule) (source : SourceKind)
    (target : ScalarKind) :
    (registerAll {} rules).rule? source target =
      rules.reverse.find? fun r => r.pair = (source, target) := by
  induction rules using List.reverseRecOn with
  | nil => rfl
  | append_singleton rules rule ih =>
    rw [registerAll_concat, rule?_register, List.reverse_concat, List.find?_cons, ih]
    by_cases h : rule.pair = (source, target)
    · rw [if_pos h, decide_eq_true h]
    · rw [if_neg h, decide_eq_false h]

lemma pairs_register (c : Conversions) (rule : ConversionRule) :
    (c.register rule).pairs =
      if rule.pair ∈ c.pairs then c.pairs else c.pairs ++ [rule.pair] := by
  have step (rules : List ConversionRule) :
      (place rule rules).map ConversionRule.pair =
        if rule.pair ∈ rules.map ConversionRule.pair then rules.map ConversionRule.pair
        else rules.map ConversionRule.pair ++ [rule.pair] := by
    induction rules with
    | nil => rfl
    | cons r rules ih =>
      rw [place]
      by_cases hr : r.pair = rule.pair
      · simp [hr]
      · rw [if_neg hr, List.map_cons, List.map_cons, ih]
        by_cases hmem : rule.pair ∈ rules.map ConversionRule.pair
        · rw [if_pos hmem, if_pos (List.mem_cons_of_mem _ hmem)]
        · rw [if_neg hmem, if_neg (by rw [List.mem_cons, not_or]; exact ⟨Ne.symm hr, hmem⟩)]
          rfl
  exact step c.rules

/-- The pairs stand in the order of their first registrations. -/
lemma pairs_registerAll (rules : List ConversionRule) :
    (registerAll {} rules).pairs = (rules.map ConversionRule.pair).eraseDups := by
  induction rules using List.reverseRecOn with
  | nil => rfl
  | append_singleton rules rule ih =>
    rw [registerAll_concat, pairs_register, ih, List.map_append, List.eraseDups_append]
    generalize rules.map ConversionRule.pair = pairs
    by_cases h : rule.pair ∈ pairs
    · simp [h, List.removeAll]
    · simp [h, List.removeAll, List.eraseDups_cons]

lemma nodup_pairs_registerAll (rules : List ConversionRule) :
    (registerAll {} rules).pairs.Nodup := by
  induction rules using List.reverseRecOn with
  | nil => exact List.nodup_nil
  | append_singleton rules rule ih =>
    rw [registerAll_concat]
    exact nodup_pairs_register ih rule

/-- What a registry converts a value to is specified by the converters that were registered last,
and so does not depend on the order of the registrations. The rule that is applied is the one found
by going through all of them. No pair occurs twice, and the pairs stand in the order of their first
registrations. -/
theorem decided_by_lastConverter (rules : List ConversionRule) :
    (∀ j target r, (registerAll {} rules).convert j target = r ↔
      Converts (lastConverter? rules) j target r) ∧
    (∀ rules', (∀ source target, lastConverter? rules source target =
        lastConverter? rules' source target) →
      ∀ j target, (registerAll {} rules).convert j target =
        (registerAll {} rules').convert j target) ∧
    (∀ actual target, (registerAll {} rules).best? actual target =
      (registerAll {} rules).strongest? actual target) ∧
    (registerAll {} rules).pairs.Nodup ∧
    (registerAll {} rules).pairs = (rules.map ConversionRule.pair).eraseDups := by
  have hspec (rules : List ConversionRule) (j : Json) (target : ScalarKind) :
      Converts (lastConverter? rules) j target ((registerAll {} rules).convert j target) := by
    have h := converts_convert (registerAll {} rules) j target
    simp only [rule?_registerAll] at h
    exact h
  refine ⟨fun j target r => ⟨?_, (hspec rules j target).unique⟩, fun rules' hlast j target => ?_,
    best?_eq_strongest? (nodup_pairs_registerAll rules), nodup_pairs_registerAll rules,
    pairs_registerAll rules⟩
  · rintro rfl
    exact hspec rules j target
  · have hsame : lastConverter? rules = lastConverter? rules' := by
      funext source target
      exact hlast source target
    exact (hspec rules j target).unique (hsame ▸ hspec rules' j target)

/-- The builtin rules are registered like any others. -/
example : registerAll {} builtin.rules = builtin := rfl

/-! ### An example -/

/-- A converter to a word. -/
def exampleWord (word : String) : Converter :=
  fun _ => pure (.string word)

/-- Rules from the least specific kind on, the first of them registered anew. -/
def exampleRules : List ConversionRule :=
  [⟨.any, .string, exampleWord "old"⟩, ⟨.number, .string, exampleWord "number"⟩,
    ⟨.integer, .string, exampleWord "integer"⟩, ⟨.any, .string, exampleWord "any"⟩]

/-- The rules that count among these, in another order. -/
def exampleRulesAgain : List ConversionRule :=
  [⟨.integer, .string, exampleWord "integer"⟩, ⟨.any, .string, exampleWord "any"⟩,
    ⟨.number, .string, exampleWord "number"⟩]

theorem decided_by_lastConverter_exampleRules :
    (∀ source target,
      lastConverter? exampleRules source target = lastConverter? exampleRulesAgain source target) ∧
    (∀ j target, (registerAll {} exampleRules).convert j target =
      (registerAll {} exampleRulesAgain).convert j target) ∧
    Converts (lastConverter? exampleRules) (.number (.integer 5)) .string
      (pure (.string "integer")) ∧
    Converts (lastConverter? exampleRules) (.bool true) .string (pure (.string "any")) ∧
    (registerAll {} exampleRules).pairs =
      [(.any, .string), (.number, .string), (.integer, .string)] := by
  have hlast : ∀ source target,
      lastConverter? exampleRules source target =
        lastConverter? exampleRulesAgain source target := by
    intro source target
    cases source <;> cases target <;> rfl
  obtain ⟨spec, order, -, -, pairs⟩ := decided_by_lastConverter exampleRules
  exact ⟨hlast, order exampleRulesAgain hlast, (spec _ _ _).1 rfl, (spec _ _ _).1 rfl,
    pairs.trans (by decide)⟩

end Conversions

end EntityModel
