/-
TrustModelEdge.Engine.EvaluatorTheorems — the verdict of a compiled
bundle, read off the bundle itself.

The source compiles to a sorted list and scans it for the first match.
`Wins` states which rule of the ORIGINAL list that is: the matching rule
that is least by priority, action order and position. The theorems below
are then about the winner and never about the sorted list again.

A redact rule that finds none of its targets answers `allow`
(`resolveAction`, the no-op branch), so an allow verdict has two sources,
and `evaluate_allow_iff` names both.
-/
import TrustModelEdge.Policy.Snapshot
import TrustModelEdge.Lib.LeastMatch

namespace TrustModelEdge.Engine

open Py Policy Lib

section Verdicts

variable [PyRuntime]

/-- A rule of a bundle matches an input when its compiled pattern does. -/
def ruleMatches (inp : EvaluationInput) (r : PolicyRule) : Bool :=
  patternMatches (compileRule r).pattern inp

/-- The rank of a rule before position is looked at. -/
def ruleKey (r : PolicyRule) : Int ×ₗ Nat := toLex (r.priority, actionOrder (baseAction r.then_))

/-- The rule `r`, at position `i` of the bundle, wins: it matches, and it is
least among the matching rules by priority, action order and position. -/
def Wins (rules : List PolicyRule) (inp : EvaluationInput) (i : Nat) (r : PolicyRule) : Prop :=
  IsLeastMatch ruleKey (ruleMatches inp) rules i r

/-! ## The winner -/

theorem find?_compile_iff {p : EdgePolicy} {inp : EvaluationInput} {c : CompiledRule} :
    (compile p).rules.find? (fun rule => patternMatches rule.pattern inp) = some c ↔
      ∃ i r, Wins p.bundle.rules inp i r ∧ compileRule r = c := by
  unfold compile compilePolicy
  rw [find?_insertionSort_iff]
  simp only [isLeastMatch_map]
  constructor
  · rintro ⟨i, r, hc, hr⟩; exact ⟨i, r, hr, hc⟩
  · rintro ⟨i, r, hr, hc⟩; exact ⟨i, r, hc, hr⟩

theorem find?_compile_eq_none {p : EdgePolicy} {inp : EvaluationInput} :
    (compile p).rules.find? (fun rule => patternMatches rule.pattern inp) = none ↔
      ∀ r ∈ p.bundle.rules, ruleMatches inp r = false := by
  unfold compile compilePolicy
  rw [find?_insertionSort_eq_none]
  simp [ruleMatches]

/-- Evaluation answers with the winner's action. -/
theorem evaluate_of_wins {p : EdgePolicy} {inp : EvaluationInput} {i : Nat} {r : PolicyRule}
    (h : Wins p.bundle.rules inp i r) (t : Float64) :
    evaluate t (compile p) inp =
      { resolveAction (compileRule r) inp with latencyMs := t } := by
  unfold evaluate
  rw [find?_compile_iff.mpr ⟨i, r, h, rfl⟩]

/-- Evaluation denies when no rule matches. -/
theorem evaluate_of_no_match {p : EdgePolicy} {inp : EvaluationInput}
    (h : ∀ r ∈ p.bundle.rules, ruleMatches inp r = false) (t : Float64) :
    evaluate t (compile p) inp = failSafe t := by
  unfold evaluate
  rw [find?_compile_eq_none.mpr h]

/-- Some rule wins as soon as one matches. -/
theorem exists_wins {p : EdgePolicy} {inp : EvaluationInput} {r : PolicyRule}
    (hr : r ∈ p.bundle.rules) (hm : ruleMatches inp r = true) :
    ∃ i w, Wins p.bundle.rules inp i w := by
  cases hf : (compile p).rules.find? (fun rule => patternMatches rule.pattern inp) with
  | none =>
    have := find?_compile_eq_none.mp hf r hr
    rw [hm] at this; simp at this
  | some c =>
    obtain ⟨i, w, hw, _⟩ := find?_compile_iff.mp hf
    exact ⟨i, w, hw⟩

/-- A rule loses to a matching rule of its priority whose action comes
earlier in deny, redact, allow, whatever their positions. -/
theorem not_wins_of_actionOrder_lt {rules : List PolicyRule} {inp : EvaluationInput} {i j : Nat}
    {r s : PolicyRule} (hr : rules[i]? = some r) (hm : ruleMatches inp r = true)
    (hp : r.priority = s.priority)
    (ho : actionOrder (baseAction r.then_) < actionOrder (baseAction s.then_)) :
    ¬ Wins rules inp j s := by
  intro hs
  have hle := hs.2.2 i r hr hm
  have hlt : ruleKey r < ruleKey s :=
    Prod.Lex.toLex_lt_toLex.mpr (Or.inr ⟨hp, ho⟩)
  rw [Prod.Lex.toLex_le_toLex] at hle
  rcases hle with h | ⟨h, _⟩
  · exact absurd h hlt.asymm
  · exact absurd h hlt.ne'

/-- **The verdict is the winner's.** Evaluation of a compiled bundle resolves
the action of the one rule that wins in the bundle as listed, and denies
under `default.fail_safe` when no rule matches; among matching rules of
one priority, deny beats redact beats allow at whatever positions. -/
theorem evaluate_compile_winner (p : EdgePolicy) (inp : EvaluationInput) (t : Float64) :
    (∀ i r, Wins p.bundle.rules inp i r →
      evaluate t (compile p) inp =
        { resolveAction (compileRule r) inp with latencyMs := t }) ∧
    ((∃ r ∈ p.bundle.rules, ruleMatches inp r = true) →
      ∃ i r, Wins p.bundle.rules inp i r ∧
        ∀ j s, Wins p.bundle.rules inp j s → j = i ∧ s = r) ∧
    ((∀ r ∈ p.bundle.rules, ruleMatches inp r = false) →
      (evaluate t (compile p) inp).verdict = "deny" ∧
      (evaluate t (compile p) inp).ruleId = "default.fail_safe") ∧
    (∀ (i j : Nat) (r s : PolicyRule),
      p.bundle.rules[i]? = some r → ruleMatches inp r = true →
      r.priority = s.priority →
      actionOrder (baseAction r.then_) < actionOrder (baseAction s.then_) →
      ¬ Wins p.bundle.rules inp j s) := by
  refine ⟨fun i r h => evaluate_of_wins h t, ?_, ?_, ?_⟩
  · rintro ⟨r, hr, hm⟩
    obtain ⟨i, w, hw⟩ := exists_wins hr hm
    exact ⟨i, w, hw, fun j s hs => hs.unique hw⟩
  · intro h
    rw [evaluate_of_no_match h t]
    exact ⟨rfl, rfl⟩
  · intro i j r s hr hm hp ho
    exact not_wins_of_actionOrder_lt hr hm hp ho

/-! ## Where an allow comes from -/

/-- None of a rule's listed redact targets is an argument of the input. -/
def NoTargetPresent (r : PolicyRule) (inp : EvaluationInput) : Prop :=
  ∀ q ∈ redactEntries r.then_, targetPresent inp q = false

/-- A rule's action answers `allow` in two ways: its base action says so, or
it redacts and finds nothing to redact. -/
theorem resolveAction_allow_iff (r : PolicyRule) (inp : EvaluationInput) :
    (resolveAction (compileRule r) inp).verdict = "allow" ↔
      baseAction r.then_ = "allow" ∨
        (baseAction r.then_ = "redact" ∧ NoTargetPresent r inp) := by
  have hra : ("redact" : Str) ≠ ("allow" : Str) := by decide
  by_cases hb : baseAction r.then_ = ("redact" : Str)
  · have hpaths : (compileRule r).redactPaths = redactEntries r.then_ := if_pos hb
    have hbase : baseAction (compileRule r).action = ("redact" : Str) := hb
    unfold resolveAction
    rw [if_pos hbase, hpaths]
    by_cases hp : (redactEntries r.then_).filter (targetPresent inp) = []
    · have hno : NoTargetPresent r inp := fun q hq => by
        simpa using List.filter_eq_nil_iff.mp hp q hq
      simp [hp, hb, hno]
    · have hyes : ¬ NoTargetPresent r inp := fun hno =>
        hp (List.filter_eq_nil_iff.mpr fun q hq => by simp [hno q hq])
      simp [hp, hb, hra, hyes]
  · have hbase : ¬ baseAction (compileRule r).action = ("redact" : Str) := hb
    unfold resolveAction
    rw [if_neg hbase]
    have hact : (compileRule r).action = r.then_ := rfl
    simp [hact, hb]

/-- **An allow verdict has one of two sources**: the winner is an allow rule,
or a redact rule none of whose targets is present. -/
theorem evaluate_allow_iff (p : EdgePolicy) (inp : EvaluationInput) (t : Float64) :
    (evaluate t (compile p) inp).verdict = "allow" ↔
      ∃ i r, Wins p.bundle.rules inp i r ∧
        (baseAction r.then_ = "allow" ∨
          (baseAction r.then_ = "redact" ∧ NoTargetPresent r inp)) := by
  constructor
  · intro h
    cases hf : (compile p).rules.find? (fun rule => patternMatches rule.pattern inp) with
    | none =>
      rw [evaluate_of_no_match (find?_compile_eq_none.mp hf) t] at h
      have hda : ("deny" : Str) ≠ ("allow" : Str) := by decide
      exact absurd h hda
    | some c =>
      obtain ⟨i, r, hw, _⟩ := find?_compile_iff.mp hf
      rw [evaluate_of_wins hw t] at h
      exact ⟨i, r, hw, (resolveAction_allow_iff r inp).mp h⟩
  · rintro ⟨i, r, hw, hr⟩
    rw [evaluate_of_wins hw t]
    exact (resolveAction_allow_iff r inp).mpr hr

end Verdicts

/-! ## Two inputs that a policy cannot tell apart -/

/-- What a rule looks at is the same in both inputs: which of the arguments and
subject attributes it names are present, and the values it compares. -/
structure RuleAgrees (rule : CompiledRule) (inp inp' : EvaluationInput) : Prop where
  present : ∀ k ∈ rule.pattern.argKeysPresent, k ∈ inp.args ↔ k ∈ inp'.args
  compared : ∀ e ∈ rule.pattern.argEquals.entries, inp.arg e.1 = inp'.arg e.1
  redacted : ∀ p ∈ rule.redactPaths, startsWith p argsDot = true →
    (removePrefix p argsDot ∈ inp.args ↔ removePrefix p argsDot ∈ inp'.args)
  subject : ∀ a, rule.pattern.subjectAttr = some a →
    inp.hasSubjectAttr a = inp'.hasSubjectAttr a

section Agreement

variable {rule : CompiledRule} {inp inp' : EvaluationInput}

theorem patternMatches_agree (htool : inp.tool = inp'.tool) (h : RuleAgrees rule inp inp') :
    patternMatches rule.pattern inp = patternMatches rule.pattern inp' := by
  have hpresent : decide (∀ k ∈ rule.pattern.argKeysPresent, k ∈ inp.args) =
      decide (∀ k ∈ rule.pattern.argKeysPresent, k ∈ inp'.args) := by
    rw [decide_eq_decide]
    exact forall_congr' fun k => imp_congr_right fun hk => h.present k hk
  have hcompared : rule.pattern.argEquals.entries.all (fun e => (inp.arg e.1).pyEq e.2) =
      rule.pattern.argEquals.entries.all (fun e => (inp'.arg e.1).pyEq e.2) := by
    rw [Bool.eq_iff_iff, List.all_eq_true, List.all_eq_true]
    exact forall_congr' fun e => imp_congr_right fun he => by rw [h.compared e he]
  unfold patternMatches
  rw [hpresent, hcompared, htool]
  cases hs : rule.pattern.subjectAttr with
  | none => rfl
  | some a => simp only [h.subject a hs]

theorem targetPresent_agree (h : RuleAgrees rule inp inp') {p : Str} (hp : p ∈ rule.redactPaths) :
    targetPresent inp p = targetPresent inp' p := by
  unfold targetPresent
  cases hs : startsWith p argsDot with
  | false => rfl
  | true => simp only [h.redacted p hp hs]

theorem resolveAction_agree [PyRuntime] (h : RuleAgrees rule inp inp') :
    resolveAction rule inp = resolveAction rule inp' := by
  have hpresent : rule.redactPaths.filter (targetPresent inp) =
      rule.redactPaths.filter (targetPresent inp') :=
    List.filter_congr fun p hp => targetPresent_agree h hp
  simp only [resolveAction, hpresent]

/-- The scan stops at the same rule. -/
theorem find?_agree (htool : inp.tool = inp'.tool) {rules : List CompiledRule}
    (h : ∀ r ∈ rules, RuleAgrees r inp inp') :
    rules.find? (fun r => patternMatches r.pattern inp) =
      rules.find? (fun r => patternMatches r.pattern inp') := by
  induction rules with
  | nil => rfl
  | cons r rules ih =>
    have hr := patternMatches_agree htool (h r List.mem_cons_self)
    have hrest := ih fun s hs => h s (List.mem_cons_of_mem _ hs)
    rw [List.find?_cons, List.find?_cons, hr, hrest]

/-- **Agreement.** Inputs that agree on what the rules look at get the same
result, up to the elapsed time. -/
theorem evaluate_agree [PyRuntime] (htool : inp.tool = inp'.tool) {policy : CompiledPolicy}
    (h : ∀ r ∈ policy.rules, RuleAgrees r inp inp') (t u : Float64) :
    evaluate u policy inp' = { evaluate t policy inp with latencyMs := u } := by
  unfold evaluate
  rw [← find?_agree htool h]
  cases hf : policy.rules.find? (fun r => patternMatches r.pattern inp) with
  | none => rfl
  | some r =>
    have hr := resolveAction_agree (h r (List.mem_of_find?_eq_some hf))
    simp only [hr]

end Agreement

/-! A bundle with a redact rule in front of a deny rule, and a call without
arguments: the redact rule wins and allows. -/

def anyTool : Dict Json := AList.singleton ("tool" : Str) (.str "*")

def redactBeforeDeny : EdgePolicy where
  id := "pol-1"
  tenantId := "acme"
  name := "demo"
  version := "1"
  bundle :=
    { name := "demo"
      version := "1"
      rules :=
        [{ ruleId := "mask", when := anyTool, then_ := "redact:args.ssn", priority := 10 },
         { ruleId := "block", when := anyTool, then_ := "deny", priority := 20 }] }
  isActive := true
  createdAt := 0

/-- An allow verdict from a bundle without an allow rule, although a deny rule
of the bundle matches too. -/
theorem allow_without_allow_rule :
    let inp : EvaluationInput := { tool := "profile.update", args := ∅ }
    let rules := redactBeforeDeny.bundle.rules
    (@evaluate asciiRuntime 0 (@compile asciiRuntime redactBeforeDeny) inp).verdict
        = ("allow" : Str) ∧
      (¬ ∃ r ∈ rules, @ruleMatches asciiRuntime inp r = true ∧
        baseAction r.then_ = ("allow" : Str)) ∧
      (∃ r ∈ rules, @ruleMatches asciiRuntime inp r = true ∧
        baseAction r.then_ = ("deny" : Str)) := by
  refine ⟨by decide, ?_, ?_⟩
  · rintro ⟨r, hr, -, ha⟩
    simp only [redactBeforeDeny, List.mem_cons, List.not_mem_nil, or_false] at hr
    rcases hr with rfl | rfl <;> revert ha <;> decide
  · exact ⟨_, List.mem_cons_of_mem _ List.mem_cons_self, by decide, by decide⟩

end TrustModelEdge.Engine
