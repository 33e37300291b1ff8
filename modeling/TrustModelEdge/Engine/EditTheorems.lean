/-
TrustModelEdge.Engine.EditTheorems — what an edit of a bundle does to its
answers.

The evaluator sorts the rules and stops at the first match, so a rule put
into a bundle is found, or makes no difference (`evaluate_insert`); rules of
different priority or action may stand in any order (`evaluate_reorder`); and
edits that add or widen denials, or drop or narrow permissions, never allow
what was not allowed before (`tightened_never_allows_more`).
-/
import Mathlib.Logic.Relation
import TrustModelEdge.Engine.ConditionTheorems

namespace TrustModelEdge.Engine

open Py Policy Lib

/-- The policy with other rules in its bundle. -/
def withRules (p : EdgePolicy) (rules : List PolicyRule) : EdgePolicy :=
  { p with bundle := { p.bundle with rules := rules } }

section Edits

variable [PyRuntime] {p : EdgePolicy} {inp : EvaluationInput} {rs rs' : List PolicyRule}
  {r r' : PolicyRule}

/-! ## One rule more or less -/

/-- The rule that the scan finds. -/
def winner (inp : EvaluationInput) (rules : List PolicyRule) : Option PolicyRule :=
  (rules.insertionSort (ruleKey · ≤ ruleKey ·)).find? (ruleMatches inp)

/-- The answer of a rule, or of none. -/
def answerOf (t : Float64) (inp : EvaluationInput) : Option PolicyRule → EvaluationResult
  | some r => { resolveAction (compileRule r) inp with latencyMs := t }
  | none => failSafe t

theorem evaluate_eq_answerOf (p : EdgePolicy) (inp : EvaluationInput) (t : Float64) :
    evaluate t (compile p) inp = answerOf t inp (winner inp p.bundle.rules) := by
  cases h : winner inp p.bundle.rules with
  | some r =>
    obtain ⟨i, hwins⟩ := find?_insertionSort_iff.mp h
    exact evaluate_of_wins hwins t
  | none => exact evaluate_of_no_match (find?_insertionSort_eq_none.mp h) t

/-- Between the rules `rs` and `rs'` the rule `r` is the first that matches. -/
def Fires (inp : EvaluationInput) (rs : List PolicyRule) (r : PolicyRule) (rs' : List PolicyRule) :
    Prop :=
  Beats ruleKey (ruleMatches inp) rs r rs'

/-- **A rule more or less.** Wherever a rule is put into a bundle: of the inputs for which
it is the least match there, the answer is its action; of all others the answer is as
without it. -/
theorem evaluate_insert (p : EdgePolicy) (rs : List PolicyRule) (r : PolicyRule)
    (rs' : List PolicyRule) (inp : EvaluationInput) (t : Float64) :
    (Fires inp rs r rs' →
      evaluate t (compile (withRules p (rs ++ r :: rs'))) inp =
        { resolveAction (compileRule r) inp with latencyMs := t }) ∧
    (¬ Fires inp rs r rs' →
      evaluate t (compile (withRules p (rs ++ r :: rs'))) inp =
        evaluate t (compile (withRules p (rs ++ rs'))) inp) := by
  constructor
  · intro h
    have hw : winner inp (rs ++ r :: rs') = some r := find?_insertionSort_of_beats h
    rw [evaluate_eq_answerOf]
    show answerOf t inp (winner inp (rs ++ r :: rs')) = _
    rw [hw]
    rfl
  · intro h
    have hw : winner inp (rs ++ r :: rs') = winner inp (rs ++ rs') :=
      find?_insertionSort_of_not_beats h
    rw [evaluate_eq_answerOf, evaluate_eq_answerOf]
    show answerOf t inp (winner inp (rs ++ r :: rs')) = answerOf t inp (winner inp (rs ++ rs'))
    rw [hw]

/-! ## The order of the rules -/

/-- The rules of one priority and action order stand in the same order in both lists. -/
def SameRanks (rs rs' : List PolicyRule) : Prop := ∀ k, ofKey ruleKey k rs = ofKey ruleKey k rs'

/-- **The order matters within a rank only.** -/
theorem evaluate_reorder (p : EdgePolicy) (h : SameRanks rs rs') (inp : EvaluationInput)
    (t : Float64) :
    evaluate t (compile (withRules p rs)) inp = evaluate t (compile (withRules p rs')) inp := by
  have hw : winner inp rs = winner inp rs' := find?_insertionSort_congr h
  rw [evaluate_eq_answerOf, evaluate_eq_answerOf]
  show answerOf t inp (winner inp rs) = answerOf t inp (winner inp rs')
  rw [hw]

/-! ## Tightening -/

/-- The first rule matches no more than the second. -/
def Narrower (r r' : PolicyRule) : Prop :=
  ∀ inp, ruleMatches inp r = true → ruleMatches inp r' = true

/-- The edits that take permissions away. -/
inductive Tightens : List PolicyRule → List PolicyRule → Prop where
  | addDeny (rs rs' : List PolicyRule) (r : PolicyRule) (h : baseAction r.then_ = "deny") :
      Tightens (rs ++ rs') (rs ++ r :: rs')
  | dropAllow (rs rs' : List PolicyRule) (r : PolicyRule) (h : baseAction r.then_ = "allow") :
      Tightens (rs ++ r :: rs') (rs ++ rs')
  /-- A rule that matches less, or comes later. -/
  | narrowAllow (rs rs' : List PolicyRule) (r r' : PolicyRule) (h : baseAction r.then_ = "allow")
      (h' : baseAction r'.then_ = "allow") (hpriority : r.priority ≤ r'.priority)
      (hmatch : Narrower r' r) : Tightens (rs ++ r :: rs') (rs ++ r' :: rs')
  /-- A rule that matches more, or comes earlier. -/
  | widenDeny (rs rs' : List PolicyRule) (r r' : PolicyRule) (h : baseAction r.then_ = "deny")
      (h' : baseAction r'.then_ = "deny") (hpriority : r'.priority ≤ r.priority)
      (hmatch : Narrower r r') : Tightens (rs ++ r :: rs') (rs ++ r' :: rs')
  | reorder (rs rs' : List PolicyRule) (h : SameRanks rs rs') : Tightens rs rs'

omit [PyRuntime] in
theorem ruleKey_le (hbase : baseAction r.then_ = baseAction r'.then_)
    (hpriority : r.priority ≤ r'.priority) : ruleKey r ≤ ruleKey r' := by
  unfold ruleKey
  rw [hbase, Prod.Lex.toLex_le_toLex]
  rcases hpriority.lt_or_eq with h | h
  · exact Or.inl h
  · exact Or.inr ⟨h, le_rfl⟩

/-- A rule with more conditions matches no more. -/
theorem narrower_of_conditions (h : ∀ k v, r'.when.lookup k = some v → r.when.lookup k = some v) :
    Narrower r r' := by
  intro inp hm
  rw [ruleMatches, patternMatches_iff] at hm ⊢
  intro hrefused
  refine hm ?_
  cases hrefused with
  | tool v hv hnull hstar hprint => exact .tool v (h _ _ hv) hnull hstar hprint
  | absent key hv habsent => exact .absent key (h _ _ hv) habsent
  | unequal key v hv hne hdiff => exact .unequal key v (h _ _ hv) hne hdiff
  | subject v hv htruthy hno => exact .subject v (h _ _ hv) htruthy hno

/-- A rule that matches more and comes earlier fires where the other does. -/
theorem Fires.mono (h : Fires inp rs r' rs') (hkey : ruleKey r ≤ ruleKey r')
    (hmatch : Narrower r' r) : Fires inp rs r rs' := by
  obtain ⟨hm, hfront, hback⟩ := h
  exact ⟨hmatch inp hm, fun a ha hpa => hkey.trans_lt (hfront a ha hpa),
    fun b hb hpb => hkey.trans (hback b hb hpb)⟩

/-- The bundle with these rules allows the input. -/
def Allows (p : EdgePolicy) (inp : EvaluationInput) (t : Float64) (rules : List PolicyRule) :
    Prop :=
  (evaluate t (compile (withRules p rules)) inp).verdict = "allow"

theorem allows_of_fires {t : Float64} (h : Fires inp rs r rs')
    (hbase : baseAction r.then_ = "allow") : Allows p inp t (rs ++ r :: rs') := by
  rw [Allows, (evaluate_insert p rs r rs' inp t).1 h]
  exact (resolveAction_allow_iff r inp).mpr (Or.inl hbase)

theorem not_allows_of_fires {t : Float64} (h : Fires inp rs r rs')
    (hbase : baseAction r.then_ = "deny") : ¬ Allows p inp t (rs ++ r :: rs') := by
  have hallow : ("deny" : Str) ≠ ("allow" : Str) := by decide
  have hredact : ("deny" : Str) ≠ ("redact" : Str) := by decide
  intro hallows
  rw [Allows, (evaluate_insert p rs r rs' inp t).1 h] at hallows
  rcases (resolveAction_allow_iff r inp).mp hallows with h' | ⟨h', -⟩
  · exact hallow (hbase.symm.trans h')
  · exact hredact (hbase.symm.trans h')

theorem allows_congr_of_not_fires {t : Float64} (h : ¬ Fires inp rs r rs') :
    Allows p inp t (rs ++ r :: rs') ↔ Allows p inp t (rs ++ rs') := by
  rw [Allows, (evaluate_insert p rs r rs' inp t).2 h, Allows]

/-- One edit allows nothing that was not allowed. -/
theorem Tightens.allows {t : Float64} (h : Tightens rs rs') (hallows : Allows p inp t rs') :
    Allows p inp t rs := by
  cases h with
  | addDeny front back r hbase =>
    by_cases hfires : Fires inp front r back
    · exact absurd hallows (not_allows_of_fires hfires hbase)
    · exact (allows_congr_of_not_fires hfires).mp hallows
  | dropAllow front back r hbase =>
    by_cases hfires : Fires inp front r back
    · exact allows_of_fires hfires hbase
    · exact (allows_congr_of_not_fires hfires).mpr hallows
  | narrowAllow front back r r' hbase hbase' hpriority hmatch =>
    by_cases hfires : Fires inp front r back
    · exact allows_of_fires hfires hbase
    · have hfires' : ¬ Fires inp front r' back := fun h' =>
        hfires (h'.mono (ruleKey_le (hbase.trans hbase'.symm) hpriority) hmatch)
      exact (allows_congr_of_not_fires hfires).mpr ((allows_congr_of_not_fires hfires').mp hallows)
  | widenDeny front back r r' hbase hbase' hpriority hmatch =>
    by_cases hfires' : Fires inp front r' back
    · exact absurd hallows (not_allows_of_fires hfires' hbase')
    · have hfires : ¬ Fires inp front r back := fun h' =>
        hfires' (h'.mono (ruleKey_le (hbase'.trans hbase.symm) hpriority) hmatch)
      exact (allows_congr_of_not_fires hfires).mpr ((allows_congr_of_not_fires hfires').mp hallows)
  | reorder _ _ hranks =>
    rw [Allows] at hallows ⊢
    rwa [evaluate_reorder p hranks]

/-- **A tightened bundle never allows more**, by whatever sequence of such edits. -/
theorem tightened_never_allows_more (p : EdgePolicy) {rs rs' : List PolicyRule}
    (h : Relation.ReflTransGen Tightens rs rs') (inp : EvaluationInput) (t : Float64)
    (hallows : Allows p inp t rs') : Allows p inp t rs := by
  induction h with
  | refl => exact hallows
  | tail _ hedit ih => exact ih (hedit.allows hallows)

end Edits

/-! The permission of any tool is narrowed to calls with `confirm`, and then a denial of
one tool is added. -/

def permitAll : PolicyRule where
  ruleId := "permit"
  when := anyTool
  then_ := "allow"

def permitConfirmed : PolicyRule where
  ruleId := "permit"
  when := anyTool.insert (("args.confirm" : String) : Str) (.bool true)
  then_ := "allow"

def denyDelete : PolicyRule where
  ruleId := "no-delete"
  when := AList.singleton ("tool" : Str) (.str "record.delete")
  then_ := "deny"

def confirmedCall : EvaluationInput where
  tool := "record.update"
  args := AList.singleton ("confirm" : Str) (.bool false)

theorem permitConfirmed_narrower : @Narrower asciiRuntime permitConfirmed permitAll := by
  refine @narrower_of_conditions asciiRuntime permitConfirmed permitAll fun k v hv => ?_
  have hk : k ≠ (("args.confirm" : String) : Str) := by
    rintro rfl
    revert hv
    show anyTool.lookup _ = some v → _
    have hnone : anyTool.lookup (("args.confirm" : String) : Str) = none := by decide
    rw [hnone]
    intro hv
    cases hv
  show (anyTool.insert (("args.confirm" : String) : Str) (.bool true)).lookup k = some v
  rw [AList.lookup_insert_ne hk]
  exact hv

/-- A call that the tightened bundle allows was allowed. -/
theorem tightened_never_allows_more_confirmed :
    @Allows asciiRuntime redactBeforeDeny confirmedCall 0 [permitAll] := by
  refine @tightened_never_allows_more asciiRuntime redactBeforeDeny [permitAll]
    [denyDelete, permitConfirmed] ?_ confirmedCall 0 ?_
  · exact (Relation.ReflTransGen.single (@Tightens.narrowAllow asciiRuntime [] [] permitAll
      permitConfirmed (by decide) (by decide) (by decide) permitConfirmed_narrower)).tail
      (@Tightens.addDeny asciiRuntime [] [permitConfirmed] denyDelete (by decide))
  · show (@evaluate asciiRuntime 0 (@compile asciiRuntime
      (withRules redactBeforeDeny [denyDelete, permitConfirmed])) confirmedCall).verdict = _
    decide +kernel

theorem sameRanks_swap {a b : PolicyRule} (h : ruleKey a ≠ ruleKey b) :
    SameRanks [a, b] [b, a] := by
  intro k
  by_cases ha : ruleKey a = k <;> by_cases hb : ruleKey b = k
  · exact absurd (ha.trans hb.symm) h
  · simp [ofKey, ha, hb]
  · simp [ofKey, ha, hb]
  · simp [ofKey, ha, hb]

/-- A permission and a denial of the same priority may stand in either order. -/
theorem evaluate_reorder_deny :
    @evaluate asciiRuntime 0 (@compile asciiRuntime (withRules redactBeforeDeny
        [permitAll, denyDelete])) confirmedCall =
      @evaluate asciiRuntime 0 (@compile asciiRuntime (withRules redactBeforeDeny
        [denyDelete, permitAll])) confirmedCall :=
  @evaluate_reorder asciiRuntime [permitAll, denyDelete] [denyDelete, permitAll] redactBeforeDeny
    (sameRanks_swap (by decide)) confirmedCall 0

end TrustModelEdge.Engine
