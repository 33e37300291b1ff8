/-
TrustModelEdge.Engine.RedactionTheorems — what the winning rule does to the
arguments, and which verdicts there are.

`Listed` reads the targets off the text of a redact rule without the
program's splitting: a colon, then pieces without commas, joined by commas.
The redactions are then the listed targets that name an argument, in the
order of the text.
-/
import TrustModelEdge.Engine.ConditionTheorems

namespace TrustModelEdge.Engine

open Py Policy

/-! ## The targets of a rule -/

def colon : CodePoint := CodePoint.ofChar ':'

def comma : CodePoint := CodePoint.ofChar ','

/-- The entries after the first colon of an action, trimmed, empties dropped. -/
inductive Listed : Str → List Str → Prop where
  | bare (action : Str) (h : colon ∉ action) : Listed action []
  | targets (base : Str) (pieces : List Str) (hbase : colon ∉ base) (hne : pieces ≠ [])
      (hpieces : ∀ piece ∈ pieces, comma ∉ piece) :
      Listed (base ++ colon :: join [comma] pieces) ((pieces.map strip).filter (· ≠ []))

/-- The target names an argument of the input. -/
def Targets (inp : EvaluationInput) (entry : Str) : Prop :=
  ∃ key, entry = argsDot ++ key ∧ key ∈ inp.args

theorem targetPresent_iff {inp : EvaluationInput} {entry : Str} :
    targetPresent inp entry = true ↔ Targets inp entry := by
  simp only [targetPresent, Bool.and_eq_true, decide_eq_true_iff, startsWith_iff]
  constructor
  · rintro ⟨⟨key, rfl⟩, hmem⟩
    rw [removePrefix_append] at hmem
    exact ⟨key, rfl, hmem⟩
  · rintro ⟨key, rfl, hmem⟩
    refine ⟨⟨key, rfl⟩, ?_⟩
    rw [removePrefix_append]
    exact hmem

instance (inp : EvaluationInput) : DecidablePred (Targets inp) :=
  fun _ => decidable_of_iff _ targetPresent_iff

/-- Every action is a base action, alone or with pieces listed after it. -/
theorem exists_listed (action : Str) : ∃ entries, Listed action entries := by
  by_cases h : colon ∈ action
  · obtain ⟨base, rest, rfl, hbase⟩ := List.eq_append_cons_of_mem h
    have hpieces : join [comma] (rest.splitOn comma) = rest := List.intercalate_splitOn comma
    have hcomma : ∀ piece ∈ rest.splitOn comma, comma ∉ piece := by
      intro piece hp hc
      have := mem_splitOnP _ rest hp comma hc
      simp at this
    have hlisted :=
      Listed.targets base (rest.splitOn comma) hbase (List.splitOn_ne_nil _ _) hcomma
    rw [hpieces] at hlisted
    exact ⟨_, hlisted⟩
  · exact ⟨[], .bare action h⟩

/-- The compiler lists what is listed. -/
theorem redactEntries_of_listed {action : Str} {entries : List Str} (h : Listed action entries) :
    redactEntries action = entries := by
  cases h with
  | bare _ h =>
    have hcut : splitMax (CodePoint.ofChar ':') 1 action = [action] :=
      splitMax_of_not_mem h 1
    simp [redactEntries, hcut]
    decide
  | targets base pieces hbase hne hpieces =>
    have hcut : splitMax (CodePoint.ofChar ':') 1 (base ++ colon :: join [comma] pieces) =
        [base, join [comma] pieces] := splitMax_append hbase 0 _
    have hsplit : split comma (join [comma] pieces) = pieces :=
      List.splitOn_intercalate comma hpieces hne
    simp only [redactEntries, hcut]
    show ((split comma (join [comma] pieces)).map strip).filter _ = _
    rw [hsplit]

/-! ## The redactions -/

section Redactions

variable [PyRuntime]

/-- The result of a redact rule. -/
theorem resolveAction_redact {r : PolicyRule} (inp : EvaluationInput) {entries : List Str}
    (hbase : baseAction r.then_ = "redact") (hlisted : Listed r.then_ entries) :
    ((∃ entry ∈ entries, Targets inp entry) →
      (resolveAction (compileRule r) inp).verdict = "redact" ∧
        (resolveAction (compileRule r) inp).redactions =
          entries.filter (fun entry => decide (Targets inp entry))) ∧
    ((∀ entry ∈ entries, ¬ Targets inp entry) →
      (resolveAction (compileRule r) inp).redactions = []) := by
  have hpaths : (compileRule r).redactPaths = entries := by
    rw [← redactEntries_of_listed hlisted]
    exact if_pos hbase
  have hpresent : entries.filter (targetPresent inp) =
      entries.filter (fun entry => decide (Targets inp entry)) :=
    List.filter_congr fun entry _ => by
      rw [Bool.eq_iff_iff, targetPresent_iff, decide_eq_true_iff]
  have hact : baseAction (compileRule r).action = "redact" := hbase
  unfold resolveAction
  simp only [hact, if_true, hpaths, hpresent]
  constructor
  · rintro ⟨entry, hmem, htarget⟩
    have hne : entries.filter (fun entry => decide (Targets inp entry)) ≠ [] :=
      List.ne_nil_of_mem (List.mem_filter.mpr ⟨hmem, decide_eq_true htarget⟩)
    rw [if_neg hne]
    exact ⟨rfl, rfl⟩
  · intro hnone
    have hnil : entries.filter (fun entry => decide (Targets inp entry)) = [] := by
      simpa [List.filter_eq_nil_iff] using hnone
    rw [if_pos hnil]

/-- A rule of another action redacts nothing. -/
theorem resolveAction_other {r : PolicyRule} {inp : EvaluationInput}
    (hbase : baseAction r.then_ ≠ "redact") :
    (resolveAction (compileRule r) inp).redactions = [] := by
  have hact : ¬ baseAction (compileRule r).action = "redact" := hbase
  unfold resolveAction
  simp only [hact, if_false]

/-- A rule wins, or none matches. -/
theorem wins_or_none (p : EdgePolicy) (inp : EvaluationInput) :
    (∃ i r, Wins p.bundle.rules inp i r) ∨ ∀ r ∈ p.bundle.rules, ruleMatches inp r = false := by
  by_cases hmatch : ∃ r ∈ p.bundle.rules, ruleMatches inp r = true
  · obtain ⟨r, hr, hm⟩ := hmatch
    exact Or.inl (exists_wins hr hm)
  · refine Or.inr fun r hr => ?_
    cases hm : ruleMatches inp r with
    | false => rfl
    | true => exact absurd ⟨r, hr, hm⟩ hmatch

/-- **Redactions are sound and complete.** Where a redact rule wins, the targets
that its text lists and that name an argument are redacted, in their order; where
there are none, and where no redact rule wins, nothing is. -/
theorem redactions_are_listed_targets (p : EdgePolicy) (inp : EvaluationInput) (t : Float64) :
    let result := evaluate t (compile p) inp
    (∀ i r, Wins p.bundle.rules inp i r → baseAction r.then_ = "redact" →
      ∃ entries, Listed r.then_ entries ∧
        ((∃ entry ∈ entries, Targets inp entry) →
          result.verdict = "redact" ∧
            result.redactions = entries.filter (fun entry => decide (Targets inp entry))) ∧
        ((∀ entry ∈ entries, ¬ Targets inp entry) → result.redactions = [])) ∧
    ((∀ i r, Wins p.bundle.rules inp i r → baseAction r.then_ ≠ "redact") →
      result.redactions = []) := by
  intro result
  constructor
  · intro i r hwins hbase
    have hresult : result = { resolveAction (compileRule r) inp with latencyMs := t } :=
      evaluate_of_wins hwins t
    obtain ⟨entries, hlisted⟩ := exists_listed r.then_
    obtain ⟨hsome, hnone⟩ := resolveAction_redact inp hbase hlisted
    rw [hresult]
    exact ⟨entries, hlisted, hsome, hnone⟩
  · intro hother
    rcases wins_or_none p inp with ⟨i, r, hwins⟩ | hno
    · have hresult : result = { resolveAction (compileRule r) inp with latencyMs := t } :=
        evaluate_of_wins hwins t
      rw [hresult]
      exact resolveAction_other (hother i r hwins)
    · have hresult : result = failSafe t := evaluate_of_no_match hno t
      rw [hresult]
      rfl

end Redactions

/-! ## The verdicts -/

/-- The verdicts that an `EvaluationResult` has by its comment. -/
def InProtocol (verdict : Str) : Prop := verdict = "allow" ∨ verdict = "deny" ∨ verdict = "redact"

instance : DecidablePred InProtocol := fun _ => inferInstanceAs (Decidable (_ ∨ _))

section Verdicts

variable [PyRuntime]

theorem resolveAction_inProtocol_iff (r : PolicyRule) (inp : EvaluationInput) :
    InProtocol (resolveAction (compileRule r) inp).verdict ↔ InProtocol (baseAction r.then_) := by
  have hact : (compileRule r).action = r.then_ := rfl
  by_cases hbase : baseAction r.then_ = "redact"
  · have hin : InProtocol (baseAction r.then_) := Or.inr (Or.inr hbase)
    refine iff_of_true ?_ hin
    simp only [resolveAction, hact, hbase, if_true]
    split
    · exact Or.inl rfl
    · exact Or.inr (Or.inr rfl)
  · simp only [resolveAction, hact, hbase, if_false]

/-- A verdict is one of the three exactly when the base action of the winner is. -/
theorem evaluate_inProtocol_iff (p : EdgePolicy) (inp : EvaluationInput) (t : Float64) :
    InProtocol (evaluate t (compile p) inp).verdict ↔
      ∀ i r, Wins p.bundle.rules inp i r → InProtocol (baseAction r.then_) := by
  rcases wins_or_none p inp with ⟨i, r, hwins⟩ | hno
  · rw [evaluate_of_wins hwins, resolveAction_inProtocol_iff]
    constructor
    · intro h j s hs
      obtain ⟨-, rfl⟩ := hs.unique hwins
      exact h
    · exact fun h => h i r hwins
  · rw [evaluate_of_no_match hno]
    refine iff_of_true (Or.inr (Or.inl rfl)) ?_
    intro i r hwins
    have hm := hno r (List.mem_of_getElem? hwins.1)
    rw [hwins.2.1] at hm
    cases hm

end Verdicts

end TrustModelEdge.Engine
