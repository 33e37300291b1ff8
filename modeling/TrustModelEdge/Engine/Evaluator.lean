/-
TrustModelEdge.Engine.Evaluator — `engine/evaluator.py`: walk the
compiled rules in priority order, first match wins.

The elapsed time is what two readings of `time.perf_counter` leave, so
`evaluate` takes it as an argument.
-/
import TrustModelEdge.Engine.Compiler

namespace TrustModelEdge.Engine

open Py

structure EvaluationInput where
  tool : Str
  args : Dict Json
  subject : Option Str := none
  subjectAttrs : Option (Dict Json) := none

structure EvaluationResult where
  verdict : Str
  ruleId : Str
  reason : Str
  redactions : List Str
  matchedFrameworkTags : List Str
  latencyMs : Float64
deriving DecidableEq

/-- `inp.args.get(k)`: an absent argument reads as null. -/
def EvaluationInput.arg (inp : EvaluationInput) (k : Str) : Json :=
  (inp.args.lookup k).getD .null

/-- `inp.subject_attrs` is a non-empty map that holds `a`. -/
def EvaluationInput.hasSubjectAttr (inp : EvaluationInput) (a : Str) : Bool :=
  match inp.subjectAttrs with
  | none => false
  | some attrs => a ∈ attrs

/-- `_matches`. -/
def patternMatches (pattern : MatchPattern) (inp : EvaluationInput) : Bool :=
  (match pattern.tool with
    | none => true
    | some t => t == inp.tool)
  && decide (∀ k ∈ pattern.argKeysPresent, k ∈ inp.args)
  && pattern.argEquals.entries.all (fun e => (inp.arg e.1).pyEq e.2)
  && (match pattern.subjectAttr with
    | none => true
    | some a => inp.hasSubjectAttr a)

/-- A redact target is present when it names, after `args.`, a key of the
arguments. -/
def targetPresent (inp : EvaluationInput) (p : Str) : Bool :=
  startsWith p argsDot && decide (removePrefix p argsDot ∈ inp.args)

/-- `_resolve_action`. -/
def resolveAction [PyRuntime] (rule : CompiledRule) (inp : EvaluationInput) :
    EvaluationResult :=
  let base := baseAction rule.action
  if base = "redact" then
    let present := rule.redactPaths.filter (targetPresent inp)
    if present = [] then
      { verdict := "allow"
        ruleId := rule.ruleId ++ (".no-op-redact" : Str)
        reason := "Redact rule matched but no targeted args present."
        redactions := []
        matchedFrameworkTags := rule.frameworkTags
        latencyMs := 0 }
    else
      { verdict := "redact"
        ruleId := rule.ruleId
        reason := ("Redacted: " : Str) ++
          join (", " : Str) (present.map (removePrefix · argsDot))
        redactions := present
        matchedFrameworkTags := rule.frameworkTags
        latencyMs := 0 }
  else
    { verdict := base
      ruleId := rule.ruleId
      reason := ("Rule " : Str) ++ reprText rule.ruleId ++ (" fired with action " : Str)
        ++ reprText base ++ ("." : Str)
      redactions := []
      matchedFrameworkTags := rule.frameworkTags
      latencyMs := 0 }

/-- The answer when no rule matches. -/
def failSafe (latencyMs : Float64) : EvaluationResult where
  verdict := "deny"
  ruleId := "default.fail_safe"
  reason := "No rule matched; fail-safe deny."
  redactions := []
  matchedFrameworkTags := []
  latencyMs := latencyMs

/-- Walk rules in priority order. First match wins; no match denies. -/
def evaluate [PyRuntime] (latencyMs : Float64) (policy : CompiledPolicy)
    (inp : EvaluationInput) : EvaluationResult :=
  match policy.rules.find? (fun rule => patternMatches rule.pattern inp) with
  | some rule => { resolveAction rule inp with latencyMs := latencyMs }
  | none => failSafe latencyMs

end TrustModelEdge.Engine
