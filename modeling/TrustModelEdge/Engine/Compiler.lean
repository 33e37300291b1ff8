/-
TrustModelEdge.Engine.Compiler — `engine/compiler.py`: the rules of a
bundle, sorted, with match patterns pre-parsed and redact paths
pre-extracted.

`compilePolicy` receives the rules as `_compile` passes them, one
`model_dump()` each, so the five fields have the types of `PolicyRule`
and the `str`, `int` and `list` calls on them are identities. The two
`when` entries of free shape, `tool` and `subject_attr`, go through
`str` for real.
-/
import TrustModelEdge.Policy.Bundle
import Mathlib.Data.Finset.Basic
import Mathlib.Data.List.Sort
import Mathlib.Data.Prod.Lex

namespace TrustModelEdge.Engine

open Py Policy

/-- Pre-parsed match conditions of a single rule. -/
structure MatchPattern where
  /-- `none` is the wildcard `*`. -/
  tool : Option Str
  argKeysPresent : Finset Str
  argEquals : Dict Json
  subjectAttr : Option Str

/-- A rule ready for evaluation. -/
structure CompiledRule where
  ruleId : Str
  pattern : MatchPattern
  action : Str
  redactPaths : List Str
  frameworkTags : List Str
  priority : Int

/-- A policy bundle compiled for runtime evaluation. -/
structure CompiledPolicy where
  policyId : Str
  name : Str
  version : Str
  rules : List CompiledRule
  frameworkTags : List Str

/-- `then.split(":", 1)[0]`. -/
def baseAction (action : Str) : Str := (splitMax (CodePoint.ofChar ':') 1 action).headD []

/-- The prefix of an argument condition and of a redact target. -/
def argsDot : Str := "args."

/-- `tool = None if tool in (None, "*") else str(tool)`. -/
def compileTool [PyRuntime] : Option Json → Option Str
  | none | some .null => none
  | some v =>
      match v with
      | .str s => if s = "*" then none else some s
      | v => some v.toStr

/-- One turn of the loop over `when.items()`: a condition `args.k` asks for
presence when its value is literally true, for equality otherwise. -/
def addCondition (acc : Finset Str × Dict Json) (k : Str) (v : Json) :
    Finset Str × Dict Json :=
  if startsWith k argsDot then
    match v with
    | .bool true => (insert (removePrefix k argsDot) acc.1, acc.2)
    | v => (acc.1, acc.2.insert (removePrefix k argsDot) v)
  else acc

def compileConditions (when : Dict Json) : Finset Str × Dict Json :=
  when.entries.foldl (fun acc e => addCondition acc e.1 e.2) (∅, ∅)

/-- `str(subject_attr) if subject_attr else None`. -/
def compileSubjectAttr [PyRuntime] : Option Json → Option Str
  | none => none
  | some v => if v.truthy then some v.toStr else none

/-- The comma-separated entries after the first colon of a redact action,
trimmed, empties dropped. -/
def redactEntries (action : Str) : List Str :=
  let paths := (splitMax (CodePoint.ofChar ':') 1 action).getD 1 []
  ((split (CodePoint.ofChar ',') paths).map strip).filter (· ≠ [])

def compileRule [PyRuntime] (raw : PolicyRule) : CompiledRule where
  ruleId := raw.ruleId
  pattern :=
    { tool := compileTool (raw.when.lookup ("tool" : Str))
      argKeysPresent := (compileConditions raw.when).1
      argEquals := (compileConditions raw.when).2
      subjectAttr := compileSubjectAttr (raw.when.lookup ("subject_attr" : Str)) }
  action := raw.then_
  redactPaths := if baseAction raw.then_ = "redact" then redactEntries raw.then_ else []
  frameworkTags := raw.frameworkTags
  priority := raw.priority

/-- deny < redact < allow < anything else. -/
def actionOrder (action : Str) : Nat :=
  if action = "deny" then 0
  else if action = "redact" then 1
  else if action = "allow" then 2
  else 3

/-- The sort key: lower priority first, then the action order. -/
def sortKey (r : CompiledRule) : Int ×ₗ Nat :=
  toLex (r.priority, actionOrder (baseAction r.action))

/-- `list.sort` is stable, and so is `insertionSort`: a stable sort by a key
is determined by the key. -/
def compilePolicy [PyRuntime] (policyId name version : Str) (rules : List PolicyRule)
    (frameworkTags : List Str) : CompiledPolicy where
  policyId := policyId
  name := name
  version := version
  rules := (rules.map compileRule).insertionSort (sortKey · ≤ sortKey ·)
  frameworkTags := frameworkTags

end TrustModelEdge.Engine
