/-
TrustModelEdge.Policy.Snapshot — what the cache holds per policy
(`CacheSnapshot` and `_compile` of `policy/cache.py`).
-/
import TrustModelEdge.Engine.Evaluator

namespace TrustModelEdge.Policy

open Py Engine

/-- `_compile`. -/
def compile [PyRuntime] (p : EdgePolicy) : CompiledPolicy :=
  compilePolicy p.id p.bundle.name p.bundle.version p.bundle.rules p.bundle.frameworkTags

structure CacheSnapshot where
  edgePolicy : EdgePolicy
  compiled : CompiledPolicy
  refreshedAt : Rat

/-- The snapshot a policy gets when it enters the cache. -/
def snapshotOf [PyRuntime] (refreshedAt : Rat) (p : EdgePolicy) : CacheSnapshot where
  edgePolicy := p
  compiled := compile p
  refreshedAt := refreshedAt

end TrustModelEdge.Policy
