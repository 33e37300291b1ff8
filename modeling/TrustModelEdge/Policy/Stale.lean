/-
TrustModelEdge.Policy.Stale — stale-policy detection (`policy/stale.py`).
-/
import TrustModelEdge.Config
import TrustModelEdge.Policy.Cache

namespace TrustModelEdge.Policy

open Py

/-- `secondsSinceRefresh` is `none` for `float("inf")`. -/
structure StaleStatus where
  isStale : Bool
  secondsSinceRefresh : Option Rat
  lastSuccessAt : Option Rat

/-- `status(cache, threshold_seconds=…)` at the time `now`. -/
def status (c : PolicyCache) (thresholdSeconds : Nat) (now : Rat) : StaleStatus :=
  match c.lastSuccessAt with
  | none => { isStale := true, secondsSinceRefresh := none, lastSuccessAt := none }
  | some last =>
      { isStale := now - last > thresholdSeconds
        secondsSinceRefresh := some (now - last)
        lastSuccessAt := some last }

/-- `fail_mode_verdict`: the verdict and the reason code. -/
def failModeVerdict : FailMode → Str × Str
  | .open_ => ("allow", "edge.policy_stale.fail_open")
  | .closed => ("deny", "edge.policy_stale.fail_closed")

end TrustModelEdge.Policy
