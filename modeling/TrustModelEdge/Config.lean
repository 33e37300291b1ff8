/-
TrustModelEdge.Config — the settings the modelled code reads
(`config.py`), with the bounds that validation enforces at startup.
-/
import TrustModelEdge.Py.Disk

namespace TrustModelEdge

open Py

/-- `policy_fail_mode`. -/
inductive FailMode where
  | open_
  | closed
deriving DecidableEq

def FailMode.text : FailMode → Str
  | .open_ => "open"
  | .closed => "closed"

structure Settings where
  tenantId : Str
  podId : Str := "edge-local"
  /-- `str(control_plane_url)`. -/
  controlPlaneUrl : Str := "https://api.trustmodel.ai/"
  bootstrapTokenPath : PurePath :=
    { root := [], parts := ["etc", "trustmodel", "bootstrap-token"] }
  bootstrapToken : Str := []
  clusterFingerprint : Str := []
  stateDir : Path
  policyStaleThresholdSeconds : Nat := 3600
  policyFailMode : FailMode := .closed
  multiPolicyEnabled : Bool := false
  oauthTokenTtlSeconds : Nat := 3600
  telemetryOmitPayload : Bool := true
  telemetrySubjectHashKey : Str := []
  stale_ge : 60 ≤ policyStaleThresholdSeconds := by decide
  ttl_ge : 60 ≤ oauthTokenTtlSeconds := by decide
  ttl_le : oauthTokenTtlSeconds ≤ 86400 := by decide

end TrustModelEdge
