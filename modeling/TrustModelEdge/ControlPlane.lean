/-
TrustModelEdge.ControlPlane — the calls of the enrolled edge to the
gateway (`control_plane.py`).

The gateway is what it answers: a network error, or a status, a text that
decodes or not and a body that parses or not. The texts of the errors are
only logged and are left out. The token is minted before the request is
sent.
-/
import TrustModelEdge.Identity
import TrustModelEdge.OAuth

namespace TrustModelEdge

open Py OAuth

/-- How a POST ends. -/
inductive Answer where
  /-- An `httpx.HTTPError`. -/
  | networkError
  /-- Any other exception of the request. -/
  | otherError (e : Exc)
  | response (statusCode : Nat) (text : Except Exc Str) (json : Except Exc Json)

inductive ControlPlaneError where
  | edgeControlPlaneError
  | edgeRevoked
  /-- An exception that the client lets through. -/
  | raised (e : Exc)
deriving DecidableEq

structure RotateBundle where
  certPem : Json
  keyPem : Json
  caChainPem : Json
  certValidFrom : DateTime
  certValidTo : DateTime

structure HeartbeatResponse where
  revoked : Bool
  syncIntervalS : Int
  rotationDue : Bool

/-- A call of the libraries, whose exceptions nothing handles. -/
def unhandled {α : Type} : Except Exc α → Except ControlPlaneError α
  | .ok a => .ok a
  | .error e => .error (.raised e)

/-- The `ttl_s` of `sign_edge_jwt`. -/
def edgeJwtTtlS : Int := 60

/-- `_auth_header`: the token at the time `at_`. -/
def authHeader [PyRuntime] (jwt : JwtLib) (at_ : Rat) (creds : LoadedCredentials) :
    Except Exc Str :=
  signEdgeJwt jwt at_ creds.edgeId.toStr creds.keyPem edgeJwtTtlS

/-- The error of a status, whose message shows the start of `r.text`. -/
def statusError : Except Exc Str → ControlPlaneError
  | .ok _ => .edgeControlPlaneError
  | .error e => .raised e

/-- `_post`, the checks of the status, and `r.json()`. -/
def bodyOf : Answer → Except ControlPlaneError Json
  | .networkError => .error .edgeControlPlaneError
  | .otherError e => .error (.raised e)
  | .response statusCode text json =>
      if statusCode = 401 ∨ statusCode = 403 then .error .edgeRevoked
      else if statusCode ≠ 200 then .error (statusError text)
      else unhandled json

/-- `s.replace("Z", "+00:00")`. -/
def replaceZ (s : Str) : Str :=
  s.flatMap (fun c => if c = CodePoint.ofChar 'Z' then ("+00:00" : Str) else [c])

/-- `datetime.fromisoformat(value.replace("Z", "+00:00"))`. -/
def bodyDate (fromisoformat : Str → Except Exc DateTime) : Json → Except Exc DateTime
  | .str s => fromisoformat (replaceZ s)
  | _ => .error .attributeError

/-- The bundle of a body; `b[key]` is `metaField`. -/
def rotateBundle (fromisoformat : Str → Except Exc DateTime) (b : Json) :
    Except Exc RotateBundle := do
  let certPem ← metaField b "client_cert"
  let keyPem ← metaField b "client_key"
  let caChainPem ← metaField b "ca_chain"
  let certValidFrom ← metaField b "cert_valid_from" >>= bodyDate fromisoformat
  let certValidTo ← metaField b "cert_valid_to" >>= bodyDate fromisoformat
  return {
    certPem := certPem, keyPem := keyPem, caChainPem := caChainPem
    certValidFrom := certValidFrom, certValidTo := certValidTo }

/-- The response of a body. -/
def heartbeatResponse [PyRuntime] (b : Json) : Except ControlPlaneError HeartbeatResponse :=
  match b with
  | .obj _ =>
      if ((b.field? "revoked").getD .null).truthy then .error .edgeRevoked
      else do
        let syncIntervalS ← unhandled (jsonInt ((b.field? "sync_interval_s").getD (.int 60)))
        return {
          revoked := false, syncIntervalS := syncIntervalS
          rotationDue := ((b.field? "rotation_due").getD (.bool false)).truthy }
  | _ => .error (.raised .attributeError)

section Calls

variable [PyRuntime] (jwt : JwtLib) (at_ : Rat) (creds : LoadedCredentials) (answer : Answer)

/-- `rotate`. -/
def rotate (fromisoformat : Str → Except Exc DateTime) : Except ControlPlaneError RotateBundle := do
  let _header ← unhandled (authHeader jwt at_ creds)
  let b ← bodyOf answer
  unhandled (rotateBundle fromisoformat b)

/-- `heartbeat`. -/
def heartbeat : Except ControlPlaneError HeartbeatResponse := do
  let _header ← unhandled (authHeader jwt at_ creds)
  let b ← bodyOf answer
  heartbeatResponse b

end Calls

end TrustModelEdge
