/-
TrustModelEdge.Routes.Process — one process as it runs: token requests and
decide calls, with the cache swaps, the passing of time, the credential
rotations and the cert-JWTs that come between them.

A handler has no suspension point, so the steps of a run are whole calls.
The signatures a run makes and the keys it reads are functions of its steps
(`signature`, `keysRead`): what the calls of `jwt.encode` and the reads of
the key file in that step come to.
-/
import TrustModelEdge.Lib.Machine
import TrustModelEdge.Lib.Signing
import TrustModelEdge.Routes.Decide

namespace TrustModelEdge.Routes

open Py Policy OAuth Lib

/-- The libraries a process calls. -/
structure Libraries where
  jwt : JwtLib
  hash : HashLib
  json : JsonText
  /-- `datetime.isoformat()`. -/
  isoformat : DateTime → Str
  /-- The text of the error that `json.loads` raises on a damaged text. -/
  decodeError : Str → Str

/-- A number of seconds. -/
structure Seconds where
  val : Rat
  nonneg : 0 ≤ val

instance : Coe Seconds Rat := ⟨Seconds.val⟩

def Seconds.plus (a b : Seconds) : Seconds where
  val := a.val + b.val
  nonneg := Rat.add_nonneg a.nonneg b.nonneg

/-- A process: its settings, its application state, and what it works on. The
time counts from the epoch. -/
structure World where
  settings : Settings
  app : AppState
  disk : Disk
  cache : PolicyCache
  now : Seconds

/-- A process that has served no call yet. -/
def World.start (settings : Settings) (disk : Disk) (cache : PolicyCache) (now : Seconds) :
    World where
  settings := settings
  app := {}
  disk := disk
  cache := cache
  now := now

inductive Event where
  | tokenRequest (req : TokenRequest)
  /-- A decide call at the time of the process; `rd` has its other readings. -/
  | decide (authorization : Str) (body : DecideRequest) (rd : Readings)
      (stored : Except Exc Bool)
  /-- A sync: a new cache, and a disk as the sync leaves it. -/
  | swap (cache : PolicyCache) (disk : Disk)
  | tick (seconds : Seconds)
  /-- The heartbeat persists new credentials, with what befalls the writes. -/
  | rotate (creds : EdgeCredentials) (faults : List Fault)
  | certJwt (edgeId : Option Str) (ttlSeconds : Int)
  | edgeJwt (edgeId keyPem : Str) (ttlS : Int)

inductive Output where
  | token (reply : Except Failure TokenResponse)
  | decision (outcome : DecideOutcome)
  | jwt (reply : Except OAuthError Str)
  | none

section Step

variable [PyRuntime] (lib : Libraries)

/-- `issue_token` in a process. -/
def World.issue (w : World) (req : TokenRequest) : AppState × Except Failure TokenResponse :=
  issueToken lib.jwt lib.hash w.settings w.disk w.cache w.now w.app req

/-- `_require_agent_token` in a process. -/
def World.require (w : World) (authorization : Str) :
    AppState × Except Failure AgentTokenClaims :=
  requireAgentToken lib.jwt w.settings w.disk w.now w.app authorization

/-- `decide` in a process. -/
def World.decide (w : World) (authorization : Str) (body : DecideRequest) (rd : Readings)
    (stored : Except Exc Bool) : DecideOutcome :=
  Routes.decide lib.hash w.settings lib.jwt (fun _ => stored) w.disk w.cache
    { rd with verifiedAt := w.now, checkedAt := w.now } w.app authorization body

/-- The disk after a rotation, finished or not. -/
def World.rotated (w : World) (creds : EdgeCredentials) (faults : List Fault) : Disk :=
  ((persistCredentials lib.json lib.isoformat w.settings.stateDir creds).run
    { disk := w.disk, now := w.now, faults := faults }).2.disk

def processStep (w : World) : Event → World × Output
  | .tokenRequest req => ({ w with app := (w.issue lib req).1 }, .token (w.issue lib req).2)
  | .decide authorization body rd stored =>
      ({ w with app := (w.decide lib authorization body rd stored).app },
        .decision (w.decide lib authorization body rd stored))
  | .swap cache disk => ({ w with cache := cache, disk := disk }, .none)
  | .tick seconds => ({ w with now := w.now.plus seconds }, .none)
  | .rotate creds faults => ({ w with disk := w.rotated lib creds faults }, .none)
  | .certJwt edgeId ttlSeconds =>
      (w, .jwt (mintCertJwt lib.jwt lib.json lib.decodeError w.now w.disk w.settings.stateDir
        edgeId ttlSeconds))
  | .edgeJwt edgeId keyPem ttlS =>
      (w, .jwt (raising (signEdgeJwt lib.jwt w.now edgeId keyPem ttlS)))

/-! ## What a step signs and reads -/

/-- A payload that `jwt.encode` signs with a key. -/
def signed (key : Str) (payload : Json) : Option (Signature Str Str Json) :=
  (lib.jwt.encode payload key).toOption.map
    (fun token => { key := key, token := token, payload := payload })

/-- When a token that is minted now expires. -/
def World.expiry (w : World) : Int := truncate w.now + w.settings.oauthTokenTtlSeconds

/-- What the token of a grant carries. -/
def World.tokenPayload (w : World) (record : AuthorizedClient) (granted : List Str) : Json :=
  agentPayload (("edge:" : Str) ++ w.settings.tenantId) record.clientId record.agentId granted
    (truncate w.now) w.expiry

/-- The signature a step makes. -/
def signature (v : World × Event) : Option (Signature Str Str Json) :=
  match v.2 with
  | .tokenRequest req =>
      match grant lib.hash v.1.cache req, (keyState lib.jwt v.1.settings v.1.disk v.1.app).2 with
      | .ok (record, granted), .ok keys => signed lib keys.1 (v.1.tokenPayload record granted)
      | _, _ => none
  | .certJwt edgeId ttlSeconds =>
      match certKeyAndSubject lib.json lib.decodeError v.1.disk v.1.settings.stateDir edgeId with
      | .ok (keyPem, id) =>
          signed lib keyPem
            (certPayload id (truncate v.1.now) (truncate v.1.now + ttlSeconds))
      | .error _ => none
  | .edgeJwt edgeId keyPem ttlS =>
      signed lib keyPem
        (certPayload (.str edgeId) (truncate v.1.now) (truncate v.1.now + ttlS))
  | _ => none

/-- The key pair a step reads from disk and keeps. -/
def keysRead (v : World × Event) : Option (Str × Bytes) :=
  let read := (readKeys lib.jwt v.1.settings v.1.disk).toOption
  match v.2 with
  | .tokenRequest req =>
      if (grant lib.hash v.1.cache req).isOk && v.1.app.keyPair?.isNone then read else none
  | .decide authorization _ _ _ =>
      if (bearerToken authorization).isOk && v.1.app.oauthPublicKeyPem.isNone then read
      else none
  | _ => none

/-- The key pair that the process of these steps loaded first. -/
def firstKeys (steps : List (World × Event)) : Option (Str × Bytes) :=
  (steps.filterMap (keysRead lib)).head?

end Step

end TrustModelEdge.Routes
