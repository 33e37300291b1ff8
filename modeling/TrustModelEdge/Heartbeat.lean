/-
TrustModelEdge.Heartbeat — the heartbeat and rotation loop
(`heartbeat.py`).

Everything a tick meets is its input (`HeartbeatTick`): the clocks, the
answers of the gateway to its two calls, and the state directory as other
tasks left it. A rotated bundle holds whatever values the body had, so its
texts are checked only where the files are written.
-/
import TrustModelEdge.Config
import TrustModelEdge.ControlPlane
import TrustModelEdge.Lib.Machine

namespace TrustModelEdge

open Py OAuth Lib

/-- The libraries a tick calls. -/
structure HeartbeatLib where
  jwt : JwtLib
  json : JsonText
  isoformat : DateTime → Str
  fromisoformat : Str → Except Exc DateTime

/-! ## Persisting what a rotation issued -/

/-- `path.write_text(value)` of any value: one that is no text raises before the
file is opened. -/
def writeValue (path : PurePath) : Json → DiskM Str
  | .str s => do
      writeText path s
      return s
  | _ => DiskM.raise .typeError

/-- `json.dumps` of the object in `meta.json`. -/
def loadedMetaJson (isoformat : DateTime → Str) (creds : LoadedCredentials)
    (certValidTo : DateTime) : Json :=
  .obj
    [("edge_id", creds.edgeId), ("tenant_id", creds.tenantId),
     ("cert_valid_to", .str (isoformat certValidTo)),
     ("agp_endpoint", creds.agpEndpoint), ("telemetry_endpoint", creds.telemetryEndpoint)]

/-- `persist_credentials` of the credentials with the rotated bundle in place of
their texts and expiry; these credentials, once the files are written. -/
def persistRotated (lib : HeartbeatLib) (stateDir : Path) (creds : LoadedCredentials)
    (rotated : RotateBundle) : DiskM LoadedCredentials := do
  makeDirs stateDir
  let certPem ← writeValue (credentialPath stateDir certFile) rotated.certPem
  let keyPem ← writeValue (credentialPath stateDir keyFile) rotated.keyPem
  DiskM.operation (fun _ d => .ok d) (fun _ _ d => d)
  let caChainPem ← writeValue (credentialPath stateDir caFile) rotated.caChainPem
  writeText (credentialPath stateDir metaFile)
    (lib.json.dumps (loadedMetaJson lib.isoformat creds rotated.certValidTo))
  return {
    creds with
    certPem := certPem, keyPem := keyPem, caChainPem := caChainPem
    certValidTo := rotated.certValidTo }

/-! ## One tick -/

structure HeartbeatState where
  credentials : LoadedCredentials
  revoked : Bool := false
  lastTickOkAt : Option Rat := none

structure HeartbeatTick where
  /-- The clock at either call, and the time of the event loop. -/
  heartbeatAt : Rat
  rotateAt : Rat
  monotonic : Rat
  env : DiskEnv
  heartbeat : Answer
  rotate : Answer

/-- How a tick ends. -/
inductive TickEnd where
  | returned
  | edgeRevoked
  | raised (e : Exc)
  /-- The process died while it wrote. -/
  | crashed

structure TickOutcome where
  state : HeartbeatState
  env : DiskEnv
  ended : TickEnd

/-- The handlers around either call. -/
def callFailed (s : HeartbeatState) (env : DiskEnv) : ControlPlaneError → TickOutcome
  | .edgeRevoked => { state := { s with revoked := true }, env := env, ended := .edgeRevoked }
  | .edgeControlPlaneError => { state := s, env := env, ended := .returned }
  | .raised e => { state := s, env := env, ended := .raised e }

section Tick

variable [PyRuntime] (lib : HeartbeatLib) (cfg : Settings) (t : HeartbeatTick)

/-- The persisting of a rotation. -/
def rotatedTo (s : HeartbeatState) (rotated : RotateBundle) : TickOutcome :=
  match (persistRotated lib cfg.stateDir s.credentials rotated).run t.env with
  | (.ok creds, env) => { state := { s with credentials := creds }, env := env, ended := .returned }
  | (.error (.raised e), env) => { state := s, env := env, ended := .raised e }
  | (.error .crashed, env) => { state := s, env := env, ended := .crashed }

/-- `_one_tick`. -/
def oneTick (s : HeartbeatState) : TickOutcome :=
  match heartbeat lib.jwt t.heartbeatAt s.credentials t.heartbeat with
  | .error e => callFailed s t.env e
  | .ok resp =>
      let s := { s with lastTickOkAt := some t.monotonic }
      if resp.rotationDue then
        match rotate lib.jwt t.rotateAt s.credentials t.rotate lib.fromisoformat with
        | .error e => callFailed s t.env e
        | .ok rotated => rotatedTo lib cfg t s rotated
      else { state := s, env := t.env, ended := .returned }

end Tick

/-! ## The loop -/

/-- How the loop ends. -/
inductive HeartbeatEnd where
  | cancelled
  | returned
  | raised (e : Exc)
  | died

structure HeartbeatLoop where
  state : HeartbeatState
  ended : Option HeartbeatEnd := none

inductive HeartbeatInput where
  | tick (t : HeartbeatTick)
  | cancel

/-- What becomes of the loop after a tick. -/
def TickEnd.loopEnd : TickEnd → Option HeartbeatEnd
  | .returned => none
  | .edgeRevoked => some .returned
  | .raised e => some (.raised e)
  | .crashed => some .died

/-- One turn of `heartbeat_loop`; a loop that ended stays ended. -/
def heartbeatStep [PyRuntime] (lib : HeartbeatLib) (cfg : Settings) (l : HeartbeatLoop)
    (i : HeartbeatInput) : HeartbeatLoop × Option TickEnd :=
  match l.ended, i with
  | some _, _ => (l, none)
  | none, .cancel => ({ l with ended := some .cancelled }, none)
  | none, .tick t =>
      let o := oneTick lib cfg t l.state
      ({ state := o.state, ended := o.ended.loopEnd }, some o.ended)

/-! ## The loop on its disk -/

/-- The loop and the disk that its process has. -/
structure RotatingPod where
  loop : HeartbeatLoop
  disk : Disk

/-- A turn of the loop, or what the rest of the program makes of the disk. -/
inductive RotatingInput where
  | heartbeat (i : HeartbeatInput)
  | others (d : Disk)

/-- The tick, begun on this disk. -/
def HeartbeatTick.on (t : HeartbeatTick) (d : Disk) : HeartbeatTick :=
  { t with env := { t.env with disk := d } }

def rotatingStep [PyRuntime] (lib : HeartbeatLib) (cfg : Settings) (p : RotatingPod) :
    RotatingInput → RotatingPod × Option TickEnd
  | .heartbeat .cancel =>
      let (loop, ended) := heartbeatStep lib cfg p.loop .cancel
      ({ p with loop := loop }, ended)
  | .heartbeat (.tick t) =>
      let (loop, ended) := heartbeatStep lib cfg p.loop (.tick (t.on p.disk))
      let disk :=
        match p.loop.ended with
        | some _ => p.disk
        | none => (oneTick lib cfg (t.on p.disk) p.loop.state).env.disk
      ({ loop := loop, disk := disk }, ended)
  | .others d => ({ p with disk := d }, none)

end TrustModelEdge
