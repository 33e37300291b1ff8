/-
TrustModelEdge.Routes.Health — the readiness probe (`routes/health.py`)
and the state that it reads.

A probe has three inputs: the enrollment flag and the heartbeat on
`app.state`, and the process-wide cache. What writes to them is the startup
of `app.py`, the ticks of the heartbeat loop and the syncs; they come in any
order here, and each tick meets the disk as other tasks left it.
-/
import TrustModelEdge.Heartbeat
import TrustModelEdge.Policy.Calls
import TrustModelEdge.Policy.SyncLoop

namespace TrustModelEdge.Routes

open Py Policy

/-! ## The state -/

structure ProbedState where
  enrollmentComplete : Bool := false
  heartbeat : Option HeartbeatState := none
  cache : PolicyCache := {}

/-- A `sync_once` under either setting of the flag. -/
structure ProbedSync where
  multiPolicyEnabled : Bool
  gateway : Gateway
  compileFails : EdgePolicy → Bool
  now : Rat
  env : DiskEnv

inductive ProbedInput where
  /-- `skip_enrollment`. -/
  | skipEnrollment
  | enrolled (creds : LoadedCredentials)
  | heartbeat (t : HeartbeatTick)
  | loadFromDisk (raises : CompileRaises) (d : Disk)
  | sync (s : ProbedSync)

section Steps

variable [PyRuntime] (lib : HeartbeatLib) (wire : BodyWire) (cfg : Settings)

/-- The `sync_once` of an input. -/
def ProbedSync.run (s : ProbedSync) (c : PolicyCache) : SyncOutcome :=
  syncOnceCompiling s.compileFails wire s.gateway s.now cfg.stateDir s.env c s.multiPolicyEnabled

/-- One input. The probe only looks, so it is none of them. -/
def probedStep (s : ProbedState) : ProbedInput → ProbedState × Unit
  | .skipEnrollment => ({ s with enrollmentComplete := true }, ())
  | .enrolled creds =>
      ({ s with enrollmentComplete := true, heartbeat := some { credentials := creds } }, ())
  | .heartbeat t =>
      ({ s with heartbeat := s.heartbeat.map (fun h => (oneTick lib cfg t h).state) }, ())
  | .loadFromDisk raises d =>
      ({ s with
          cache := (s.cache.loadFromDiskCompiling raises wire.toPolicyWire d cfg.stateDir).1 }, ())
  | .sync i => ({ s with cache := (i.run wire cfg s.cache).cache }, ())

end Steps

/-! ## The probe -/

/-- The version of the package, `str` of a time of refresh, and what
`JSONResponse` makes of a content. -/
structure ProbeLib where
  version : Str
  timeText : Option Rat → Str
  render : Json → Except Exc Bytes

structure JsonResponse where
  statusCode : Nat
  body : Bytes

section Probe

variable (probe : ProbeLib) (s : ProbedState)

def ProbedState.revoked : Bool := s.heartbeat.any (·.revoked)

/-- What the heartbeat adds to the body. -/
def heartbeatFields : List (Str × Json) :=
  match s.heartbeat with
  | some h => [("edge_id", h.credentials.edgeId), ("tenant_id", h.credentials.tenantId)]
  | none => []

/-- The part of the body that either answer has. -/
def probedFields : List (Str × Json) :=
  let lastSyncAt : Json :=
    if s.cache.isWarm then .str (probe.timeText s.cache.lastSuccessAt) else .null
  let fields : List (Str × Json) :=
    [("version", .str probe.version), ("enrollment_complete", .bool s.enrollmentComplete),
     ("revoked", .bool s.revoked), ("policy_cache_warm", .bool s.cache.isWarm),
     ("last_sync_at", lastSyncAt)]
  fields ++ heartbeatFields s

/-- The gates that fail. -/
def ProbedState.unready : List Str :=
  (if s.enrollmentComplete then [] else ["enrollment incomplete"])
  ++ (if s.revoked then ["revoked"] else [])
  ++ (if s.cache.isWarm then [] else ["policy cache not warm"])

/-- `JSONResponse(status_code, content=…)`: the rendering may raise. -/
def jsonResponse (statusCode : Nat) (content : List (Str × Json)) : Except Exc JsonResponse :=
  (probe.render (.obj content)).map (fun body => { statusCode := statusCode, body := body })

/-- `health_ready`. -/
def healthReady : Except Exc JsonResponse :=
  let status := fun (text : Str) => (("status" : Str), Json.str text)
  if !s.enrollmentComplete || s.revoked || !s.cache.isWarm then
    let reason := (("reason" : Str), Json.str (join ("; " : Str) s.unready))
    jsonResponse probe 503 (probedFields probe s ++ [status "not_ready", reason])
  else jsonResponse probe 200 (probedFields probe s ++ [status "ready"])

end Probe

end TrustModelEdge.Routes
