/-
TrustModelEdge.App — the life of a process (`_lifespan` of `app.py`).

A launch enrolls, loads the cache, makes the first sync and opens the queue, or
fails on the way; what comes up serves until it is shut down or dies. The
heartbeat loop is started before the first sync. Nothing waits between its start
and that sync, and the sync waits only for the gateway, so the ticks of a launch
come after the load from the disk and before the writes of the swap.
-/
import TrustModelEdge.Enroll
import TrustModelEdge.Routes.Health
import TrustModelEdge.Telemetry.Recovery
import Mathlib.Data.List.ReduceOption

namespace TrustModelEdge

open Py OAuth Lib Policy Telemetry

/-- The libraries of a process. -/
structure AppLib where
  heartbeat : HeartbeatLib
  wire : BodyWire

/-- An exception that goes through, by where it came from. -/
inductive LifespanError where
  | enrollment (e : ControlPlaneError)
  | load (e : Exc)
  | sync (e : OAuthError)
  /-- The `RuntimeError` of `get_store`. -/
  | queue
  | heartbeat (e : Exc)
deriving DecidableEq

/-- How a lifespan ends. -/
inductive LifespanEnd where
  | returned
  | systemExit (code : Nat)
  | raised (e : LifespanError)
  /-- The process died. -/
  | killed
deriving DecidableEq

/-! ## Starting -/

/-- What a launch meets besides the disk; the settings are those of `boot`. -/
structure Launch where
  skipEnrollment : Bool := false
  boot : Boot
  raises : CompileRaises
  /-- The heartbeats before the first sync has its answer. -/
  ticks : List HeartbeatTick
  sync : Routes.ProbedSync
  /-- `telemetry_queue_size` and `telemetry_dir`. -/
  maxSize : Nat
  telemetryDir : Option Path
  queue : OpenEnv FileBody

/-- A process that serves. -/
structure Serving where
  cfg : Settings
  heartbeat : Option HeartbeatLoop
  policyWarmOk : Bool
  sync : SyncLoop
  store : AnyTelemetryStore

structure LaunchOutcome where
  posted : Option EnrollRequest := none
  ticks : List TickEnd := []
  disk : Disk
  process : Except LifespanEnd Serving

/-- `isinstance(exc, RuntimeError)`. -/
def isRuntimeError : OAuthError → Bool
  | .enrollmentMissing _ => true
  | .other e => e == .recursionError
  | _ => false

/-- `policy_warm_ok` after the first sync, if its exception is caught. -/
def warmOk : WarmEnd → Except LifespanEnd Bool
  | .returned => .ok true
  | .runtimeError _ => .ok false
  | .raised e => if isRuntimeError e then .ok false else .error (.raised (.sync e))
  | .crashed => .error .killed

/-- A sync of this process, begun on this disk. -/
def Routes.ProbedSync.on (s : Routes.ProbedSync) (cfg : Settings) (d : Disk) :
    Routes.ProbedSync :=
  { s with multiPolicyEnabled := cfg.multiPolicyEnabled, env := { s.env with disk := d } }

section Starting

variable [PyRuntime] (lib : AppLib) (l : Launch)

/-- The heartbeat loop and the disk after these ticks, and how each ended. -/
def beats (cfg : Settings) (loop : HeartbeatLoop) (d : Disk) (ticks : List HeartbeatTick) :
    RotatingPod × List TickEnd :=
  let inputs := ticks.map (fun t => RotatingInput.heartbeat (.tick t))
  let start : RotatingPod := { loop := loop, disk := d }
  (final (rotatingStep lib.heartbeat cfg) start inputs,
    (trace (rotatingStep lib.heartbeat cfg) start inputs).reduceOption)

/-- The queue is opened last. -/
def openQueue (heartbeat : Option HeartbeatLoop) (policyWarmOk : Bool) (c : PolicyCache)
    (d : Disk) : LaunchOutcome :=
  let args : StoreArgs :=
    { stateDir := some l.boot.cfg.stateDir, maxSize := some l.maxSize
      telemetryDir := l.telemetryDir }
  let o := getStore none args l.queue d
  match o.ended with
  | .returned store =>
      { disk := o.files
        process := .ok {
          cfg := l.boot.cfg, heartbeat := heartbeat, policyWarmOk := policyWarmOk
          sync := { cache := c }, store := store } }
  | .runtimeError => { disk := o.files, process := .error (.raised .queue) }
  | .crashed => { disk := o.files, process := .error .killed }

/-- The first sync. -/
def warmPolicies (heartbeat : Option HeartbeatLoop) (c : PolicyCache) (d : Disk) :
    LaunchOutcome :=
  let s := l.sync.on l.boot.cfg d
  let o := warm s.compileFails lib.wire s.gateway s.now l.boot.cfg.stateDir s.env c false
    s.multiPolicyEnabled
  match warmOk o.ended with
  | .ok policyWarmOk => openQueue l heartbeat policyWarmOk o.cache o.env.disk
  | .error ended => { disk := o.env.disk, process := .error ended }

/-- The ticks that come before the answer of the first sync, and that sync. -/
def beatAndWarm (heartbeat : Option HeartbeatLoop) (c : PolicyCache) (d : Disk) :
    LaunchOutcome :=
  match heartbeat with
  | none => warmPolicies lib l none c d
  | some loop =>
      let (p, ticks) := beats lib l.boot.cfg loop d l.ticks
      match p.loop.ended with
      | some .died => { ticks := ticks, disk := p.disk, process := .error .killed }
      | _ => { warmPolicies lib l (some p.loop) c p.disk with ticks := ticks }

/-- The part of a launch that follows the enrollment. -/
def startPolicies (heartbeat : Option HeartbeatLoop) (d : Disk) : LaunchOutcome :=
  let load := ({} : PolicyCache).loadFromDiskCompiling l.raises lib.wire.toPolicyWire d
    l.boot.cfg.stateDir
  match load.2 with
  | .error e => { disk := d, process := .error (.raised (.load e)) }
  | .ok _ => beatAndWarm lib l heartbeat load.1 d

/-- The startup of `_lifespan`. -/
def launch (d : Disk) : LaunchOutcome :=
  if l.skipEnrollment then startPolicies lib l none d
  else
    let o := bootstrapIfNeeded lib.heartbeat l.boot d
    match o.ended with
    | .enrollmentFailed =>
        { posted := o.posted, disk := o.disk, process := .error (.systemExit 2) }
    | .raised e =>
        { posted := o.posted, disk := o.disk, process := .error (.raised (.enrollment e)) }
    | .crashed => { posted := o.posted, disk := o.disk, process := .error .killed }
    | .returned creds =>
        { startPolicies lib l (some { state := { credentials := creds } }) o.disk with
          posted := o.posted }

end Starting

/-! ## Serving and stopping -/

/-- What the probe reads of a process. -/
def Serving.probed (p : Serving) : Routes.ProbedState where
  enrollmentComplete := true
  heartbeat := p.heartbeat.map HeartbeatLoop.state
  cache := p.sync.cache

/-- A process on its disk, if there is one. -/
structure Life where
  disk : Disk
  process : Option Serving := none

inductive LifeInput where
  | launch (l : Launch)
  | heartbeat (t : HeartbeatTick)
  | sync (s : Routes.ProbedSync)
  /-- What the calls, the sender and other tasks make of the disk and the queue. -/
  | others (d : Disk) (use : AnyTelemetryStore → AnyTelemetryStore)
  | shutdown
  | kill

/-- What a step shows: the enroll call of a launch, the ends of its ticks, and how
the lifespan ended, if it did. -/
structure LifeOutput where
  launched : Bool := false
  posted : Option EnrollRequest := none
  ticks : List TickEnd := []
  ended : Option LifespanEnd := none

section Living

variable [PyRuntime] (lib : AppLib)

/-- A tick of a process that serves. -/
def Serving.beat (p : Serving) (d : Disk) (t : HeartbeatTick) : Life × LifeOutput :=
  match p.heartbeat with
  | none => ({ disk := d, process := some p }, {})
  | some loop =>
      let (q, ticks) := beats lib p.cfg loop d [t]
      match q.loop.ended with
      | some .died => ({ disk := q.disk }, { ticks := ticks, ended := some .killed })
      | _ => ({ disk := q.disk, process := some { p with heartbeat := some q.loop } },
          { ticks := ticks })

/-- A turn of the refresh loop; a loop that ended stays ended. -/
def Serving.refresh (p : Serving) (d : Disk) (s : Routes.ProbedSync) : Life × LifeOutput :=
  match p.sync.ended with
  | some _ => ({ disk := d, process := some p }, {})
  | none =>
      let o := (s.on p.cfg d).run lib.wire p.cfg p.sync.cache
      match o.ended with
      | .crashed => ({ disk := o.env.disk }, { ended := some .killed })
      | ended =>
          let sync : SyncLoop := { cache := o.cache, ended := ended.loopEnd }
          ({ disk := o.env.disk, process := some { p with sync := sync } }, {})

/-- The teardown of `_lifespan`: the loop is cancelled and awaited, and then the flag
of the heartbeat is read. -/
def Serving.teardown (p : Serving) : LifespanEnd :=
  match p.heartbeat with
  | none => .returned
  | some loop =>
      let loop := (heartbeatStep lib.heartbeat p.cfg loop .cancel).1
      match loop.ended with
      | some (.raised e) => .raised (.heartbeat e)
      | _ => if loop.state.revoked then .systemExit 3 else .returned

/-- What a launch makes of the life. -/
def LaunchOutcome.life (o : LaunchOutcome) : Life × LifeOutput :=
  match o.process with
  | .ok p =>
      ({ disk := o.disk, process := some p },
        { launched := true, posted := o.posted, ticks := o.ticks })
  | .error ended =>
      ({ disk := o.disk },
        { launched := true, posted := o.posted, ticks := o.ticks, ended := some ended })

/-- One step of the processes on a disk, of which one runs at a time. -/
def lifeStep (x : Life) : LifeInput → Life × LifeOutput
  | .launch l =>
      match x.process with
      | none => (launch lib l x.disk).life
      | some _ => (x, {})
  | .heartbeat t => x.process.elim (x, {}) (fun p => p.beat lib x.disk t)
  | .sync s => x.process.elim (x, {}) (fun p => p.refresh lib x.disk s)
  | .others d use =>
      ({ disk := d, process := x.process.map (fun p => { p with store := use p.store }) }, {})
  | .shutdown =>
      x.process.elim (x, {}) (fun p => ({ disk := x.disk }, { ended := some (p.teardown lib) }))
  | .kill =>
      x.process.elim (x, {}) (fun _ => ({ disk := x.disk }, { ended := some .killed }))

end Living

end TrustModelEdge
