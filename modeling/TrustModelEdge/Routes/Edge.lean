/-
TrustModelEdge.Routes.Edge — one edge over syncs, restarts and calls.

The state directory survives a restart; the cache does not, and
`load_from_disk` fills it at startup (`app.py`). A restart may come at any
time; a process that died while it wrote stays down until the next one.
What the control plane sent is kept beside the edge: the program has no such
record, but the properties of whole runs are about it.
-/
import TrustModelEdge.Policy.SyncLoop
import TrustModelEdge.Py.CrashRules
import TrustModelEdge.Routes.Decide

namespace TrustModelEdge.Routes

open Py Policy OAuth

structure Edge where
  disk : Disk
  /-- `none` while the process is down. -/
  cache : Option PolicyCache := none
  app : AppState := {}
  /-- The policies received so far, with the times of their syncs. -/
  received : List (Rat × EdgePolicy) := []

/-- A `sync_once`: the answers of the gateway, the clock at the swap and at the
writes, and what befalls the writes, each of which happens or does not. -/
structure EdgeSync where
  gateway : Gateway
  compileFails : EdgePolicy → Bool := fun _ => false
  now : Rat
  writtenAt : Rat
  faults : List Fault
  whole : DiskM.Whole faults

/-- A call of `decide`, and how its `enqueue` ends. -/
structure EdgeCall where
  readings : Readings
  authorization : Str
  body : DecideRequest
  stored : Except Exc Bool

inductive EdgeInput where
  | sync (s : EdgeSync)
  | restart
  | decide (call : EdgeCall)

section Steps

variable [PyRuntime] (hash : HashLib) (cfg : Settings) (jwt : JwtLib) (wire : BodyWire)

/-- The policies of a fetch. -/
def fetched (g : Gateway) : List EdgePolicy :=
  if cfg.multiPolicyEnabled then
    match fetchAll wire g with
    | .ok (policies, _, _) => policies
    | .error _ => []
  else
    match fetch wire g with
    | .ok p => [p]
    | .error _ => []

/-- A sync of a running edge. -/
def Edge.sync (e : Edge) (c : PolicyCache) (s : EdgeSync) : Edge :=
  let o := syncOnceCompiling s.compileFails wire s.gateway s.now cfg.stateDir
    { disk := e.disk, now := s.writtenAt, faults := s.faults } c cfg.multiPolicyEnabled
  { e with
    disk := o.env.disk
    cache := if o.ended = .crashed then none else some o.cache
    received := e.received ++ (fetched cfg wire s.gateway).map (fun p => (s.now, p)) }

/-- A startup: an exception of `load_from_disk` goes through. -/
def Edge.restart (e : Edge) : Edge :=
  match ({} : PolicyCache).loadFromDisk wire.toPolicyWire e.disk cfg.stateDir with
  | (c, .ok _) => { e with cache := some c, app := {} }
  | (_, .error _) => { e with cache := none, app := {} }

/-- One input; a call of a running edge has its outcome as output. -/
def edgeStep (e : Edge) (i : EdgeInput) : Edge × Option DecideOutcome :=
  match i, e.cache with
  | .restart, _ => (e.restart cfg wire, none)
  | .sync s, some c => (e.sync cfg wire c s, none)
  | .decide call, some c =>
      let o := decide hash cfg jwt (fun _ => call.stored) e.disk c call.readings e.app
        call.authorization call.body
      ({ e with app := o.app }, some o)
  | _, none => (e, none)

end Steps

end TrustModelEdge.Routes
