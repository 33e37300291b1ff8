/-
TrustModelEdge.Routes.Pod — the processes of one pod, one after the other,
each with its telemetry queue and the drains of it.

A restart ends the process at any point (`app.py`): the key cache is empty
again, the settings may be new ones, the policy cache is what the startup
leaves, and the queue is opened on the rows that are there. It is the SQLite
store in every process, its file is found intact, and no `ack` fails: what
becomes of a corrupt file is the matter of `Telemetry.Recovery`. What a tick
mints for its POST is a `certJwt` step of its own; the tick is told the outcome.
-/
import TrustModelEdge.Routes.AuditTheorems
import TrustModelEdge.Routes.Process
import TrustModelEdge.Telemetry.Drains

namespace TrustModelEdge.Routes

open Py Policy OAuth Telemetry Lib

structure Pod where
  world : World
  drains : Drains

/-- The event is a decide call. -/
def Event.isDecide : Event → Bool
  | .decide .. => true
  | _ => false

/-- The input comes from a decide call, not from a drain. -/
def isEnqueue : DrainInput → Bool
  | .enqueue .. => true
  | _ => false

/-- How a process starts: its settings, the policy cache its startup leaves, and
the arguments of its store and its sender. -/
structure Startup where
  settings : Settings
  cache : PolicyCache
  maxSize : Nat
  batchSize : Int
  flushInterval : Rat

inductive PodEvent where
  /-- A decide call; `storedAt` is the time text of the row, `fault` what the store
  raises when the call reaches it. -/
  | decide (authorization : Str) (body : DecideRequest) (rd : Readings) (storedAt : Str)
      (fault : Option Exc)
  | serve (ev : Event) (h : ev.isDecide = false)
  | drain (i : DrainInput) (h : isEnqueue i = false)
  | restart (s : Startup)

/-- What a step shows: what its drains did, and what the process answered. -/
structure PodOutput where
  events : List DrainEvent
  answer : Output

/-- How `enqueue` of an event ends. -/
def Pod.enqueueEnds (json : JsonText) (p : Pod) (storedAt : Str) (fault : Option Exc)
    (event : AuditEvent) : Except Exc Bool :=
  match fault with
  | some e => .error e
  | none => .ok (p.drains.store.enqueue json storedAt event.toDict).2

/-- The calls of `enqueue` that reach the rows. -/
def enqueues (storedAt : Str) (fault : Option Exc) (effects : List Effect) : List DrainInput :=
  match fault with
  | some _ => []
  | none => (enqueued effects).map (fun event => .enqueue storedAt event.toDict)

section Step

variable [PyRuntime] (lib : Libraries)

/-- `decide` in a pod. -/
def Pod.decide (p : Pod) (authorization : Str) (body : DecideRequest) (rd : Readings)
    (storedAt : Str) (fault : Option Exc) : DecideOutcome :=
  Routes.decide lib.hash p.world.settings lib.jwt (p.enqueueEnds lib.json storedAt fault)
    p.world.disk p.world.cache { rd with verifiedAt := p.world.now, checkedAt := p.world.now }
    p.world.app authorization body

def podStep (p : Pod) : PodEvent → Pod × PodOutput
  | .decide authorization body rd storedAt fault =>
      let o := p.decide lib authorization body rd storedAt fault
      let calls := enqueues storedAt fault o.effects
      ({ world := { p.world with app := o.app }
         drains := final (drainStep lib.json) p.drains calls },
        { events := drainEvents lib.json p.drains calls, answer := .decision o })
  | .serve ev _ =>
      ({ p with world := (processStep lib p.world ev).1 },
        { events := [], answer := (processStep lib p.world ev).2 })
  | .drain i _ =>
      ({ p with drains := (drainStep lib.json p.drains i).1 },
        { events := (drainStep lib.json p.drains i).2, answer := .none })
  | .restart s =>
      ({ world := { p.world with settings := s.settings, app := {}, cache := s.cache }
         drains := .openOn p.drains.store.table s.maxSize s.batchSize s.flushInterval },
        { events := [], answer := .none })

/-- The first process of a pod. -/
def Pod.start (s : Startup) (disk : Disk) (now : Seconds) (table : SerialTable EventRow) :
    Pod where
  world := .start s.settings disk s.cache now
  drains := .openOn table s.maxSize s.batchSize s.flushInterval

/-- What the drains of a run did, in order. -/
def podEvents (p : Pod) (evs : List PodEvent) : List DrainEvent :=
  (trace (podStep lib) p evs).flatMap (·.events)

/-- How a call of `enqueue` ends, whatever the event. -/
def Pod.stored (p : Pod) : Option Exc → Except Exc Bool
  | some e => .error e
  | none => .ok (p.drains.store.count < p.drains.store.maxSize)

/-- The step of the process that an event of the pod is. -/
def Pod.event (p : Pod) : PodEvent → Option Event
  | .decide authorization body rd _ fault => some (.decide authorization body rd (p.stored fault))
  | .serve ev _ => some ev
  | _ => none

/-- The steps of all the processes of a run. -/
def processSteps (vs : List (Pod × PodEvent)) : List (World × Event) :=
  vs.filterMap (fun v => (v.1.event v.2).map (fun ev => (v.1.world, ev)))

end Step

end TrustModelEdge.Routes
