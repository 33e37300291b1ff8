/-
TrustModelEdge.Telemetry.Drains — every drain of one process at once
(`telemetry/sender.py`, the lifespan of `app.py`, `routes/telemetry.py`).

One sender and one store are shared by the `run_forever` task, the drain
of the shutdown and any number of flush requests. A task gives up control
only at an `await`, so a step of this machine is what one task does from
one await to the next: the end of an awaited POST runs the rest of that
tick, and the peek of the next tick when the caller goes on. Which task is
resumed, and with what outcome, is the environment's choice, and so are the
calls of `enqueue` in between.

The halves of a tick are those of `Telemetry.Sender`.
-/
import TrustModelEdge.Telemetry.Sender

namespace TrustModelEdge.Telemetry

open Py Lib

/-- A caller of `_tick`: the background loop, or `flush_now` with the total
it has so far. -/
inductive Drain where
  | runForever
  | flushNow (total : Nat)

def Drain.ticker : Drain → Ticker
  | .runForever => .runForever
  | .flushNow _ => .flushNow

/-- Where a task is suspended. `sleeping` is the sleep of `run_forever`. -/
inductive DrainTask where
  | sleeping
  | posting (drain : Drain) (batch : List QueuedEvent)
  | ended

structure Drains where
  store : TelemetryStore
  sender : TelemetrySender
  tasks : List DrainTask

/-- What an observer of the queue, the gateway and the tasks sees. -/
inductive DrainEvent where
  /-- `enqueue` returned `True`; the row got this id. -/
  | accepted (id : Nat) (payload : Json)
  | dropped (payload : Json)
  /-- A task sent the payloads of its batch in one body. -/
  | posted (task : Nat) (batch : List QueuedEvent)
  | answered (task : Nat) (batch : List QueuedEvent) (outcome : PostOutcome)
  /-- A `_tick` returned. -/
  | ticked (ticker : Ticker) (sent : Nat)
  /-- A `flush_now` returned. -/
  | flushed (total : Nat)

/-- The drain that ticks again at once after this result, if it does.
`inTime` tells whether `flush_now` is before its deadline. -/
def Drain.goesOn (inTime : Bool) : Drain → TickStatus → Option Drain
  | .runForever, .returned (_ + 1) => some .runForever
  | .flushNow total, .returned (n + 1) => if inTime then some (.flushNow (total + (n + 1))) else none
  | _, _ => none

/-- Where the task stands when it does not tick again. An exception of
`_tick` is caught by `run_forever` only. -/
def Drain.rests : Drain → TickStatus → DrainTask × List DrainEvent
  | .runForever, _ => (.sleeping, [])
  | .flushNow total, .returned n => (.ended, [.flushed (total + n)])
  | .flushNow _, _ => (.ended, [])

/-- The event of a tick that returned. -/
def tickEvents (ticker : Ticker) : TickStatus → List DrainEvent
  | .returned n => [.ticked ticker n]
  | _ => []

/-- A tick of task `task`, up to the next await of the task. -/
def beginTick (json : JsonText) (task : Nat) (drain : Drain) (mint : Except Str Str)
    (d : Drains) : Drains × List DrainEvent :=
  match tickBegin json mint d.sender d.store with
  | (s, st, .posting batch) =>
      ({ store := st, sender := s, tasks := d.tasks.set task (.posting drain batch) },
        [.posted task batch])
  | (s, st, status) =>
      -- nothing was sent, so neither caller ticks again
      ({ store := st, sender := afterTick drain.ticker status s
         tasks := d.tasks.set task (drain.rests status).1 },
        tickEvents drain.ticker status ++ (drain.rests status).2)

/-- The rest of a tick whose POST ended, up to the next await of the task. -/
def endTick (json : JsonText) (task : Nat) (drain : Drain) (batch : List QueuedEvent)
    (outcome : PostOutcome) (mint : Except Str Str) (inTime : Bool) (d : Drains) :
    Drains × List DrainEvent :=
  let (s, st, status, _) := tickEnd batch outcome d.sender d.store
  let s := afterTick drain.ticker status s
  let seen := .answered task batch outcome :: tickEvents drain.ticker status
  match drain.goesOn inTime status with
  | some drain =>
      let (d, more) := beginTick json task drain mint { d with store := st, sender := s }
      (d, seen ++ more)
  | none =>
      ({ store := st, sender := s, tasks := d.tasks.set task (drain.rests status).1 },
        seen ++ (drain.rests status).2)

inductive DrainInput where
  | enqueue (now : Str) (payload : Json)
  /-- `create_task(sender.run_forever())`, up to its first await. -/
  | startForever (mint : Except Str Str)
  /-- A call of `flush_now`. -/
  | startFlush (mint : Except Str Str) (inTime : Bool)
  /-- The sleep of `run_forever` is over. -/
  | wake (task : Nat) (mint : Except Str Str)
  | postEnds (task : Nat) (outcome : PostOutcome) (mint : Except Str Str) (inTime : Bool)
  | cancel (task : Nat)

def drainStep (json : JsonText) (d : Drains) : DrainInput → Drains × List DrainEvent
  | .enqueue now payload =>
      let (st, ok) := d.store.enqueue json now payload
      ({ d with store := st },
        if ok then [.accepted (d.store.table.seq + 1) payload] else [.dropped payload])
  | .startForever mint =>
      beginTick json d.tasks.length .runForever mint { d with tasks := d.tasks ++ [.sleeping] }
  | .startFlush mint inTime =>
      if inTime then
        beginTick json d.tasks.length (.flushNow 0) mint { d with tasks := d.tasks ++ [.ended] }
      else ({ d with tasks := d.tasks ++ [.ended] }, [.flushed 0])
  | .wake task mint =>
      match d.tasks[task]? with
      | some .sleeping => beginTick json task .runForever mint d
      | _ => (d, [])
  | .postEnds task outcome mint inTime =>
      match d.tasks[task]? with
      | some (.posting drain batch) => endTick json task drain batch outcome mint inTime d
      | _ => (d, [])
  | .cancel task => ({ d with tasks := d.tasks.set task .ended }, [])

/-- A process started on a file with this table, no drain running yet. -/
def Drains.openOn (table : SerialTable EventRow) (maxSize : Nat) (batchSize : Int)
    (flushInterval : Rat) : Drains where
  store := .openOn table maxSize
  sender := .create batchSize flushInterval
  tasks := []

/-- The events of a run, in order. -/
def drainEvents (json : JsonText) (d : Drains) (inputs : List DrainInput) : List DrainEvent :=
  (trace (drainStep json) d inputs).flatten

/-- The gateway has taken the body over: answered 2xx, 400 or 422. -/
def PostOutcome.taken : PostOutcome → Bool
  | .response code _ => isSuccess code || code = 400 || code = 422
  | _ => false

/-- `_tick` does not raise on it: the text of an answer that is no success is read. -/
def PostOutcome.handled : PostOutcome → Bool
  | .transportError _ => true
  | .otherError => false
  | .response code text => isSuccess code || text.isSome

/-- Answered 2xx. -/
def PostOutcome.delivered : PostOutcome → Bool
  | .response code _ => isSuccess code
  | _ => false

end TrustModelEdge.Telemetry
