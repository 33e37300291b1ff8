/-
TrustModelEdge.Telemetry.Loops — the two loops over `_tick`
(`telemetry/sender.py`), a whole tick at a time.

`run_forever` sleeps for the backoff of the one sender that `flush_now`
ticks with too, so a step of `senderStep` is a tick of either; each brings
the store as it finds it. `flushStep` is a turn of `flush_now` on a store
that nobody else touches.
-/
import TrustModelEdge.Telemetry.Sender

namespace TrustModelEdge.Telemetry

open Py Lib

/-! ## A tick -/

/-- What a tick meets besides the store it starts on. -/
structure TickInput where
  mint : Except Str Str
  outcome : PostOutcome
  /-- What others do to the store while the POST is awaited. -/
  meanwhile : TelemetryStore → TelemetryStore := id

/-- `_tick`. -/
def tick (json : JsonText) (t : TickInput) (s : TelemetrySender) (st : TelemetryStore) :
    TelemetrySender × TelemetryStore × TickStatus :=
  let (s, st, status) := tickBegin json t.mint s st
  match status with
  | .posting batch =>
      let (s, st, status, _) := tickEnd batch t.outcome s (t.meanwhile st)
      (s, st, status)
  | _ => (s, st, status)

/-! ## `run_forever` -/

/-- What `run_forever` does after a tick: it ticks again at once, or sleeps. A tick
that found rows and sent none has failed, as has one that raised. -/
inductive TurnEnd where
  | sent (rows : Nat)
  | idle (sleep : Rat)
  | failed (sleep : Rat)

/-- A tick of either loop. -/
structure SenderInput where
  ticker : Ticker
  store : TelemetryStore
  tick : TickInput

/-- The turn of a tick that ended with this status; `backoff` is the sender's. -/
def turnEnd (json : JsonText) (i : SenderInput) (batchSize : Int) (status : TickStatus)
    (backoff : Rat) : TurnEnd :=
  match status with
  | .returned (n + 1) => .sent (n + 1)
  | _ =>
      match i.store.dequeueBatch json batchSize with
      | .ok [] => .idle backoff
      | _ => .failed backoff

/-- A tick, and the turn of `run_forever` that it is. -/
def senderStep (json : JsonText) (s : TelemetrySender) (i : SenderInput) :
    TelemetrySender × Option TurnEnd :=
  let (s', _, status) := tick json i.tick s i.store
  let s' := afterTick i.ticker status s'
  (s',
    match i.ticker with
    | .runForever => some (turnEnd json i s.batchSize status s'.backoff)
    | .flushNow => none)

inductive FlushEnd where
  | returned (total : Nat)
  | raised
deriving DecidableEq

structure Flush where
  sender : TelemetrySender
  store : TelemetryStore
  total : Nat := 0
  ended : Option FlushEnd := none

/-- What a turn of the loop meets; `inTime` tells whether it is before the deadline. -/
structure FlushInput where
  inTime : Bool
  mint : Except Str Str
  outcome : PostOutcome

/-- One turn of `flush_now`: the state it leaves, and the result of its tick. -/
def flushStep (json : JsonText) (f : Flush) (i : FlushInput) : Flush × Option TickStatus :=
  match f.ended with
  | some _ => (f, none)
  | none =>
      if i.inTime then
        let (s, st, status) := tick json { mint := i.mint, outcome := i.outcome } f.sender f.store
        let f := { f with sender := s, store := st }
        match status with
        | .returned 0 => ({ f with ended := some (.returned f.total) }, some status)
        | .returned sent => ({ f with total := f.total + sent }, some status)
        | _ => ({ f with ended := some .raised }, some status)
      else ({ f with ended := some (.returned f.total) }, none)

/-- How many ticks were made. -/
def ticksMade (results : List (Option TickStatus)) : Nat := results.countP Option.isSome

end TrustModelEdge.Telemetry
