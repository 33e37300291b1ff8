/-
TrustModelEdge.Telemetry.Sender — the background worker that drains the
queue (`telemetry/sender.py`).

`_tick` suspends once, while the POST is awaited, so it is two halves
here: `tickBegin` runs from the peek to the POST, `tickEnd` from the
outcome of the POST to the return. Whatever happens in between happens to
the store and is not seen by the tick, which holds only its batch.

`World` is one process with one ticker. Its inputs are what can happen to
it: a caller enqueues, the ticker starts a tick, an awaited POST ends, the
task is cancelled, the process is replaced by one that opens the same
file. A tick does not start while one is awaited.
-/
import TrustModelEdge.Lib.Machine
import TrustModelEdge.Telemetry.Store

namespace TrustModelEdge.Telemetry

open Py Lib

def maxBackoffSeconds : Rat := 60

structure TelemetrySender where
  batchSize : Int
  flushInterval : Rat
  backoff : Rat

def TelemetrySender.create (batchSize : Int) (flushInterval : Rat) : TelemetrySender where
  batchSize := batchSize
  flushInterval := flushInterval
  backoff := flushInterval

def TelemetrySender.bumpBackoff (s : TelemetrySender) : TelemetrySender :=
  { s with backoff := min (s.backoff * 2) maxBackoffSeconds }

/-- How an awaited POST ends, cancellation aside. `text` is `none` where reading
`response.text` raises: its charset is the sender's. -/
inductive PostOutcome where
  | response (statusCode : Nat) (text : Option Str)
  /-- `httpx.HTTPError`, with its message. -/
  | transportError (message : Str)
  /-- Any other exception: `_tick` does not catch it. -/
  | otherError

/-- `response.is_success`. -/
def isSuccess (statusCode : Nat) : Bool := 200 ≤ statusCode && statusCode ≤ 299

/-- Where a tick stands: returned a count, raised, or awaiting its POST. -/
inductive TickStatus where
  | returned (sent : Nat)
  | raised
  | posting (batch : List QueuedEvent)

/-- `_tick` up to the POST. `mint` is the outcome of minting the JWT, the
message of the exception when it fails. -/
def tickBegin (json : JsonText) (mint : Except Str Str) (s : TelemetrySender)
    (st : TelemetryStore) : TelemetrySender × TelemetryStore × TickStatus :=
  match st.dequeueBatch json s.batchSize with
  | .error _ => (s, st, .raised)
  | .ok [] => (s, st, .returned 0)
  | .ok batch =>
      match mint with
      | .error e =>
          (s.bumpBackoff, st.markRetry (batch.map (·.id)) (("jwt_mint: " : Str) ++ e), .returned 0)
      | .ok _ => (s, st, .posting batch)

/-- `_tick` after the POST. The last component is the batch when the tick
acked it. -/
def tickEnd (batch : List QueuedEvent) (outcome : PostOutcome) (s : TelemetrySender)
    (st : TelemetryStore) :
    TelemetrySender × TelemetryStore × TickStatus × Option (List QueuedEvent) :=
  let ids := batch.map (·.id)
  match outcome with
  | .transportError e =>
      (s.bumpBackoff, st.markRetry ids (("transport: " : Str) ++ e), .returned 0, none)
  | .otherError => (s, st, .raised, none)
  | .response code text =>
      if isSuccess code then (s, st.ack ids, .returned ids.length, some batch)
      else if code = 400 ∨ code = 422 then
        -- the rows are acked before the text is logged
        (s, st.ack ids, if text.isSome then .returned ids.length else .raised, some batch)
      else
        match text with
        | none => (s, st, .raised, none)
        | some text =>
            (s.bumpBackoff, st.markRetry ids (reprNat code ++ (": " : Str) ++ text.take 200),
              .returned 0, none)

/-- Who runs the tick. -/
inductive Ticker where
  | runForever
  | flushNow
deriving DecidableEq

/-- What the caller of `_tick` does with its result, as far as the sender's
state goes: `run_forever` resets the backoff after sending something. -/
def afterTick (ticker : Ticker) (status : TickStatus) (s : TelemetrySender) : TelemetrySender :=
  match ticker, status with
  | .runForever, .returned (_ + 1) => { s with backoff := s.flushInterval }
  | _, _ => s

/-- One process with one ticker; `inFlight` is the awaited POST. -/
structure World where
  store : TelemetryStore
  sender : TelemetrySender
  inFlight : Option (Ticker × List QueuedEvent)

inductive Input where
  | enqueue (now : Str) (payload : Json)
  | startTick (ticker : Ticker) (mint : Except Str Str)
  | postEnds (outcome : PostOutcome)
  | cancel
  | reopen (maxSize : Nat) (batchSize : Int) (flushInterval : Rat)

/-- What a step reports: an event the store accepted or dropped, the event
list of an acked batch. -/
inductive Output where
  | accepted (payload : Json)
  | dropped (payload : Json)
  | acked (events : List Json)
  | quiet

def step (json : JsonText) (w : World) : Input → World × Output
  | .enqueue now payload =>
      let (st, ok) := w.store.enqueue json now payload
      ({ w with store := st }, if ok then .accepted payload else .dropped payload)
  | .startTick ticker mint =>
      match w.inFlight with
      | some _ => (w, .quiet)
      | none =>
          match tickBegin json mint w.sender w.store with
          | (s, st, .posting batch) =>
              ({ store := st, sender := s, inFlight := some (ticker, batch) }, .quiet)
          | (s, st, status) =>
              ({ store := st, sender := afterTick ticker status s, inFlight := none }, .quiet)
  | .postEnds outcome =>
      match w.inFlight with
      | none => (w, .quiet)
      | some (ticker, batch) =>
          let (s, st, status, acked) := tickEnd batch outcome w.sender w.store
          ({ store := st, sender := afterTick ticker status s, inFlight := none },
            match acked with
            | some b => .acked (b.map (·.payload))
            | none => .quiet)
  | .cancel => ({ w with inFlight := none }, .quiet)
  | .reopen maxSize batchSize flushInterval =>
      ({ store := .openOn w.store.table maxSize
         sender := .create batchSize flushInterval
         inFlight := none }, .quiet)

/-- A process started on an empty file. -/
def World.fresh (maxSize : Nat) (batchSize : Int) (flushInterval : Rat) : World where
  store := .openOn .empty maxSize
  sender := .create batchSize flushInterval
  inFlight := none

end TrustModelEdge.Telemetry
