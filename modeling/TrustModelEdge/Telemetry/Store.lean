/-
TrustModelEdge.Telemetry.Store — the durable queue of audit events
(`telemetry/store.py`).

The table `events` is a `SerialTable`: `INTEGER PRIMARY KEY AUTOINCREMENT`
issues increasing keys and never reissues one. A process that opens the
same intact file finds the table as it was; the capacity and the drop
counter are the object's own.
-/
import TrustModelEdge.Lib.SerialTable
import TrustModelEdge.Py.Exc

namespace TrustModelEdge.Telemetry

open Py Lib

/-- A row of `events`, its `id` aside. -/
structure EventRow where
  occurredAt : Str
  payload : Str
  retries : Nat := 0
  lastError : Str := []

structure QueuedEvent where
  id : Nat
  occurredAt : Str
  payload : Json
  retries : Nat
  lastError : Str

structure TelemetryStore where
  table : SerialTable EventRow
  maxSize : Nat
  dropped : Nat

namespace TelemetryStore

/-- `TelemetryStore(db_path, max_size=…)` on an intact file with this table. -/
def openOn (table : SerialTable EventRow) (maxSize : Nat) : TelemetryStore where
  table := table
  maxSize := maxSize
  dropped := 0

def count (st : TelemetryStore) : Nat := st.table.rows.length

/-- `enqueue`: append the event unless the queue is full. -/
def enqueue (json : JsonText) (now : Str) (payload : Json) (st : TelemetryStore) :
    TelemetryStore × Bool :=
  if st.count ≥ st.maxSize then ({ st with dropped := st.dropped + 1 }, false)
  else
    ({ st with
        table := st.table.insert { occurredAt := now, payload := json.dumps payload } }, true)

/-- The event object of a row. -/
def readRow (json : JsonText) (r : Nat × EventRow) : Except Exc QueuedEvent := do
  let payload ← json.loads r.2.payload
  return { id := r.1, occurredAt := r.2.occurredAt, payload := payload,
           retries := r.2.retries, lastError := r.2.lastError }

/-- `dequeue_batch(limit=…)`: peek at the oldest events. -/
def dequeueBatch (json : JsonText) (limit : Int) (st : TelemetryStore) :
    Except Exc (List QueuedEvent) :=
  (st.table.first limit).mapM (readRow json)

/-- `ack(ids)`. -/
def ack (ids : List Nat) (st : TelemetryStore) : TelemetryStore :=
  if ids = [] then st else { st with table := st.table.delete ids }

/-- `mark_retry(ids, error=…)`. -/
def markRetry (ids : List Nat) (error : Str) (st : TelemetryStore) : TelemetryStore :=
  if ids = [] then st
  else
    { st with
        table := st.table.update ids
          (fun row => { row with retries := row.retries + 1, lastError := error.take 500 }) }

/-! ## The store as a machine -/

/-- A call on the store. `reopen` is a new process on the same intact file. -/
inductive Op where
  | enqueue (now : Str) (payload : Json)
  | dequeueBatch (limit : Int)
  | ack (ids : List Nat)
  | markRetry (ids : List Nat) (error : Str)
  | reopen (maxSize : Nat)

/-- What a call came to. -/
inductive Event where
  /-- `enqueue` returned `True`; the row got this id. -/
  | accepted (id : Nat)
  /-- `enqueue` returned `False`. -/
  | dropped
  | peeked (batch : Except Exc (List QueuedEvent))
  /-- `ack` deleted so many rows. -/
  | acked (rows : Nat)
  | marked
  /-- The file was opened with so many rows. -/
  | opened (rows : Nat)

def step (json : JsonText) (st : TelemetryStore) : Op → TelemetryStore × Event
  | .enqueue now payload =>
      let (st', ok) := st.enqueue json now payload
      (st', if ok then .accepted (st.table.seq + 1) else .dropped)
  | .dequeueBatch limit => (st, .peeked (st.dequeueBatch json limit))
  | .ack ids => (st.ack ids, .acked (st.count - (st.ack ids).count))
  | .markRetry ids error => (st.markRetry ids error, .marked)
  | .reopen maxSize => (openOn st.table maxSize, .opened st.count)

end TelemetryStore

/-- `TelemetryStore | NoopTelemetryStore`; of the latter only the drop
counter is state. -/
inductive AnyTelemetryStore where
  | real (st : TelemetryStore)
  | noop (dropped : Nat)

/-- `enqueue` of either store: the stand-in drops the event, counts it, and
reports success. -/
def AnyTelemetryStore.enqueue (json : JsonText) (now : Str) (payload : Json) :
    AnyTelemetryStore → AnyTelemetryStore × Bool
  | .real st => ((.real (st.enqueue json now payload).1), (st.enqueue json now payload).2)
  | .noop d => (.noop (d + 1), true)

end TrustModelEdge.Telemetry
