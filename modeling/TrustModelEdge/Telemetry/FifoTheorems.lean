/-
TrustModelEdge.Telemetry.FifoTheorems — the store and its one ticker are
an exact queue.

The abstract queue is `FifoStep`: what `enqueue` accepts arrives, what a
tick acks is delivered. The peek is separated from the ack by an awaited
POST in which new rows arrive, so the invariant (`Inv`) says what a held
batch still is: a front part of the table, read before the later rows
were appended behind it. `step_fifo` is the simulation step, one case per
input; `telemetry_exact_fifo` composes it over a run.
-/
import TrustModelEdge.Lib.Fifo
import TrustModelEdge.Telemetry.Sender

namespace TrustModelEdge.Telemetry

open Py Lib

variable (json : JsonText)

/-! ## What a row carries -/

/-- The object a stored text parses to. -/
def readText (text : Str) : Json :=
  match json.loads text with
  | .ok p => p
  | .error _ => .null

/-- The payload object of a row. -/
def payloadOf (r : Nat × EventRow) : Json := readText json r.2.payload

def eventOf (r : Nat × EventRow) : QueuedEvent where
  id := r.1
  occurredAt := r.2.occurredAt
  payload := payloadOf json r
  retries := r.2.retries
  lastError := r.2.lastError

/-- The row's text parses. -/
def Readable (r : Nat × EventRow) : Prop := ∃ p, json.loads r.2.payload = .ok p

variable {json}

theorem readRow_of_readable {r : Nat × EventRow} (h : Readable json r) :
    TelemetryStore.readRow json r = .ok (eventOf json r) := by
  obtain ⟨p, hp⟩ := h
  unfold TelemetryStore.readRow eventOf payloadOf readText
  rw [hp]
  rfl

theorem mapM_readRow : ∀ {rows : List (Nat × EventRow)}, (∀ r ∈ rows, Readable json r) →
    rows.mapM (TelemetryStore.readRow json) = .ok (rows.map (eventOf json))
  | [], _ => rfl
  | r :: rows, h => by
      rw [List.mapM_cons, readRow_of_readable (h r List.mem_cons_self),
          mapM_readRow (fun s hs => h s (List.mem_cons_of_mem _ hs))]
      rfl

theorem dequeueBatch_of_readable {st : TelemetryStore}
    (h : ∀ r ∈ st.table.rows, Readable json r) (limit : Int) :
    st.dequeueBatch json limit = .ok ((st.table.first limit).map (eventOf json)) := by
  unfold TelemetryStore.dequeueBatch
  apply mapM_readRow
  intro r hr
  obtain ⟨rest, hrest⟩ := st.table.exists_first_append limit
  apply h
  rw [hrest]
  exact List.mem_append_left _ hr

variable (json)

/-! ## The abstraction -/

/-- The payloads still queued, in id order. -/
def pending (st : TelemetryStore) : List Json := st.table.rows.map (payloadOf json)

/-- The payloads a peek without limit reads. -/
def queued (st : TelemetryStore) : Except Exc (List Json) := do
  let batch ← st.dequeueBatch json (-1)
  return batch.map (·.payload)

/-- The event an output reports as accepted. -/
def Output.arrivals : Output → List Json
  | .accepted p => [p]
  | _ => []

/-- The events an output reports as acked. -/
def Output.deliveries : Output → List Json
  | .acked events => events
  | _ => []

/-- Every row parses, and a batch held across an await is still a front part
of the table, by id and payload. -/
structure Inv (w : World) : Prop where
  readable : ∀ r ∈ w.store.table.rows, Readable json r
  held : ∀ ticker batch, w.inFlight = some (ticker, batch) →
    ∃ front rest, w.store.table.rows = front ++ rest ∧
      batch.map (fun e => (e.id, e.payload)) = front.map (fun r => (r.1, payloadOf json r))

/-- The payloads a caller passes to `enqueue` survive the text form. -/
def RoundTrips : Input → Prop
  | .enqueue _ p => json.loads (json.dumps p) = .ok p
  | _ => True

variable {json}

theorem queued_of_readable {st : TelemetryStore} (h : ∀ r ∈ st.table.rows, Readable json r) :
    queued json st = .ok (pending json st) := by
  unfold queued
  rw [dequeueBatch_of_readable h]
  show Except.ok _ = _
  simp [pending, SerialTable.first, eventOf, Function.comp_def]

/-! ## The store's operations, seen through the abstraction -/

section Operations

variable {st : TelemetryStore}

theorem enqueue_accepted {now : Str} {p : Json} (hp : json.loads (json.dumps p) = .ok p)
    (hok : (st.enqueue json now p).2 = true) :
    ∃ row : EventRow, payloadOf json (st.table.seq + 1, row) = p ∧
      Readable json (st.table.seq + 1, row) ∧
      (st.enqueue json now p).1.table.rows = st.table.rows ++ [(st.table.seq + 1, row)] := by
  refine ⟨{ occurredAt := now, payload := json.dumps p }, by simp [payloadOf, readText, hp],
    ⟨p, hp⟩, ?_⟩
  unfold TelemetryStore.enqueue at hok ⊢
  split at hok
  · simp at hok
  · rename_i hfull
    rw [if_neg hfull]
    rfl

theorem enqueue_dropped {now : Str} {p : Json} (hok : (st.enqueue json now p).2 = false) :
    (st.enqueue json now p).1.table = st.table := by
  unfold TelemetryStore.enqueue at hok ⊢
  split at hok
  · rename_i hfull
    rw [if_pos hfull]
  · simp at hok

/-- An `ack` of nothing deletes nothing, so the check for it may be left out. -/
theorem ack_eq (st : TelemetryStore) (ids : List Nat) :
    st.ack ids = { st with table := st.table.delete ids } := by
  unfold TelemetryStore.ack
  split
  · rename_i hnil
    rw [hnil, SerialTable.delete_nil]
  · rfl

/-- What `mark_retry` makes of a row. -/
def retried (error : Str) (row : EventRow) : EventRow :=
  { row with retries := row.retries + 1, lastError := error.take 500 }

theorem markRetry_eq (st : TelemetryStore) (ids : List Nat) (error : Str) :
    st.markRetry ids error = { st with table := st.table.update ids (retried error) } := by
  unfold TelemetryStore.markRetry
  split
  · rename_i hnil
    rw [hnil, SerialTable.update_nil]
  · rfl

theorem markRetry_column {β : Type} (st : TelemetryStore) (col : EventRow → β)
    (hcol : ∀ row n e, col { row with retries := n, lastError := e } = col row)
    (ids : List Nat) (error : Str) :
    (st.markRetry ids error).table.rows.map (fun r => (r.1, col r.2)) =
      st.table.rows.map (fun r => (r.1, col r.2)) := by
  rw [markRetry_eq]
  exact st.table.update_column ids (fun row => hcol row _ _)

theorem markRetry_payloads (st : TelemetryStore) (ids : List Nat) (error : Str) :
    (st.markRetry ids error).table.rows.map (fun r => r.2.payload) =
      st.table.rows.map (fun r => r.2.payload) := by
  have h := markRetry_column st (fun row => row.payload) (fun _ _ _ => rfl) ids error
  simpa [List.map_map, Function.comp_def] using congrArg (List.map Prod.snd) h

theorem pending_markRetry (ids : List Nat) (error : Str) :
    pending json (st.markRetry ids error) = pending json st := by
  have h := congrArg (List.map (readText json)) (markRetry_payloads st ids error)
  rw [List.map_map, List.map_map] at h
  exact h

theorem readable_markRetry (h : ∀ r ∈ st.table.rows, Readable json r) (ids : List Nat)
    (error : Str) : ∀ r ∈ (st.markRetry ids error).table.rows, Readable json r := by
  intro r hr
  have hmem : r.2.payload ∈ st.table.rows.map (fun r => r.2.payload) := by
    rw [← markRetry_payloads st ids error]
    exact List.mem_map.mpr ⟨r, hr, rfl⟩
  obtain ⟨s, hs, he⟩ := List.mem_map.mp hmem
  obtain ⟨p, hp⟩ := h s hs
  exact ⟨p, by rw [← he]; exact hp⟩

/-- Acking the ids of a front part removes exactly that part. -/
theorem ack_front {front rest : List (Nat × EventRow)} {ids : List Nat}
    (hrows : st.table.rows = front ++ rest) (hids : ids = front.map Prod.fst) :
    (st.ack ids).table.rows = rest := by
  rw [ack_eq, hids]
  exact SerialTable.delete_front hrows

end Operations

/-! ## The two halves of a tick -/

/-- What `tickBegin` does: it returns or raises with the queue as it was, or
holds the first rows of an unchanged table. -/
theorem tickBegin_cases (s : TelemetrySender) {st : TelemetryStore} (mint : Except Str Str)
    (h : ∀ r ∈ st.table.rows, Readable json r) :
    (∃ s' ids error n, tickBegin json mint s st = (s', st.markRetry ids error, .returned n)) ∨
      (∃ n, tickBegin json mint s st = (s, st, .returned n)) ∨
      tickBegin json mint s st =
        (s, st, .posting ((st.table.first s.batchSize).map (eventOf json))) := by
  unfold tickBegin
  rw [dequeueBatch_of_readable h]
  cases hb : (st.table.first s.batchSize).map (eventOf json) with
  | nil => exact Or.inr (Or.inl ⟨0, rfl⟩)
  | cons e es =>
    cases mint with
    | error msg => exact Or.inl ⟨_, _, _, _, rfl⟩
    | ok _ => exact Or.inr (Or.inr rfl)

/-- What `tickEnd` does: it acks its whole batch, or leaves the queue to a
retry mark at most. -/
theorem tickEnd_cases (batch : List QueuedEvent) (outcome : PostOutcome) (s : TelemetrySender)
    (st : TelemetryStore) :
    (∃ status, tickEnd batch outcome s st =
        (s, st.ack (batch.map (·.id)), status, some batch)) ∨
      (∃ s' ids error status,
        tickEnd batch outcome s st = (s', st.markRetry ids error, status, none)) ∨
      tickEnd batch outcome s st = (s, st, .raised, none) := by
  unfold tickEnd
  cases outcome with
  | transportError e => exact Or.inr (Or.inl ⟨_, _, _, _, rfl⟩)
  | otherError => exact Or.inr (Or.inr rfl)
  | response code text =>
    by_cases hs : isSuccess code = true
    · exact Or.inl ⟨.returned (batch.map (·.id)).length, by simp only [hs, if_true]⟩
    · by_cases hbad : code = 400 ∨ code = 422
      · exact Or.inl ⟨_, by simp only [hs, if_pos hbad]; rfl⟩
      · cases text with
        | none => exact Or.inr (Or.inr (by simp only [hs, if_neg hbad]; rfl))
        | some text => exact Or.inr (Or.inl ⟨_, _, _, _, by simp only [hs, if_neg hbad]; rfl⟩)

/-! ## The simulation step -/

/-- A step that leaves every id and payload in place and holds no batch is idle. -/
theorem idle_fifo {w : World} {s : TelemetrySender} {st : TelemetryStore}
    (hread : ∀ r ∈ st.table.rows, Readable json r)
    (hpending : pending json st = pending json w.store) :
    Inv json { store := st, sender := s, inFlight := none } ∧
      FifoStep (pending json w.store) [] [] (pending json st) := by
  rw [hpending]
  exact ⟨⟨hread, by simp⟩, .idle _⟩

/-- An accepted event arrives at the end; a dropped one changes no row. -/
theorem enqueue_fifo {w : World} {now : Str} {p : Json} (h : Inv json w)
    (hp : json.loads (json.dumps p) = .ok p) :
    Inv json (step json w (.enqueue now p)).1 ∧
      FifoStep (pending json w.store) (step json w (.enqueue now p)).2.arrivals
        (step json w (.enqueue now p)).2.deliveries
        (pending json (step json w (.enqueue now p)).1.store) := by
  cases hok : (w.store.enqueue json now p).2 with
  | true =>
    obtain ⟨row, hrow, hread, hrows⟩ := enqueue_accepted hp hok
    have hs : step json w (.enqueue now p) =
        ({ w with store := (w.store.enqueue json now p).1 }, .accepted p) := by
      simp [step, hok]
    rw [hs]
    refine ⟨⟨?_, ?_⟩, ?_⟩
    · intro r hr
      rw [hrows] at hr
      rcases List.mem_append.mp hr with hr | hr
      · exact h.readable r hr
      · rw [List.mem_singleton.mp hr]; exact hread
    · -- the new row goes behind the rest, the held front part stays
      intro ticker batch hb
      obtain ⟨front, rest, hfr, hbatch⟩ := h.held ticker batch hb
      exact ⟨front, rest ++ [(w.store.table.seq + 1, row)],
        by rw [hrows, hfr, List.append_assoc], hbatch⟩
    · have hpending : pending json (w.store.enqueue json now p).1 =
          pending json w.store ++ [p] := by
        simp [pending, hrows, hrow]
      show FifoStep _ [p] [] (pending json (w.store.enqueue json now p).1)
      rw [hpending]
      exact .push _ p
  | false =>
    have htab := enqueue_dropped hok
    have hs : step json w (.enqueue now p) =
        ({ w with store := (w.store.enqueue json now p).1 }, .dropped p) := by
      simp [step, hok]
    rw [hs]
    refine ⟨⟨?_, ?_⟩, ?_⟩
    · intro r hr; exact h.readable r (htab ▸ hr)
    · intro ticker batch hb
      obtain ⟨front, rest, hfr, hbatch⟩ := h.held ticker batch hb
      exact ⟨front, rest, by rw [htab, hfr], hbatch⟩
    · have hpending : pending json (w.store.enqueue json now p).1 = pending json w.store := by
        simp [pending, htab]
      show FifoStep _ [] [] (pending json (w.store.enqueue json now p).1)
      rw [hpending]
      exact .idle _

/-- A tick up to its POST delivers nothing; what it holds is a front part. -/
theorem startTick_fifo {w : World} (h : Inv json w) (hf : w.inFlight = none) (ticker : Ticker)
    (mint : Except Str Str) :
    Inv json (step json w (.startTick ticker mint)).1 ∧
      FifoStep (pending json w.store) (step json w (.startTick ticker mint)).2.arrivals
        (step json w (.startTick ticker mint)).2.deliveries
        (pending json (step json w (.startTick ticker mint)).1.store) := by
  rcases tickBegin_cases w.sender mint h.readable with ⟨s', ids, error, n, ht⟩ | ⟨n, ht⟩ | ht
  · have hs : step json w (.startTick ticker mint) =
        ({ store := w.store.markRetry ids error
           sender := afterTick ticker (.returned n) s', inFlight := none }, .quiet) := by
      simp [step, hf, ht]
    rw [hs]
    exact idle_fifo (readable_markRetry h.readable ids error) (pending_markRetry ids error)
  · have hs : step json w (.startTick ticker mint) =
        ({ store := w.store, sender := afterTick ticker (.returned n) w.sender
           inFlight := none }, .quiet) := by
      simp [step, hf, ht]
    rw [hs]
    exact idle_fifo h.readable rfl
  · have hs : step json w (.startTick ticker mint) =
        ({ store := w.store, sender := w.sender
           inFlight := some (ticker,
             (w.store.table.first w.sender.batchSize).map (eventOf json)) }, .quiet) := by
      simp [step, hf, ht]
    rw [hs]
    refine ⟨⟨h.readable, ?_⟩, .idle _⟩
    intro t batch hb
    obtain ⟨rest, hrest⟩ := w.store.table.exists_first_append w.sender.batchSize
    simp only [Option.some.injEq, Prod.mk.injEq] at hb
    obtain ⟨-, rfl⟩ := hb
    exact ⟨_, rest, hrest, by simp [eventOf, Function.comp_def]⟩

/-- A tick after its POST delivers the front part it holds, or nothing. -/
theorem postEnds_fifo {w : World} (h : Inv json w) {ticker : Ticker} {batch : List QueuedEvent}
    (hf : w.inFlight = some (ticker, batch)) (outcome : PostOutcome) :
    Inv json (step json w (.postEnds outcome)).1 ∧
      FifoStep (pending json w.store) (step json w (.postEnds outcome)).2.arrivals
        (step json w (.postEnds outcome)).2.deliveries
        (pending json (step json w (.postEnds outcome)).1.store) := by
  obtain ⟨front, rest, hrows, hbatch⟩ := h.held ticker batch hf
  rcases tickEnd_cases batch outcome w.sender w.store with
    ⟨status, ht⟩ | ⟨s', ids, error, status, ht⟩ | ht
  · have hs : step json w (.postEnds outcome) =
        ({ store := w.store.ack (batch.map (·.id))
           sender := afterTick ticker status w.sender
           inFlight := none }, .acked (batch.map (·.payload))) := by
      simp [step, hf, ht]
    have hids : batch.map (·.id) = front.map Prod.fst := by
      simpa [List.map_map, Function.comp_def] using congrArg (List.map Prod.fst) hbatch
    have hpay : batch.map (·.payload) = front.map (payloadOf json) := by
      simpa [List.map_map, Function.comp_def] using congrArg (List.map Prod.snd) hbatch
    have hrest := ack_front hrows hids
    rw [hs]
    refine ⟨⟨?_, by simp⟩, ?_⟩
    · intro r hr
      apply h.readable
      rw [hrows]
      exact List.mem_append_right _ (hrest ▸ hr)
    · have hbefore : pending json w.store =
          front.map (payloadOf json) ++ rest.map (payloadOf json) := by
        simp [pending, hrows]
      have hafter : pending json (w.store.ack (batch.map (·.id))) =
          rest.map (payloadOf json) := by
        simp [pending, hrest]
      show FifoStep _ [] (batch.map (·.payload)) (pending json (w.store.ack (batch.map (·.id))))
      rw [hbefore, hafter, hpay]
      exact .pop _ _
  · have hs : step json w (.postEnds outcome) =
        ({ store := w.store.markRetry ids error, sender := afterTick ticker status s'
           inFlight := none }, .quiet) := by
      simp [step, hf, ht]
    rw [hs]
    exact idle_fifo (readable_markRetry h.readable ids error) (pending_markRetry ids error)
  · have hs : step json w (.postEnds outcome) =
        ({ store := w.store, sender := afterTick ticker .raised w.sender
           inFlight := none }, .quiet) := by
      simp [step, hf, ht]
    rw [hs]
    exact idle_fifo h.readable rfl

/-- **One step** keeps the invariant and is a step of the abstract queue. -/
theorem step_fifo {w : World} {i : Input} (h : Inv json w) (hi : RoundTrips json i) :
    Inv json (step json w i).1 ∧
      FifoStep (pending json w.store) (step json w i).2.arrivals (step json w i).2.deliveries
        (pending json (step json w i).1.store) := by
  cases i with
  | enqueue now p => exact enqueue_fifo h hi
  | startTick ticker mint =>
    cases hf : w.inFlight with
    | none => exact startTick_fifo h hf ticker mint
    | some held =>
      -- a tick does not start while one is awaited
      have hs : step json w (.startTick ticker mint) = (w, .quiet) := by simp [step, hf]
      rw [hs]
      exact ⟨h, .idle _⟩
  | postEnds outcome =>
    cases hf : w.inFlight with
    | none =>
      have hs : step json w (.postEnds outcome) = (w, .quiet) := by simp [step, hf]
      rw [hs]
      exact ⟨h, .idle _⟩
    | some held => exact postEnds_fifo h hf outcome
  | cancel => exact idle_fifo h.readable rfl
  | reopen maxSize batchSize flushInterval => exact idle_fifo h.readable rfl

theorem inv_fresh (maxSize : Nat) (batchSize : Int) (flushInterval : Rat) :
    Inv json (.fresh maxSize batchSize flushInterval) :=
  ⟨by simp [World.fresh, TelemetryStore.openOn, SerialTable.empty], by simp [World.fresh]⟩

/-- **The queue is exact.** In every state a run reaches, the events of the
acked batches, in order, followed by the payloads still queued, are the
accepted payloads, in the order of acceptance. -/
theorem telemetry_exact_fifo (maxSize : Nat) (batchSize : Int) (flushInterval : Rat)
    (inputs : List Input) (hjson : ∀ i ∈ inputs, RoundTrips json i) :
    let w₀ := World.fresh maxSize batchSize flushInterval
    ∃ rest, queued json (final (step json) w₀ inputs).store = .ok rest ∧
      (trace (step json) w₀ inputs).flatMap Output.deliveries ++ rest =
        (trace (step json) w₀ inputs).flatMap Output.arrivals := by
  intro w₀
  have hfresh : Inv json w₀ := inv_fresh maxSize batchSize flushInterval
  have hkeep : ∀ w i, Inv json w → RoundTrips json i → Inv json (step json w i).1 :=
    fun _ _ h hi => (step_fifo h hi).1
  have hinv : Inv json (final (step json) w₀ inputs) := final_inv (step json) hkeep hfresh hjson
  have hrun : FifoStep (pending json w₀.store) _ _ _ :=
    fifo_run hkeep (fun _ _ h hi => (step_fifo h hi).2) hfresh hjson
  refine ⟨pending json (final (step json) w₀ inputs).store, queued_of_readable hinv.readable, ?_⟩
  exact hrun.symm

/-! A run in which the second event arrives while the first is in flight, the
POST is answered 503, and the retry delivers both. -/

/-- The two texts of the run below, as `json` prints and parses them. -/
def demoJson : JsonText where
  loads := fun t =>
    if t = "\x7b\x7d" then .ok (.obj [])
    else if t = "\x7b\"a\": 1\x7d" then .ok (.obj [(("a" : Str), .int 1)])
    else .error .jsonDecodeError
  dumps := fun v =>
    match v with
    | .obj [] => "\x7b\x7d"
    | _ => "\x7b\"a\": 1\x7d"

def retriedRun : List Input :=
  [.enqueue "t0" (.obj []), .startTick .runForever (.ok "jwt"),
   .enqueue "t1" (.obj [(("a" : Str), .int 1)]), .postEnds (.response 503 "busy"),
   .startTick .runForever (.ok "jwt"), .postEnds (.response 200 "")]

theorem telemetry_exact_fifo_retried :
    let w₀ := World.fresh 10 50 5
    (∀ i ∈ retriedRun, RoundTrips demoJson i) ∧
      ∃ rest, queued demoJson (final (step demoJson) w₀ retriedRun).store = .ok rest ∧
        (trace (step demoJson) w₀ retriedRun).flatMap Output.deliveries ++ rest =
          (trace (step demoJson) w₀ retriedRun).flatMap Output.arrivals := by
  have hjson : ∀ i ∈ retriedRun, RoundTrips demoJson i := by
    intro i hi
    simp only [retriedRun, List.mem_cons, List.not_mem_nil, or_false] at hi
    rcases hi with rfl | rfl | rfl | rfl | rfl | rfl <;> first | rfl | trivial
  exact ⟨hjson, telemetry_exact_fifo 10 50 5 retriedRun hjson⟩

end TrustModelEdge.Telemetry
