/-
TrustModelEdge.Telemetry.AccountTheorems — the books of the store.

Every call on a `TelemetryStore` reports an event. `Books` says what the
events so far tell of the file and of the object: how many rows there are,
which ids were issued, how often the queue was full. `books_step` is one
case a call; a run is an induction on it (`keeps_books`). What a peek
returns and what a retry mark changes are facts of the state alone.
-/
import Mathlib.Algebra.Order.BigOperators.Group.List
import Mathlib.Algebra.Ring.Nat
import Mathlib.Data.List.DropRight
import TrustModelEdge.Telemetry.FifoTheorems

namespace TrustModelEdge.Telemetry

open Py Lib

namespace TelemetryStore

/-! ## Reading the events -/

def Event.isOpened : Event → Bool
  | .opened _ => true
  | _ => false

def Event.isDropped : Event → Bool
  | .dropped => true
  | _ => false

def Event.acceptedId? : Event → Option Nat
  | .accepted id => some id
  | _ => none

def Event.openedRows? : Event → Option Nat
  | .opened rows => some rows
  | _ => none

def Event.ackedRows : Event → Nat
  | .acked rows => rows
  | _ => 0

/-- The ids of the accepted events, in the order of `enqueue`. -/
def acceptedIds (es : List Event) : List Nat := es.filterMap Event.acceptedId?

/-- How many rows `ack` deleted. -/
def ackedRows (es : List Event) : Nat := (es.map Event.ackedRows).sum

/-- How many calls of `enqueue` returned `False` since the file was opened. -/
def droppedSinceOpening (es : List Event) : Nat :=
  (es.rtakeWhile (fun e => !e.isOpened)).countP Event.isDropped

/-- How many rows the file had when it was opened; `rows` at the first opening. -/
def rowsAtOpening (rows : Nat) (es : List Event) : Nat :=
  (es.filterMap Event.openedRows?).getLast?.getD rows

section Reading

variable (es : List Event) (e : Event)

theorem acceptedIds_concat :
    acceptedIds (es ++ [e]) = acceptedIds es ++ e.acceptedId?.toList := by
  cases h : e.acceptedId? <;> simp [acceptedIds, h]

theorem ackedRows_concat : ackedRows (es ++ [e]) = ackedRows es + e.ackedRows := by
  simp [ackedRows]

theorem droppedSinceOpening_concat : droppedSinceOpening (es ++ [e]) =
    if e.isOpened then 0 else droppedSinceOpening es + if e.isDropped then 1 else 0 := by
  unfold droppedSinceOpening
  rw [List.rtakeWhile_concat]
  cases e.isOpened <;> simp [List.countP_append, List.countP_singleton]

theorem rowsAtOpening_concat (rows : Nat) :
    rowsAtOpening rows (es ++ [e]) = e.openedRows?.getD (rowsAtOpening rows es) := by
  unfold rowsAtOpening
  cases h : e.openedRows? <;> simp [h]

end Reading

/-! ## The books -/

/-- What the events `es` since a table `t` was first opened tell of the store. -/
structure Books (t : SerialTable EventRow) (es : List Event) (st : TelemetryStore) : Prop where
  /-- The queue outgrows its capacity only by what the file had at the opening. -/
  capacity : st.count ≤ max st.maxSize (rowsAtOpening t.rows.length es)
  conserved : t.rows.length + (acceptedIds es).length = st.count + ackedRows es
  dropped : st.dropped = droppedSinceOpening es
  /-- Ids increase in the order of `enqueue`. -/
  increasing : (acceptedIds es).Pairwise (· < ·)
  /-- No id that the file had issued is issued again. -/
  fresh : ∀ id ∈ acceptedIds es, t.seq < id
  issued : ∀ id ∈ acceptedIds es, id ≤ st.table.seq
  grown : t.seq ≤ st.table.seq
  /-- Every row was there at the first opening or was accepted since. -/
  known : ∀ r ∈ st.table.rows, r.1 ∈ t.rows.map Prod.fst ∨ r.1 ∈ acceptedIds es

section Steps

variable {json : JsonText} {t : SerialTable EventRow} {es : List Event} {st : TelemetryStore}

theorem books_openOn (t : SerialTable EventRow) (maxSize : Nat) :
    Books t [] (openOn t maxSize) where
  capacity := Nat.le_max_right _ _
  conserved := rfl
  dropped := rfl
  increasing := .nil
  fresh := by simp [acceptedIds]
  issued := by simp [acceptedIds]
  grown := Nat.le_refl _
  known := fun r hr => Or.inl (List.mem_map.mpr ⟨r, hr, rfl⟩)

/-- An accepted event is a row under the next id. -/
theorem books_accepted (h : Books t es st) (row : EventRow) (hroom : st.count < st.maxSize) :
    Books t (es ++ [.accepted (st.table.seq + 1)]) { st with table := st.table.insert row } := by
  have hcount : TelemetryStore.count { st with table := st.table.insert row } = st.count + 1 := by
    simp [TelemetryStore.count]
  have hids : acceptedIds (es ++ [.accepted (st.table.seq + 1)]) =
      acceptedIds es ++ [st.table.seq + 1] := acceptedIds_concat _ _
  refine ⟨?_, ?_, ?_, ?_, ?_, ?_, ?_, ?_⟩
  · rw [hcount]
    exact Nat.le_trans hroom (Nat.le_max_left _ _)
  · rw [hids, ackedRows_concat, hcount, List.length_append, List.length_singleton]
    have := h.conserved
    simp only [Event.ackedRows]
    omega
  · rw [droppedSinceOpening_concat]
    exact h.dropped
  · rw [hids, List.pairwise_append]
    refine ⟨h.increasing, List.pairwise_singleton _ _, fun id hid next hnext => ?_⟩
    rw [List.mem_singleton.mp hnext]
    exact Nat.lt_succ_of_le (h.issued id hid)
  · rw [hids]
    intro id hid
    rcases List.mem_append.mp hid with hid | hid
    · exact h.fresh id hid
    · rw [List.mem_singleton.mp hid]
      exact Nat.lt_succ_of_le h.grown
  · rw [hids]
    intro id hid
    rcases List.mem_append.mp hid with hid | hid
    · exact Nat.le_succ_of_le (h.issued id hid)
    · exact Nat.le_of_eq (List.mem_singleton.mp hid)
  · exact Nat.le_succ_of_le h.grown
  · rw [hids]
    intro r hr
    rcases List.mem_append.mp hr with hr | hr
    · exact (h.known r hr).imp_right (List.mem_append_left _)
    · rw [List.mem_singleton.mp hr]
      exact Or.inr (List.mem_append_right _ (List.mem_singleton.mpr rfl))

/-- Events that accept nothing, on a store that keeps some of its rows. -/
theorem books_kept (h : Books t es st) {e : Event} {st' : TelemetryStore}
    (hids : e.acceptedId? = none) (hcapacity : st'.count ≤ max st'.maxSize
      (rowsAtOpening t.rows.length (es ++ [e])))
    (hconserved : st.count = st'.count + e.ackedRows)
    (hdropped : st'.dropped = droppedSinceOpening (es ++ [e]))
    (hseq : st'.table.seq = st.table.seq)
    (hrows : ∀ r ∈ st'.table.rows, ∃ s ∈ st.table.rows, s.1 = r.1) : Books t (es ++ [e]) st' := by
  have hsame : acceptedIds (es ++ [e]) = acceptedIds es := by
    rw [acceptedIds_concat, hids, Option.toList_none, List.append_nil]
  refine ⟨hcapacity, ?_, hdropped, ?_, ?_, ?_, ?_, ?_⟩
  · rw [hsame, ackedRows_concat]
    have := h.conserved
    omega
  · rw [hsame]
    exact h.increasing
  · rw [hsame]
    exact h.fresh
  · rw [hsame, hseq]
    exact h.issued
  · rw [hseq]
    exact h.grown
  · rw [hsame]
    intro r hr
    obtain ⟨s, hs, he⟩ := hrows r hr
    rw [← he]
    exact h.known s hs

theorem step_enqueue_full {now : Str} {payload : Json} (h : st.maxSize ≤ st.count) :
    step json st (.enqueue now payload) = ({ st with dropped := st.dropped + 1 }, .dropped) := by
  simp [step, enqueue, h]

theorem step_enqueue_room {now : Str} {payload : Json} (h : st.count < st.maxSize) :
    step json st (.enqueue now payload) =
      ({ st with table := st.table.insert { occurredAt := now, payload := json.dumps payload } },
        .accepted (st.table.seq + 1)) := by
  simp [step, enqueue, Nat.not_le.mpr h]

/-- **One call** keeps the books. -/
theorem books_step (h : Books t es st) (op : Op) :
    Books t (es ++ [(step json st op).2]) (step json st op).1 := by
  cases op with
  | enqueue now payload =>
    rcases Nat.lt_or_ge st.count st.maxSize with hroom | hfull
    · rw [step_enqueue_room hroom]
      exact books_accepted h _ hroom
    · rw [step_enqueue_full hfull]
      refine books_kept h rfl ?_ rfl ?_ rfl (fun r hr => ⟨r, hr, rfl⟩)
      · rw [rowsAtOpening_concat]
        exact h.capacity
      · rw [droppedSinceOpening_concat, ← h.dropped]
        rfl
  | dequeueBatch limit =>
    refine books_kept h rfl ?_ rfl ?_ rfl (fun r hr => ⟨r, hr, rfl⟩)
    · rw [rowsAtOpening_concat]
      exact h.capacity
    · rw [droppedSinceOpening_concat]
      exact h.dropped
  | ack ids =>
    have hs : step json st (.ack ids) = ({ st with table := st.table.delete ids },
        .acked (st.count - (st.table.delete ids).rows.length)) := by
      simp only [step, ack_eq]
      rfl
    have hle : (st.table.delete ids).rows.length ≤ st.count := st.table.length_delete_le ids
    rw [hs]
    refine books_kept h rfl ?_ ?_ ?_ rfl (fun r hr => ⟨r, (List.mem_filter.mp hr).1, rfl⟩)
    · rw [rowsAtOpening_concat]
      exact Nat.le_trans hle h.capacity
    · simp only [Event.ackedRows, TelemetryStore.count] at hle ⊢
      omega
    · rw [droppedSinceOpening_concat]
      exact h.dropped
  | markRetry ids error =>
    have hs : step json st (.markRetry ids error) =
        ({ st with table := st.table.update ids (retried error) }, .marked) := by
      simp only [step, markRetry_eq]
    have hcount : (st.table.update ids (retried error)).rows.length = st.count :=
      st.table.length_update ids (retried error)
    rw [hs]
    refine books_kept h rfl ?_ hcount.symm ?_ rfl (fun r hr => SerialTable.key_of_mem_update hr)
    · rw [rowsAtOpening_concat]
      exact Nat.le_trans (Nat.le_of_eq hcount) h.capacity
    · rw [droppedSinceOpening_concat]
      exact h.dropped
  | reopen maxSize =>
    refine books_kept h rfl ?_ rfl ?_ rfl (fun r hr => ⟨r, hr, rfl⟩)
    · rw [rowsAtOpening_concat]
      exact Nat.le_max_right _ _
    · rw [droppedSinceOpening_concat]
      rfl

end Steps

/-! ## What a peek returns -/

/-- What `json.dumps` prints of an enqueued payload parses. -/
def Op.Prints (json : JsonText) : Op → Prop
  | .enqueue _ payload => ∃ p, json.loads (json.dumps payload) = .ok p
  | _ => True

/-- The rows that a peek is to return: the first ones, or with a negative limit
all. -/
def peekedRows (st : TelemetryStore) (limit : Int) : List (Nat × EventRow) :=
  if limit < 0 then st.table.rows else st.table.rows.take (min limit.toNat st.count)

theorem first_eq_peekedRows (st : TelemetryStore) (limit : Int) :
    st.table.first limit = st.peekedRows limit := by
  unfold SerialTable.first peekedRows
  split
  · rfl
  · exact List.take_eq_take_min

theorem readable_step {json : JsonText} {st : TelemetryStore}
    (h : ∀ r ∈ st.table.rows, Readable json r) {op : Op} (hop : op.Prints json) :
    ∀ r ∈ (step json st op).1.table.rows, Readable json r := by
  cases op with
  | enqueue now payload =>
    intro r hr
    rcases Nat.lt_or_ge st.count st.maxSize with hroom | hfull
    · rw [step_enqueue_room hroom] at hr
      rcases List.mem_append.mp hr with hr | hr
      · exact h r hr
      · rw [List.mem_singleton.mp hr]
        exact hop
    · rw [step_enqueue_full hfull] at hr
      exact h r hr
  | dequeueBatch limit => exact h
  | ack ids =>
    intro r hr
    simp only [step, ack_eq] at hr
    exact h r (List.mem_filter.mp hr).1
  | markRetry ids error => exact readable_markRetry h ids error
  | reopen maxSize => exact h

/-! ## What an ack and a retry mark change -/

/-- A row after a retry mark on the rows with these ids. -/
structure Marked (ids : List Nat) (error : Str) (before after : Nat × EventRow) : Prop where
  id : after.1 = before.1
  occurredAt : after.2.occurredAt = before.2.occurredAt
  payload : after.2.payload = before.2.payload
  named : before.1 ∈ ids →
    after.2.retries = before.2.retries + 1 ∧ after.2.lastError = error.take 500
  others : before.1 ∉ ids → after = before

theorem markRetry_rows (st : TelemetryStore) (ids : List Nat) (error : Str) :
    List.Forall₂ (Marked ids error) st.table.rows (st.markRetry ids error).table.rows := by
  rw [markRetry_eq]
  refine List.forall₂_map_right_iff.mpr (List.forall₂_same.mpr fun r _ => ?_)
  by_cases hid : r.1 ∈ ids
  · rw [if_pos hid]
    exact ⟨rfl, rfl, rfl, fun _ => ⟨rfl, rfl⟩, fun hnot => absurd hid hnot⟩
  · rw [if_neg hid]
    exact ⟨rfl, rfl, rfl, fun h => absurd h hid, fun _ => rfl⟩

/-- An ack deletes the rows with the ids, and reports how many these were. -/
theorem step_ack (json : JsonText) (st : TelemetryStore) (ids : List Nat) :
    (step json st (.ack ids)).1.table.rows = st.table.rows.filter (fun r => r.1 ∉ ids) ∧
      (step json st (.ack ids)).2 = .acked (st.table.rows.countP (fun r => r.1 ∈ ids)) := by
  have hsplit := st.table.rows.length_eq_countP_add_countP (fun r => r.1 ∈ ids)
  have hleft : (st.table.rows.filter (fun r => r.1 ∉ ids)).length =
      st.table.rows.countP (fun r => ¬ (decide (r.1 ∈ ids)) = true) := by
    rw [List.countP_eq_length_filter]
    simp
  simp only [step, ack_eq, TelemetryStore.count, SerialTable.delete, true_and]
  congr 1
  omega

/-- **The store keeps its books**, in every state that calls and reopenings bring
it to. A peek returns the first rows and changes nothing; an ack deletes the named
rows that are there; a retry mark counts one retry, and leaves its error, on each of
them, and changes nothing else. -/
theorem keeps_books (json : JsonText) (t : SerialTable EventRow) (maxSize : Nat)
    (ops : List Op) :
    let st := final (step json) (openOn t maxSize) ops
    Books t (trace (step json) (openOn t maxSize) ops) st ∧
      ((∀ r ∈ t.rows, Readable json r) → (∀ op ∈ ops, op.Prints json) → ∀ limit,
        step json st (.dequeueBatch limit) =
          (st, .peeked (.ok ((st.peekedRows limit).map (eventOf json))))) ∧
      (∀ ids,
        (step json st (.ack ids)).1.table.rows = st.table.rows.filter (fun r => r.1 ∉ ids) ∧
        (step json st (.ack ids)).2 = .acked (st.table.rows.countP (fun r => r.1 ∈ ids))) ∧
      ∀ ids error,
        List.Forall₂ (Marked ids error) st.table.rows (st.markRetry ids error).table.rows ∧
        st.markRetry ids error = { st with table := (st.markRetry ids error).table } ∧
        (st.markRetry ids error).table.seq = st.table.seq := by
  intro st
  refine ⟨?_, ?_, step_ack json st, fun ids error => ⟨markRetry_rows st ids error, ?_⟩⟩
  · have hstep : ∀ es s op, Books t es s → True →
        Books t (es ++ [(step json s op).2]) (step json s op).1 :=
      fun _ _ op h _ => books_step h op
    exact trace_inv (step json) hstep (books_openOn t maxSize) (fun _ _ => trivial)
  · intro hrows hops limit
    have hstep : ∀ (s : TelemetryStore) op, (∀ r ∈ s.table.rows, Readable json r) →
        op.Prints json → ∀ r ∈ (step json s op).1.table.rows, Readable json r :=
      fun _ _ h hop => readable_step h hop
    have hread : ∀ r ∈ st.table.rows, Readable json r :=
      final_inv (step json) hstep (show ∀ r ∈ (openOn t maxSize).table.rows, _ from hrows) hops
    show (st, Event.peeked (st.dequeueBatch json limit)) = _
    rw [dequeueBatch_of_readable hread, first_eq_peekedRows]
  · rw [markRetry_eq]
    exact ⟨rfl, rfl⟩

/-- Three events, a failed POST of the first two, and the answer to the first. -/
def queuedOps : List Op :=
  [.enqueue "t0" (.obj []), .enqueue "t1" (.obj [(("a" : Str), .int 1)]),
   .enqueue "t2" (.obj []), .markRetry [1, 2, 9] "503: busy", .ack [1]]

/-- The peek finds the second event marked, and the third. -/
theorem keeps_books_queued :
    let st := final (step demoJson) (openOn .empty 3) queuedOps
    step demoJson st (.dequeueBatch 5) =
      (st, .peeked (.ok
        [⟨2, "t1", .obj [(("a" : Str), .int 1)], 1, "503: busy"⟩, ⟨3, "t2", .obj [], 0, []⟩])) := by
  refine ((keeps_books demoJson .empty 3 queuedOps).2.1 (by simp [SerialTable.empty]) ?_ 5).trans
    rfl
  intro op hop
  simp only [queuedOps, List.mem_cons, List.not_mem_nil, or_false] at hop
  rcases hop with rfl | rfl | rfl | rfl | rfl
  · exact ⟨.obj [], rfl⟩
  · exact ⟨.obj [(("a" : Str), .int 1)], rfl⟩
  · exact ⟨.obj [], rfl⟩
  · trivial
  · trivial

/-- A full queue, emptied and filled again after a restart: the id of the deleted
row is not reused. -/
example :
    acceptedIds (trace (step demoJson) (openOn .empty 1)
      [.enqueue "t0" (.obj []), .enqueue "t1" (.obj []), .ack [1, 7, 1], .reopen 1,
       .enqueue "t2" (.obj [])]) = [1, 2] := by
  decide

end TelemetryStore

end TrustModelEdge.Telemetry
