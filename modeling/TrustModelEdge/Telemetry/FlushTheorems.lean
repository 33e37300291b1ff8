/-
TrustModelEdge.Telemetry.FlushTheorems — a flush ends, and drains what it says.

A tick of a flush removes the oldest rows, as many as a batch holds, or
ends the flush (`TickEnds`). So the rows that are left are those behind the
first `total` ones, and each turn that goes on has taken a whole batch or
emptied the queue. Only a tick that raises may take rows that nothing
counts: those of a rejected batch whose answer has a text that cannot be
read (`flush_drains_iff`).
-/
import Mathlib.Algebra.Order.Floor.Div
import TrustModelEdge.Telemetry.DrainTheorems
import TrustModelEdge.Telemetry.Loops

namespace TrustModelEdge.Telemetry

open Py Lib

/-! ## A tick of a flush -/

/-- `json.loads` parses every text. -/
def AllParse (json : JsonText) (texts : List (Nat × Str)) : Prop :=
  ∀ r ∈ texts, ∃ p, json.loads r.2 = .ok p

/-- The tick gets its token, and its POST is answered 2xx, 400 or 422. -/
structure FlushInput.Answered (i : FlushInput) : Prop where
  minted : ∃ token, i.mint = .ok token
  taken : i.outcome.taken = true

/-- How a tick of a flush ends, seen by the rows. -/
inductive TickEnds (i : FlushInput) (batchSize : Nat) (st st' : TelemetryStore) :
    TickStatus → Prop where
  | sent (n : Nat) (hsent : n + 1 = min batchSize st.texts.length)
      (htexts : st'.texts = st.texts.drop (n + 1)) :
      TickEnds i batchSize st st' (.returned (n + 1))
  | stopped (htexts : st'.texts = st.texts) (hwhy : i.Answered → st.texts = []) :
      TickEnds i batchSize st st' (.returned 0)
  | raised (n : Nat) (hn : n ≤ st.texts.length) (htexts : st'.texts = st.texts.drop n) :
      TickEnds i batchSize st st' .raised

section Tick

variable {json : JsonText}

theorem readRow_id {r : Nat × EventRow} {e : QueuedEvent}
    (h : TelemetryStore.readRow json r = .ok e) : r.1 = e.id := by
  unfold TelemetryStore.readRow at h
  cases hl : json.loads r.2.payload with
  | error x => rw [hl] at h; cases h
  | ok p => rw [hl] at h; cases h; rfl

/-- A peek that succeeds reads the first rows. -/
theorem dequeueBatch_ids {st : TelemetryStore} {limit : Int} {batch : List QueuedEvent}
    (h : st.dequeueBatch json limit = .ok batch) (hlimit : 0 ≤ limit) :
    batch.map (·.id) = (st.texts.take limit.toNat).map Prod.fst := by
  have hids : (st.table.first limit).map Prod.fst = batch.map (·.id) := by
    rw [← List.forall₂_eq_eq_eq, List.forall₂_map_left_iff, List.forall₂_map_right_iff]
    exact forall₂_of_mapM (f := TelemetryStore.readRow json) (fun r e he => readRow_id he) h
  rw [← hids]
  unfold SerialTable.first TelemetryStore.texts
  rw [if_neg (by omega), List.map_take, List.map_take, List.map_map]
  rfl

theorem dequeueBatch_of_allParse {st : TelemetryStore} (h : AllParse json st.texts)
    (limit : Int) : ∃ batch, st.dequeueBatch json limit = .ok batch :=
  ⟨_, dequeueBatch_of_readable
    (fun r hr => h (r.1, r.2.payload) (List.mem_map.mpr ⟨r, hr, rfl⟩)) limit⟩

/-- Acking the first rows leaves the rows behind them. -/
theorem texts_ack_take {st : TelemetryStore} {ids : List Nat} {n : Nat}
    (h : ids = (st.texts.take n).map Prod.fst) : (st.ack ids).texts = st.texts.drop n := by
  have hsorted := st.texts_sorted
  rw [← List.take_append_drop n st.texts] at hsorted
  have hfilter := SerialTable.filter_front hsorted
  rw [List.take_append_drop] at hfilter
  rw [st.texts_ack, h, hfilter]

variable (json) in
/-- The first half of a tick: it ends with the rows in place, or holds the first
rows for its POST. -/
theorem tickBegin_ends (i : FlushInput) (s : TelemetrySender) (st : TelemetryStore)
    (hb : 1 ≤ s.batchSize) :
    (∃ s' st' status, tickBegin json i.mint s st = (s', st', status) ∧
        s'.batchSize = s.batchSize ∧ (∀ batch, status ≠ .posting batch) ∧
        TickEnds i s.batchSize.toNat st st' status) ∨
      ∃ batch, tickBegin json i.mint s st = (s, st, .posting batch) ∧
        batch.map (·.id) = (st.texts.take s.batchSize.toNat).map Prod.fst ∧ batch ≠ [] := by
  unfold tickBegin
  cases hpeek : st.dequeueBatch json s.batchSize with
  | error e =>
    exact Or.inl ⟨s, st, .raised, rfl, rfl, by simp, .raised 0 (Nat.zero_le _) rfl⟩
  | ok batch =>
    have hids := dequeueBatch_ids hpeek (by omega)
    cases batch with
    | nil =>
      refine Or.inl ⟨s, st, .returned 0, rfl, rfl, by simp, .stopped rfl fun _ => ?_⟩
      have htake : st.texts.take s.batchSize.toNat = [] := List.map_eq_nil_iff.mp hids.symm
      rcases List.take_eq_nil_iff.mp htake with hzero | hnil
      · omega
      · exact hnil
    | cons e es =>
      cases hmint : i.mint with
      | error msg =>
        refine Or.inl ⟨s.bumpBackoff, _, .returned 0, rfl, rfl, by simp,
          .stopped (st.texts_markRetry _ _) fun hans => ?_⟩
        obtain ⟨token, htoken⟩ := hans.minted
        rw [hmint] at htoken
        cases htoken
      | ok token => exact Or.inr ⟨e :: es, rfl, hids, List.cons_ne_nil e es⟩

variable (json) in
theorem flushTick_ends (i : FlushInput) (s : TelemetrySender) (st : TelemetryStore)
    (hb : 1 ≤ s.batchSize) :
    ∃ s' st' status, tick json { mint := i.mint, outcome := i.outcome } s st = (s', st', status) ∧
      s'.batchSize = s.batchSize ∧ TickEnds i s.batchSize.toNat st st' status := by
  unfold tick
  rcases tickBegin_ends json i s st hb with
    ⟨s', st', status, hbegin, hsize, hnot, hends⟩ | ⟨batch, hbegin, hids, hne⟩
  · rw [hbegin]
    refine ⟨s', st', status, ?_, hsize, hends⟩
    cases status with
    | posting batch => exact absurd rfl (hnot batch)
    | returned n => rfl
    | raised => rfl
  · rw [hbegin]
    dsimp only [id]
    have hlen : batch.length = min s.batchSize.toNat st.texts.length := by
      rw [← List.length_map (f := (·.id)), hids, List.length_map, List.length_take]
    rcases tickEnd_texts batch i.outcome s st with
      ⟨-, status, acked, hend, hstatus⟩ |
        ⟨hnot, s', st', status, acked, hend, hstatus, htexts, -, hsize⟩
    · have hacked : (st.ack (batch.map (·.id))).texts = st.texts.drop batch.length := by
        rw [texts_ack_take hids, List.drop_eq_drop_iff]
        omega
      rw [hend]
      refine ⟨s, _, status, rfl, rfl, ?_⟩
      rcases hstatus with rfl | rfl
      · obtain ⟨n, hn⟩ := Nat.exists_eq_succ_of_ne_zero (List.length_pos_iff.mpr hne).ne'
        rw [hn] at hacked ⊢
        exact .sent n (by omega) hacked
      · exact .raised batch.length (by omega) hacked
    · rw [hend]
      refine ⟨s', st', status, rfl, hsize, ?_⟩
      rcases hstatus with rfl | rfl
      · refine .stopped htexts fun hans => ?_
        rw [hans.taken] at hnot
        cases hnot
      · exact .raised 0 (Nat.zero_le _) htexts

/-- A tick raises nothing: what it peeks at can be read, and its POST, if it is sent,
ends as `_tick` handles it. -/
def TickHandled (json : JsonText) (i : FlushInput) (s : TelemetrySender) (st : TelemetryStore) :
    Prop :=
  ∃ batch, st.dequeueBatch json s.batchSize = .ok batch ∧
    (batch ≠ [] → (∃ token, i.mint = .ok token) → i.outcome.handled = true)

end Tick

/-! ## A turn of the flush -/

section Turns

variable {json : JsonText}

/-- How a turn of a flush that has not ended goes. -/
inductive TurnOf (i : FlushInput) (f f' : Flush) : Option TickStatus → Prop where
  | late (hlate : i.inTime = false) (htexts : f'.store.texts = f.store.texts)
      (htotal : f'.total = f.total) (hended : f'.ended = some (.returned f.total)) :
      TurnOf i f f' none
  | goesOn (n : Nat) (hsent : n + 1 = min f.sender.batchSize.toNat f.store.texts.length)
      (htexts : f'.store.texts = f.store.texts.drop (n + 1))
      (htotal : f'.total = f.total + (n + 1)) (hended : f'.ended = none) :
      TurnOf i f f' (some (.returned (n + 1)))
  | stops (htexts : f'.store.texts = f.store.texts) (htotal : f'.total = f.total)
      (hended : f'.ended = some (.returned f.total)) (hwhy : i.Answered → f.store.texts = []) :
      TurnOf i f f' (some (.returned 0))
  | raises (n : Nat) (hn : n ≤ f.store.texts.length)
      (htexts : f'.store.texts = f.store.texts.drop n) (hended : f'.ended = some .raised) :
      TurnOf i f f' (some .raised)

theorem flushStep_ended {f : Flush} (h : f.ended ≠ none) (i : FlushInput) :
    flushStep json f i = (f, none) := by
  unfold flushStep
  cases hf : f.ended with
  | none => exact absurd hf h
  | some e => rfl

theorem flushStep_turn {f : Flush} (h : f.ended = none) (hb : 1 ≤ f.sender.batchSize)
    (i : FlushInput) :
    ∃ f' result, flushStep json f i = (f', result) ∧
      f'.sender.batchSize = f.sender.batchSize ∧ TurnOf i f f' result := by
  unfold flushStep
  rw [h]
  dsimp only
  cases hin : i.inTime with
  | false => exact ⟨_, none, rfl, rfl, .late hin rfl rfl rfl⟩
  | true =>
    obtain ⟨s', st', status, htick, hsize, hends⟩ := flushTick_ends json i f.sender
      f.store hb
    rw [if_pos rfl, htick]
    cases hends with
    | sent n hsent htexts => exact ⟨_, _, rfl, hsize, .goesOn n hsent htexts rfl rfl⟩
    | stopped htexts hwhy => exact ⟨_, _, rfl, hsize, .stops htexts rfl rfl hwhy⟩
    | raised n hn htexts => exact ⟨_, _, rfl, hsize, .raises n hn htexts rfl⟩

end Turns

/-! ## Every run -/

/-- Where a flush of batches of `b` stands that started on `st`, after turns with
these results. -/
structure Flushing (st : TelemetryStore) (b : Nat) (results : List (Option TickStatus))
    (f : Flush) : Prop where
  configured : f.sender.batchSize = b
  /-- The oldest rows are gone: as many as were counted, unless a tick raised. -/
  front : ∃ n ≤ st.texts.length, f.store.texts = st.texts.drop n ∧
    (f.ended ≠ some .raised → n = f.total)
  ticks : ticksMade results ≤ st.texts.length ⌈/⌉ b + 1
  returned : ∀ t, f.ended = some (.returned t) → t = f.total
  /-- As long as it goes on, every turn was a tick that sent a whole batch, or
  what there was. -/
  running : f.ended = none → results.length = ticksMade results ∧
    f.total = min (b * ticksMade results) st.texts.length ∧
    ticksMade results ≤ st.texts.length ⌈/⌉ b

theorem ticksMade_concat (results : List (Option TickStatus)) (r : Option TickStatus) :
    ticksMade (results ++ [r]) = ticksMade results + if r.isSome then 1 else 0 := by
  simp [ticksMade, List.countP_append, List.countP_singleton]

section Runs

variable {json : JsonText} {st : TelemetryStore} {b : Nat}
  {results : List (Option TickStatus)} {f f' : Flush}

theorem Flushing.start {s : TelemetrySender} (hs : s.batchSize = b) (st : TelemetryStore) :
    Flushing st b [] { sender := s, store := st } where
  configured := hs
  front := ⟨0, Nat.zero_le _, rfl, fun _ => rfl⟩
  ticks := Nat.zero_le _
  returned := by simp
  running _ := ⟨rfl, (Nat.zero_min _).symm, Nat.zero_le _⟩

theorem Flushing.rows (h : Flushing st b results f) (hf : f.ended ≠ some .raised) :
    f.store.texts = st.texts.drop f.total ∧ f.total ≤ st.texts.length := by
  obtain ⟨n, hn, htexts, htotal⟩ := h.front
  obtain rfl := htotal hf
  exact ⟨htexts, hn⟩

/-- The turn that ends the flush removes nothing, unless it raises. -/
theorem Flushing.ends (h : Flushing st b results f) (hrun : f.ended = none)
    (hsize : f'.sender.batchSize = f.sender.batchSize) (hended : f'.ended ≠ none)
    (hfront : ∃ n ≤ f.store.texts.length, f'.store.texts = f.store.texts.drop n ∧
      (f'.ended ≠ some .raised → n = 0 ∧ f'.total = f.total))
    (hreturned : ∀ t, f'.ended = some (.returned t) → t = f'.total) (r : Option TickStatus) :
    Flushing st b (results ++ [r]) f' where
  configured := hsize.trans h.configured
  front := by
    obtain ⟨htexts, hle⟩ := h.rows (by simp [hrun])
    obtain ⟨n, hn, htexts', htotal⟩ := hfront
    rw [htexts, List.length_drop] at hn
    refine ⟨f.total + n, by omega, by rw [htexts', htexts, List.drop_drop], fun hnot => ?_⟩
    obtain ⟨rfl, hsame⟩ := htotal hnot
    exact hsame.symm
  ticks := by
    have hticks := (h.running hrun).2.2
    rw [ticksMade_concat]
    split <;> omega
  returned := hreturned
  running := fun hnone => absurd hnone hended

/-- A turn that goes on has found rows behind the batches sent so far, so there was
a batch to send. -/
theorem Flushing.goesOn (h : Flushing st b results f) (hrun : f.ended = none) (hb : 1 ≤ b)
    (hsize : f'.sender.batchSize = f.sender.batchSize) {n : Nat}
    (hsent : n + 1 = min b f.store.texts.length)
    (htexts : f'.store.texts = f.store.texts.drop (n + 1))
    (htotal : f'.total = f.total + (n + 1)) (hended : f'.ended = none) :
    Flushing st b (results ++ [some (.returned (n + 1))]) f' := by
  obtain ⟨hlen, hsum, hticks⟩ := h.running hrun
  obtain ⟨hrows, hle⟩ := h.rows (by simp [hrun])
  have hleft : f.store.texts.length = st.texts.length - f.total := by
    rw [hrows, List.length_drop]
  have hmore : ticksMade results < st.texts.length ⌈/⌉ b := by
    by_contra hall
    have hcover := (ceilDiv_le_iff_le_mul (by omega)).mp (not_lt.mp hall)
    omega
  have hmade : ticksMade (results ++ [some (.returned (n + 1))]) = ticksMade results + 1 :=
    ticksMade_concat results _
  exact {
    configured := hsize.trans h.configured
    front := ⟨f'.total, by omega, by rw [htexts, hrows, List.drop_drop, htotal], fun _ => rfl⟩
    ticks := by omega
    returned := by simp [hended]
    running := fun _ => by
      rw [hmade, List.length_append, List.length_singleton, Nat.mul_succ]
      omega }

theorem Flushing.step (h : Flushing st b results f) (hb : 1 ≤ b) (i : FlushInput) :
    Flushing st b (results ++ [(flushStep json f i).2]) (flushStep json f i).1 := by
  by_cases hrun : f.ended = none
  · obtain ⟨f', result, hstep, hsize, hturn⟩ := flushStep_turn hrun (by rw [h.configured]; omega) i
    rw [hstep]
    cases hturn with
    | late _ htexts htotal hended =>
      exact h.ends hrun hsize (by simp [hended])
        ⟨0, Nat.zero_le _, htexts, fun _ => ⟨rfl, htotal⟩⟩ (by simp [hended, htotal]) _
    | goesOn n hsent htexts htotal hended =>
      rw [h.configured, Int.toNat_natCast] at hsent
      exact h.goesOn hrun hb hsize hsent htexts htotal hended
    | stops htexts htotal hended =>
      exact h.ends hrun hsize (by simp [hended])
        ⟨0, Nat.zero_le _, htexts, fun _ => ⟨rfl, htotal⟩⟩ (by simp [hended, htotal]) _
    | raises n hn htexts hended =>
      exact h.ends hrun hsize (by simp [hended])
        ⟨n, hn, htexts, fun hnot => absurd hended hnot⟩ (by simp [hended]) _
  · rw [flushStep_ended hrun]
    have hmade : ticksMade (results ++ [none]) = ticksMade results := ticksMade_concat results none
    exact {
      configured := h.configured
      front := h.front
      ticks := by rw [hmade]; exact h.ticks
      returned := h.returned
      running := fun hnone => absurd hnone hrun }

end Runs

/-- A process whose only task is this flush, once the turn that meets `i` has come
to its await. -/
def begun (json : JsonText) (f : Flush) (i : FlushInput) : Drains :=
  let resting : Drains := { store := f.store, sender := f.sender, tasks := [.ended] }
  match f.ended with
  | some _ => resting
  | none => if i.inTime then (beginTick json 0 (.flushNow f.total) i.mint resting).1 else resting

/-- The inputs of that process: each turn of the flush begins where the POST of the
one before it ends. -/
def postEnds (i : FlushInput) : List FlushInput → List DrainInput
  | [] => []
  | next :: rest => .postEnds 0 i.outcome next.mint next.inTime :: postEnds next rest

/-- A turn of the flush is a step of the process. -/
theorem drainStep_begun (json : JsonText) (f : Flush) (i next : FlushInput) :
    (drainStep json (begun json f i) (.postEnds 0 i.outcome next.mint next.inTime)).1 =
      begun json (flushStep json f i).1 next := by
  unfold begun flushStep
  cases hf : f.ended with
  | some e => simp [drainStep, hf]
  | none =>
    cases hin : i.inTime with
    | false => rfl
    | true =>
      rcases tickBegin_texts json i.mint f.sender f.store with
        ⟨s, st, status, hbegin, hstatus, -⟩ | ⟨batch, hbegin, -⟩
      · rcases hstatus with rfl | rfl <;> simp only [if_true, beginTick, tick, hbegin] <;> rfl
      · have hstatus := tickEnd_status batch i.outcome f.sender f.store
        rcases hend : tickEnd batch i.outcome f.sender f.store with ⟨s, st, status, acked⟩
        rw [hend] at hstatus
        simp only [if_true, beginTick, tick, hbegin, drainStep, endTick, hend, id,
          List.set_cons_zero, List.getElem?_cons_zero]
        rcases hstatus with ⟨n, rfl⟩ | rfl
        · cases n with
          | zero => rfl
          | succ n => cases next.inTime <;> rfl
        · rfl

/-- A flush that runs alone goes through the turns of `flushStep`. -/
theorem final_begun (json : JsonText) (f : Flush) (i : FlushInput) (rest : List FlushInput)
    (last : FlushInput) :
    final (drainStep json) (begun json f i) (postEnds i (rest ++ [last])) =
      begun json (final (flushStep json) f (i :: rest)) last := by
  induction rest generalizing f i with
  | nil => exact drainStep_begun json f i last
  | cons next rest ih =>
    rw [List.cons_append]
    unfold postEnds
    rw [final_cons, drainStep_begun, ih]
    rfl

end TrustModelEdge.Telemetry
