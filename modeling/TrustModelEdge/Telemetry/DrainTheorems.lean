/-
TrustModelEdge.Telemetry.DrainTheorems — what concurrent drains keep.

Every step of `drainStep` is one or two moves (`DrainMove`): a row arrives,
a batch is posted, a body is taken over and its rows go, or nothing happens
to the rows. `Ledger` is the invariant all results rest on: it is stated
over the events so far, so it says of every row that ever entered the store
where it went. Batches overlap freely; an id is never issued again, so a
batch that outlived its rows names no other row.

Exclusivity is a property of a run, not of the code: where no two POSTs are
awaited at once, every held batch is a front part of the table (`Alone`),
and the counts add up.
-/
import Mathlib.Algebra.Ring.Nat
import Mathlib.Data.List.Nodup
import TrustModelEdge.Telemetry.Drains
import TrustModelEdge.Telemetry.FifoTheorems

namespace TrustModelEdge.Telemetry

open Py Lib

/-! ## What a drain can see of the store -/

/-- The ids and texts of the rows. -/
def TelemetryStore.texts (st : TelemetryStore) : List (Nat × Str) :=
  st.table.rows.map (fun r => (r.1, r.2.payload))

theorem TelemetryStore.texts_sorted (st : TelemetryStore) :
    st.texts.Pairwise (fun r s => r.1 < s.1) :=
  List.pairwise_map.mpr st.table.sorted

theorem TelemetryStore.texts_bounded {st : TelemetryStore} {r : Nat × Str} (h : r ∈ st.texts) :
    r.1 ≤ st.table.seq := by
  obtain ⟨s, hs, rfl⟩ := List.mem_map.mp h
  exact st.table.bounded s hs

theorem TelemetryStore.texts_markRetry (st : TelemetryStore) (ids : List Nat) (error : Str) :
    (st.markRetry ids error).texts = st.texts :=
  markRetry_column st (fun row => row.payload) (fun _ _ _ => rfl) ids error

theorem TelemetryStore.seq_markRetry (st : TelemetryStore) (ids : List Nat) (error : Str) :
    (st.markRetry ids error).table.seq = st.table.seq := by
  rw [markRetry_eq]
  rfl

theorem TelemetryStore.texts_ack (st : TelemetryStore) (ids : List Nat) :
    (st.ack ids).texts = st.texts.filter (fun r => r.1 ∉ ids) := by
  rw [ack_eq]
  unfold TelemetryStore.texts
  rw [List.filter_map]
  rfl

theorem TelemetryStore.seq_ack (st : TelemetryStore) (ids : List Nat) :
    (st.ack ids).table.seq = st.table.seq := by
  rw [ack_eq]
  rfl

theorem texts_enqueue (json : JsonText) {st : TelemetryStore} {now : Str} {p : Json}
    (h : (st.enqueue json now p).2 = true) :
    (st.enqueue json now p).1.texts = st.texts ++ [(st.table.seq + 1, json.dumps p)] ∧
      (st.enqueue json now p).1.table.seq = st.table.seq + 1 := by
  unfold TelemetryStore.enqueue at h ⊢
  split at h
  · simp at h
  · rename_i hfull
    rw [if_neg hfull]
    exact ⟨by simp [TelemetryStore.texts], rfl⟩

/-- An event of a batch is what its row's text parses to. -/
def Reads (json : JsonText) (r : Nat × Str) (e : QueuedEvent) : Prop :=
  e.id = r.1 ∧ json.loads r.2 = .ok e.payload

theorem forall₂_of_mapM {α β : Type} {f : α → Except Exc β} {R : α → β → Prop}
    (hR : ∀ a b, f a = .ok b → R a b) :
    ∀ {as : List α} {bs : List β}, as.mapM f = .ok bs → List.Forall₂ R as bs
  | [], bs, h => by
      have : bs = [] := by simpa [pure, Except.pure] using h.symm
      rw [this]; exact .nil
  | a :: as, bs, h => by
      rw [List.mapM_cons] at h
      cases ha : f a with
      | error e => rw [ha] at h; cases h
      | ok b =>
        cases has : as.mapM f with
        | error e => rw [ha, has] at h; cases h
        | ok bs' =>
          rw [ha, has] at h
          cases h
          exact .cons (hR a b ha) (forall₂_of_mapM hR has)

/-- A peek that succeeds reads a front part, of at most `limit` rows. -/
theorem dequeueBatch_reads {json : JsonText} {st : TelemetryStore} {limit : Int}
    {batch : List QueuedEvent} (h : st.dequeueBatch json limit = .ok batch) :
    ∃ front rest, st.texts = front ++ rest ∧ List.Forall₂ (Reads json) front batch ∧
      (0 ≤ limit → batch.length ≤ limit.toNat) := by
  obtain ⟨rest, hrest⟩ := st.table.exists_first_append limit
  have hreads : List.Forall₂ (fun r e => Reads json (r.1, r.2.payload) e)
      (st.table.first limit) batch := by
    refine forall₂_of_mapM ?_ h
    intro r e he
    unfold TelemetryStore.readRow at he
    cases hl : json.loads r.2.payload with
    | error x => rw [hl] at he; cases he
    | ok p => rw [hl] at he; cases he; exact ⟨rfl, hl⟩
  refine ⟨(st.table.first limit).map (fun r => (r.1, r.2.payload)),
    rest.map (fun r => (r.1, r.2.payload)), ?_, List.forall₂_map_left_iff.mpr hreads, ?_⟩
  · unfold TelemetryStore.texts
    rw [hrest, List.map_append]
  · intro hlimit
    rw [← hreads.length_eq]
    unfold SerialTable.first
    rw [if_neg (by omega), List.length_take]
    exact Nat.min_le_left _ _

/-! ## The moves a step is made of -/

def Drains.texts (d : Drains) : List (Nat × Str) := d.store.texts

def Drains.seq (d : Drains) : Nat := d.store.table.seq

/-- The task awaits the answer to this batch. -/
def Drains.Posting (d : Drains) (task : Nat) (batch : List QueuedEvent) : Prop :=
  ∃ drain, d.tasks[task]? = some (.posting drain batch)

/-- Nothing entered or left the store, no body was sent or taken over. -/
def DrainEvent.Idle : DrainEvent → Prop
  | .accepted _ _ | .posted _ _ => False
  | .answered _ _ outcome => outcome.taken = false
  | .ticked _ n => n = 0
  | _ => True

@[simp] theorem mem_tickEvents {ticker : Ticker} {status : TickStatus} {e : DrainEvent} :
    e ∈ tickEvents ticker status ↔ ∃ n, status = .returned n ∧ e = .ticked ticker n := by
  cases status <;> simp [tickEvents]

/-- What can happen between two awaits of a task, seen by rows and batches. -/
inductive DrainMove (json : JsonText) (d : Drains) : List DrainEvent → Drains → Prop where
  | accept {d' : Drains} (payload : Json)
      (htexts : d'.texts = d.texts ++ [(d.seq + 1, json.dumps payload)])
      (hseq : d'.seq = d.seq + 1) (htasks : d'.tasks = d.tasks) :
      DrainMove json d [.accepted (d.seq + 1) payload] d'
  | idle {d' : Drains} (es : List DrainEvent) (htexts : d'.texts = d.texts)
      (hseq : d'.seq = d.seq)
      (htasks : ∀ task batch, d'.Posting task batch → d.Posting task batch)
      (hidle : ∀ e ∈ es, e.Idle) : DrainMove json d es d'
  | post {d' : Drains} (task : Nat) (batch : List QueuedEvent) {front rest : List (Nat × Str)}
      (htexts : d'.texts = d.texts) (hseq : d'.seq = d.seq)
      (hfront : d.texts = front ++ rest) (hreads : List.Forall₂ (Reads json) front batch)
      (htasks : ∀ t b, d'.Posting t b → t = task ∧ b = batch ∨ d.Posting t b) :
      DrainMove json d [.posted task batch] d'
  | take {d' : Drains} (task : Nat) (batch : List QueuedEvent) (outcome : PostOutcome)
      (ticker : Ticker) (status : TickStatus) (hposting : d.Posting task batch)
      (htaken : outcome.taken = true)
      (hstatus : status = .returned batch.length ∨ status = .raised)
      (htexts : d'.texts = d.texts.filter (fun r => r.1 ∉ batch.map (·.id)))
      (hseq : d'.seq = d.seq)
      (htasks : ∀ t b, d'.Posting t b → t ≠ task ∧ d.Posting t b) :
      DrainMove json d (.answered task batch outcome :: tickEvents ticker status) d'

/-- Nothing is taken over. -/
def TakesNothing (es : List DrainEvent) : Prop :=
  ∀ task batch outcome, .answered task batch outcome ∈ es → outcome.taken = false

section Moves

variable {json : JsonText}

theorem afterTick_batchSize (ticker : Ticker) (status : TickStatus) (s : TelemetrySender) :
    (afterTick ticker status s).batchSize = s.batchSize := by
  unfold afterTick
  split <;> rfl

variable (json) in
/-- What `tickBegin` does to the rows: it returns 0 or raises with every text
in place, or holds what it peeked at. -/
theorem tickBegin_texts (mint : Except Str Str) (s : TelemetrySender) (st : TelemetryStore) :
    (∃ s' st' status, tickBegin json mint s st = (s', st', status) ∧
        (status = .returned 0 ∨ status = .raised) ∧ st'.texts = st.texts ∧
        st'.table.seq = st.table.seq ∧ s'.batchSize = s.batchSize) ∨
      ∃ batch, tickBegin json mint s st = (s, st, .posting batch) ∧
        st.dequeueBatch json s.batchSize = .ok batch := by
  unfold tickBegin
  cases hb : st.dequeueBatch json s.batchSize with
  | error e => exact Or.inl ⟨s, st, .raised, rfl, Or.inr rfl, rfl, rfl, rfl⟩
  | ok batch =>
    cases batch with
    | nil => exact Or.inl ⟨s, st, .returned 0, rfl, Or.inl rfl, rfl, rfl, rfl⟩
    | cons e es =>
      cases mint with
      | error msg =>
        exact Or.inl ⟨s.bumpBackoff, _, .returned 0, rfl, Or.inl rfl,
          st.texts_markRetry _ _, st.seq_markRetry _ _, rfl⟩
      | ok token => exact Or.inr ⟨e :: es, rfl, rfl⟩

/-- What `tickEnd` does to the rows: it deletes its batch when the body was
taken over, even where it raises then, and nothing else ever. -/
theorem tickEnd_texts (batch : List QueuedEvent) (outcome : PostOutcome) (s : TelemetrySender)
    (st : TelemetryStore) :
    (outcome.taken = true ∧ ∃ status acked,
        tickEnd batch outcome s st = (s, st.ack (batch.map (·.id)), status, acked) ∧
        (status = .returned batch.length ∨ status = .raised)) ∨
      (outcome.taken = false ∧ ∃ s' st' status acked,
        tickEnd batch outcome s st = (s', st', status, acked) ∧
        (status = .returned 0 ∨ status = .raised) ∧ st'.texts = st.texts ∧
        st'.table.seq = st.table.seq ∧ s'.batchSize = s.batchSize) := by
  unfold tickEnd
  cases outcome with
  | transportError e =>
    exact Or.inr ⟨rfl, s.bumpBackoff, _, _, _, rfl, Or.inl rfl, st.texts_markRetry _ _,
      st.seq_markRetry _ _, rfl⟩
  | otherError => exact Or.inr ⟨rfl, s, st, .raised, none, rfl, Or.inr rfl, rfl, rfl, rfl⟩
  | response code text =>
    by_cases hs : isSuccess code = true
    · exact Or.inl ⟨by simp [PostOutcome.taken, hs], .returned batch.length, some batch,
        by simp [hs], Or.inl rfl⟩
    · by_cases hbad : code = 400 ∨ code = 422
      · refine Or.inl ⟨by simp [PostOutcome.taken, or_assoc, hbad], _, some batch,
          by simp only [hs, if_pos hbad]; rfl, ?_⟩
        cases text <;> simp
      · have hnot : PostOutcome.taken (.response code text) = false := by
          simp_all [PostOutcome.taken]
        cases text with
        | none =>
          exact Or.inr ⟨hnot, s, st, .raised, none, by simp only [hs, if_neg hbad]; rfl,
            Or.inr rfl, rfl, rfl, rfl⟩
        | some text =>
          exact Or.inr ⟨hnot, s.bumpBackoff, _, _, none, by simp only [hs, if_neg hbad]; rfl,
            Or.inl rfl, st.texts_markRetry _ _, st.seq_markRetry _ _, rfl⟩

/-- It raises exactly on an outcome that `_tick` does not handle. -/
theorem tickEnd_raised_iff {batch : List QueuedEvent} {outcome : PostOutcome}
    {s : TelemetrySender} {st : TelemetryStore} :
    (tickEnd batch outcome s st).2.2.1 = .raised ↔ outcome.handled = false := by
  unfold tickEnd PostOutcome.handled
  cases outcome with
  | transportError e => simp
  | otherError => simp
  | response code text =>
    by_cases hs : isSuccess code = true
    · simp [hs]
    · by_cases hbad : code = 400 ∨ code = 422
      · cases text <;> simp [hs, hbad]
      · cases text <;> simp [hs, hbad]

theorem posting_set {d : Drains} {task t : Nat} {x : DrainTask} {b : List QueuedEvent}
    {st : TelemetryStore} {s : TelemetrySender}
    (h : Drains.Posting { store := st, sender := s, tasks := d.tasks.set task x } t b) :
    t = task ∧ (∃ drain, x = .posting drain b) ∨ t ≠ task ∧ d.Posting t b := by
  obtain ⟨drain, h⟩ := h
  rw [List.getElem?_set] at h
  by_cases ht : task = t
  · subst ht
    simp only [if_true] at h
    split at h
    · exact Or.inl ⟨rfl, drain, Option.some.inj h⟩
    · simp at h
  · rw [if_neg ht] at h
    exact Or.inr ⟨fun e => ht e.symm, drain, h⟩

/-- A task that does not tick again awaits no answer. -/
theorem rests_not_posting (drain drain' : Drain) (status : TickStatus) (b : List QueuedEvent) :
    (drain.rests status).1 ≠ .posting drain' b := by
  cases drain <;> cases status <;> simp [Drain.rests]

theorem rests_idle (drain : Drain) (status : TickStatus) :
    ∀ e ∈ (drain.rests status).2, e.Idle := by
  cases drain <;> cases status <;> simp [Drain.rests, DrainEvent.Idle]

theorem tickEvents_idle {ticker : Ticker} {status : TickStatus}
    (h : status = .returned 0 ∨ status = .raised) : ∀ e ∈ tickEvents ticker status, e.Idle := by
  rcases h with rfl | rfl <;> simp [tickEvents, DrainEvent.Idle]

variable (json) in
/-- The first half of a tick is one move, which takes nothing over. -/
theorem beginTick_move (task : Nat) (drain : Drain) (mint : Except Str Str) (d : Drains) :
    DrainMove json d (beginTick json task drain mint d).2 (beginTick json task drain mint d).1 ∧
      TakesNothing (beginTick json task drain mint d).2 ∧
      (beginTick json task drain mint d).1.sender.batchSize = d.sender.batchSize ∧
      ∀ t b, .posted t b ∈ (beginTick json task drain mint d).2 → 0 ≤ d.sender.batchSize →
        b.length ≤ d.sender.batchSize.toNat := by
  rcases tickBegin_texts json mint d.sender d.store with
    ⟨s', st', status, ht, hstatus, htexts, hseq, hsize⟩ | ⟨batch, ht, hb⟩
  · have hidle : ∀ e ∈ tickEvents drain.ticker status ++ (drain.rests status).2, e.Idle := by
      intro e he
      rcases List.mem_append.mp he with he | he
      · exact tickEvents_idle hstatus e he
      · exact rests_idle drain status e he
    have hbegin : beginTick json task drain mint d =
        ({ store := st', sender := afterTick drain.ticker status s'
           tasks := d.tasks.set task (drain.rests status).1 },
          tickEvents drain.ticker status ++ (drain.rests status).2) := by
      unfold beginTick
      rw [ht]
      rcases hstatus with rfl | rfl <;> rfl
    rw [hbegin]
    refine ⟨.idle _ htexts hseq ?_ hidle, fun t b o h => hidle _ h,
      by rw [afterTick_batchSize, hsize],
      fun t b h _ => absurd (hidle _ h) (by simp [DrainEvent.Idle])⟩
    intro t b hp
    rcases posting_set hp with ⟨-, drain', h⟩ | ⟨-, h⟩
    · exact absurd h (rests_not_posting drain drain' status b)
    · exact h
  · obtain ⟨front, rest, hfront, hreads, hsize⟩ := dequeueBatch_reads hb
    have hbegin : beginTick json task drain mint d =
        ({ d with tasks := d.tasks.set task (.posting drain batch) }, [.posted task batch]) := by
      unfold beginTick
      rw [ht]
    rw [hbegin]
    refine ⟨.post task batch rfl rfl hfront hreads ?_, by simp [TakesNothing], rfl, ?_⟩
    · intro t b hp
      rcases posting_set hp with ⟨rfl, drain', h⟩ | ⟨-, h⟩
      · injection h with _ h
        exact Or.inl ⟨rfl, h.symm⟩
      · exact Or.inr h
    · intro t b h
      simp only [List.mem_singleton, DrainEvent.posted.injEq] at h
      rw [h.2]
      exact hsize

/-- A step is at most two moves, and only the first takes a body over. -/
structure DrainMoves (json : JsonText) (d : Drains) (es : List DrainEvent) (d' : Drains) :
    Prop where
  moves : ∃ d₁ es₁ es₂, DrainMove json d es₁ d₁ ∧ DrainMove json d₁ es₂ d' ∧ es = es₁ ++ es₂ ∧
    TakesNothing es₂
  batchSize : d'.sender.batchSize = d.sender.batchSize
  posted : ∀ t b, .posted t b ∈ es → 0 ≤ d.sender.batchSize → b.length ≤ d.sender.batchSize.toNat

theorem DrainMove.refl (d : Drains) : DrainMove json d [] d :=
  .idle [] rfl rfl (fun _ _ h => h) (by simp)

/-- Exactly one move that posts nothing. -/
theorem DrainMoves.single {d d' : Drains} {es : List DrainEvent} (h : DrainMove json d es d')
    (hsize : d'.sender.batchSize = d.sender.batchSize) (hposted : ∀ t b, .posted t b ∉ es) :
    DrainMoves json d es d' :=
  ⟨⟨d', es, [], h, .refl d', by simp, by simp [TakesNothing]⟩, hsize,
    fun t b hp => absurd hp (hposted t b)⟩

/-- A move that posts nothing, then the first half of a tick. -/
theorem DrainMove.thenBegin {d d₁ : Drains} {es : List DrainEvent} (h : DrainMove json d es d₁)
    (hsize : d₁.sender.batchSize = d.sender.batchSize) (hposted : ∀ t b, .posted t b ∉ es)
    (task : Nat) (drain : Drain) (mint : Except Str Str) :
    DrainMoves json d (es ++ (beginTick json task drain mint d₁).2)
      (beginTick json task drain mint d₁).1 := by
  obtain ⟨hmove, hnone, hsize', hlength⟩ := beginTick_move json task drain mint d₁
  refine ⟨⟨d₁, es, _, h, hmove, rfl, hnone⟩, by rw [hsize', hsize], ?_⟩
  intro t b hp
  rcases List.mem_append.mp hp with hp | hp
  · exact absurd hp (hposted t b)
  · rw [← hsize]
    exact hlength t b hp

/-- What the task was suspended in before does not matter to a new tick. -/
theorem beginTick_set (task : Nat) (drain : Drain) (mint : Except Str Str) (st : TelemetryStore)
    (s : TelemetrySender) (tasks : List DrainTask) (x : DrainTask) :
    beginTick json task drain mint { store := st, sender := s, tasks := tasks.set task x } =
      beginTick json task drain mint { store := st, sender := s, tasks := tasks } := by
  unfold beginTick
  simp only [List.set_set]

variable (json) in
/-- The state between the end of a tick and what its caller does next, and the
move that leads there. -/
theorem tickEnd_move {d : Drains} {task : Nat} {drain : Drain} {batch : List QueuedEvent}
    (hposting : d.tasks[task]? = some (.posting drain batch)) (outcome : PostOutcome)
    (x : DrainTask) (hx : ∀ drain' b, x ≠ .posting drain' b) {s : TelemetrySender}
    {st : TelemetryStore} {status : TickStatus} {acked : Option (List QueuedEvent)}
    (ht : tickEnd batch outcome d.sender d.store = (s, st, status, acked)) :
    DrainMove json d (.answered task batch outcome :: tickEvents drain.ticker status)
        { store := st, sender := afterTick drain.ticker status s, tasks := d.tasks.set task x } ∧
      s.batchSize = d.sender.batchSize := by
  have htasks : ∀ t b, Drains.Posting
      { store := st, sender := afterTick drain.ticker status s, tasks := d.tasks.set task x } t b →
      t ≠ task ∧ d.Posting t b := by
    intro t b hp
    rcases posting_set hp with ⟨-, drain', h⟩ | h
    · exact absurd h (hx drain' b)
    · exact h
  rcases tickEnd_texts batch outcome d.sender d.store with
    ⟨htaken, status', acked', he, hstatus⟩ |
      ⟨htaken, s', st', status', acked', he, hstatus, htexts, hseq, hsize⟩
  · rw [ht] at he
    simp only [Prod.mk.injEq] at he
    obtain ⟨rfl, rfl, rfl, -⟩ := he
    exact ⟨.take task batch outcome drain.ticker status ⟨drain, hposting⟩ htaken hstatus
      (d.store.texts_ack _) (d.store.seq_ack _) htasks, rfl⟩
  · rw [ht] at he
    simp only [Prod.mk.injEq] at he
    obtain ⟨rfl, rfl, rfl, -⟩ := he
    refine ⟨.idle _ htexts hseq (fun t b hp => (htasks t b hp).2) ?_, hsize⟩
    intro e he
    rcases List.mem_cons.mp he with rfl | he
    · exact htaken
    · exact tickEvents_idle hstatus e he

theorem endTick_moves {d : Drains} {task : Nat} {drain : Drain} {batch : List QueuedEvent}
    (hposting : d.tasks[task]? = some (.posting drain batch)) (outcome : PostOutcome)
    (mint : Except Str Str) (inTime : Bool) :
    DrainMoves json d (endTick json task drain batch outcome mint inTime d).2
      (endTick json task drain batch outcome mint inTime d).1 := by
  unfold endTick
  rcases ht : tickEnd batch outcome d.sender d.store with ⟨s, st, status, acked⟩
  have hnone : ∀ t b, DrainEvent.posted t b ∉
      DrainEvent.answered task batch outcome :: tickEvents drain.ticker status := by
    simp
  simp only
  cases hgo : drain.goesOn inTime status with
  | some next =>
    obtain ⟨hmove, hsize⟩ := tickEnd_move json hposting outcome .ended (by simp) ht
    have h := hmove.thenBegin (by rw [afterTick_batchSize, hsize]) hnone task next mint
    rw [beginTick_set] at h
    exact h
  | none =>
    obtain ⟨hmove, hsize⟩ := tickEnd_move json hposting outcome (drain.rests status).1
      (fun drain' b => rests_not_posting drain drain' status b) ht
    have hidle := rests_idle drain status
    refine ⟨⟨_, _, _, hmove, .idle _ rfl rfl (fun _ _ h => h) hidle, rfl,
      fun t b o h => hidle _ h⟩, by rw [afterTick_batchSize, hsize], ?_⟩
    intro t b hp
    rcases List.mem_append.mp hp with hp | hp
    · exact absurd hp (hnone t b)
    · exact absurd (hidle _ hp) (by simp [DrainEvent.Idle])

theorem posting_append {d : Drains} {x : DrainTask} (hx : ∀ drain b, x ≠ .posting drain b)
    {t : Nat} {b : List QueuedEvent}
    (h : Drains.Posting { d with tasks := d.tasks ++ [x] } t b) : d.Posting t b := by
  obtain ⟨drain, h⟩ := h
  simp only [List.getElem?_append, List.getElem?_singleton] at h
  split at h
  · exact ⟨drain, h⟩
  · split at h
    · exact absurd (Option.some.inj h) (hx drain b)
    · cases h

variable (json) in
/-- A new task that awaits nothing yet. -/
theorem DrainMove.spawn (d : Drains) (x : DrainTask) (hx : ∀ drain b, x ≠ .posting drain b)
    (es : List DrainEvent) (hidle : ∀ e ∈ es, e.Idle) :
    DrainMove json d es { d with tasks := d.tasks ++ [x] } :=
  .idle es rfl rfl (fun _ _ h => posting_append hx h) hidle

variable (json) in
/-- **What a step can do.** -/
theorem drainStep_moves (d : Drains) (i : DrainInput) :
    DrainMoves json d (drainStep json d i).2 (drainStep json d i).1 := by
  cases i with
  | enqueue now payload =>
    cases hok : (d.store.enqueue json now payload).2 with
    | true =>
      obtain ⟨htexts, hseq⟩ := texts_enqueue json hok
      have hs : drainStep json d (.enqueue now payload) =
          ({ d with store := (d.store.enqueue json now payload).1 },
            [.accepted (d.seq + 1) payload]) := by
        simp [drainStep, hok, Drains.seq]
      rw [hs]
      exact .single (.accept payload htexts hseq rfl) rfl (by simp)
    | false =>
      have htable := enqueue_dropped hok
      have hs : drainStep json d (.enqueue now payload) =
          ({ d with store := (d.store.enqueue json now payload).1 }, [.dropped payload]) := by
        simp [drainStep, hok]
      rw [hs]
      refine .single (.idle _ ?_ ?_ (fun _ _ h => h) (by simp [DrainEvent.Idle])) rfl (by simp)
      · simp [Drains.texts, TelemetryStore.texts, htable]
      · simp [Drains.seq, htable]
  | startForever mint =>
    have h := (DrainMove.spawn json d .sleeping (by simp) [] (by simp)).thenBegin rfl (by simp)
      d.tasks.length .runForever mint
    exact h
  | startFlush mint inTime =>
    cases inTime with
    | true =>
      have h := (DrainMove.spawn json d .ended (by simp) [] (by simp)).thenBegin rfl (by simp)
        d.tasks.length (.flushNow 0) mint
      exact h
    | false =>
      have hs : drainStep json d (.startFlush mint false) =
          ({ d with tasks := d.tasks ++ [.ended] }, [.flushed 0]) := rfl
      rw [hs]
      exact .single (.spawn json d .ended (by simp) _ (by simp [DrainEvent.Idle])) rfl (by simp)
  | wake task mint =>
    simp only [drainStep]
    split
    · exact (DrainMove.refl d).thenBegin rfl (by simp) task .runForever mint
    · exact .single (.refl d) rfl (by simp)
  | postEnds task outcome mint inTime =>
    simp only [drainStep]
    split
    · rename_i drain batch ht
      exact endTick_moves ht outcome mint inTime
    · exact .single (.refl d) rfl (by simp)
  | cancel task =>
    refine .single (.idle _ rfl rfl ?_ (by simp [drainStep])) rfl (by simp [drainStep])
    intro t b hp
    rcases posting_set hp with ⟨-, drain', h⟩ | ⟨-, h⟩
    · cases h
    · exact h

end Moves

/-! ## The ledger -/

section Ledger

variable (json : JsonText)

/-- The row entered the store: it was in the file, or `enqueue` accepted it. -/
def Entered (initial : List (Nat × Str)) (es : List DrainEvent) (r : Nat × Str) : Prop :=
  r ∈ initial ∨ ∃ payload, .accepted r.1 payload ∈ es ∧ json.dumps payload = r.2

/-- The row's event was in a body that was sent and answered, the answer as
`how` says. -/
def Shipped (how : List QueuedEvent → PostOutcome → Prop) (es : List DrainEvent) (r : Nat × Str) :
    Prop :=
  ∃ task batch outcome, .posted task batch ∈ es ∧ .answered task batch outcome ∈ es ∧
    how batch outcome ∧ ∃ e ∈ batch, Reads json r e

def Taken (_ : List QueuedEvent) (outcome : PostOutcome) : Prop := outcome.taken = true

/-- When `a` is the answer that took a body over, `b` sends no event of it. -/
def NotAgain (a b : DrainEvent) : Prop :=
  ∀ task batch outcome task' batch', a = .answered task batch outcome → outcome.taken = true →
    b = .posted task' batch' → ∀ e ∈ batch, ∀ e' ∈ batch', e.id ≠ e'.id

/-- The events so far account for every row. -/
structure Ledger (initial : List (Nat × Str)) (es : List DrainEvent) (d : Drains) : Prop where
  /-- A held batch was posted; a row that still has the id of one of its events
  is the row that event was read from. -/
  held : ∀ task batch, d.Posting task batch → .posted task batch ∈ es ∧
    ∀ e ∈ batch, e.id ≤ d.seq ∧ ∀ r ∈ d.texts, r.1 = e.id → Reads json r e
  kept : ∀ r, Entered json initial es r → r ∈ d.texts ∨ Shipped json Taken es r
  /-- The events of a body taken over are in no row, now or later. -/
  gone : ∀ task batch outcome, .answered task batch outcome ∈ es → outcome.taken = true →
    ∀ e ∈ batch, e.id ≤ d.seq ∧ ∀ r ∈ d.texts, r.1 ≠ e.id
  once : es.Pairwise NotAgain

variable {json} {initial : List (Nat × Str)} {es es' : List DrainEvent} {d d' : Drains}

theorem Shipped.mono {how how' : List QueuedEvent → PostOutcome → Prop} {r : Nat × Str}
    (hsub : ∀ e ∈ es, e ∈ es')
    (hhow : ∀ task batch outcome, .answered task batch outcome ∈ es → how batch outcome →
      how' batch outcome) (h : Shipped json how es r) : Shipped json how' es' r := by
  obtain ⟨task, batch, outcome, hp, ha, ho, he⟩ := h
  exact ⟨task, batch, outcome, hsub _ hp, hsub _ ha, hhow task batch outcome ha ho, he⟩

/-- A batch just read has ids of rows. -/
theorem exists_row_of_reads {front : List (Nat × Str)} {batch : List QueuedEvent}
    (h : List.Forall₂ (Reads json) front batch) : ∀ e ∈ batch, ∃ r ∈ front, Reads json r e := by
  induction h with
  | nil => simp
  | cons hr _ ih =>
    intro e he
    rcases List.mem_cons.mp he with rfl | he
    · exact ⟨_, List.mem_cons_self, hr⟩
    · obtain ⟨r, hmem, hr⟩ := ih e he
      exact ⟨r, List.mem_cons_of_mem _ hmem, hr⟩

/-- Keys are pairwise different. -/
theorem Drains.texts_inj (d : Drains) {r s : Nat × Str} (hr : r ∈ d.texts) (hs : s ∈ d.texts)
    (h : r.1 = s.1) : r = s := by
  have hnodup : (d.texts.map Prod.fst).Nodup :=
    List.pairwise_map.mpr (d.store.texts_sorted.imp Nat.ne_of_lt)
  exact List.inj_on_of_nodup_map hnodup hr hs h

theorem Ledger.held_move (h : Ledger json initial es d) (hm : DrainMove json d es' d') :
    ∀ task batch, d'.Posting task batch → .posted task batch ∈ es ++ es' ∧
      ∀ e ∈ batch, e.id ≤ d'.seq ∧ ∀ r ∈ d'.texts, r.1 = e.id → Reads json r e := by
  intro task batch hp
  cases hm with
  | accept payload htexts hseq htasks =>
    have hp' : d.Posting task batch := by
      obtain ⟨drain, hp⟩ := hp
      exact ⟨drain, htasks ▸ hp⟩
    obtain ⟨hposted, hbatch⟩ := h.held task batch hp'
    refine ⟨List.mem_append_left _ hposted, fun e he => ?_⟩
    obtain ⟨hle, hrow⟩ := hbatch e he
    refine ⟨by omega, fun r hr hid => ?_⟩
    rw [htexts] at hr
    rcases List.mem_append.mp hr with hr | hr
    · exact hrow r hr hid
    · -- the new row has an id that no batch can hold
      rw [List.mem_singleton.mp hr] at hid
      simp only at hid
      omega
  | idle _ htexts hseq htasks _ =>
    obtain ⟨hposted, hbatch⟩ := h.held task batch (htasks task batch hp)
    rw [htexts, hseq]
    exact ⟨List.mem_append_left _ hposted, hbatch⟩
  | post task' batch' htexts hseq hfront hreads htasks =>
    rw [htexts, hseq]
    rcases htasks task batch hp with ⟨rfl, rfl⟩ | hp'
    · refine ⟨by simp, fun e he => ?_⟩
      obtain ⟨r, hr, hre⟩ := exists_row_of_reads hreads e he
      have hmem : r ∈ d.texts := by rw [hfront]; exact List.mem_append_left _ hr
      refine ⟨hre.1 ▸ TelemetryStore.texts_bounded hmem, fun r' hr' hid => ?_⟩
      rw [d.texts_inj hr' hmem (hid.trans hre.1)]
      exact hre
    · obtain ⟨hposted, hbatch⟩ := h.held task batch hp'
      exact ⟨List.mem_append_left _ hposted, hbatch⟩
  | take task' batch' outcome ticker status hposting htaken hstatus htexts hseq htasks =>
    obtain ⟨hposted, hbatch⟩ := h.held task batch (htasks task batch hp).2
    refine ⟨List.mem_append_left _ hposted, fun e he => ?_⟩
    rw [htexts, hseq]
    exact ⟨(hbatch e he).1, fun r hr hid => (hbatch e he).2 r (List.mem_filter.mp hr).1 hid⟩

theorem Ledger.kept_move (h : Ledger json initial es d) (hm : DrainMove json d es' d') :
    ∀ r, Entered json initial (es ++ es') r → r ∈ d'.texts ∨ Shipped json Taken (es ++ es') r := by
  intro r hr
  -- a row that entered before: where it was, unless this move takes it
  have hold : Entered json initial es r → r ∈ d.texts ∨ Shipped json Taken (es ++ es') r := by
    intro hr
    rcases h.kept r hr with hr | hr
    · exact Or.inl hr
    · exact Or.inr (hr.mono (fun e he => List.mem_append_left _ he) (fun _ _ _ _ h => h))
  have hentered : (∀ payload, .accepted r.1 payload ∉ es') → Entered json initial es r := by
    intro hnone
    rcases hr with hr | ⟨payload, hmem, hdump⟩
    · exact Or.inl hr
    · rcases List.mem_append.mp hmem with hmem | hmem
      · exact Or.inr ⟨payload, hmem, hdump⟩
      · exact absurd hmem (hnone payload)
  cases hm with
  | accept payload htexts hseq htasks =>
    rw [htexts]
    rcases hr with hr | ⟨payload', hmem, hdump⟩
    · exact (hold (Or.inl hr)).imp_left (List.mem_append_left _)
    · rcases List.mem_append.mp hmem with hmem | hmem
      · exact (hold (Or.inr ⟨payload', hmem, hdump⟩)).imp_left (List.mem_append_left _)
      · simp only [List.mem_singleton, DrainEvent.accepted.injEq] at hmem
        refine Or.inl (List.mem_append_right _ (List.mem_singleton.mpr ?_))
        exact Prod.ext hmem.1 (by rw [← hdump, hmem.2])
  | idle _ htexts hseq htasks hidle =>
    rw [htexts]
    exact hold (hentered (fun payload hmem => hidle _ hmem))
  | post task batch htexts hseq hfront hreads htasks =>
    rw [htexts]
    exact hold (hentered (by simp))
  | take task batch outcome ticker status hposting htaken hstatus htexts hseq htasks =>
    rcases hold (hentered (by simp)) with hr | hr
    · by_cases hid : r.1 ∈ batch.map (·.id)
      · obtain ⟨e, he, heq⟩ := List.mem_map.mp hid
        obtain ⟨hposted, hbatch⟩ := h.held task batch hposting
        exact Or.inr ⟨task, batch, outcome, List.mem_append_left _ hposted, by simp, htaken, e, he,
          (hbatch e he).2 r hr heq.symm⟩
      · left
        rw [htexts]
        exact List.mem_filter.mpr ⟨hr, by simpa using hid⟩
    · exact Or.inr hr

/-- The ids of a batch that a move takes over leave the rows for good. -/
theorem Ledger.gone_move (h : Ledger json initial es d) (hm : DrainMove json d es' d') :
    ∀ task batch outcome, .answered task batch outcome ∈ es ++ es' → outcome.taken = true →
      ∀ e ∈ batch, e.id ≤ d'.seq ∧ ∀ r ∈ d'.texts, r.1 ≠ e.id := by
  intro task batch outcome hmem htaken' e he
  -- no move brings an id back: what is new has a new id
  have hback : e.id ≤ d.seq → (∀ r ∈ d.texts, r.1 ≠ e.id) →
      e.id ≤ d'.seq ∧ ∀ r ∈ d'.texts, r.1 ≠ e.id := by
    intro hle hrow
    cases hm with
    | accept payload htexts hseq htasks =>
      refine ⟨by omega, fun r hr => ?_⟩
      rw [htexts] at hr
      rcases List.mem_append.mp hr with hr | hr
      · exact hrow r hr
      · rw [List.mem_singleton.mp hr]
        simp only
        omega
    | idle _ htexts hseq htasks hidle => rw [htexts, hseq]; exact ⟨hle, hrow⟩
    | post task' batch' htexts hseq hfront hreads htasks =>
      rw [htexts, hseq]; exact ⟨hle, hrow⟩
    | take task' batch' outcome' ticker status hposting htaken hstatus htexts hseq htasks =>
      rw [htexts, hseq]
      exact ⟨hle, fun r hr => hrow r (List.mem_filter.mp hr).1⟩
  rcases List.mem_append.mp hmem with hmem | hmem
  · obtain ⟨hle, hrow⟩ := h.gone task batch outcome hmem htaken' e he
    exact hback hle hrow
  · cases hm with
    | accept payload htexts hseq htasks => simp at hmem
    | idle _ htexts hseq htasks hidle =>
      have : outcome.taken = false := hidle _ hmem
      rw [this] at htaken'
      cases htaken'
    | post task' batch' htexts hseq hfront hreads htasks => simp at hmem
    | take task' batch' outcome' ticker status hposting htaken hstatus htexts hseq htasks =>
      simp only [List.mem_cons, DrainEvent.answered.injEq, mem_tickEvents, reduceCtorEq,
        and_false, exists_false, or_false] at hmem
      obtain ⟨rfl, rfl, rfl⟩ := hmem
      obtain ⟨-, hbatch⟩ := h.held task batch hposting
      rw [htexts, hseq]
      refine ⟨(hbatch e he).1, fun r hr hid => ?_⟩
      have hout := (List.mem_filter.mp hr).2
      simp only [decide_eq_true_eq] at hout
      exact hout (List.mem_map.mpr ⟨e, he, hid.symm⟩)

theorem Ledger.once_move (h : Ledger json initial es d) (hm : DrainMove json d es' d') :
    (es ++ es').Pairwise NotAgain := by
  have hquiet : (∀ task batch, .posted task batch ∉ es') → (es ++ es').Pairwise NotAgain := by
    intro hnone
    have hnever : ∀ a, ∀ b ∈ es', NotAgain a b := by
      intro a b hb task batch outcome task' batch' _ _ he
      exact absurd (he ▸ hb) (hnone task' batch')
    exact List.pairwise_append.mpr ⟨h.once,
      List.pairwise_of_forall_mem_list (fun a _ b hb => hnever a b hb),
      fun a _ b hb => hnever a b hb⟩
  cases hm with
  | accept payload htexts hseq htasks => exact hquiet (by simp)
  | idle _ htexts hseq htasks hidle => exact hquiet (fun _ _ hmem => hidle _ hmem)
  | post task batch htexts hseq hfront hreads htasks =>
    refine List.pairwise_append.mpr ⟨h.once, List.pairwise_singleton _ _, ?_⟩
    intro a ha b hb task₁ batch₁ outcome task₂ batch₂ hea htaken heb e he e' he' hid
    rw [List.mem_singleton.mp hb] at heb
    injection heb with _ heb
    subst heb
    -- what is posted is in a row, what was taken over is not
    obtain ⟨r, hr, hre⟩ := exists_row_of_reads hreads e' he'
    have hmem : r ∈ d.texts := by rw [hfront]; exact List.mem_append_left _ hr
    exact (h.gone task₁ batch₁ outcome (hea ▸ ha) htaken e he).2 r hmem
      (hre.1.symm.trans hid.symm)
  | take task batch outcome ticker status hposting htaken hstatus htexts hseq htasks =>
    exact hquiet (by simp)

theorem Ledger.move (h : Ledger json initial es d) (hm : DrainMove json d es' d') :
    Ledger json initial (es ++ es') d' :=
  ⟨h.held_move hm, h.kept_move hm, h.gone_move hm, h.once_move hm⟩

theorem Ledger.step (h : Ledger json initial es d) (i : DrainInput) :
    Ledger json initial (es ++ (drainStep json d i).2) (drainStep json d i).1 := by
  obtain ⟨d₁, es₁, es₂, h₁, h₂, he, -⟩ := (drainStep_moves json d i).moves
  rw [he, ← List.append_assoc]
  exact (h.move h₁).move h₂

theorem Ledger.openOn (table : SerialTable EventRow) (maxSize : Nat) (batchSize : Int)
    (flushInterval : Rat) :
    let d₀ := Drains.openOn table maxSize batchSize flushInterval
    Ledger json d₀.texts [] d₀ := by
  refine ⟨?_, ?_, by simp, .nil⟩
  · intro task batch hp
    obtain ⟨drain, hp⟩ := hp
    simp [Drains.openOn] at hp
  · intro r hr
    rcases hr with hr | ⟨payload, hmem, -⟩
    · exact Or.inl hr
    · simp at hmem

/-- The ledger is kept in every run from a file with any rows. -/
theorem Ledger.run (table : SerialTable EventRow) (maxSize : Nat) (batchSize : Int)
    (flushInterval : Rat) (inputs : List DrainInput) :
    let d₀ := Drains.openOn table maxSize batchSize flushInterval
    Ledger json d₀.texts (drainEvents json d₀ inputs) (final (drainStep json) d₀ inputs) := by
  intro d₀
  refine trace_inv (drainStep json) (R := fun os d => Ledger json d₀.texts os.flatten d)
    (P := fun _ => True) ?_ (.openOn table maxSize batchSize flushInterval) (by simp)
  intro os d i h _
  simpa using h.step i

/-- A row leaves the store only with the answer to the body its own task sent. -/
theorem Ledger.row_leaves (h : Ledger json initial es d) (i : DrainInput) {r : Nat × Str}
    (hr : r ∈ d.texts) (hout : r ∉ (drainStep json d i).1.texts) :
    ∃ task batch outcome, d.Posting task batch ∧ .posted task batch ∈ es ∧
      .answered task batch outcome ∈ (drainStep json d i).2 ∧ outcome.taken = true ∧
      ∃ e ∈ batch, Reads json r e := by
  obtain ⟨d₁, es₁, es₂, h₁, h₂, he, hnone⟩ := (drainStep_moves json d i).moves
  have hsecond : r ∈ d₁.texts → r ∈ (drainStep json d i).1.texts := by
    intro hr₁
    cases h₂ with
    | accept payload htexts hseq htasks => rw [htexts]; exact List.mem_append_left _ hr₁
    | idle _ htexts hseq htasks hidle => rw [htexts]; exact hr₁
    | post task batch htexts hseq hfront hreads htasks => rw [htexts]; exact hr₁
    | take task batch outcome ticker status hposting htaken hstatus htexts hseq htasks =>
      have hno : outcome.taken = false := hnone task batch outcome (by simp)
      rw [hno] at htaken
      cases htaken
  have hout₁ : r ∉ d₁.texts := fun hr₁ => hout (hsecond hr₁)
  cases h₁ with
  | accept payload htexts hseq htasks =>
    exact absurd (htexts ▸ List.mem_append_left _ hr) hout₁
  | idle _ htexts hseq htasks hidle => exact absurd (htexts ▸ hr) hout₁
  | post task batch htexts hseq hfront hreads htasks => exact absurd (htexts ▸ hr) hout₁
  | take task batch outcome ticker status hposting htaken hstatus htexts hseq htasks =>
    obtain ⟨hposted, hbatch⟩ := h.held task batch hposting
    have hid : r.1 ∈ batch.map (·.id) := by
      by_contra hid
      exact hout₁ (htexts ▸ List.mem_filter.mpr ⟨hr, by simpa using hid⟩)
    obtain ⟨e, hmem, heq⟩ := List.mem_map.mp hid
    exact ⟨task, batch, outcome, hposting, hposted, by simp [he], htaken, e, hmem,
      (hbatch e hmem).2 r hr heq.symm⟩

end Ledger

/-- **No event is lost.** In every state that any interleaving of any drains
reaches, a row that ever entered the store is still in it or its event was in
a body answered 2xx, 400 or 422; and in whatever way the run goes on, a row
leaves only when the answer arrives to a body that its own task sent and that
held this very row. -/
theorem no_event_lost (json : JsonText) (table : SerialTable EventRow) (maxSize : Nat)
    (batchSize : Int) (flushInterval : Rat) (inputs : List DrainInput) :
    let d₀ := Drains.openOn table maxSize batchSize flushInterval
    let d := final (drainStep json) d₀ inputs
    let es := drainEvents json d₀ inputs
    (∀ r, Entered json d₀.texts es r → r ∈ d.texts ∨ Shipped json Taken es r) ∧
      ∀ i, ∀ r ∈ d.texts, r ∉ (drainStep json d i).1.texts →
        ∃ task batch outcome, d.Posting task batch ∧ .posted task batch ∈ es ∧
          .answered task batch outcome ∈ (drainStep json d i).2 ∧ outcome.taken = true ∧
          ∃ e ∈ batch, Reads json r e := by
  intro d₀ d es
  have h : Ledger json d₀.texts es d := Ledger.run table maxSize batchSize flushInterval inputs
  exact ⟨h.kept, fun i r hr hout => h.row_leaves i hr hout⟩

/-! ## Counting -/

section Counting

def DrainEvent.arrived : DrainEvent → Nat
  | .accepted _ _ => 1
  | _ => 0

/-- The count a `_tick` returned. -/
def DrainEvent.sent : DrainEvent → Nat
  | .ticked _ n => n
  | _ => 0

/-- The count a tick of the background loop, or a `flush_now`, returned. -/
def DrainEvent.returned : DrainEvent → Nat
  | .ticked .runForever n => n
  | .flushed n => n
  | _ => 0

/-- The sum of `f` over the events. -/
def total (f : DrainEvent → Nat) (es : List DrainEvent) : Nat := (es.map f).sum

@[simp] theorem total_nil (f : DrainEvent → Nat) : total f [] = 0 := rfl

@[simp] theorem total_cons (f : DrainEvent → Nat) (e : DrainEvent) (es : List DrainEvent) :
    total f (e :: es) = f e + total f es := by simp [total]

@[simp] theorem total_append (f : DrainEvent → Nat) (es es' : List DrainEvent) :
    total f (es ++ es') = total f es + total f es' := by simp [total]

theorem total_idle {f : DrainEvent → Nat} (hf : ∀ e, e.Idle → f e = 0) {es : List DrainEvent}
    (h : ∀ e ∈ es, e.Idle) : total f es = 0 := by
  induction es with
  | nil => rfl
  | cons e es ih =>
    simp [hf e (h e List.mem_cons_self), ih (fun e' he => h e' (List.mem_cons_of_mem _ he))]

theorem sent_of_idle (e : DrainEvent) (h : e.Idle) : e.sent = 0 := by
  cases e <;> simp_all [DrainEvent.Idle, DrainEvent.sent]

theorem arrived_of_idle (e : DrainEvent) (h : e.Idle) : e.arrived = 0 := by
  cases e <;> simp_all [DrainEvent.Idle, DrainEvent.arrived]

def Drain.total : Drain → Nat
  | .runForever => 0
  | .flushNow n => n

/-- What a suspended `flush_now` has counted and not returned yet. -/
def DrainTask.owed : DrainTask → Nat
  | .posting drain _ => drain.total
  | _ => 0

def Drains.owed (d : Drains) : Nat := (d.tasks.map DrainTask.owed).sum

theorem owed_set {tasks : List DrainTask} {task : Nat} {y : DrainTask}
    (h : tasks[task]? = some y) (x : DrainTask) :
    ((tasks.set task x).map DrainTask.owed).sum + y.owed =
      (tasks.map DrainTask.owed).sum + x.owed := by
  induction tasks generalizing task with
  | nil => simp at h
  | cons z tasks ih =>
    cases task with
    | zero =>
      simp only [List.getElem?_cons_zero, Option.some.injEq] at h
      subst h
      simp only [List.set_cons_zero, List.map_cons, List.sum_cons]
      omega
    | succ task =>
      have := ih (show tasks[task]? = some y by simpa using h)
      simp only [List.set_cons_succ, List.map_cons, List.sum_cons]
      omega

variable {json : JsonText}

theorem rests_returned (drain : Drain) (n : Nat) :
    (drain.rests (.returned n)).1.owed + total DrainEvent.returned
        (tickEvents drain.ticker (.returned n) ++ (drain.rests (.returned n)).2) ≤
      drain.total + n := by
  cases drain <;>
    simp [Drain.rests, tickEvents, Drain.ticker, DrainTask.owed, DrainEvent.returned, Drain.total]

theorem rests_raised (drain : Drain) :
    (drain.rests .raised).1.owed + total DrainEvent.returned
      (tickEvents drain.ticker .raised ++ (drain.rests .raised).2) ≤ drain.total := by
  cases drain <;> simp [Drain.rests, tickEvents, DrainTask.owed]

variable (json) in
/-- The first half of a tick returns at most what its caller has counted. -/
theorem beginTick_returned (task : Nat) (drain : Drain) (mint : Except Str Str) (d : Drains) :
    ∃ x, (beginTick json task drain mint d).1.tasks = d.tasks.set task x ∧
      x.owed + total DrainEvent.returned (beginTick json task drain mint d).2 ≤ drain.total := by
  unfold beginTick
  rcases tickBegin_texts json mint d.sender d.store with
    ⟨s', st', status, ht, rfl | rfl, -⟩ | ⟨batch, ht, -⟩
  · rw [ht]
    exact ⟨_, rfl, rests_returned drain 0⟩
  · rw [ht]
    exact ⟨_, rfl, rests_raised drain⟩
  · rw [ht]
    exact ⟨_, rfl, by simp [DrainTask.owed, DrainEvent.returned]⟩

theorem tickEnd_status (batch : List QueuedEvent) (outcome : PostOutcome) (s : TelemetrySender)
    (st : TelemetryStore) :
    (∃ n, (tickEnd batch outcome s st).2.2.1 = .returned n) ∨
      (tickEnd batch outcome s st).2.2.1 = .raised := by
  rcases tickEnd_texts batch outcome s st with
    ⟨-, status, acked, he, h⟩ | ⟨-, s', st', status, acked, he, h, -⟩
  · rw [he]
    exact h.imp (fun h => ⟨batch.length, h⟩) id
  · rw [he]
    exact h.imp (fun h => ⟨0, h⟩) id

/-- Where the caller goes on, the count of the tick that just ended is in the total
of the next one. -/
theorem goesOn_total {drain next : Drain} {inTime : Bool} {n : Nat}
    (h : drain.goesOn inTime (.returned n) = some next) :
    next.total + total DrainEvent.returned (tickEvents drain.ticker (.returned n)) ≤
      drain.total + total DrainEvent.sent (tickEvents drain.ticker (.returned n)) := by
  cases n with
  | zero => cases drain <;> simp [Drain.goesOn] at h
  | succ n =>
    cases drain with
    | runForever =>
      simp only [Drain.goesOn, Option.some.injEq] at h
      subst h
      simp [Drain.total, tickEvents, Drain.ticker, DrainEvent.returned, DrainEvent.sent]
    | flushNow k =>
      cases inTime with
      | false => simp [Drain.goesOn] at h
      | true =>
        simp only [Drain.goesOn, if_true, Option.some.injEq] at h
        subst h
        simp [Drain.total, tickEvents, Drain.ticker, DrainEvent.returned, DrainEvent.sent]

/-- No caller goes on after a tick that raised. -/
theorem goesOn_raised (drain : Drain) (inTime : Bool) : drain.goesOn inTime .raised = none := by
  cases drain <;> simp [Drain.goesOn]

variable (json) in
/-- The rest of a tick adds to the caller's count what it sent. -/
theorem endTick_returned (task : Nat) (drain : Drain) (batch : List QueuedEvent)
    (outcome : PostOutcome) (mint : Except Str Str) (inTime : Bool) (d : Drains) :
    ∃ x, (endTick json task drain batch outcome mint inTime d).1.tasks = d.tasks.set task x ∧
      x.owed + total DrainEvent.returned (endTick json task drain batch outcome mint inTime d).2 ≤
        drain.total + total DrainEvent.sent
          (endTick json task drain batch outcome mint inTime d).2 := by
  have hstatus := tickEnd_status batch outcome d.sender d.store
  unfold endTick
  rcases ht : tickEnd batch outcome d.sender d.store with ⟨s, st, status, acked⟩
  rw [ht] at hstatus
  simp only at hstatus ⊢
  cases hgo : drain.goesOn inTime status with
  | some next =>
    obtain ⟨x, htasks, hx⟩ := beginTick_returned json task next mint
      { d with store := st, sender := afterTick drain.ticker status s }
    refine ⟨x, htasks, ?_⟩
    have hnext : next.total + total DrainEvent.returned (tickEvents drain.ticker status) ≤
        drain.total + total DrainEvent.sent (tickEvents drain.ticker status) := by
      rcases hstatus with ⟨n, rfl⟩ | rfl
      · exact goesOn_total hgo
      · rw [goesOn_raised] at hgo
        cases hgo
    simp only [List.cons_append, total_cons, total_append, DrainEvent.returned, DrainEvent.sent]
    omega
  | none =>
    refine ⟨(drain.rests status).1, rfl, ?_⟩
    simp only [List.cons_append, total_cons, total_append, DrainEvent.returned, DrainEvent.sent]
    rcases hstatus with ⟨n, rfl⟩ | rfl
    · have h := rests_returned drain n
      simp only [total_append] at h
      have hsent : total DrainEvent.sent (tickEvents drain.ticker (.returned n)) = n := by
        simp [tickEvents, DrainEvent.sent]
      omega
    · have h := rests_raised drain
      simp only [total_append] at h
      omega

variable (json) in
/-- What a new task returns in its first tick is counted in it. -/
theorem spawn_returned (d : Drains) {x : DrainTask} {drain : Drain} (mint : Except Str Str)
    (hdrain : drain.total = 0) :
    let b := beginTick json d.tasks.length drain mint { d with tasks := d.tasks ++ [x] }
    total DrainEvent.returned b.2 + b.1.owed ≤ total DrainEvent.sent b.2 + d.owed := by
  intro b
  obtain ⟨y, htasks, hy⟩ := beginTick_returned json d.tasks.length drain mint
    { d with tasks := d.tasks ++ [x] }
  have hset := owed_set (show (d.tasks ++ [x])[d.tasks.length]? = some x by simp) y
  simp only [List.map_append, List.map_cons, List.map_nil, List.sum_append, List.sum_cons,
    List.sum_nil] at hset
  unfold Drains.owed
  rw [htasks]
  simp only [b] at hset hy ⊢
  omega

variable (json) in
/-- A step returns at most what it sent and what its task had counted. -/
theorem drainStep_returned (d : Drains) (i : DrainInput) :
    total DrainEvent.returned (drainStep json d i).2 + (drainStep json d i).1.owed ≤
      total DrainEvent.sent (drainStep json d i).2 + d.owed := by
  cases i with
  | enqueue now payload =>
    simp only [drainStep]
    split <;> simp [DrainEvent.returned, DrainEvent.sent, Drains.owed]
  | startForever mint => exact spawn_returned json d mint rfl
  | startFlush mint inTime =>
    cases inTime with
    | true => exact spawn_returned json d mint rfl
    | false => simp [drainStep, DrainEvent.returned, DrainEvent.sent, Drains.owed, DrainTask.owed]
  | wake task mint =>
    simp only [drainStep]
    split
    · rename_i ht
      obtain ⟨x, htasks, hx⟩ := beginTick_returned json task .runForever mint d
      have hset := owed_set ht x
      unfold Drains.owed
      rw [htasks]
      simp only [DrainTask.owed, Drain.total] at hset hx ⊢
      omega
    · simp
  | postEnds task outcome mint inTime =>
    simp only [drainStep]
    split
    · rename_i drain batch ht
      obtain ⟨x, htasks, hx⟩ :=
        endTick_returned json task drain batch outcome mint inTime d
      have hset := owed_set ht x
      unfold Drains.owed
      rw [htasks]
      simp only [DrainTask.owed] at hset hx ⊢
      omega
    · simp
  | cancel task =>
    simp only [drainStep, total_nil, Drains.owed, Nat.zero_add]
    cases ht : d.tasks[task]? with
    | none =>
      rw [List.set_eq_of_length_le (List.getElem?_eq_none_iff.mp ht)]
    | some y =>
      have hset := owed_set ht .ended
      simp only [DrainTask.owed] at hset ⊢
      omega

/-- What ticks of the loop and flushes return is in the counts of the ticks. -/
theorem returned_le_sent (table : SerialTable EventRow) (maxSize : Nat) (batchSize : Int)
    (flushInterval : Rat) (inputs : List DrainInput) :
    let es := drainEvents json (Drains.openOn table maxSize batchSize flushInterval) inputs
    total DrainEvent.returned es ≤ total DrainEvent.sent es := by
  intro es
  have h := trace_inv (drainStep json) (R := fun os d =>
      total DrainEvent.returned os.flatten + d.owed ≤ total DrainEvent.sent os.flatten)
    (P := fun _ => True) (s := Drains.openOn table maxSize batchSize flushInterval) ?_
    (by simp [Drains.openOn, Drains.owed])
    (show ∀ i ∈ inputs, True by simp)
  · exact Nat.le_trans (Nat.le_add_right _ _) h
  · intro os d i h _
    have hstep := drainStep_returned json d i
    simp only [List.flatten_append, List.flatten_cons, List.flatten_nil, List.append_nil,
      total_append]
    omega

end Counting

/-! ## One POST at a time -/

section Alone

def DrainTask.posts : DrainTask → Bool
  | .posting _ _ => true
  | _ => false

/-- At most one POST is awaited. -/
def Drains.Exclusive (d : Drains) : Prop :=
  ∀ i, i < d.tasks.length → ∀ j, j < d.tasks.length →
    (d.tasks[i]?.any DrainTask.posts && d.tasks[j]?.any DrainTask.posts) = true → i = j

instance (d : Drains) : Decidable d.Exclusive :=
  inferInstanceAs (Decidable (∀ i, i < d.tasks.length → ∀ j, j < d.tasks.length →
    (d.tasks[i]?.any DrainTask.posts && d.tasks[j]?.any DrainTask.posts) = true → i = j))

theorem Drains.Exclusive.eq {d : Drains} (h : d.Exclusive) {i j : Nat} {b b' : List QueuedEvent}
    (hi : d.Posting i b) (hj : d.Posting j b') : i = j := by
  obtain ⟨drain, hi⟩ := hi
  obtain ⟨drain', hj⟩ := hj
  refine h i (List.getElem?_eq_some_iff.mp hi).1 j (List.getElem?_eq_some_iff.mp hj).1 ?_
  simp [hi, hj, DrainTask.posts]

/-- Both are answers that took a body over: no event is in both bodies. -/
def TakenApart (a b : DrainEvent) : Prop :=
  ∀ task batch outcome task' batch' outcome', a = .answered task batch outcome →
    outcome.taken = true → b = .answered task' batch' outcome' → outcome'.taken = true →
    ∀ e ∈ batch, ∀ e' ∈ batch', e.id ≠ e'.id

/-- Held batches are front parts of the table, and no row is counted twice. -/
structure Alone (rows : Nat) (es : List DrainEvent) (d : Drains) : Prop where
  front : ∀ task batch, d.Posting task batch →
    ∃ front rest, d.texts = front ++ rest ∧ batch.map (·.id) = front.map Prod.fst
  counts : total DrainEvent.sent es + d.texts.length ≤ rows + total DrainEvent.arrived es
  apart : es.Pairwise TakenApart

variable {json : JsonText} {initial : List (Nat × Str)} {rows : Nat} {es es' : List DrainEvent}
  {d d' : Drains}

theorem map_id_of_reads {front : List (Nat × Str)} {batch : List QueuedEvent}
    (h : List.Forall₂ (Reads json) front batch) : batch.map (·.id) = front.map Prod.fst := by
  induction h with
  | nil => rfl
  | cons hr _ ih => simp [hr.1, ih]

theorem pairwise_takenApart (hold : es.Pairwise TakenApart) (hnone : TakesNothing es') :
    (es ++ es').Pairwise TakenApart := by
  have hnever : ∀ a, ∀ b ∈ es', TakenApart a b := by
    intro a b hb task batch outcome task' batch' outcome' _ _ he htaken
    rw [hnone task' batch' outcome' (he ▸ hb)] at htaken
    cases htaken
  exact List.pairwise_append.mpr ⟨hold,
    List.pairwise_of_forall_mem_list (fun a _ b hb => hnever a b hb), fun a _ b hb => hnever a b hb⟩

/-- What is taken over now is in a row, what was taken before is not. -/
theorem pairwise_take (hl : Ledger json initial es d) (hold : es.Pairwise TakenApart) {task : Nat}
    {batch : List QueuedEvent} (outcome : PostOutcome) (ticker : Ticker) (status : TickStatus)
    (hrows : ∀ e ∈ batch, ∃ r ∈ d.texts, r.1 = e.id) :
    (es ++ .answered task batch outcome :: tickEvents ticker status).Pairwise TakenApart := by
  refine List.pairwise_append.mpr ⟨hold, ?_, ?_⟩
  · have hticked : ∀ a, ∀ b ∈ tickEvents ticker status, TakenApart a b := by
      intro a b hb _ _ _ _ _ _ _ _ he
      obtain ⟨n, -, rfl⟩ := mem_tickEvents.mp hb
      cases he
    exact List.pairwise_cons.mpr ⟨hticked _,
      List.pairwise_of_forall_mem_list fun a _ b hb => hticked a b hb⟩
  · intro a ha b hb t₁ b₁ o₁ t₂ b₂ o₂ hea htaken₁ heb _ e he e' he' hid
    simp only [List.mem_cons, mem_tickEvents] at hb
    rcases hb with rfl | ⟨n, -, rfl⟩
    · injection heb with _ heb _
      subst heb
      obtain ⟨r, hr, hre⟩ := hrows e' he'
      exact (hl.gone t₁ b₁ o₁ (hea ▸ ha) htaken₁ e he).2 r hr (hre.trans hid.symm)
    · cases heb

theorem Alone.move (hl : Ledger json initial es d) (h : Alone rows es d)
    (hm : DrainMove json d es' d') (hex : ¬ TakesNothing es' → d.Exclusive) :
    Alone rows (es ++ es') d' := by
  cases hm with
  | accept payload htexts hseq htasks =>
    refine ⟨?_, ?_, pairwise_takenApart h.apart (by simp [TakesNothing])⟩
    · intro task batch hp
      obtain ⟨drain, hp⟩ := hp
      obtain ⟨front, rest, hfront, hids⟩ := h.front task batch ⟨drain, htasks ▸ hp⟩
      exact ⟨front, rest ++ [(d.seq + 1, json.dumps payload)],
        by rw [htexts, hfront, List.append_assoc], hids⟩
    · have := h.counts
      simp only [total_append, total_cons, total_nil, htexts, List.length_append,
        List.length_singleton, DrainEvent.sent, DrainEvent.arrived]
      omega
  | idle _ htexts hseq htasks hidle =>
    refine ⟨?_, ?_, pairwise_takenApart h.apart (fun _ _ _ hmem => hidle _ hmem)⟩
    · intro task batch hp
      rw [htexts]
      exact h.front task batch (htasks task batch hp)
    · rw [htexts, total_append, total_append, total_idle sent_of_idle hidle,
        total_idle arrived_of_idle hidle]
      exact h.counts
  | post task batch htexts hseq hfront hreads htasks =>
    refine ⟨?_, ?_, pairwise_takenApart h.apart (by simp [TakesNothing])⟩
    · intro t b hp
      rw [htexts]
      rcases htasks t b hp with ⟨-, rfl⟩ | hp
      · exact ⟨_, _, hfront, map_id_of_reads hreads⟩
      · exact h.front t b hp
    · simpa [htexts, DrainEvent.sent, DrainEvent.arrived] using h.counts
  | take task batch outcome ticker status hposting htaken hstatus htexts hseq htasks =>
    have hexcl : d.Exclusive := by
      refine hex (fun hnone => ?_)
      rw [hnone task batch outcome (by simp)] at htaken
      cases htaken
    obtain ⟨front, rest, hfront, hids⟩ := h.front task batch hposting
    have hrest : d'.texts = rest := by
      rw [htexts, hids, hfront]
      exact SerialTable.filter_front (hfront ▸ d.store.texts_sorted)
    refine ⟨?_, ?_, ?_⟩
    · -- the only awaited POST has just ended
      intro t b hp
      obtain ⟨hne, hp⟩ := htasks t b hp
      exact absurd (hexcl.eq hp hposting) hne
    · have hlength : batch.length = front.length := by
        simpa using congrArg List.length hids
      have hcounts := h.counts
      rw [hfront, List.length_append] at hcounts
      have hsent : total DrainEvent.sent (tickEvents ticker status) ≤ batch.length := by
        rcases hstatus with rfl | rfl <;> simp [tickEvents, DrainEvent.sent]
      have harrived : total DrainEvent.arrived (tickEvents ticker status) = 0 := by
        cases status <;> simp [tickEvents, DrainEvent.arrived]
      simp only [total_append, total_cons, hrest, DrainEvent.sent, DrainEvent.arrived]
      omega
    · refine pairwise_take hl h.apart outcome ticker status fun e he => ?_
      have hrow : e.id ∈ front.map Prod.fst := hids ▸ List.mem_map.mpr ⟨e, he, rfl⟩
      obtain ⟨r, hr, hre⟩ := List.mem_map.mp hrow
      exact ⟨r, hfront ▸ List.mem_append_left _ hr, hre⟩

theorem Alone.step (hl : Ledger json initial es d) (h : Alone rows es d) (hex : d.Exclusive)
    (i : DrainInput) : Alone rows (es ++ (drainStep json d i).2) (drainStep json d i).1 := by
  obtain ⟨d₁, es₁, es₂, h₁, h₂, he, hnone⟩ := (drainStep_moves json d i).moves
  rw [he, ← List.append_assoc]
  exact (h.move hl h₁ (fun _ => hex)).move (hl.move h₁) h₂ (fun hno => absurd hnone hno)

/-- Both hold at the end of a run that never awaited two POSTs at once. -/
theorem Alone.run (table : SerialTable EventRow) (maxSize : Nat) (batchSize : Int)
    (flushInterval : Rat) (inputs : List DrainInput)
    (hex : ∀ v ∈ visits (drainStep json) (Drains.openOn table maxSize batchSize flushInterval)
      inputs, v.1.Exclusive) :
    let d₀ := Drains.openOn table maxSize batchSize flushInterval
    Alone table.rows.length (drainEvents json d₀ inputs) (final (drainStep json) d₀ inputs) := by
  intro d₀
  have hstart : Alone table.rows.length [] d₀ := by
    refine ⟨?_, by simp [d₀, Drains.openOn, Drains.texts, TelemetryStore.texts,
      TelemetryStore.openOn], .nil⟩
    intro task batch hp
    obtain ⟨drain, hp⟩ := hp
    simp [d₀, Drains.openOn] at hp
  have h := guarded_inv (drainStep json)
    (R := fun os d => Ledger json d₀.texts os.flatten d ∧ Alone table.rows.length os.flatten d)
    (G := fun d _ => d.Exclusive) ?_
    ⟨Ledger.openOn table maxSize batchSize flushInterval, hstart⟩ hex
  · exact h.2
  · rintro os d i ⟨hl, ha⟩ hex
    have hl' := hl.step i
    have ha' := ha.step hl hex i
    simp only [List.flatten_append, List.flatten_cons, List.flatten_nil, List.append_nil]
    exact ⟨hl', ha'⟩

end Alone

/-- Both are 2xx answers: no event is in both bodies. -/
def DeliveredApart (a b : DrainEvent) : Prop :=
  ∀ task batch outcome task' batch' outcome', a = .answered task batch outcome →
    outcome.delivered = true → b = .answered task' batch' outcome' → outcome'.delivered = true →
    ∀ e ∈ batch, ∀ e' ∈ batch', e.id ≠ e'.id

/-- The loop awaits its POST when a flush starts; both are answered 200. -/
def overlapRun : List DrainInput :=
  [.enqueue "t0" (.obj []), .startForever (.ok "jwt"), .startFlush (.ok "jwt") true,
   .postEnds 0 (.response 200 "") (.ok "jwt") true, .postEnds 1 (.response 200 "") (.ok "jwt") true]

/-- The one event is in two bodies answered 2xx, and one accepted event makes
counts that add up to 2. -/
theorem overlap_ships_twice :
    let es := drainEvents demoJson (Drains.openOn .empty 10 50 5) overlapRun
    ¬ es.Pairwise DeliveredApart ∧ total DrainEvent.arrived es < total DrainEvent.returned es := by
  let e : QueuedEvent :=
    { id := 1, occurredAt := "t0", payload := .obj [], retries := 0, lastError := [] }
  have hes : drainEvents demoJson (Drains.openOn .empty 10 50 5) overlapRun =
      [.accepted 1 (.obj []), .posted 0 [e], .posted 1 [e],
       .answered 0 [e] (.response 200 ""), .ticked .runForever 1, .ticked .runForever 0,
       .answered 1 [e] (.response 200 ""), .ticked .flushNow 1, .ticked .flushNow 0,
       .flushed 1] := rfl
  intro es
  rw [show es = _ from hes]
  refine ⟨fun h => ?_, by decide⟩
  have happart := List.pairwise_iff_getElem.mp h 3 6 (by decide) (by decide) (by decide)
  exact happart 0 [e] _ 1 [e] _ rfl rfl rfl rfl e List.mem_cons_self e List.mem_cons_self rfl

/-- **Twice only in overlap.** Once a body was taken over, no event of it is
sent again, so an event is in two such bodies only if the second was sent
while the first was awaited. Where no two POSTs are ever awaited at once, no
event is in two bodies that were taken over, and the counts returned by all
ticks of the loop and all flushes add up to at most the events accepted. -/
theorem shipped_twice_only_in_overlap (json : JsonText) (table : SerialTable EventRow)
    (maxSize : Nat) (batchSize : Int) (flushInterval : Rat) (inputs : List DrainInput) :
    let d₀ := Drains.openOn table maxSize batchSize flushInterval
    let es := drainEvents json d₀ inputs
    es.Pairwise NotAgain ∧
      ((∀ v ∈ visits (drainStep json) d₀ inputs, v.1.Exclusive) →
        es.Pairwise TakenApart ∧
          total DrainEvent.returned es ≤ table.rows.length + total DrainEvent.arrived es) := by
  intro d₀ es
  have hledger : Ledger json d₀.texts es _ := Ledger.run table maxSize batchSize flushInterval inputs
  refine ⟨hledger.once, ?_⟩
  intro hex
  have h := Alone.run table maxSize batchSize flushInterval inputs hex
  have hret : total DrainEvent.returned es ≤ total DrainEvent.sent es :=
    returned_le_sent table maxSize batchSize flushInterval inputs
  have hcounts : total DrainEvent.sent es + _ ≤ table.rows.length + total DrainEvent.arrived es :=
    h.counts
  exact ⟨h.apart, by omega⟩

/-- The flush starts after the answer to the loop's POST. -/
def turnsRun : List DrainInput :=
  [.enqueue "t0" (.obj []), .startForever (.ok "jwt"),
   .postEnds 0 (.response 200 "") (.ok "jwt") true, .enqueue "t1" (.obj []),
   .startFlush (.ok "jwt") true, .postEnds 1 (.response 200 "") (.ok "jwt") true]

theorem shipped_twice_only_in_overlap_turns :
    let es := drainEvents demoJson (Drains.openOn .empty 10 50 5) turnsRun
    es.Pairwise TakenApart ∧ total DrainEvent.returned es ≤ 0 + total DrainEvent.arrived es :=
  (shipped_twice_only_in_overlap demoJson .empty 10 50 5 turnsRun).2 (by decide +kernel)

/-! ## Poison -/

/-- Answered 2xx. -/
def Delivered (_ : List QueuedEvent) (outcome : PostOutcome) : Prop := outcome.delivered = true

/-- Answered 400 or 422. -/
def PostOutcome.rejected (outcome : PostOutcome) : Bool := outcome.taken && !outcome.delivered

/-- Rejected together with an event of `Bad`. -/
def Poisoned (Bad : Json → Prop) (batch : List QueuedEvent) (outcome : PostOutcome) : Prop :=
  outcome.rejected = true ∧ ∃ e ∈ batch, Bad e.payload

/-- The gateway rejects exactly the bodies with an event of `Bad`; any other
outcome than 2xx, 400 and 422 may come first. -/
def JudgesBy (Bad : Json → Prop) (es : List DrainEvent) : Prop :=
  ∀ task batch outcome, .answered task batch outcome ∈ es →
    (outcome.rejected = true → ∃ e ∈ batch, Bad e.payload) ∧
      (outcome.delivered = true → ∀ e ∈ batch, ¬ Bad e.payload)

/-- The row's event is not in `Bad`. -/
def Valid (json : JsonText) (Bad : Json → Prop) (r : Nat × Str) : Prop :=
  ∀ p, json.loads r.2 = .ok p → ¬ Bad p

/-- An event that the gateway rejects, and one that it takes, in one batch. -/
def poisonRun : List DrainInput :=
  [.enqueue "t0" (.obj []), .enqueue "t1" (.obj [(("a" : Str), .int 1)]),
   .startForever (.ok "jwt"), .postEnds 0 (.response 400 "malformed") (.ok "jwt") true]

/-- The valid event leaves the store with the poison event, and was in no body
answered 2xx. -/
theorem poison_takes_valid :
    let d₀ := Drains.openOn .empty 10 50 5
    let es := drainEvents demoJson d₀ poisonRun
    let Bad : Json → Prop := (· = .obj [])
    JudgesBy Bad es ∧ ∃ r, Entered demoJson d₀.texts es r ∧ Valid demoJson Bad r ∧
      r ∉ (final (drainStep demoJson) d₀ poisonRun).texts ∧ ¬ Shipped demoJson Delivered es r := by
  let bad : QueuedEvent :=
    { id := 1, occurredAt := "t0", payload := .obj [], retries := 0, lastError := [] }
  let good : QueuedEvent :=
    { id := 2, occurredAt := "t1", payload := .obj [(("a" : Str), .int 1)], retries := 0
      lastError := [] }
  have hes : drainEvents demoJson (Drains.openOn .empty 10 50 5) poisonRun =
      [.accepted 1 (.obj []), .accepted 2 (.obj [(("a" : Str), .int 1)]),
       .posted 0 [bad, good], .answered 0 [bad, good] (.response 400 "malformed"),
       .ticked .runForever 2, .ticked .runForever 0] := rfl
  intro d₀ es Bad
  rw [show es = _ from hes]
  refine ⟨?_, (2, "\x7b\"a\": 1\x7d"), ?_, ?_, ?_, ?_⟩
  · intro task batch outcome h
    simp only [List.mem_cons, DrainEvent.answered.injEq, reduceCtorEq, false_or, or_false,
      List.not_mem_nil] at h
    obtain ⟨rfl, rfl, rfl⟩ := h
    exact ⟨fun _ => ⟨bad, List.mem_cons_self, rfl⟩,
      fun h => by simp [PostOutcome.delivered, isSuccess] at h⟩
  · exact Or.inr ⟨.obj [(("a" : Str), .int 1)], by simp, rfl⟩
  · intro p hp hbad
    have : demoJson.loads ("\x7b\"a\": 1\x7d" : Str) = .ok (.obj [(("a" : Str), .int 1)]) := rfl
    rw [this] at hp
    injection hp with hp
    rw [← hp] at hbad
    simp [Bad] at hbad
  · decide +kernel
  · rintro ⟨task, batch, outcome, -, h, hd, -⟩
    simp only [List.mem_cons, DrainEvent.answered.injEq, reduceCtorEq, false_or, or_false,
      List.not_mem_nil] at h
    obtain ⟨rfl, rfl, rfl⟩ := h
    simp [Delivered, PostOutcome.delivered, isSuccess] at hd

section Poison

variable {json : JsonText} {Bad : Json → Prop} {es : List DrainEvent}

/-- A valid event that left was delivered, or rejected with a bad one. -/
theorem shipped_of_taken (hgw : JudgesBy Bad es) {r : Nat × Str} (h : Shipped json Taken es r) :
    Shipped json Delivered es r ∨ Shipped json (Poisoned Bad) es r := by
  obtain ⟨task, batch, outcome, hp, ha, htaken, he⟩ := h
  cases hd : outcome.delivered with
  | true => exact Or.inl ⟨task, batch, outcome, hp, ha, hd, he⟩
  | false =>
    have hrej : outcome.rejected = true := by
      have htaken' : outcome.taken = true := htaken
      simp [PostOutcome.rejected, hd, htaken']
    exact Or.inr ⟨task, batch, outcome, hp, ha, ⟨hrej, (hgw task batch outcome ha).1 hrej⟩, he⟩

/-- A body of one event is not rejected for another event's sake. -/
theorem not_poisoned_of_single {r : Nat × Str} (hvalid : Valid json Bad r)
    (hsize : ∀ task batch, .posted task batch ∈ es → batch.length ≤ 1) :
    ¬ Shipped json (Poisoned Bad) es r := by
  rintro ⟨task, batch, outcome, hp, -, ⟨-, e', he', hbad⟩, e, he, hreads⟩
  have heq : e = e' := by
    have hlength := hsize task batch hp
    match batch, hlength with
    | [b], _ => rw [List.mem_singleton.mp he, List.mem_singleton.mp he']
  exact hvalid e'.payload (heq ▸ hreads.2) hbad

/-- No body holds more events than the batch size. -/
theorem posted_length (json : JsonText) (table : SerialTable EventRow) (maxSize : Nat)
    {batchSize : Int} (hsize : 0 ≤ batchSize) (flushInterval : Rat) (inputs : List DrainInput) :
    ∀ task batch, .posted task batch ∈
      drainEvents json (Drains.openOn table maxSize batchSize flushInterval) inputs →
      batch.length ≤ batchSize.toNat := by
  have h := trace_inv (drainStep json) (R := fun os d => d.sender.batchSize = batchSize ∧
      ∀ task batch, .posted task batch ∈ os.flatten → batch.length ≤ batchSize.toNat)
    (P := fun _ => True) (s := Drains.openOn table maxSize batchSize flushInterval) ?_
    ⟨rfl, by simp⟩ (show ∀ i ∈ inputs, True by simp)
  · exact h.2
  · rintro os d i ⟨hb, hold⟩ -
    have hstep := drainStep_moves json d i
    refine ⟨by rw [hstep.batchSize, hb], fun task batch hmem => ?_⟩
    simp only [List.flatten_append, List.flatten_cons, List.flatten_nil, List.append_nil,
      List.mem_append] at hmem
    rcases hmem with hmem | hmem
    · exact hold task batch hmem
    · have := hstep.posted task batch hmem (hb.symm ▸ hsize)
      rwa [hb] at this

end Poison

/-- **What poison can take with it.** Under a gateway that rejects exactly the
bodies with an event of `Bad`, a valid event leaves the store only when it was
in a body answered 2xx, or in a rejected body that held an event of `Bad`;
with batches of one event only the former. -/
theorem valid_leaves_only_delivered_or_poisoned (json : JsonText) (table : SerialTable EventRow)
    (maxSize : Nat) (batchSize : Int) (flushInterval : Rat) (inputs : List DrainInput)
    (Bad : Json → Prop) :
    let d₀ := Drains.openOn table maxSize batchSize flushInterval
    let es := drainEvents json d₀ inputs
    JudgesBy Bad es → ∀ r, Entered json d₀.texts es r → Valid json Bad r →
      r ∉ (final (drainStep json) d₀ inputs).texts →
      (Shipped json Delivered es r ∨ Shipped json (Poisoned Bad) es r) ∧
        (batchSize = 1 → Shipped json Delivered es r) := by
  intro d₀ es hgw r hr hvalid hout
  have hledger : Ledger json d₀.texts es _ := Ledger.run table maxSize batchSize flushInterval inputs
  have htaken : Shipped json Taken es r := (hledger.kept r hr).resolve_left hout
  have hcases := shipped_of_taken hgw htaken
  refine ⟨hcases, fun hone => hcases.resolve_right (not_poisoned_of_single hvalid ?_)⟩
  subst hone
  exact posted_length json table maxSize (by decide) flushInterval inputs

/-- The gateway is down, then rejects the two events of the first body, then takes the
body of the third. -/
def mixedRun : List DrainInput :=
  [.enqueue "t0" (.obj []), .enqueue "t1" (.obj [(("a" : Str), .int 1)]),
   .startForever (.ok "jwt"), .postEnds 0 (.response 503 "busy") (.ok "jwt") true,
   .enqueue "t2" (.obj [(("a" : Str), .int 1)]), .wake 0 (.ok "jwt"),
   .postEnds 0 (.response 422 "malformed") (.ok "jwt") true,
   .postEnds 0 (.response 200 "") (.ok "jwt") true]

/-- The second event goes with the poison event, the third is delivered. -/
theorem valid_leaves_only_delivered_or_poisoned_mixed :
    let d₀ := Drains.openOn .empty 10 2 5
    let es := drainEvents demoJson d₀ mixedRun
    let Bad : Json → Prop := (· = .obj [])
    Shipped demoJson (Poisoned Bad) es (2, "\x7b\"a\": 1\x7d") ∧
      Shipped demoJson Delivered es (3, "\x7b\"a\": 1\x7d") := by
  let poison : QueuedEvent := ⟨1, "t0", .obj [], 0, []⟩
  let good : QueuedEvent := ⟨2, "t1", .obj [(("a" : Str), .int 1)], 0, []⟩
  let late : QueuedEvent := ⟨3, "t2", .obj [(("a" : Str), .int 1)], 0, []⟩
  let again (e : QueuedEvent) : QueuedEvent := { e with retries := 1, lastError := "503: busy" }
  have hes : drainEvents demoJson (Drains.openOn .empty 10 2 5) mixedRun =
      [.accepted 1 poison.payload, .accepted 2 good.payload, .posted 0 [poison, good],
       .answered 0 [poison, good] (.response 503 "busy"), .ticked .runForever 0,
       .accepted 3 late.payload, .posted 0 [again poison, again good],
       .answered 0 [again poison, again good] (.response 422 "malformed"),
       .ticked .runForever 2, .posted 0 [late], .answered 0 [late] (.response 200 ""),
       .ticked .runForever 1, .ticked .runForever 0] := rfl
  intro d₀ es Bad
  have hanswers : ∀ {task batch outcome}, .answered task batch outcome ∈ es →
      (batch = [poison, good] ∧ outcome = .response 503 "busy") ∨
        (batch = [again poison, again good] ∧ outcome = .response 422 "malformed") ∨
        (batch = [late] ∧ outcome = .response 200 "") := by
    intro task batch outcome h
    rw [show es = _ from hes] at h
    simp only [List.mem_cons, DrainEvent.answered.injEq, reduceCtorEq, false_or, or_false,
      List.not_mem_nil] at h
    exact h.imp And.right (Or.imp And.right And.right)
  have hgw : JudgesBy Bad es := by
    intro task batch outcome h
    rcases hanswers h with ⟨rfl, rfl⟩ | ⟨rfl, rfl⟩ | ⟨rfl, rfl⟩
    · exact ⟨fun h => absurd h (by decide), fun h => absurd h (by decide)⟩
    · exact ⟨fun _ => ⟨again poison, List.mem_cons_self, rfl⟩, fun h => absurd h (by decide)⟩
    · refine ⟨fun h => absurd h (by decide), fun _ e he => ?_⟩
      rw [List.mem_singleton.mp he]
      simp [Bad, late]
  have hleft : ∀ n, (n = 2 ∨ n = 3) →
      Shipped demoJson Delivered es (n, "\x7b\"a\": 1\x7d") ∨
        Shipped demoJson (Poisoned Bad) es (n, "\x7b\"a\": 1\x7d") := by
    intro n hn
    refine (valid_leaves_only_delivered_or_poisoned demoJson .empty 10 2 5 mixedRun Bad hgw
      (n, "\x7b\"a\": 1\x7d") (Or.inr ⟨late.payload, ?_, rfl⟩) ?_ ?_).1
    · rw [show drainEvents demoJson _ mixedRun = _ from hes]
      rcases hn with rfl | rfl <;> simp [good, late]
    · intro p hp hbad
      have hload : demoJson.loads ("\x7b\"a\": 1\x7d" : Str) = .ok late.payload := rfl
      rw [hload] at hp
      rw [← Except.ok.inj hp] at hbad
      simp [Bad, late] at hbad
    · have hempty : (final (drainStep demoJson) (Drains.openOn .empty 10 2 5) mixedRun).texts =
          [] := rfl
      rw [hempty]
      exact List.not_mem_nil
  constructor
  · refine (hleft 2 (Or.inl rfl)).resolve_left ?_
    rintro ⟨task, batch, outcome, -, h, hd, e, he, hread⟩
    rcases hanswers h with ⟨rfl, rfl⟩ | ⟨rfl, rfl⟩ | ⟨rfl, rfl⟩
    · simp [Delivered, PostOutcome.delivered, isSuccess] at hd
    · simp [Delivered, PostOutcome.delivered, isSuccess] at hd
    · rw [List.mem_singleton.mp he] at hread
      exact absurd hread.1 (by decide)
  · refine (hleft 3 (Or.inr rfl)).resolve_right ?_
    rintro ⟨task, batch, outcome, -, h, ⟨hrej, -⟩, e, he, hread⟩
    rcases hanswers h with ⟨rfl, rfl⟩ | ⟨rfl, rfl⟩ | ⟨rfl, rfl⟩
    · exact absurd hrej (by decide)
    · simp only [List.mem_cons, List.not_mem_nil, or_false] at he
      rcases he with rfl | rfl <;> exact absurd hread.1 (by decide)
    · exact absurd hrej (by decide)

end TrustModelEdge.Telemetry
