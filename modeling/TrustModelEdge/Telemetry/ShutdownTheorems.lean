/-
TrustModelEdge.Telemetry.ShutdownTheorems — the drain of a shutdown.

The lifespan drains the queue while the background loop still runs, and flush requests
may drain it too. They take rows from under the flush, or send the same rows with it, but
none puts rows back. So the rows behind the batch that the flush holds only become fewer
(`Undisturbed`), and each answer to it takes a whole batch off what it has to do (`Draining`).
-/
import TrustModelEdge.Lib.Tally
import TrustModelEdge.Telemetry.FlushTheorems

namespace TrustModelEdge.Telemetry

open Py Lib

/-- What may happen beside a flush: nothing is enqueued, and the POSTs of the flush are
answered in time, by answers whose texts can be read where they are logged. The other tasks
do what they like. -/
def DrainInput.Beside (task : Nat) : DrainInput → Prop
  | .enqueue _ _ => False
  | .cancel t => t ≠ task
  | .postEnds t outcome mint inTime =>
      t = task → outcome.taken = true ∧ outcome.handled = true ∧
        (∃ token, mint = .ok token) ∧ inTime = true
  | _ => True

/-- A POST of the task ends. -/
def DrainInput.endsPostOf (task : Nat) : DrainInput → Bool
  | .postEnds t _ _ _ => t == task
  | _ => false

/-! ## The other tasks -/

/-- What the other tasks leave of the state of a task. -/
structure Undisturbed (task : Nat) (d d' : Drains) : Prop where
  batchSize : d'.sender.batchSize = d.sender.batchSize
  texts : d'.texts.Sublist d.texts
  task : d'.tasks[task]? = d.tasks[task]?

theorem Undisturbed.refl (task : Nat) (d : Drains) : Undisturbed task d d := ⟨rfl, .refl _, rfl⟩

theorem Undisturbed.trans {task : Nat} {d d' d'' : Drains} (h : Undisturbed task d d')
    (h' : Undisturbed task d' d'') : Undisturbed task d d'' :=
  ⟨h'.batchSize.trans h.batchSize, h'.texts.trans h.texts, h'.task.trans h.task⟩

section Others

variable {json : JsonText} {task t : Nat} {d : Drains}

theorem undisturbed_set (ht : t ≠ task) (x : DrainTask) {st : TelemetryStore} {s : TelemetrySender}
    (hsize : s.batchSize = d.sender.batchSize) (htexts : st.texts.Sublist d.texts) :
    Undisturbed task d { store := st, sender := s, tasks := d.tasks.set t x } :=
  ⟨hsize, htexts, List.getElem?_set_ne ht⟩

theorem beginTick_undisturbed (ht : t ≠ task) (drain : Drain) (mint : Except Str Str) (d : Drains) :
    Undisturbed task d (beginTick json t drain mint d).1 := by
  unfold beginTick
  rcases tickBegin_texts json mint d.sender d.store with
    ⟨s', st', status, hbegin, hstatus, htexts, -, hsize⟩ | ⟨batch, hbegin, -⟩
  · have hsub : st'.texts.Sublist d.texts := by
      rw [htexts]
      exact .refl _
    rw [hbegin]
    rcases hstatus with rfl | rfl <;>
      exact undisturbed_set ht _ ((afterTick_batchSize _ _ _).trans hsize) hsub
  · rw [hbegin]
    exact undisturbed_set ht _ rfl (.refl _)

theorem endTick_undisturbed (ht : t ≠ task) (drain : Drain) (batch : List QueuedEvent)
    (outcome : PostOutcome) (mint : Except Str Str) (inTime : Bool) (d : Drains) :
    Undisturbed task d (endTick json t drain batch outcome mint inTime d).1 := by
  unfold endTick
  obtain ⟨s, st, status, acked, hend, hsize, htexts⟩ : ∃ s st status acked,
      tickEnd batch outcome d.sender d.store = (s, st, status, acked) ∧
        s.batchSize = d.sender.batchSize ∧ st.texts.Sublist d.texts := by
    rcases tickEnd_texts batch outcome d.sender d.store with
      ⟨-, status, acked, hend, -⟩ | ⟨-, s', st', status, acked, hend, -, htexts, -, hsize⟩
    · refine ⟨_, _, _, _, hend, rfl, ?_⟩
      rw [d.store.texts_ack]
      exact List.filter_sublist
    · refine ⟨_, _, _, _, hend, hsize, ?_⟩
      rw [htexts]
      exact .refl _
  rw [hend]
  dsimp only
  have hsize' : (afterTick drain.ticker status s).batchSize = d.sender.batchSize :=
    (afterTick_batchSize _ _ _).trans hsize
  cases drain.goesOn inTime status with
  | some next =>
    have hhalf : Undisturbed task d
        { d with store := st, sender := afterTick drain.ticker status s } :=
      ⟨hsize', htexts, rfl⟩
    exact hhalf.trans (beginTick_undisturbed ht next mint _)
  | none => exact undisturbed_set ht _ hsize' htexts

theorem spawn_undisturbed (hlt : task < d.tasks.length) (x : DrainTask) :
    Undisturbed task d { d with tasks := d.tasks ++ [x] } :=
  ⟨rfl, .refl _, List.getElem?_append_left hlt⟩

/-- A step of another task. -/
theorem drainStep_undisturbed {i : DrainInput} (hi : i.Beside task)
    (hnot : i.endsPostOf task = false) (hlt : task < d.tasks.length)
    (hawake : d.tasks[task]? ≠ some .sleeping) :
    Undisturbed task d (drainStep json d i).1 := by
  cases i with
  | enqueue now payload => exact absurd hi (by simp [DrainInput.Beside])
  | startForever mint =>
    exact (spawn_undisturbed hlt .sleeping).trans (beginTick_undisturbed (by omega) _ mint _)
  | startFlush mint inTime =>
    cases inTime with
    | true => exact (spawn_undisturbed hlt .ended).trans (beginTick_undisturbed (by omega) _ mint _)
    | false => exact spawn_undisturbed hlt .ended
  | wake t mint =>
    simp only [drainStep]
    split
    · rename_i hsleeping
      have ht : t ≠ task := by
        rintro rfl
        exact hawake hsleeping
      exact beginTick_undisturbed ht _ mint d
    · exact .refl task d
  | postEnds t outcome mint inTime =>
    have ht : t ≠ task := by simpa [DrainInput.endsPostOf] using hnot
    simp only [drainStep]
    split
    · exact endTick_undisturbed ht _ _ outcome mint inTime d
    · exact .refl task d
  | cancel t => exact undisturbed_set hi _ rfl (.refl _)

end Others

/-! ## The flush -/

/-- The rows that the answer to this batch will leave. -/
def Drains.behind (d : Drains) (batch : List QueuedEvent) : List (Nat × Str) :=
  (d.store.ack (batch.map (·.id))).texts

/-- Where a flush of batches of `b` stands that began on `n` rows, after `k` answers: it has
ended on an empty queue, or has sent `k` whole batches, and another. -/
structure Draining (json : JsonText) (n b task k : Nat) (d : Drains) : Prop where
  configured : d.sender.batchSize = b
  parse : AllParse json d.texts
  stands : (d.tasks[task]? = some .ended ∧ d.texts = []) ∨
    ∃ total batch, d.tasks[task]? = some (.posting (.flushNow total) batch) ∧ batch ≠ [] ∧
      k * b + batch.length + (d.behind batch).length ≤ n ∧
      (batch.length = b ∨ d.behind batch = [])

section Flush

variable {json : JsonText} {n b task k : Nat} {d : Drains}

/-- A tick of the flush begins: the queue is empty, or it sends a whole batch, or what
there is. -/
theorem beginTick_flush (hlt : task < d.tasks.length) (hb : 1 ≤ b)
    (hsize : d.sender.batchSize = b) (hparse : AllParse json d.texts) (total : Nat) (token : Str)
    (hn : d.texts = [] ∨ k * b + d.texts.length ≤ n) :
    Draining json n b task k (beginTick json task (.flushNow total) (.ok token) d).1 := by
  obtain ⟨batch, hbatch⟩ := dequeueBatch_of_allParse hparse d.sender.batchSize
  have hids := dequeueBatch_ids hbatch (by omega)
  rw [hsize, Int.toNat_natCast] at hids
  have hlen : batch.length = min b d.texts.length := by
    rw [← List.length_map (f := (·.id)), hids, List.length_map, List.length_take]
    rfl
  unfold beginTick tickBegin
  rw [hbatch]
  cases batch with
  | nil =>
    have hempty : d.texts = [] := List.length_eq_zero_iff.mp (by simp at hlen; omega)
    exact ⟨hsize, hparse, Or.inl ⟨by simp [Drain.rests, hlt], hempty⟩⟩
  | cons e es =>
    have hbehind : (d.store.ack ((e :: es).map (·.id))).texts = d.texts.drop b :=
      texts_ack_take hids
    have hrows : k * b + d.texts.length ≤ n := by
      refine hn.resolve_left fun hnil => ?_
      rw [hnil] at hlen
      simp at hlen
    refine ⟨hsize, hparse, Or.inr ⟨total, e :: es, by simp [hlt], List.cons_ne_nil e es, ?_, ?_⟩⟩
    · show k * b + (e :: es).length + (d.store.ack ((e :: es).map (·.id))).texts.length ≤ n
      rw [hbehind, List.length_drop]
      omega
    · show (e :: es).length = b ∨ (d.store.ack ((e :: es).map (·.id))).texts = []
      rw [hbehind, List.drop_eq_nil_iff]
      omega

/-- A step beside the flush. -/
theorem Draining.undisturbed {d' : Drains} (h : Draining json n b task k d)
    (ha : Undisturbed task d d') : Draining json n b task k d' where
  configured := ha.batchSize.trans h.configured
  parse := fun r hr => h.parse r (ha.texts.subset hr)
  stands := by
    rcases h.stands with ⟨hended, hempty⟩ | ⟨total, batch, hposting, hne, hsum, hwhole⟩
    · refine Or.inl ⟨ha.task.trans hended, ?_⟩
      have htexts := ha.texts
      rw [hempty] at htexts
      exact List.sublist_nil.mp htexts
    · have hbehind : (d'.behind batch).Sublist (d.behind batch) := by
        unfold Drains.behind
        rw [d.store.texts_ack, d'.store.texts_ack]
        exact ha.texts.filter _
      refine Or.inr ⟨total, batch, ha.task.trans hposting, hne, ?_, ?_⟩
      · have hle := hbehind.length_le
        omega
      · refine hwhole.imp_right fun hnil => ?_
        rw [hnil] at hbehind
        exact List.sublist_nil.mp hbehind

/-- An answer to the flush. -/
theorem Draining.answered (h : Draining json n b task k d) (hb : 1 ≤ b) {outcome : PostOutcome}
    (htaken : outcome.taken = true) (hhandled : outcome.handled = true) (token : Str) :
    Draining json n b task (k + 1)
      (drainStep json d (.postEnds task outcome (.ok token) true)).1 := by
  rcases h.stands with ⟨hended, hempty⟩ | ⟨total, batch, hposting, hne, hsum, hwhole⟩
  · have hstep : drainStep json d (.postEnds task outcome (.ok token) true) = (d, []) := by
      simp only [drainStep, hended]
    rw [hstep]
    exact ⟨h.configured, h.parse, Or.inl ⟨hended, hempty⟩⟩
  · have hlt : task < d.tasks.length := (List.getElem?_eq_some_iff.mp hposting).1
    obtain ⟨m, hm⟩ := Nat.exists_eq_succ_of_ne_zero (List.length_pos_iff.mpr hne).ne'
    obtain ⟨acked, hend⟩ : ∃ acked, tickEnd batch outcome d.sender d.store =
        (d.sender, d.store.ack (batch.map (·.id)), .returned batch.length, acked) := by
      rcases tickEnd_texts batch outcome d.sender d.store with
        ⟨-, status, acked, hend, rfl | rfl⟩ | ⟨hnot, -⟩
      · exact ⟨acked, hend⟩
      · have hraised := tickEnd_raised_iff.mp (congrArg (·.2.2.1) hend)
        rw [hhandled] at hraised
        cases hraised
      · rw [htaken] at hnot
        cases hnot
    simp only [drainStep, hposting, endTick, hend, hm, Drain.goesOn, if_true]
    let d₁ : Drains := { d with store := d.store.ack (batch.map (·.id)) }
    have hsub : d₁.texts.Sublist d.texts := by
      show (d.store.ack (batch.map (·.id))).texts.Sublist d.store.texts
      rw [d.store.texts_ack]
      exact List.filter_sublist
    refine beginTick_flush (d := d₁) hlt hb h.configured (fun r hr => h.parse r (hsub.subset hr))
      _ token ?_
    show d.behind batch = [] ∨ (k + 1) * b + (d.behind batch).length ≤ n
    rcases hwhole with hwhole | hnil
    · rw [Nat.succ_mul]
      omega
    · exact Or.inl hnil

theorem Draining.step (h : Draining json n b task k d) (hb : 1 ≤ b) {i : DrainInput}
    (hi : i.Beside task) :
    Draining json n b task (k + (i.endsPostOf task).toNat) (drainStep json d i).1 := by
  cases hpost : i.endsPostOf task with
  | true =>
    cases i with
    | postEnds t outcome mint inTime =>
      obtain rfl : t = task := by simpa [DrainInput.endsPostOf] using hpost
      obtain ⟨htaken, hhandled, ⟨token, rfl⟩, rfl⟩ := hi rfl
      exact h.answered hb htaken hhandled token
    | _ => cases hpost
  | false =>
    have hplace : task < d.tasks.length ∧ d.tasks[task]? ≠ some .sleeping := by
      rcases h.stands with ⟨hended, -⟩ | ⟨_, _, hposting, -⟩
      · exact ⟨(List.getElem?_eq_some_iff.mp hended).1, by simp [hended]⟩
      · exact ⟨(List.getElem?_eq_some_iff.mp hposting).1, by simp [hposting]⟩
    exact h.undisturbed (drainStep_undisturbed hi hpost hplace.1 hplace.2)

theorem Draining.run (h : Draining json n b task k d) (hb : 1 ≤ b) {inputs : List DrainInput}
    (hinputs : ∀ i ∈ inputs, i.Beside task) :
    Draining json n b task (k + inputs.countP (·.endsPostOf task))
      (final (drainStep json) d inputs) := by
  induction inputs generalizing k d with
  | nil => exact h
  | cons i inputs ih =>
    have hrest := ih (h.step hb (hinputs i List.mem_cons_self))
      (fun j hj => hinputs j (List.mem_cons_of_mem _ hj))
    rw [countP_cons_toNat, ← Nat.add_assoc]
    exact hrest

/-- A flush begins. -/
theorem draining_start (hb : 1 ≤ b) (hsize : d.sender.batchSize = b)
    (hparse : AllParse json d.texts) (token : Str) :
    Draining json d.texts.length b d.tasks.length 0
      (drainStep json d (.startFlush (.ok token) true)).1 :=
  beginTick_flush (d := { d with tasks := d.tasks ++ [.ended] }) (by simp) hb hsize hparse 0 token
    (Or.inr (by simp [Drains.texts]))

/-- After enough answers there is nothing left to send. -/
theorem Draining.ended (h : Draining json n b task k d) (hb : 1 ≤ b) (henough : n ⌈/⌉ b ≤ k) :
    d.tasks[task]? = some .ended ∧ d.texts = [] := by
  refine h.stands.resolve_right ?_
  rintro ⟨total, batch, -, hne, hsum, -⟩
  have hcover : n ≤ b * k := (ceilDiv_le_iff_le_mul (by omega)).mp henough
  rw [Nat.mul_comm] at hcover
  have hpos := List.length_pos_iff.mpr hne
  omega

variable (json) in
/-- No step changes the size of the batches. -/
theorem batchSize_run (d : Drains) (inputs : List DrainInput) :
    (final (drainStep json) d inputs).sender.batchSize = d.sender.batchSize := by
  have hstep : ∀ d' i, d'.sender.batchSize = d.sender.batchSize → True →
      (drainStep json d' i).1.sender.batchSize = d.sender.batchSize :=
    fun d' i h _ => (drainStep_moves json d' i).batchSize.trans h
  exact final_inv (drainStep json) hstep rfl (fun i (_ : i ∈ inputs) => trivial)

end Flush

/-- **A shutdown leaves nothing behind.** Whatever the loop and other flushes do beside it:
a flush whose own POSTs are answered 2xx, 400 or 422 in time, a rejection with a text that
can be read, while nothing is enqueued, ends after at most as many of them as there were
batches in the queue. The queue is then empty, and every event that ever entered it was in
a body that the gateway took over. -/
theorem shutdown_leaves_nothing (json : JsonText) (table : SerialTable EventRow) (maxSize : Nat)
    (b : Nat) (hb : 1 ≤ b) (flushInterval : Rat) (before during : List DrainInput) (token : Str) :
    let d₀ := Drains.openOn table maxSize b flushInterval
    let d := final (drainStep json) d₀ before
    let inputs := before ++ .startFlush (.ok token) true :: during
    let d' := final (drainStep json) d₀ inputs
    AllParse json d.texts → (∀ i ∈ during, i.Beside d.tasks.length) →
      d.texts.length ⌈/⌉ b ≤ during.countP (·.endsPostOf d.tasks.length) →
      d'.tasks[d.tasks.length]? = some .ended ∧ d'.texts = [] ∧
        ∀ r, Entered json d₀.texts (drainEvents json d₀ inputs) r →
          Shipped json Taken (drainEvents json d₀ inputs) r := by
  intro d₀ d inputs d' hparse hduring henough
  have hsize : d.sender.batchSize = b := batchSize_run json d₀ before
  have hd' : d' =
      final (drainStep json) (drainStep json d (.startFlush (.ok token) true)).1 during :=
    final_append _ _ _ _
  have hrun := (draining_start hb hsize hparse token).run hb hduring
  rw [Nat.zero_add, ← hd'] at hrun
  obtain ⟨hended, hempty⟩ := hrun.ended hb henough
  refine ⟨hended, hempty, fun r hr => ?_⟩
  have hledger : Ledger json d₀.texts (drainEvents json d₀ inputs) d' :=
    Ledger.run table maxSize b flushInterval inputs
  refine (hledger.kept r hr).resolve_left ?_
  rw [hempty]
  exact List.not_mem_nil

/-! The loop sends two of three events when the flush begins, and fails; the flush sends
them again, and then the third. -/

def loopPosting : List DrainInput :=
  [.enqueue "t0" (.obj []), .enqueue "t1" (.obj []), .enqueue "t2" (.obj []),
    .startForever (.ok "jwt")]

def flushAnswered : List DrainInput :=
  [.postEnds 0 (.transportError "") (.ok "jwt") true,
    .postEnds 1 (.response 200 "") (.ok "jwt") true, .wake 0 (.ok "jwt"),
    .postEnds 1 (.response 200 "") (.ok "jwt") true]

theorem shutdown_leaves_nothing_beside_loop :
    let d := final (drainStep demoJson) (.openOn .empty 10 2 5)
      (loopPosting ++ .startFlush (.ok "jwt") true :: flushAnswered)
    d.tasks[1]? = some .ended ∧ d.texts = [] := by
  intro d
  have htexts : ∀ r ∈ (final (drainStep demoJson) (.openOn .empty 10 2 5) loopPosting).texts,
      r.2 = "\x7b\x7d" := by decide
  have hparse : AllParse demoJson
      (final (drainStep demoJson) (.openOn .empty 10 2 5) loopPosting).texts :=
    fun r hr => ⟨.obj [], by rw [htexts r hr]; rfl⟩
  have hbeside : ∀ i ∈ flushAnswered, i.Beside 1 := by
    intro i hi
    simp only [flushAnswered, List.mem_cons, List.not_mem_nil, or_false] at hi
    rcases hi with rfl | rfl | rfl | rfl
    · exact fun h => absurd h (by decide)
    · exact fun _ => ⟨rfl, rfl, ⟨"jwt", rfl⟩, rfl⟩
    · trivial
    · exact fun _ => ⟨rfl, rfl, ⟨"jwt", rfl⟩, rfl⟩
  obtain ⟨hended, hempty, -⟩ := shutdown_leaves_nothing demoJson .empty 10 2 (by decide) 5
    loopPosting flushAnswered "jwt" hparse hbeside (by decide)
  exact ⟨hended, hempty⟩

end TrustModelEdge.Telemetry
