/-
TrustModelEdge.Routes.TrailTheorems — the audit trail from a decide call to
the gateway, over every interleaving of calls, drains and restarts of a pod.

Two directions. `posted_genuine`: what the gateway is sent is the event of a
call that passed, and it names the agent of the client whose token the call
carried. `evaluated_trailed`: a verdict of the policy that a caller got has
its event in the queue or in a body the gateway took over, unless the queue
was full. The rows are accounted for by the `Ledger` of the drains, which a
restart keeps; `Sourced` adds where the rows came from.
-/
import TrustModelEdge.Routes.PodTheorems
import TrustModelEdge.Telemetry.DrainTheorems

namespace TrustModelEdge.Routes

open Py Policy OAuth Engine Telemetry Lib

/-! ## What a call hands to the queue -/

section Calls

variable [PyRuntime] (hash : HashLib) (cfg : Settings) (jwt : JwtLib)

/-- The call passes with these claims, evaluates this policy, and its audit event is
`event`. -/
structure Audits (app : AppState) (c : DecideCall) (claims : AgentTokenClaims)
    (compiled : CompiledPolicy) (event : AuditEvent) : Prop where
  passes : (requireAgentToken jwt cfg c.disk c.readings.verifiedAt app c.authorization).2 =
    .ok claims
  found : routed cfg c.cache c.body = some compiled
  fresh : (staleAt cfg c).isStale = false
  built : auditEvent hash cfg c.readings (callerAgentId claims c.body) c.body compiled
    (evaluate c.readings.evaluateMs compiled c.body.input) = .ok event

variable {hash cfg jwt}

/-- A call hands over the event of its evaluation, or it hands over nothing and
does not answer with a verdict of the policy. -/
theorem decide_trail (enqueue : AuditEvent → Except Exc Bool) (app : AppState) (c : DecideCall) :
    let o := decide hash cfg jwt enqueue c.disk c.cache c.readings app c.authorization c.body
    (∃ claims compiled event, Audits hash cfg jwt app c claims compiled event ∧
        enqueued o.effects = [event] ∧
        o.reply = (uncaught (enqueue event)).map (fun _ =>
          evaluatedResponse compiled (evaluate c.readings.evaluateMs compiled c.body.input))) ∨
      enqueued o.effects = [] ∧ ∀ resp, o.reply = .ok resp → resp.stale = true := by
  intro o
  simp only [o]
  cases hck : (requireAgentToken jwt cfg c.disk c.readings.verifiedAt app c.authorization).2 with
  | error f =>
    rw [decide_of_refused hck]
    exact Or.inr ⟨rfl, by simp⟩
  | ok claims =>
    rw [decide_of_authorised hck]
    cases situation cfg c.cache c.readings.checkedAt c.body with
    | nameMissing name hreq hmiss =>
      rw [answer_of_missing hreq hmiss]
      exact Or.inr ⟨rfl, by simp⟩
    | cold hreq hnone =>
      rw [answer_of_cold hreq hnone]
      right
      cases hm : cfg.policyFailMode with
      | closed => simp [answerCold, hm, enqueued]
      | open_ =>
        refine ⟨by simp [answerCold, hm, enqueued], ?_⟩
        intro resp h
        simp only [answerCold, hm, Except.ok.injEq] at h
        rw [← h]
    | stale compiled hfound hstale =>
      rw [answer_of_stale hfound hstale]
      refine Or.inr ⟨rfl, ?_⟩
      intro resp h
      simp only [answerStale] at h
      split at h
      · simp at h
      · rw [← Except.ok.inj h]
    | fresh compiled hfound hfresh =>
      rw [answer_of_fresh hfound hfresh]
      cases hev : auditEvent hash cfg c.readings (callerAgentId claims c.body) c.body compiled
          (evaluate c.readings.evaluateMs compiled c.body.input) with
      | error e =>
        rw [answerFresh_unbuilt hev]
        exact Or.inr ⟨rfl, by simp⟩
      | ok event =>
        left
        refine ⟨claims, compiled, event, ⟨hck, hfound, hfresh, hev⟩, ?_⟩
        rw [answerFresh_built hev]
        exact ⟨by simp [enqueued, counted], rfl⟩

/-- The event tells what the response says. -/
structure Tells (event : AuditEvent) (body : DecideRequest) (resp : DecideResponse) : Prop where
  verdict : event.decision = resp.verdict
  rule : event.evidence.ruleId = resp.ruleId
  reason : event.reason = resp.reason
  redactions : event.evidence.redactions = resp.redactions
  tags : event.evidence.frameworkTags = resp.matchedFrameworkTags
  policy : resp.policyId = some event.policyId
  tool : event.actionType = body.tool

theorem Audits.tells {app : AppState} {c : DecideCall} {claims : AgentTokenClaims}
    {compiled : CompiledPolicy} {event : AuditEvent}
    (h : Audits hash cfg jwt app c claims compiled event) :
    Tells event c.body
      (evaluatedResponse compiled (evaluate c.readings.evaluateMs compiled c.body.input)) := by
  obtain ⟨subject, -, hbuilt⟩ := bind_eq_ok.mp h.built
  obtain ⟨tenantBytes, -, hbuilt⟩ := bind_eq_ok.mp hbuilt
  cases hbuilt
  exact ⟨rfl, rfl, rfl, rfl, rfl, rfl, rfl⟩

end Calls

/-! ## Whose agent an event names -/

/-- The agent id that the record of a client gives, or else the body. -/
def attributedTo (client : AuthorizedClient) (body : DecideRequest) : Str :=
  match client.agentId with
  | some (c :: cs) => c :: cs
  | _ => body.agentId.getD []

theorem auditEvent_agentId {hash : HashLib} {cfg : Settings} {rd : Readings} {agentId : Json}
    {body : DecideRequest} {compiled : CompiledPolicy} {result : EvaluationResult}
    {event : AuditEvent} (h : auditEvent hash cfg rd agentId body compiled result = .ok event) :
    event.agentId = orEmpty agentId := by
  obtain ⟨subject, -, h⟩ := bind_eq_ok.mp h
  obtain ⟨tenantBytes, -, h⟩ := bind_eq_ok.mp h
  cases h
  rfl

theorem truthy_str (s : Str) : (Json.str s).truthy = !s.isEmpty := by
  simp [Json.truthy]

theorem orEmpty_optStr (s : Option Str) : orEmpty (optStr s) = .str (s.getD []) := by
  cases s with
  | none => rfl
  | some a => cases a <;> simp [orEmpty, optStr, truthy_str]

/-- The event of a call that passes as a client names the agent of the client. -/
theorem agentId_of_audits [PyRuntime] {hash : HashLib} {cfg : Settings} {jwt : JwtLib}
    {app : AppState} {c : DecideCall} {v : World} {client : AuthorizedClient}
    {granted : List Str} {compiled : CompiledPolicy} {event : AuditEvent}
    (h : Audits hash cfg jwt app c (v.claims client granted) compiled event) :
    event.agentId = .str (attributedTo client c.body) := by
  rw [auditEvent_agentId h.built]
  have hclaim : (v.claims client granted).agentId = optStr client.agentId := rfl
  unfold callerAgentId attributedTo
  rw [hclaim]
  cases hc : client.agentId with
  | none => exact orEmpty_optStr c.body.agentId
  | some a =>
    have hopt : optStr (some a) = .str a := rfl
    rw [hopt, truthy_str]
    cases a with
    | nil => exact orEmpty_optStr c.body.agentId
    | cons x xs => simp [orEmpty, truthy_str]

/-! ## The rows over restarts -/

section Rows

variable {json : JsonText} {initial : List (Nat × Str)} {es es' : List DrainEvent} {d d' : Drains}

/-- What is in the rows and what was sent had entered the store. -/
structure Sourced (json : JsonText) (initial : List (Nat × Str)) (es : List DrainEvent)
    (d : Drains) : Prop where
  rows : ∀ r ∈ d.texts, Entered json initial es r
  posted : ∀ task batch, .posted task batch ∈ es → ∀ e ∈ batch,
    ∃ r, Entered json initial es r ∧ Telemetry.Reads json r e

theorem entered_append {r : Nat × Str} (h : Entered json initial es r) (more : List DrainEvent) :
    Entered json initial (es ++ more) r := by
  rcases h with h | ⟨payload, hmem, hdump⟩
  · exact Or.inl h
  · exact Or.inr ⟨payload, List.mem_append_left _ hmem, hdump⟩

theorem Sourced.move (h : Sourced json initial es d) (hm : DrainMove json d es' d') :
    Sourced json initial (es ++ es') d' := by
  -- what was sent before keeps its source; a move sends rows only
  have hposted : (∀ task batch, .posted task batch ∈ es' → ∀ e ∈ batch,
      ∃ r ∈ d.texts, Telemetry.Reads json r e) → ∀ task batch, .posted task batch ∈ es ++ es' →
      ∀ e ∈ batch, ∃ r, Entered json initial (es ++ es') r ∧ Telemetry.Reads json r e := by
    intro hnew task batch hmem e he
    rcases List.mem_append.mp hmem with hmem | hmem
    · obtain ⟨r, hr, hre⟩ := h.posted task batch hmem e he
      exact ⟨r, entered_append hr es', hre⟩
    · obtain ⟨r, hr, hre⟩ := hnew task batch hmem e he
      exact ⟨r, entered_append (h.rows r hr) es', hre⟩
  cases hm with
  | accept payload htexts hseq htasks =>
    refine ⟨?_, hposted (by simp)⟩
    intro r hr
    rw [htexts] at hr
    rcases List.mem_append.mp hr with hr | hr
    · exact entered_append (h.rows r hr) _
    · rw [List.mem_singleton.mp hr]
      exact Or.inr ⟨payload, by simp, rfl⟩
  | idle _ htexts hseq htasks hidle =>
    refine ⟨fun r hr => entered_append (h.rows r (htexts ▸ hr)) _, hposted ?_⟩
    intro task batch hmem
    exact absurd (hidle _ hmem) (by simp [DrainEvent.Idle])
  | post task batch htexts hseq hfront hreads htasks =>
    refine ⟨fun r hr => entered_append (h.rows r (htexts ▸ hr)) _, hposted ?_⟩
    intro task' batch' hmem e he
    simp only [List.mem_singleton, DrainEvent.posted.injEq] at hmem
    obtain ⟨r, hr, hre⟩ := exists_row_of_reads hreads e (hmem.2 ▸ he)
    exact ⟨r, hfront ▸ List.mem_append_left _ hr, hre⟩
  | take task batch outcome ticker status hposting htaken hstatus htexts hseq htasks =>
    refine ⟨?_, hposted (by simp)⟩
    intro r hr
    rw [htexts] at hr
    exact entered_append (h.rows r (List.mem_filter.mp hr).1) _

/-- The account of the rows: where they came from, and where they went. -/
structure Trail (json : JsonText) (initial : List (Nat × Str)) (es : List DrainEvent)
    (d : Drains) : Prop where
  ledger : Ledger json initial es d
  sourced : Sourced json initial es d

theorem Trail.step (h : Trail json initial es d) (i : DrainInput) :
    Trail json initial (es ++ (drainStep json d i).2) (drainStep json d i).1 := by
  refine ⟨h.ledger.step i, ?_⟩
  obtain ⟨d₁, es₁, es₂, h₁, h₂, he, -⟩ := (drainStep_moves json d i).moves
  rw [he, ← List.append_assoc]
  exact (h.sourced.move h₁).move h₂

theorem Trail.steps (h : Trail json initial es d) (is : List DrainInput) :
    Trail json initial (es ++ drainEvents json d is) (final (drainStep json) d is) := by
  induction is generalizing es d with
  | nil => simpa [drainEvents] using h
  | cons i is ih => simpa [drainEvents] using ih (h.step i)

/-- A restart forgets the batches that are held, and no row. -/
theorem Trail.reopen (h : Trail json initial es d) (maxSize : Nat) (batchSize : Int)
    (flushInterval : Rat) :
    Trail json initial es (.openOn d.store.table maxSize batchSize flushInterval) := by
  have hheld : ∀ task batch, ¬ Drains.Posting
      (.openOn d.store.table maxSize batchSize flushInterval) task batch := by
    rintro task batch ⟨drain, hp⟩
    simp [Drains.openOn] at hp
  exact ⟨⟨fun task batch hp => absurd hp (hheld task batch), h.ledger.kept, h.ledger.gone,
    h.ledger.once⟩, ⟨h.sourced.rows, h.sourced.posted⟩⟩

theorem Trail.openOn (table : SerialTable EventRow) (maxSize : Nat) (batchSize : Int)
    (flushInterval : Rat) :
    let d₀ := Drains.openOn table maxSize batchSize flushInterval
    Trail json d₀.texts [] d₀ :=
  ⟨.openOn table maxSize batchSize flushInterval, fun _ hr => Or.inl hr, by simp⟩

/-- A drain accepts no event. -/
theorem accepted_drainStep {id : Nat} {payload : Json} {i : DrainInput}
    (h : .accepted id payload ∈ (drainStep json d i).2) :
    ∃ now, i = .enqueue now payload := by
  have hrests : ∀ drain status, DrainEvent.accepted id payload ∉ (Drain.rests drain status).2 := by
    intro drain status
    cases drain <;> cases status <;> simp [Drain.rests]
  have hticks : ∀ ticker status, DrainEvent.accepted id payload ∉ tickEvents ticker status := by
    intro ticker status
    cases status <;> simp [tickEvents]
  have hbegin : ∀ task drain mint d, DrainEvent.accepted id payload ∉
      (beginTick json task drain mint d).2 := by
    intro task drain mint d
    unfold beginTick
    split <;> simp [hrests, hticks]
  have hend : ∀ task drain batch outcome mint inTime d, DrainEvent.accepted id payload ∉
      (endTick json task drain batch outcome mint inTime d).2 := by
    intro task drain batch outcome mint inTime d
    simp only [endTick]
    split <;> simp [hrests, hticks, hbegin]
  cases i with
  | enqueue now payload' =>
    simp only [drainStep] at h
    split at h
    · simp only [List.mem_singleton, DrainEvent.accepted.injEq] at h
      exact ⟨now, by rw [h.2]⟩
    · simp at h
  | startForever mint => exact absurd h (hbegin _ _ _ _)
  | startFlush mint inTime =>
    simp only [drainStep] at h
    split at h
    · exact absurd h (hbegin _ _ _ _)
    · simp at h
  | wake task mint =>
    simp only [drainStep] at h
    split at h
    · exact absurd h (hbegin _ _ _ _)
    · simp at h
  | postEnds task outcome mint inTime =>
    simp only [drainStep] at h
    split at h
    · exact absurd h (hend _ _ _ _ _ _ _)
    · simp at h
  | cancel task => simp [drainStep] at h

end Rows

/-! ## The trail of a pod -/

/-- A decide call of the process as it stands. -/
def World.call (w : World) (authorization : Str) (body : DecideRequest) (rd : Readings) :
    DecideCall where
  disk := w.disk
  cache := w.cache
  readings := { rd with verifiedAt := w.now, checkedAt := w.now }
  authorization := authorization
  body := body

section Pods

variable [PyRuntime] (lib : Libraries)

/-- The drains of a pod step as drains, or are replaced by drains on the same rows. -/
theorem drains_step (p : Pod) (ev : PodEvent) :
    (∃ is, (podStep lib p ev).1.drains = final (drainStep lib.json) p.drains is ∧
        (podStep lib p ev).2.events = drainEvents lib.json p.drains is) ∨
      ∃ maxSize batchSize flushInterval, (podStep lib p ev).1.drains =
          .openOn p.drains.store.table maxSize batchSize flushInterval ∧
        (podStep lib p ev).2.events = [] := by
  cases ev with
  | decide authorization body rd storedAt fault => exact Or.inl ⟨_, rfl, rfl⟩
  | serve e h => exact Or.inl ⟨[], rfl, rfl⟩
  | drain i h => exact Or.inl ⟨[i], rfl, by simp [podStep, drainEvents]⟩
  | restart s => exact Or.inr ⟨_, _, _, rfl, rfl⟩

theorem trail_run (s : Startup) (disk : Disk) (now : Seconds) (table : SerialTable EventRow)
    (evs : List PodEvent) :
    let start := Pod.start s disk now table
    Trail lib.json start.drains.texts (podEvents lib start evs)
      (final (podStep lib) start evs).drains := by
  intro start
  have hstart : Trail lib.json start.drains.texts [] start.drains :=
    .openOn table s.maxSize s.batchSize s.flushInterval
  refine trace_inv (podStep lib) (R := fun os p => Trail lib.json start.drains.texts
    (os.flatMap (·.events)) p.drains) (P := fun _ => True) ?_ hstart (by simp)
  intro os p ev h _
  rw [List.flatMap_append, List.flatMap_singleton]
  rcases drains_step lib p ev with ⟨is, hd, he⟩ | ⟨maxSize, batchSize, flushInterval, hd, he⟩
  · rw [hd, he]
    exact h.steps is
  · rw [hd, he, List.append_nil]
    exact h.reopen maxSize batchSize flushInterval

variable {lib}

/-- What a step of a pod accepts is the event of a decide call that it makes. -/
theorem accepted_step {p : Pod} {ev : PodEvent} {id : Nat} {payload : Json}
    (h : .accepted id payload ∈ (podStep lib p ev).2.events) :
    ∃ authorization body rd storedAt claims compiled event,
      ev = .decide authorization body rd storedAt none ∧
      Audits lib.hash p.world.settings lib.jwt p.world.app (p.world.call authorization body rd)
        claims compiled event ∧ payload = event.toDict := by
  cases ev with
  | serve e he => simp [podStep] at h
  | restart s => simp [podStep] at h
  | drain i hi =>
    obtain ⟨now, rfl⟩ := accepted_drainStep h
    simp [isEnqueue] at hi
  | decide authorization body rd storedAt fault =>
    simp only [podStep, drainEvents, List.mem_flatten] at h
    obtain ⟨es, hes, hmem⟩ := h
    obtain ⟨front, i, hpre, rfl⟩ := (mem_trace_iff _).mp hes
    obtain ⟨now, rfl⟩ := accepted_drainStep hmem
    have hcall : DrainInput.enqueue now payload ∈ enqueues storedAt fault
        (p.decide lib authorization body rd storedAt fault).effects :=
      hpre.subset (by simp)
    cases fault with
    | some e => simp [enqueues] at hcall
    | none =>
      simp only [enqueues, List.mem_map, DrainInput.enqueue.injEq] at hcall
      obtain ⟨event, hevent, -, rfl⟩ := hcall
      rcases decide_trail (p.enqueueEnds lib.json storedAt none) p.world.app
        (p.world.call authorization body rd) with
        ⟨claims, compiled, event', haudits, heffects, -⟩ | ⟨hnone, -⟩
      · obtain rfl : event = event' := List.mem_singleton.mp (heffects ▸ hevent)
        exact ⟨authorization, body, rd, storedAt, claims, compiled, event, rfl, haudits, rfl⟩
      · exact absurd (hnone ▸ hevent) List.not_mem_nil

/-- The event is that of a call which passed with a token that one of the steps
minted, and it names the agent of the client the token was minted for. -/
def Vouches (lib : Libraries) (steps : List (World × Event)) (w : World) (c : DecideCall)
    (event : AuditEvent) : Prop :=
  ∃ v ∈ steps, ∃ token pub client granted compiled, bearerToken c.authorization = .ok token ∧
    MintedFor lib v pub token client granted ∧ (w.now : Rat) < v.1.expiry ∧
    Audits lib.hash w.settings lib.jwt w.app c (v.1.claims client granted) compiled event ∧
    event.agentId = .str (attributedTo client c.body)

/-- The signatures that the processes of these steps made. -/
def signatures (lib : Libraries) (vs : List (Pod × PodEvent)) : List (Signature Str Str Json) :=
  (processSteps vs).filterMap (signature lib)

/-- No call of the run presents a token that is signed only later. -/
def SignedFirst (lib : Libraries) (start : Pod) (evs : List PodEvent) : Prop :=
  ∀ front authorization body rd storedAt fault token,
    front ++ [.decide authorization body rd storedAt fault] <+: evs →
    bearerToken authorization = .ok token →
    ∀ s ∈ signatures lib (visits (podStep lib) start evs), s.token = token →
      s ∈ signatures lib (visits (podStep lib) start front)

/-- **What is sent is genuine.** In every run of a pod, whatever a drain sends is what
the text of a row parses to, and the row was in the file from the start or is
the audit event of a decide call made before: the call passed with a token
minted before it, by whichever process, for a client that was allowed
`govern:enforce`, and the event names the agent of that client. -/
theorem posted_genuine (s : Startup) (disk : Disk) (now : Seconds)
    (table : SerialTable EventRow) (evs : List PodEvent)
    (hsig : Rs256 lib (processSteps (visits (podStep lib) (.start s disk now table) evs)))
    (hfirst : SignedFirst lib (.start s disk now table) evs)
    (task : Nat) (batch : List QueuedEvent)
    (hposted : .posted task batch ∈ podEvents lib (.start s disk now table) evs) :
    ∀ e ∈ batch, (∃ r ∈ (Pod.start s disk now table).drains.texts, Telemetry.Reads lib.json r e) ∨
      ∃ front authorization body rd storedAt event,
        front ++ [.decide authorization body rd storedAt none] <+: evs ∧
        lib.json.loads (lib.json.dumps event.toDict) = .ok e.payload ∧
        let w := (final (podStep lib) (.start s disk now table) front).world
        Vouches lib (processSteps (visits (podStep lib) (.start s disk now table) front)) w
          (w.call authorization body rd) event := by
  intro e he
  obtain ⟨r, hentered, hreads⟩ :=
    (trail_run lib s disk now table evs).sourced.posted task batch hposted e he
  rcases hentered with hr | ⟨payload, hacc, hdump⟩
  · exact Or.inl ⟨r, hr, hreads⟩
  · right
    obtain ⟨o, ho, hmem⟩ := List.mem_flatMap.mp hacc
    obtain ⟨front, ev, hpre, rfl⟩ := (mem_trace_iff _).mp ho
    obtain ⟨authorization, body, rd, storedAt, claims, compiled, event, rfl, haudits, rfl⟩ :=
      accepted_step hmem
    obtain ⟨token, pub, hb, -, hverified, hscope⟩ := requireAgentToken_ok_iff.mp haudits.passes
    -- the signature is in the log of the run, hence in that of the steps before the call
    obtain ⟨sig, hsigned, rfl, hvalid, hread, hderived⟩ := text_of_verified hsig hverified
    have hbefore := hfirst front authorization body rd storedAt none _ hpre hb sig hsigned rfl
    obtain ⟨v, hv, hsv⟩ := List.mem_filterMap.mp hbefore
    obtain ⟨client, granted, hm, hexp, rfl⟩ :=
      mintedFor_of_signature hsv hvalid hread hscope hderived
    exact ⟨front, authorization, body, rd, storedAt, event, hpre, by rw [hdump]; exact hreads.2,
      v, hv, sig.token, pub, client, granted, compiled, hb, hm, hexp, haudits,
      agentId_of_audits haudits⟩

/-- A verdict of the policy comes with its event: appended, unless the queue is full. -/
theorem evaluated_step {p : Pod} {authorization : Str} {body : DecideRequest} {rd : Readings}
    {storedAt : Str} {fault : Option Exc} {resp : DecideResponse}
    (hreply : (p.decide lib authorization body rd storedAt fault).reply = .ok resp)
    (hfresh : resp.stale = false) :
    ∃ event, Tells event body resp ∧ (p.drains.store.maxSize ≤ p.drains.store.count ∨
      ∃ id, .accepted id event.toDict ∈
        (podStep lib p (.decide authorization body rd storedAt fault)).2.events) := by
  rcases decide_trail (p.enqueueEnds lib.json storedAt fault) p.world.app
    (p.world.call authorization body rd) with
    ⟨claims, compiled, event, haudits, heffects, hr⟩ | ⟨-, hstale⟩
  · have hreply' := hr.symm.trans hreply
    cases fault with
    | some e => simp [Pod.enqueueEnds, uncaught, Except.map] at hreply'
    | none =>
      obtain rfl : _ = resp := Except.ok.inj hreply'
      refine ⟨event, haudits.tells, ?_⟩
      by_cases hfull : p.drains.store.maxSize ≤ p.drains.store.count
      · exact Or.inl hfull
      · right
        have hcalls : enqueues storedAt none
            (p.decide lib authorization body rd storedAt none).effects =
              [.enqueue storedAt event.toDict] := by
          simp only [enqueues]
          exact congrArg (List.map _) heffects
        refine ⟨p.drains.store.table.seq + 1, ?_⟩
        simp only [podStep, hcalls, drainEvents, trace_cons, trace_nil]
        simp [drainStep, TelemetryStore.enqueue, hfull]
  · rw [hstale resp hreply] at hfresh
    simp at hfresh

/-- **Verdicts leave a trail.** In every run of a pod whose queue is intact at each
restart and takes every `ack`, a verdict of the policy that was returned to a caller
has an event that tells it, and unless the queue was full its row is still queued, or
was in a body that the gateway answered 2xx, 400 or 422; and what was in such a body
is never sent again, restarts included. -/
theorem evaluated_trailed (s : Startup) (disk : Disk) (now : Seconds)
    (table : SerialTable EventRow) (evs : List PodEvent) :
    let start := Pod.start s disk now table
    let es := podEvents lib start evs
    (∀ front authorization body rd storedAt fault resp,
      front ++ [.decide authorization body rd storedAt fault] <+: evs →
      let p := final (podStep lib) start front
      (p.decide lib authorization body rd storedAt fault).reply = .ok resp →
      resp.stale = false →
      ∃ event, Tells event body resp ∧ (p.drains.store.maxSize ≤ p.drains.store.count ∨
        ∃ id, let r := (id, lib.json.dumps event.toDict)
          r ∈ (final (podStep lib) start evs).drains.texts ∨ Shipped lib.json Taken es r)) ∧
      es.Pairwise NotAgain := by
  intro start es
  have htrail : Trail lib.json start.drains.texts es (final (podStep lib) start evs).drains :=
    trail_run lib s disk now table evs
  refine ⟨?_, htrail.ledger.once⟩
  intro front authorization body rd storedAt fault resp hpre p hreply hfresh
  obtain ⟨event, htells, hfull | ⟨id, hacc⟩⟩ := evaluated_step hreply hfresh
  · exact ⟨event, htells, Or.inl hfull⟩
  · have hmem : .accepted id event.toDict ∈ es :=
      List.mem_flatMap.mpr ⟨_, (mem_trace_iff _).mpr ⟨front, _, hpre, rfl⟩, hacc⟩
    exact ⟨event, htells, Or.inr ⟨id, htrail.ledger.kept _ (Or.inr ⟨event.toDict, hmem, rfl⟩)⟩⟩

end Pods

/-! The pod of the restart goes on: a decide call with the token, then the first drain
of the new process. -/

def mailCall : PodEvent :=
  .decide demoAuthorization demoBody demoReadings "1970-01-01T00:16:40+00:00" none

def trailRun : List PodEvent :=
  restartRun ++ [mailCall, .drain (.startForever (.ok "jwt")) rfl]

theorem trailRun_signatures :
    @signatures asciiRuntime mailLibraries
      (visits (@podStep asciiRuntime mailLibraries) demoPod trailRun) = [demoSignature] := by
  have hsteps : processSteps (visits (@podStep asciiRuntime mailLibraries) demoPod trailRun) =
      processSteps (visits (@podStep asciiRuntime mailLibraries) demoPod restartRun) ++
        [((final (@podStep asciiRuntime mailLibraries) demoPod restartRun).world,
          .decide demoAuthorization demoBody demoReadings (.ok true))] := rfl
  unfold signatures
  rw [hsteps, List.filterMap_append, restartRun_signatures]
  rfl

theorem trailRun_signed :
    @Rs256 asciiRuntime mailLibraries
      (processSteps (visits (@podStep asciiRuntime mailLibraries) demoPod trailRun)) := by
  refine @Rs256.mk asciiRuntime _ _ demoPublicPem_sound fun now => ?_
  have h := trailRun_signatures
  unfold signatures at h
  rw [h]
  exact demoJwt_verifies now

/-- The one decide call comes after the one signature. -/
theorem trailRun_signedFirst : @SignedFirst asciiRuntime mailLibraries demoPod trailRun := by
  intro front authorization body rd storedAt fault token hpre _ s hs _
  rw [trailRun_signatures] at hs
  have hfront : front = restartRun := by
    obtain ⟨rest, hrest⟩ := hpre
    rcases front with _ | ⟨e₁, _ | ⟨e₂, _ | ⟨e₃, _ | ⟨e₄, front⟩⟩⟩⟩ <;>
      simp_all [trailRun, restartRun, mailCall]
  rw [hfront]
  unfold signatures
  rw [restartRun_signatures]
  exact hs

/-- The ids of a body that task 0 sent. -/
def postedIds : DrainEvent → Option (List Nat)
  | .posted 0 batch => some (batch.map (·.id))
  | _ => none

theorem exists_posted {es : List DrainEvent} {ids : List Nat}
    (h : ids ∈ es.filterMap postedIds) :
    ∃ batch, .posted 0 batch ∈ es ∧ batch.map (·.id) = ids := by
  obtain ⟨ev, hev, heq⟩ := List.mem_filterMap.mp h
  unfold postedIds at heq
  split at heq
  · exact ⟨_, hev, Option.some.inj heq⟩
  · simp at heq

theorem trailRun_posts : ∃ batch, .posted 0 batch ∈
    @podEvents asciiRuntime mailLibraries demoPod trailRun ∧ batch.map (·.id) = [1] := by
  have hshown : (@podEvents asciiRuntime mailLibraries demoPod trailRun).filterMap postedIds =
      [[1]] := by decide +kernel
  exact exists_posted (by rw [hshown]; exact List.mem_singleton_self _)

/-- The body of the drain is genuine. -/
theorem posted_genuine_mail :
    ∃ batch : List QueuedEvent, batch.map (·.id) = [1] ∧
      ∀ e ∈ batch, (∃ r ∈ demoPod.drains.texts, Telemetry.Reads mailLibraries.json r e) ∨
        ∃ front authorization body rd storedAt event,
          front ++ [.decide authorization body rd storedAt none] <+: trailRun ∧
          mailLibraries.json.loads (mailLibraries.json.dumps event.toDict) = .ok e.payload ∧
          let w := (final (@podStep asciiRuntime mailLibraries) demoPod front).world
          @Vouches asciiRuntime mailLibraries
            (processSteps (visits (@podStep asciiRuntime mailLibraries) demoPod front)) w
            (w.call authorization body rd) event := by
  obtain ⟨batch, hposted, hids⟩ := trailRun_posts
  exact ⟨batch, hids, @posted_genuine asciiRuntime mailLibraries demoStartup demoWorld.disk
    demoWorld.now .empty trailRun trailRun_signed trailRun_signedFirst 0 batch hposted⟩

theorem mailCall_reply : ∃ resp, (@Pod.decide asciiRuntime mailLibraries
    (final (@podStep asciiRuntime mailLibraries) demoPod restartRun) demoAuthorization demoBody
    demoReadings "1970-01-01T00:16:40+00:00" none).reply = .ok resp ∧ resp.stale = false := by
  have hshown : (@Pod.decide asciiRuntime mailLibraries
      (final (@podStep asciiRuntime mailLibraries) demoPod restartRun) demoAuthorization demoBody
      demoReadings "1970-01-01T00:16:40+00:00" none).reply.toOption.map (·.stale) =
        some false := by decide +kernel
  obtain ⟨resp, hresp, hfresh⟩ := Option.map_eq_some_iff.mp hshown
  exact ⟨resp, toOption_eq_some.mp hresp, hfresh⟩

/-- The queue has room, so the verdict of the call has its event in the trail. -/
theorem evaluated_trailed_mail :
    let p := final (@podStep asciiRuntime mailLibraries) demoPod restartRun
    ∃ resp event, (@Pod.decide asciiRuntime mailLibraries p demoAuthorization demoBody
        demoReadings "1970-01-01T00:16:40+00:00" none).reply = .ok resp ∧
      Tells event demoBody resp ∧
        ∃ id, let r := (id, mailLibraries.json.dumps event.toDict)
          r ∈ (final (@podStep asciiRuntime mailLibraries) demoPod trailRun).drains.texts ∨
            Shipped mailLibraries.json Taken
              (@podEvents asciiRuntime mailLibraries demoPod trailRun) r := by
  intro p
  have hroom : ¬ p.drains.store.maxSize ≤ p.drains.store.count := by decide +kernel
  obtain ⟨resp, hreply, hfresh⟩ := mailCall_reply
  have hpre : restartRun ++ [mailCall] <+: trailRun :=
    ⟨[.drain (.startForever (.ok "jwt")) rfl], rfl⟩
  obtain ⟨event, htells, htrail⟩ := (@evaluated_trailed asciiRuntime mailLibraries demoStartup
    demoWorld.disk demoWorld.now .empty trailRun).1 restartRun demoAuthorization demoBody
    demoReadings "1970-01-01T00:16:40+00:00" none resp hpre hreply hfresh
  exact ⟨resp, event, hreply, htells, htrail.resolve_left hroom⟩

end TrustModelEdge.Routes
