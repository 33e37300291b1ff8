/-
TrustModelEdge.Routes.AuditTheorems — the audit trail of `decide`, and what
the response owes to it.

The handler calls `enqueue` on one branch only, after evaluating a fresh
policy, and does not catch what it raises. So a verdict of the fail mode
leaves no event, and a storage error turns a verdict into a 500:

  * `audit_complete_iff` — when exactly a call is accounted for in the
    audit trail, at every step of every run of calls;
  * `same_response_iff` — when exactly two outcomes of `enqueue` give one
    response.
-/
import TrustModelEdge.Lib.Machine
import TrustModelEdge.Routes.DecideTheorems

namespace TrustModelEdge.Routes

open Py Policy OAuth Engine Telemetry Lib

/-! ## Audit completeness -/

/-- One call of `decide`, with what it meets outside the application state. -/
structure DecideCall where
  disk : Disk
  cache : PolicyCache
  readings : Readings
  authorization : Str
  body : DecideRequest

/-- A call and how its `enqueue` ends, if it gets that far. -/
structure StoredCall extends DecideCall where
  stored : Except Exc Bool

/-- The events handed to the queue. -/
def enqueued (effects : List Effect) : List AuditEvent :=
  effects.filterMap fun
    | .enqueue event => some event
    | _ => none

/-- A 200 comes with exactly one event, which tells the verdict, the tool and
the rule; any other reply comes with none. -/
structure AuditComplete (body : DecideRequest) (effects : List Effect)
    (reply : Except Failure DecideResponse) : Prop where
  answered : statusOf reply = 200 → ∃ resp event, reply = .ok resp ∧
    enqueued effects = [event] ∧ event.decision = resp.verdict ∧
    event.actionType = body.tool ∧ event.evidence.ruleId = resp.ruleId
  failed : statusOf reply ≠ 200 → enqueued effects = []

/-- The audit event of a request can be built: what is turned into bytes for it
has no lone surrogate. -/
def EventBuilds (cfg : Settings) (body : DecideRequest) : Prop :=
  Encodes cfg.tenantId ∧
    (cfg.telemetryOmitPayload = true → body.subject.getD [] ≠ [] →
      cfg.telemetrySubjectHashKey ≠ [] →
      Encodes cfg.telemetrySubjectHashKey ∧ Encodes (body.subject.getD []))

section Events

variable (hash : HashLib) (cfg : Settings) (rd : Readings) (agentId : Json)
  (body : DecideRequest) (compiled : CompiledPolicy) (result : EvaluationResult)

theorem hashSubject_ok_iff {subject : Option Str} {key : Str} :
    (∃ s, hashSubject hash subject key = .ok s) ↔
      (subject.getD [] ≠ [] → key ≠ [] → Encodes key ∧ Encodes (subject.getD [])) := by
  unfold hashSubject
  by_cases hs : subject.getD [] = []
  · simp [hs]
  · by_cases hk : key = []
    · simp [hk]
    · by_cases h1 : Encodes key
      · by_cases h2 : Encodes (subject.getD [])
        · simp [hs, hk, h1, h2, encode_of_encodes, bind, Except.bind, pure, Except.pure]
        · simp [hs, hk, h1, h2, encode_of_encodes, encode_of_not_encodes, bind, Except.bind]
      · simp [hs, hk, h1, encode_of_not_encodes, bind, Except.bind]

theorem forwardedSubject_ok_iff :
    (∃ s, forwardedSubject hash cfg body = .ok s) ↔
      (cfg.telemetryOmitPayload = true → body.subject.getD [] ≠ [] →
        cfg.telemetrySubjectHashKey ≠ [] →
        Encodes cfg.telemetrySubjectHashKey ∧ Encodes (body.subject.getD [])) := by
  unfold forwardedSubject
  cases ho : cfg.telemetryOmitPayload with
  | false => simp
  | true =>
    rw [if_pos rfl, ← hashSubject_ok_iff hash]
    cases hashSubject hash body.subject cfg.telemetrySubjectHashKey <;> simp [Except.map]

theorem auditEvent_ok_iff :
    (∃ event, auditEvent hash cfg rd agentId body compiled result = .ok event) ↔
      EventBuilds cfg body := by
  rw [EventBuilds, ← forwardedSubject_ok_iff hash cfg body]
  unfold auditEvent buildAuditEvent
  cases hf : forwardedSubject hash cfg body with
  | error e => simp [bind, Except.bind]
  | ok subject =>
    by_cases ht : Encodes cfg.tenantId
    · simp [ht, encode_of_encodes, bind, Except.bind, pure, Except.pure]
    · simp [ht, encode_of_not_encodes, bind, Except.bind]

variable {hash cfg rd agentId body compiled result}

/-- What an audit event tells about the decision. -/
theorem auditEvent_tells {event : AuditEvent}
    (h : auditEvent hash cfg rd agentId body compiled result = .ok event) :
    event.decision = result.verdict ∧ event.actionType = body.tool ∧
      event.evidence.ruleId = result.ruleId := by
  obtain ⟨subject, -, h⟩ := bind_eq_ok.mp h
  obtain ⟨tenantBytes, -, h⟩ := bind_eq_ok.mp h
  cases h
  exact ⟨rfl, rfl, rfl⟩

end Events

section Completeness

theorem auditComplete_of_error {body : DecideRequest} {effects : List Effect} {f : Failure}
    (hf : f.statusCode ≠ 200) (he : enqueued effects = []) :
    AuditComplete body effects (.error f) :=
  ⟨fun h => absurd h hf, fun _ => he⟩

theorem not_auditComplete_of_ok {body : DecideRequest} {effects : List Effect}
    {resp : DecideResponse} (he : enqueued effects = []) :
    ¬ AuditComplete body effects (.ok resp) := by
  intro h
  obtain ⟨_, event, _, hev, _⟩ := h.answered rfl
  rw [he] at hev
  simp at hev

/-- A request that finds a policy does not find the cache cold. -/
theorem not_cold_of_found {cfg : Settings} {cache : PolicyCache} {body : DecideRequest}
    {compiled : CompiledPolicy} (hfound : routed cfg cache body = some compiled) :
    ¬ (requestedName cfg body = none ∧ cache.primaryCompiled = none ∧
      cfg.policyFailMode = .open_) := by
  intro h
  rw [routed_of_cold h.1 h.2.1] at hfound
  simp at hfound

variable [PyRuntime] (hash : HashLib) (cfg : Settings) (jwt : JwtLib)

/-- A call as a step: the outcome is the output. -/
def decideStep (app : AppState) (c : StoredCall) : AppState × DecideOutcome :=
  let o := decide hash cfg jwt (fun _ => c.stored) c.disk c.cache c.readings app
    c.authorization c.body
  (o.app, o)

/-- The token check lets the call pass. -/
def Authorised (app : AppState) (c : DecideCall) : Prop :=
  ∃ claims, (requireAgentToken jwt cfg c.disk c.readings.verifiedAt app c.authorization).2 =
    .ok claims

/-- How stale the cache is when a call looks. -/
def staleAt (c : DecideCall) : StaleStatus :=
  status c.cache cfg.policyStaleThresholdSeconds c.readings.checkedAt

/-- The fail mode gives the verdict of the call: there is no policy and the
mode is open, or the policy is stale. -/
def FailModeAnswers (app : AppState) (c : DecideCall) : Prop :=
  Authorised cfg jwt app c ∧
    ((requestedName cfg c.body = none ∧ c.cache.primaryCompiled = none ∧
        cfg.policyFailMode = .open_) ∨
      (routed cfg c.cache c.body ≠ none ∧ (staleAt cfg c).isStale = true ∧
        c.cache.lastSuccessAt ≠ none))

/-- The call gets as far as `enqueue`: its policy is fresh, and the event can
be built. -/
def ReachesStore (app : AppState) (c : DecideCall) : Prop :=
  Authorised cfg jwt app c ∧ routed cfg c.cache c.body ≠ none ∧
    (staleAt cfg c).isStale = false ∧ EventBuilds cfg c.body

variable {hash cfg jwt}

section Calls

variable {app : AppState} {c : DecideCall}

variable (hash) (enqueue : AuditEvent → Except Exc Bool)

/-- A call that does not get as far as `enqueue` hands over no event. -/
theorem enqueued_of_not_reached (h : ¬ ReachesStore cfg jwt app c) :
    enqueued (decide hash cfg jwt enqueue c.disk c.cache c.readings app c.authorization
      c.body).effects = [] := by
  cases hck : (requireAgentToken jwt cfg c.disk c.readings.verifiedAt app c.authorization).2 with
  | error f => rw [decide_of_refused hck]; rfl
  | ok claims =>
    rw [decide_of_authorised hck]
    cases situation cfg c.cache c.readings.checkedAt c.body with
    | nameMissing name hreq hmiss => rw [answer_of_missing hreq hmiss]; rfl
    | cold hreq hnone =>
      rw [answer_of_cold hreq hnone]
      cases hm : cfg.policyFailMode <;> simp [answerCold, hm, enqueued]
    | stale compiled hfound hstale => rw [answer_of_stale hfound hstale]; rfl
    | fresh compiled hfound hfresh =>
      have hunbuilt : ¬ EventBuilds cfg c.body := fun hb =>
        h ⟨⟨claims, hck⟩, by simp [hfound], hfresh, hb⟩
      rw [answer_of_fresh hfound hfresh]
      cases hev : auditEvent hash cfg c.readings (callerAgentId claims c.body) c.body compiled
          (evaluate c.readings.evaluateMs compiled c.body.input) with
      | error e => rw [answerFresh_unbuilt hev]; rfl
      | ok event => exact absurd ((auditEvent_ok_iff _ _ _ _ _ _ _).mp ⟨event, hev⟩) hunbuilt

/-- A call that gets as far as `enqueue` hands over one event. -/
theorem enqueued_of_reached (h : ReachesStore cfg jwt app c) :
    ∃ claims compiled event,
      (requireAgentToken jwt cfg c.disk c.readings.verifiedAt app c.authorization).2 =
        .ok claims ∧
      routed cfg c.cache c.body = some compiled ∧
      auditEvent hash cfg c.readings (callerAgentId claims c.body) c.body compiled
        (evaluate c.readings.evaluateMs compiled c.body.input) = .ok event ∧
      enqueued (decide hash cfg jwt enqueue c.disk c.cache c.readings app c.authorization
        c.body).effects = [event] := by
  obtain ⟨⟨claims, hck⟩, hfound, hfresh, hbuilds⟩ := h
  obtain ⟨compiled, hfound⟩ := Option.ne_none_iff_exists'.mp hfound
  obtain ⟨event, hev⟩ := (auditEvent_ok_iff hash cfg c.readings (callerAgentId claims c.body)
    c.body compiled (evaluate c.readings.evaluateMs compiled c.body.input)).mpr hbuilds
  refine ⟨claims, compiled, event, hck, hfound, hev, ?_⟩
  rw [decide_of_authorised hck, answer_of_fresh hfound hfresh, answerFresh_built hev]
  simp [enqueued, counted]

end Calls

/-- A call that is refused is not a 200. -/
theorem refused_status {disk : Disk} {now : Rat} {app : AppState} {authorization : Str}
    {f : Failure} (h : (requireAgentToken jwt cfg disk now app authorization).2 = .error f) :
    f.statusCode ≠ 200 := by
  unfold requireAgentToken at h
  cases hb : bearerToken authorization with
  | error g =>
    simp only [hb] at h
    obtain rfl := Except.error.inj h
    unfold bearerToken at hb
    split at hb
    · obtain rfl := Except.error.inj hb; simp [unauthorized, Failure.statusCode]
    · split at hb
      · obtain rfl := Except.error.inj hb; simp [unauthorized, Failure.statusCode]
      · simp at hb
  | ok token =>
    simp only [hb] at h
    cases hk : (publicKey jwt cfg disk app).2 with
    | error e =>
      cases e <;> simp only [hk, verifyingKey, bind, Except.bind] at h <;>
        obtain rfl := Except.error.inj h <;> simp [Failure.statusCode]
    | ok publicKeyPem =>
      simp only [hk, verifyingKey, bind, Except.bind] at h
      cases hv : verifyAgentToken jwt now token publicKeyPem with
      | error e =>
        cases e <;> simp only [hv, verifiedClaims] at h <;>
          obtain rfl := Except.error.inj h <;> simp [unauthorized, Failure.statusCode]
      | ok claims =>
        simp only [hv, verifiedClaims, requireScope] at h
        split at h
        · simp at h
        · obtain rfl := Except.error.inj h; simp [Failure.statusCode]

/-- A fresh policy is audited exactly when `enqueue` is not reached or does
not raise. -/
theorem answerFresh_complete_iff {stored : Except Exc Bool} {rd : Readings} {agentId : Json}
    {body : DecideRequest} {compiled : CompiledPolicy} :
    AuditComplete body
        (answerFresh hash cfg (fun _ => stored) rd agentId body compiled).effects
        (answerFresh hash cfg (fun _ => stored) rd agentId body compiled).reply ↔
      ¬ (EventBuilds cfg body ∧ ∃ e, stored = .error e) := by
  have hbuilds := auditEvent_ok_iff hash cfg rd agentId body compiled
    (evaluate rd.evaluateMs compiled body.input)
  cases hev : auditEvent hash cfg rd agentId body compiled
      (evaluate rd.evaluateMs compiled body.input) with
  | error e =>
    have hno : ¬ EventBuilds cfg body := by rw [← hbuilds, hev]; simp
    rw [answerFresh_unbuilt hev]
    refine iff_of_true (auditComplete_of_error (by simp [Failure.statusCode]) rfl) ?_
    simp [hno]
  | ok event =>
    have hyes : EventBuilds cfg body := hbuilds.mp ⟨event, hev⟩
    rw [answerFresh_built hev]
    simp only [hyes, true_and]
    cases stored with
    | error e =>
      constructor
      · intro h
        have hnil := h.failed (by simp [statusOf, uncaught, Except.map, Failure.statusCode])
        simp [enqueued, counted] at hnil
      · intro h
        exact absurd ⟨e, rfl⟩ h
    | ok b =>
      constructor
      · intro _ h
        simp at h
      · intro _
        obtain ⟨h1, h2, h3⟩ := auditEvent_tells hev
        exact ⟨fun _ => ⟨_, event, rfl, rfl, h1, h2, h3⟩, fun h => absurd rfl h⟩

/-- One call is accounted for unless the fail mode answered it or the store
raised. -/
theorem decide_complete_iff (app : AppState) (c : StoredCall) :
    AuditComplete c.body (decideStep hash cfg jwt app c).2.effects
        (decideStep hash cfg jwt app c).2.reply ↔
      ¬ FailModeAnswers cfg jwt app c.toDecideCall ∧
        ¬ (ReachesStore cfg jwt app c.toDecideCall ∧ ∃ e, c.stored = .error e) := by
  simp only [decideStep]
  cases hck : (requireAgentToken jwt cfg c.disk c.readings.verifiedAt app c.authorization).2 with
  | error f =>
    have hno : ¬ Authorised cfg jwt app c.toDecideCall := by simp [Authorised, hck]
    rw [decide_of_refused hck]
    refine iff_of_true (auditComplete_of_error (refused_status hck) rfl) ?_
    simp [FailModeAnswers, ReachesStore, hno]
  | ok claims =>
    have hyes : Authorised cfg jwt app c.toDecideCall := ⟨claims, hck⟩
    rw [decide_of_authorised hck]
    simp only [FailModeAnswers, ReachesStore, hyes, true_and, staleAt]
    cases situation cfg c.cache c.readings.checkedAt c.body with
    | nameMissing name hreq hmiss =>
      rw [answer_of_missing hreq hmiss]
      refine iff_of_true
        (auditComplete_of_error (by simp [Failure.statusCode, policyNotFound]) rfl) ?_
      simp [hreq, routed_of_missing hreq hmiss]
    | cold hreq hnone =>
      rw [answer_of_cold hreq hnone]
      simp only [hreq, hnone, routed_of_cold hreq hnone, answerCold]
      cases hm : cfg.policyFailMode with
      | closed =>
        refine iff_of_true (auditComplete_of_error (by simp [Failure.statusCode]) rfl) ?_
        simp
      | open_ =>
        simpa using not_auditComplete_of_ok (by simp [enqueued])
    | stale compiled hfound hstale =>
      have hcold := not_cold_of_found hfound
      rw [answer_of_stale hfound hstale]
      simp only [hfound, hstale]
      simp only [answerStale, status]
      cases hl : c.cache.lastSuccessAt with
      | none =>
        refine iff_of_true (auditComplete_of_error (by simp [Failure.statusCode]) rfl) ?_
        simp [hcold]
      | some last =>
        refine iff_of_false (not_auditComplete_of_ok rfl) ?_
        simp
    | fresh compiled hfound hfresh =>
      have hcold := not_cold_of_found hfound
      rw [answer_of_fresh hfound hfresh, answerFresh_complete_iff]
      simp [hcold, hfound, hfresh]

/-- **Audit completeness**, at every step of every run of calls: a call is
accounted for exactly when the fail mode did not answer it and `enqueue`,
if it was reached, did not raise. -/
theorem audit_complete_iff (app : AppState) (calls : List StoredCall) :
    ∀ v ∈ visits (decideStep hash cfg jwt) app calls,
      AuditComplete v.2.body (decideStep hash cfg jwt v.1 v.2).2.effects
          (decideStep hash cfg jwt v.1 v.2).2.reply ↔
        ¬ FailModeAnswers cfg jwt v.1 v.2.toDecideCall ∧
          ¬ (ReachesStore cfg jwt v.1 v.2.toDecideCall ∧ ∃ e, v.2.stored = .error e) :=
  fun v _ => decide_complete_iff v.1 v.2

end Completeness

/-- A call that finds no policy, in the open fail mode. -/
def coldCall : StoredCall where
  disk := .empty
  cache := {}
  readings := demoReadings
  authorization := demoAuthorization
  body := demoBody
  stored := .ok true

/-- The same call, when the policy of the examples is fresh. -/
def auditedCall : StoredCall :=
  { coldCall with cache := @PolicyCache.install asciiRuntime 1000 allowAll }

/-- Of the two calls only the second is accounted for. -/
theorem audit_complete_iff_two :
    let cfg := demoSettings .open_
    let cold := @decideStep asciiRuntime demoHash cfg demoJwt demoApp coldCall
    let audited := (@decideStep asciiRuntime demoHash cfg demoJwt cold.1 auditedCall).2
    ¬ AuditComplete coldCall.body cold.2.effects cold.2.reply ∧
      AuditComplete auditedCall.body audited.effects audited.reply := by
  intro cfg cold audited
  have hiff := @audit_complete_iff asciiRuntime demoHash cfg demoJwt demoApp
    [coldCall, auditedCall]
  constructor
  · refine mt (hiff (demoApp, coldCall) List.mem_cons_self).mp fun h => h.1 ⟨?_, ?_⟩
    · exact isSome_toOption.mp (by decide +kernel)
    · exact Or.inl ⟨rfl, rfl, rfl⟩
  · refine (hiff (cold.1, auditedCall) (by simp [cold])).mpr ⟨?_, ?_⟩
    · rintro ⟨-, ⟨-, hnone, -⟩ | ⟨-, hstale, -⟩⟩
      · cases hnone
      · exact absurd hstale (by decide +kernel)
    · rintro ⟨-, e, he⟩
      cases he

/-- The fail mode lets a call through, and no event tells of it. -/
theorem fail_open_unaudited :
    let o := (@decideStep asciiRuntime demoHash (demoSettings .open_) demoJwt demoApp coldCall).2
    o.reply.toOption.map (·.verdict) = some ("allow" : Str) ∧ enqueued o.effects = [] ∧
      ¬ AuditComplete coldCall.body o.effects o.reply := by
  intro o
  have hverdict : o.reply.toOption.map (·.verdict) = some ("allow" : Str) := by decide +kernel
  have hnone : enqueued o.effects = [] := List.isEmpty_iff.mp (by decide +kernel)
  refine ⟨hverdict, hnone, ?_⟩
  cases hreply : o.reply with
  | error f => simp [hreply, Except.toOption] at hverdict
  | ok resp => exact not_auditComplete_of_ok hnone

/-! ## The response and the store -/

/-- The response without its latency. -/
def DecideResponse.timeless (resp : DecideResponse) : DecideResponse :=
  { resp with latencyMs := 0 }

/-- The same status and the same content up to latency: every exception that
is not an `HTTPException` gets the one reply 500. -/
def SameReply : Except Failure DecideResponse → Except Failure DecideResponse → Prop
  | .ok a, .ok b => a.timeless = b.timeless
  | .error (.http e), .error (.http f) => e = f
  | .error (.raised _), .error (.raised _) => True
  | _, _ => False

theorem SameReply.refl (r : Except Failure DecideResponse) : SameReply r r := by
  cases r with
  | ok a => rfl
  | error f => cases f <;> simp [SameReply]

/-- `enqueue` ended with an exception. -/
def Raised (stored : Except Exc Bool) : Prop := ∃ e, stored = .error e

section Independence

variable [PyRuntime] {hash : HashLib} {cfg : Settings} {jwt : JwtLib}

/-- The elapsed times of `evaluate` show in the latency only. -/
theorem evaluatedResponse_timeless (compiled : CompiledPolicy) (inp : EvaluationInput)
    (t u : Float64) :
    (evaluatedResponse compiled (evaluate t compiled inp)).timeless =
      (evaluatedResponse compiled (evaluate u compiled inp)).timeless := by
  unfold evaluate
  cases compiled.rules.find? (fun rule => patternMatches rule.pattern inp) <;> rfl

/-- Two evaluations of one request, whose calls of `enqueue` end in two ways. -/
theorem answerFresh_same_iff {o₁ o₂ : Except Exc Bool} {rd₁ rd₂ : Readings} {agentId : Json}
    {body : DecideRequest} {compiled : CompiledPolicy} :
    SameReply (answerFresh hash cfg (fun _ => o₁) rd₁ agentId body compiled).reply
        (answerFresh hash cfg (fun _ => o₂) rd₂ agentId body compiled).reply ↔
      (EventBuilds cfg body → (Raised o₁ ↔ Raised o₂)) := by
  have hbuilds (rd : Readings) := auditEvent_ok_iff hash cfg rd agentId body compiled
    (evaluate rd.evaluateMs compiled body.input)
  by_cases hb : EventBuilds cfg body
  · obtain ⟨event₁, h₁⟩ := (hbuilds rd₁).mpr hb
    obtain ⟨event₂, h₂⟩ := (hbuilds rd₂).mpr hb
    rw [answerFresh_built h₁, answerFresh_built h₂]
    have hsame := evaluatedResponse_timeless compiled body.input rd₁.evaluateMs rd₂.evaluateMs
    cases o₁ <;> cases o₂ <;> simp [hb, Raised, uncaught, Except.map, SameReply, hsame]
  · have hunbuilt (rd : Readings) : ∃ e, auditEvent hash cfg rd agentId body compiled
        (evaluate rd.evaluateMs compiled body.input) = .error e := by
      cases hev : auditEvent hash cfg rd agentId body compiled
          (evaluate rd.evaluateMs compiled body.input) with
      | error e => exact ⟨e, rfl⟩
      | ok event => exact absurd ((hbuilds rd).mp ⟨event, hev⟩) hb
    obtain ⟨e₁, h₁⟩ := hunbuilt rd₁
    obtain ⟨e₂, h₂⟩ := hunbuilt rd₂
    rw [answerFresh_unbuilt h₁, answerFresh_unbuilt h₂]
    simp [hb, SameReply]

/-- Two runs of one call at the same times, whose calls of `enqueue` end in two
ways. -/
theorem decideStep_same_iff (app : AppState) (c : DecideCall) (o₁ o₂ : Except Exc Bool)
    {rd : Readings} (hv : rd.verifiedAt = c.readings.verifiedAt)
    (hc : rd.checkedAt = c.readings.checkedAt) :
    SameReply (decideStep hash cfg jwt app { c with stored := o₁ }).2.reply
        (decideStep hash cfg jwt app { c with readings := rd, stored := o₂ }).2.reply ↔
      (ReachesStore cfg jwt app c → (Raised o₁ ↔ Raised o₂)) := by
  simp only [decideStep]
  cases hck : (requireAgentToken jwt cfg c.disk c.readings.verifiedAt app c.authorization).2 with
  | error f =>
    have hck' := hck
    rw [← hv] at hck'
    have hno : ¬ Authorised cfg jwt app c := by simp [Authorised, hck]
    rw [decide_of_refused hck, decide_of_refused hck']
    simpa [ReachesStore, hno] using SameReply.refl (.error f)
  | ok claims =>
    have hck' := hck
    rw [← hv] at hck'
    have hyes : Authorised cfg jwt app c := ⟨claims, hck⟩
    rw [decide_of_authorised hck, decide_of_authorised hck']
    simp only [ReachesStore, hyes, true_and, staleAt]
    cases situation cfg c.cache c.readings.checkedAt c.body with
    | nameMissing name hreq hmiss =>
      rw [answer_of_missing hreq hmiss, answer_of_missing hreq hmiss]
      simpa [routed_of_missing hreq hmiss] using SameReply.refl _
    | cold hreq hnone =>
      rw [answer_of_cold hreq hnone, answer_of_cold hreq hnone]
      simpa [routed_of_cold hreq hnone] using SameReply.refl _
    | stale compiled hfound hstale =>
      have hstale' := hstale
      rw [← hc] at hstale'
      rw [answer_of_stale hfound hstale, answer_of_stale hfound hstale', hc]
      simpa [hstale] using SameReply.refl _
    | fresh compiled hfound hfresh =>
      have hfresh' := hfresh
      rw [← hc] at hfresh'
      rw [answer_of_fresh hfound hfresh, answer_of_fresh hfound hfresh', answerFresh_same_iff]
      simp [hfound, hfresh]

/-- **Independence of telemetry**: two outcomes of `enqueue`, in two runs of one
call with any elapsed times and event identity, give the same response
exactly when the call does not reach the store or both or neither raise. -/
theorem same_response_iff (app : AppState) (c : DecideCall) (o₁ o₂ : Except Exc Bool)
    (evaluateMs observedMs : Float64) (eventId occurredAt : Str) :
    let c₁ : StoredCall := { c with stored := o₁ }
    let c₂ : StoredCall :=
      { c with
        stored := o₂
        readings := { c.readings with
          evaluateMs := evaluateMs, observedMs := observedMs, eventId := eventId
          occurredAt := occurredAt } }
    SameReply (decideStep hash cfg jwt app c₁).2.reply (decideStep hash cfg jwt app c₂).2.reply ↔
      (ReachesStore cfg jwt app c → (Raised o₁ ↔ Raised o₂)) :=
  decideStep_same_iff app c o₁ o₂ rfl rfl

end Independence

/-- A call that finds the policy of the examples fresh. -/
def freshCall : DecideCall :=
  { coldCall.toDecideCall with cache := @PolicyCache.install asciiRuntime 1000 allowAll }

/-- A full disk under the queue turns an allow into a 500. -/
theorem storage_error_denies :
    let c₁ : StoredCall := { freshCall with stored := .ok true }
    let c₂ : StoredCall := { freshCall with stored := .error .databaseError }
    let r₁ := (@decideStep asciiRuntime demoHash (demoSettings .closed) demoJwt demoApp c₁).2.reply
    let r₂ := (@decideStep asciiRuntime demoHash (demoSettings .closed) demoJwt demoApp c₂).2.reply
    r₁.toOption.map (·.verdict) = some ("allow" : Str) ∧ statusOf r₂ = 500 ∧
      ¬ SameReply r₁ r₂ := by
  intro c₁ c₂ r₁ r₂
  have hverdict : r₁.toOption.map (·.verdict) = some ("allow" : Str) := by decide +kernel
  have hstatus : statusOf r₂ = 500 := by decide +kernel
  refine ⟨hverdict, hstatus, ?_⟩
  cases h₁ : r₁ with
  | error f => simp [h₁, Except.toOption] at hverdict
  | ok resp₁ =>
    cases h₂ : r₂ with
    | ok resp₂ => simp [h₂, statusOf] at hstatus
    | error f => simp [SameReply]

end TrustModelEdge.Routes
