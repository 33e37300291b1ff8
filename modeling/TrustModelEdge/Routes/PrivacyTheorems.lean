/-
TrustModelEdge.Routes.PrivacyTheorems — what a request can tell the
telemetry queue when payloads are withheld.

Two runs of calls are compared, one request of each at a time. The requests
agree on what the routed policy looks at and on what the token, the route
and the tool are; the rest of their content is arbitrary. `lockstep` then
carries the comparison from one call to whole runs.

`hash_subject` raises on a subject with a lone surrogate, which loses the
event: runs are alike only when that happens in both or in neither.
-/
import TrustModelEdge.Engine.EvaluatorTheorems
import TrustModelEdge.Routes.AuditTheorems
import TrustModelEdge.Telemetry.Store

namespace TrustModelEdge.Routes

open Py Policy OAuth Engine Telemetry Lib

/-! ## Calls into a queue -/

/-- One call of `decide` on a process with a queue: `storedAt` is the time text
of the row, `fault` what the store raises when the call reaches it. -/
structure QueuedCall extends DecideCall where
  storedAt : Str
  fault : Option Exc

structure QueueState where
  app : AppState
  store : AnyTelemetryStore

/-- How `enqueue` of an event ends. -/
def enqueueOutcome (json : JsonText) (store : AnyTelemetryStore) (c : QueuedCall)
    (event : AuditEvent) : Except Exc Bool :=
  match c.fault with
  | some e => .error e
  | none => .ok (store.enqueue json c.storedAt event.toDict).2

/-- The store after it was handed an event; a call that raises stores nothing. -/
def storeAfter (json : JsonText) (c : QueuedCall) (store : AnyTelemetryStore)
    (event : AuditEvent) : AnyTelemetryStore :=
  match c.fault with
  | some _ => store
  | none => (store.enqueue json c.storedAt event.toDict).1

section Step

variable [PyRuntime] (hash : HashLib) (cfg : Settings) (jwt : JwtLib) (json : JsonText)

/-- The decision of a call in a state. -/
def decided (s : QueueState) (c : QueuedCall) : DecideOutcome :=
  decide hash cfg jwt (enqueueOutcome json s.store c) c.disk c.cache c.readings s.app
    c.authorization c.body

/-- A call as a step; the output is the events handed to the queue, each with
its outcome. -/
def queueStep (s : QueueState) (c : QueuedCall) :
    QueueState × List (AuditEvent × Except Exc Bool) :=
  let events := enqueued (decided hash cfg jwt json s c).effects
  ({ app := (decided hash cfg jwt json s c).app
     store := events.foldl (storeAfter json c) s.store },
    events.map (fun event => (event, enqueueOutcome json s.store c event)))

end Step

/-! ## Comparing two runs -/

/-- An event without its identity, its times, its latency and its subject. -/
def mask (event : AuditEvent) : AuditEvent :=
  { event with
    eventId := [], subjectId := [], occurredAt := []
    evidence := { event.evidence with latencyMs := 0 } }

/-- The outputs of two calls are the same up to what `mask` hides. -/
def SameTelemetry (out out' : List (AuditEvent × Except Exc Bool)) : Prop :=
  out.map (fun e => (mask e.1, e.2)) = out'.map (fun e => (mask e.1, e.2))

/-- Stores that accept and drop alike: of a queue, its length, its bound and its
drop counter matter. -/
def SameQueue : AnyTelemetryStore → AnyTelemetryStore → Prop
  | .real a, .real b => a.count = b.count ∧ a.maxSize = b.maxSize ∧ a.dropped = b.dropped
  | .noop a, .noop b => a = b
  | _, _ => False

structure SameState (s t : QueueState) : Prop where
  app : s.app = t.app
  store : SameQueue s.store t.store

/-- Two calls at the same times on the same process whose requests agree on the
token, the tool, the policy name and the body's agent id, and on what the
rules of the routed policy look at. -/
structure Alike (cfg : Settings) (c c' : QueuedCall) : Prop where
  disk : c'.disk = c.disk
  cache : c'.cache = c.cache
  verifiedAt : c'.readings.verifiedAt = c.readings.verifiedAt
  checkedAt : c'.readings.checkedAt = c.readings.checkedAt
  fault : c'.fault = c.fault
  token : c'.authorization = c.authorization
  tool : c'.body.tool = c.body.tool
  policyName : c'.body.policyName = c.body.policyName
  agentId : c'.body.agentId = c.body.agentId
  rules : ∀ compiled, routed cfg c.cache c.body = some compiled →
    ∀ r ∈ compiled.rules, RuleAgrees r c.body.input c'.body.input

/-- `hash_subject` does not raise on the subject of the request. -/
def SubjectHashes (cfg : Settings) (body : DecideRequest) : Prop :=
  cfg.telemetrySubjectHashKey ≠ [] → body.subject.getD [] ≠ [] →
    Encodes cfg.telemetrySubjectHashKey ∧ Encodes (body.subject.getD [])

/-- The pseudonym of a subject: empty without a key, and otherwise the keyed
HMAC of the subject, if there is one. -/
def pseudonym (hash : HashLib) (key : Str) (subject : Option Str) : Str :=
  if key = [] ∨ subject.getD [] = [] then []
  else hash.hmacSha256 (asciiBytes key) (asciiBytes (subject.getD []))

/-! ## The queue -/

theorem sameQueue_refl (a : AnyTelemetryStore) : SameQueue a a := by
  cases a <;> simp [SameQueue]

theorem count_enqueue (json : JsonText) (now : Str) (payload : Json) (st : TelemetryStore) :
    (st.enqueue json now payload).1.count =
      if st.count ≥ st.maxSize then st.count else st.count + 1 := by
  unfold TelemetryStore.enqueue
  split
  · rfl
  · simp [TelemetryStore.count, SerialTable.insert]

/-- Stores that accept and drop alike do so with any two events, and go on to. -/
theorem sameQueue_enqueue {a b : AnyTelemetryStore} (h : SameQueue a b) (json : JsonText)
    (now now' : Str) (payload payload' : Json) :
    SameQueue (a.enqueue json now payload).1 (b.enqueue json now' payload').1 ∧
      (a.enqueue json now payload).2 = (b.enqueue json now' payload').2 := by
  cases a with
  | real a =>
    cases b with
    | real b =>
      obtain ⟨hcount, hmax, hdropped⟩ := h
      simp only [AnyTelemetryStore.enqueue, SameQueue, count_enqueue, hcount, hmax, true_and]
      unfold TelemetryStore.enqueue
      rw [hcount, hmax]
      split <;> simp [hdropped]
    | noop d => simp [SameQueue] at h
  | noop d =>
    cases b with
    | real b => simp [SameQueue] at h
    | noop e => simpa [SameQueue, AnyTelemetryStore.enqueue] using h

/-! ## Events -/

section Events

variable {hash : HashLib} {cfg : Settings} {rd : Readings} {agentId : Json}
  {body : DecideRequest} {compiled : CompiledPolicy} {result : EvaluationResult}
  {event : AuditEvent}

theorem hashSubject_eq_pseudonym {subject : Option Str} {key s : Str}
    (h : hashSubject hash subject key = .ok s) : s = pseudonym hash key subject := by
  unfold hashSubject at h
  unfold pseudonym
  by_cases hs : subject.getD [] = []
  · simpa [hs] using h.symm
  · by_cases hk : key = []
    · simpa [hk] using h.symm
    · by_cases h1 : Encodes key
      · by_cases h2 : Encodes (subject.getD [])
        · simpa [hs, hk, h1, h2, encode_of_encodes, bind, Except.bind, pure, Except.pure,
            asciiBytes] using h.symm
        · simp [hs, hk, h1, h2, encode_of_encodes, encode_of_not_encodes, bind, Except.bind] at h
      · simp [hs, hk, h1, encode_of_not_encodes, bind, Except.bind] at h

/-- The event of a request whose payload is withheld: of the request it has the
tool and the pseudonym, the rest is the result's. -/
theorem auditEvent_omit (homit : cfg.telemetryOmitPayload = true)
    (h : auditEvent hash cfg rd agentId body compiled result = .ok event) :
    event =
      { eventId := rd.eventId
        customerId := hash.uuid5 (asciiBytes cfg.tenantId)
        agentId := orEmpty agentId
        subjectId := pseudonym hash cfg.telemetrySubjectHashKey body.subject
        policyId := compiled.policyId
        decision := result.verdict
        reason := result.reason
        actionType := body.tool
        actionPayload := ∅
        evidence :=
          { frameworkTags := result.matchedFrameworkTags, redactions := result.redactions
            ruleId := result.ruleId, latencyMs := result.latencyMs }
        occurredAt := rd.occurredAt } := by
  have hbuilds : EventBuilds cfg body := (auditEvent_ok_iff _ _ _ _ _ _ _).mp ⟨event, h⟩
  unfold auditEvent forwardedSubject buildAuditEvent at h
  rw [if_pos homit, if_pos homit, encode_of_encodes hbuilds.1] at h
  cases hs : hashSubject hash body.subject cfg.telemetrySubjectHashKey with
  | error e => simp [hs, Except.map, bind, Except.bind] at h
  | ok s =>
    rw [← hashSubject_eq_pseudonym hs]
    simpa [hs, Except.map, bind, Except.bind, pure, Except.pure, asciiBytes] using h.symm

end Events

/-! ## One call, then whole runs -/

section Runs

variable {hash : HashLib} {cfg : Settings} {jwt : JwtLib} {json : JsonText}

theorem requestedName_alike {c c' : QueuedCall} (h : Alike cfg c c') :
    requestedName cfg c'.body = requestedName cfg c.body := by
  simp only [requestedName, h.policyName]

theorem eventBuilds_iff (homit : cfg.telemetryOmitPayload = true) (body : DecideRequest) :
    EventBuilds cfg body ↔ Encodes cfg.tenantId ∧ SubjectHashes cfg body := by
  unfold EventBuilds SubjectHashes
  simp only [homit, forall_true_left]
  exact and_congr_right fun _ => forall_comm

theorem routed_alike {c c' : QueuedCall} (h : Alike cfg c c') :
    routed cfg c'.cache c'.body = routed cfg c.cache c.body := by
  simp only [routed, routedName_eq, requestedName_alike h, h.cache]

variable [PyRuntime]

/-- Alike calls get as far as the store together. -/
theorem reachesStore_alike (homit : cfg.telemetryOmitPayload = true) {app : AppState}
    {c c' : QueuedCall} (h : Alike cfg c c')
    (hs : SubjectHashes cfg c.body ↔ SubjectHashes cfg c'.body) :
    ReachesStore cfg jwt app c'.toDecideCall ↔ ReachesStore cfg jwt app c.toDecideCall := by
  unfold ReachesStore Authorised staleAt
  rw [eventBuilds_iff homit, eventBuilds_iff homit, hs, routed_alike h, h.disk, h.verifiedAt,
    h.token, h.cache, h.checkedAt]

/-- The events of alike calls differ in what `mask` hides only. -/
theorem mask_alike (homit : cfg.telemetryOmitPayload = true) {c c' : QueuedCall}
    (h : Alike cfg c c') {claims : AgentTokenClaims} {compiled : CompiledPolicy}
    (hfound : routed cfg c.cache c.body = some compiled) {event event' : AuditEvent}
    (hev : auditEvent hash cfg c.readings (callerAgentId claims c.body) c.body compiled
      (evaluate c.readings.evaluateMs compiled c.body.input) = .ok event)
    (hev' : auditEvent hash cfg c'.readings (callerAgentId claims c'.body) c'.body compiled
      (evaluate c'.readings.evaluateMs compiled c'.body.input) = .ok event') :
    mask event = mask event' := by
  have hagent : callerAgentId claims c'.body = callerAgentId claims c.body := by
    simp only [callerAgentId, h.agentId]
  have htool : c.body.input.tool = c'.body.input.tool := h.tool.symm
  have hresult := evaluate_agree htool (h.rules compiled hfound) c.readings.evaluateMs
    c'.readings.evaluateMs
  rw [auditEvent_omit homit hev, auditEvent_omit homit hev', hresult, hagent, h.tool]
  rfl

/-- **One step**: alike calls in alike states give the queue the same, and leave
alike states. -/
theorem queueStep_alike (homit : cfg.telemetryOmitPayload = true) {s t : QueueState}
    (hst : SameState s t) {c c' : QueuedCall} (h : Alike cfg c c')
    (hs : SubjectHashes cfg c.body ↔ SubjectHashes cfg c'.body) :
    SameState (queueStep hash cfg jwt json s c).1 (queueStep hash cfg jwt json t c').1 ∧
      SameTelemetry (queueStep hash cfg jwt json s c).2
        (queueStep hash cfg jwt json t c').2 := by
  obtain ⟨happ, hstore⟩ := hst
  have happ' : (decided hash cfg jwt json s c).app = (decided hash cfg jwt json t c').app := by
    simp only [decided, decide_app, happ, h.disk, h.verifiedAt, h.token]
  by_cases hr : ReachesStore cfg jwt s.app c.toDecideCall
  · have hr' : ReachesStore cfg jwt t.app c'.toDecideCall := by
      rw [← happ, reachesStore_alike homit h hs]
      exact hr
    obtain ⟨claims, compiled, event, hck, hfound, hev, hevents⟩ :=
      enqueued_of_reached hash (enqueueOutcome json s.store c) hr
    obtain ⟨claims', compiled', event', hck', hfound', hev', hevents'⟩ :=
      enqueued_of_reached hash (enqueueOutcome json t.store c') hr'
    rw [← happ, h.disk, h.verifiedAt, h.token, hck] at hck'
    obtain rfl := Except.ok.inj hck'
    rw [routed_alike h, hfound] at hfound'
    obtain rfl := Option.some.inj hfound'
    have hmask := mask_alike homit h hfound hev hev'
    obtain ⟨hqueue, hout⟩ := sameQueue_enqueue hstore json c.storedAt c'.storedAt event.toDict
      event'.toDict
    refine ⟨⟨happ', ?_⟩, ?_⟩
    · simp only [queueStep, decided, hevents, hevents', List.foldl_cons, List.foldl_nil,
        storeAfter, h.fault]
      cases c.fault with
      | none => exact hqueue
      | some e => exact hstore
    · simp only [SameTelemetry, queueStep, decided, hevents, hevents', List.map_cons,
        List.map_nil, enqueueOutcome, h.fault, hmask]
      cases c.fault with
      | none => simp [hout]
      | some e => rfl
  · have hr' : ¬ ReachesStore cfg jwt t.app c'.toDecideCall := by
      rw [← happ, reachesStore_alike homit h hs]
      exact hr
    have hevents := enqueued_of_not_reached hash (enqueueOutcome json s.store c) hr
    have hevents' := enqueued_of_not_reached hash (enqueueOutcome json t.store c') hr'
    refine ⟨⟨happ', ?_⟩, ?_⟩
    · simpa only [queueStep, decided, hevents, hevents', List.foldl_nil] using hstore
    · simp only [SameTelemetry, queueStep, decided, hevents, hevents', List.map_nil]

/-- The subject shows in an event through its pseudonym only. -/
theorem subjectId_of_output (homit : cfg.telemetryOmitPayload = true) {s : QueueState}
    {c : QueuedCall} {e : AuditEvent × Except Exc Bool}
    (he : e ∈ (queueStep hash cfg jwt json s c).2) :
    e.1.subjectId = pseudonym hash cfg.telemetrySubjectHashKey c.body.subject := by
  by_cases hr : ReachesStore cfg jwt s.app c.toDecideCall
  · obtain ⟨claims, compiled, event, -, -, hev, hevents⟩ :=
      enqueued_of_reached hash (enqueueOutcome json s.store c) hr
    simp only [queueStep, decided, hevents, List.map_cons, List.map_nil,
      List.mem_singleton] at he
    subst he
    rw [auditEvent_omit homit hev]
  · have hevents := enqueued_of_not_reached hash (enqueueOutcome json s.store c) hr
    simp [queueStep, decided, hevents] at he

/-- **Private data does not flow into telemetry.** Two runs from one state, of
requests alike one by one whose subjects hash in both runs or in neither,
give the queue the same events with the same outcomes up to what `mask`
hides, and the subject shows as its pseudonym, which is empty without a key. -/
theorem telemetry_private (homit : cfg.telemetryOmitPayload = true) (s : QueueState)
    {calls calls' : List QueuedCall}
    (halike : List.Forall₂ (fun c c' => Alike cfg c c' ∧
      (SubjectHashes cfg c.body ↔ SubjectHashes cfg c'.body)) calls calls') :
    List.Forall₂ SameTelemetry (trace (queueStep hash cfg jwt json) s calls)
        (trace (queueStep hash cfg jwt json) s calls') ∧
      ∀ v ∈ visits (queueStep hash cfg jwt json) s calls ++
          visits (queueStep hash cfg jwt json) s calls',
        ∀ e ∈ (queueStep hash cfg jwt json v.1 v.2).2,
          e.1.subjectId = pseudonym hash cfg.telemetrySubjectHashKey v.2.body.subject ∧
            (cfg.telemetrySubjectHashKey = [] → e.1.subjectId = []) := by
  constructor
  · have hstep : ∀ (s t : QueueState) (c c' : QueuedCall), SameState s t →
        (Alike cfg c c' ∧ (SubjectHashes cfg c.body ↔ SubjectHashes cfg c'.body)) →
        SameState (queueStep hash cfg jwt json s c).1 (queueStep hash cfg jwt json t c').1 ∧
          SameTelemetry (queueStep hash cfg jwt json s c).2
            (queueStep hash cfg jwt json t c').2 :=
      fun s t c c' hst h => queueStep_alike homit hst h.1 h.2
    have hsame : SameState s s := ⟨rfl, sameQueue_refl s.store⟩
    exact (lockstep (queueStep hash cfg jwt json) hstep halike hsame).2
  · intro v _ e he
    have hid := subjectId_of_output homit he
    refine ⟨hid, fun hk => ?_⟩
    rw [hid]
    simp [pseudonym, hk]

end Runs

/-! Two runs of one call each, on a policy that redacts one argument: the calls
differ in the value of that argument, in another argument and in the subject. -/

def maskRule : PolicyRule where
  ruleId := "mask"
  when := AList.singleton ("tool" : Str) (.str "*")
  then_ := "redact:args.ssn"

def redactSsn : EdgePolicy :=
  { allowAll with bundle := { allowAll.bundle with rules := [maskRule] } }

def keyedSettings : Settings :=
  { demoSettings .closed with telemetrySubjectHashKey := "k1" }

/-- A call about a subject, with these arguments. -/
def ssnCall (args : Dict Json) (subject : Option Str) : QueuedCall where
  disk := .empty
  cache := @PolicyCache.install asciiRuntime 1000 redactSsn
  readings := demoReadings
  authorization := demoAuthorization
  body := { demoBody with args := args, subject := subject }
  storedAt := "1970-01-01T00:18:20+00:00"
  fault := none

def emptyQueue : QueueState where
  app := demoApp
  store := .real (TelemetryStore.openOn .empty 10)

/-- Arguments that hold the redacted one. -/
def ssnArgs (ssn : Str) (rest : Dict Json) : Dict Json :=
  rest.insert ("ssn" : Str) (.str ssn)

/-- The text of each stored row is out of sight here. -/
def noJson : JsonText where
  loads := fun _ => .error .jsonDecodeError
  dumps := fun _ => []

theorem ssnCall_alike (ssn ssn' : Str) (rest rest' : Dict Json) (subject subject' : Option Str) :
    Alike keyedSettings (ssnCall (ssnArgs ssn rest) subject)
      (ssnCall (ssnArgs ssn' rest') subject') where
  disk := rfl
  cache := rfl
  verifiedAt := rfl
  checkedAt := rfl
  fault := rfl
  token := rfl
  tool := rfl
  policyName := rfl
  agentId := rfl
  rules := by
    intro compiled hfound r hr
    obtain rfl : @compile asciiRuntime redactSsn = compiled := Option.some.inj hfound
    obtain rfl : r = @compileRule asciiRuntime maskRule := List.mem_singleton.mp hr
    have hkeys : (@compileRule asciiRuntime maskRule).pattern.argKeysPresent = ∅ := by decide
    have hequals : (@compileRule asciiRuntime maskRule).pattern.argEquals.entries = [] :=
      List.isEmpty_iff.mp (by decide)
    have hpaths : (@compileRule asciiRuntime maskRule).redactPaths = [("args.ssn" : Str)] := by
      decide
    have hattr : (@compileRule asciiRuntime maskRule).pattern.subjectAttr = none := by decide
    have hkey : removePrefix ("args.ssn" : Str) argsDot = ("ssn" : Str) := by decide
    refine ⟨fun k hk => ?_, fun e he => ?_, fun p hp _ => ?_, fun a ha => ?_⟩
    · rw [hkeys] at hk
      simp at hk
    · rw [hequals] at he
      simp at he
    · rw [hpaths, List.mem_singleton] at hp
      subst hp
      simp [hkey, ssnCall, ssnArgs, DecideRequest.input]
    · rw [hattr] at ha
      simp at ha

/-- The two runs that follow start here, with these settings. -/
def ssnStep : QueueState → QueuedCall → QueueState × List (AuditEvent × Except Exc Bool) :=
  @queueStep asciiRuntime demoHash keyedSettings demoJwt noJson

/-- The first run tells a number in each call and a subject in some, the second other
numbers, a note and other subjects. -/
def ssnRun : List QueuedCall :=
  [ssnCall (ssnArgs "078-05-1120" ∅) (some "user-1"), ssnCall (ssnArgs "078-05-1121" ∅) none,
   ssnCall (ssnArgs "078-05-1122" ∅) (some "user-1")]

def noteRun : List QueuedCall :=
  [ssnCall (ssnArgs "219-09-9999" (AList.singleton ("note" : Str) (.str "late"))) none,
   ssnCall (ssnArgs "219-09-9998" ∅) (some "user-1"),
   ssnCall (ssnArgs "219-09-9997" ∅) (some "user-1")]

/-- A queue that the first event fills. -/
def smallQueue : QueueState where
  app := demoApp
  store := .real (TelemetryStore.openOn .empty 1)

theorem ssnCall_hashes (args : Dict Json) {subject : Option Str}
    (h : subject = none ∨ subject = some ("user-1" : Str)) :
    SubjectHashes keyedSettings (ssnCall args subject).body := by
  have hkey : Encodes keyedSettings.telemetrySubjectHashKey := by
    show _ = false
    decide
  have huser : Encodes ("user-1" : Str) := by
    show _ = false
    decide
  rcases h with rfl | rfl
  · exact fun _ h => absurd rfl h
  · exact fun _ _ => ⟨hkey, huser⟩

/-- The same telemetry from both runs, the event that is stored and the two that the
full queue drops. -/
theorem telemetry_private_ssn :
    (List.Forall₂ SameTelemetry (trace ssnStep smallQueue ssnRun)
        (trace ssnStep smallQueue noteRun) ∧
      ∀ v ∈ visits ssnStep smallQueue ssnRun ++ visits ssnStep smallQueue noteRun,
        ∀ e ∈ (ssnStep v.1 v.2).2,
          e.1.subjectId =
              pseudonym demoHash keyedSettings.telemetrySubjectHashKey v.2.body.subject ∧
            (keyedSettings.telemetrySubjectHashKey = [] → e.1.subjectId = [])) ∧
      (trace ssnStep smallQueue ssnRun).flatMap (·.map (·.2.toOption)) =
        [some true, some false, some false] := by
  have hpair : ∀ ssn ssn' rest rest' subject subject',
      (subject = none ∨ subject = some ("user-1" : Str)) →
      (subject' = none ∨ subject' = some ("user-1" : Str)) →
      Alike keyedSettings (ssnCall (ssnArgs ssn rest) subject)
          (ssnCall (ssnArgs ssn' rest') subject') ∧
        (SubjectHashes keyedSettings (ssnCall (ssnArgs ssn rest) subject).body ↔
          SubjectHashes keyedSettings (ssnCall (ssnArgs ssn' rest') subject').body) :=
    fun _ _ _ _ _ _ h h' =>
      ⟨ssnCall_alike _ _ _ _ _ _, iff_of_true (ssnCall_hashes _ h) (ssnCall_hashes _ h')⟩
  refine ⟨?_, by decide +kernel⟩
  exact @telemetry_private demoHash keyedSettings demoJwt noJson asciiRuntime rfl smallQueue
    ssnRun noteRun
    (.cons (hpair _ _ _ _ _ _ (Or.inr rfl) (Or.inl rfl))
      (.cons (hpair _ _ _ _ _ _ (Or.inl rfl) (Or.inr rfl))
        (.cons (hpair _ _ _ _ _ _ (Or.inr rfl) (Or.inr rfl)) .nil)))

/-- A subject that is no UTF-8 text. -/
def loneSurrogate : Str := [⟨0xd800, by decide⟩]

def userRun : List QueuedCall := [ssnCall (ssnArgs "078-05-1120" ∅) (some "user-1")]

def surrogateRun : List QueuedCall := [ssnCall (ssnArgs "078-05-1120" ∅) (some loneSurrogate)]

/-- The same telemetry is as many events, call by call. -/
theorem lengths_of_same {outs outs' : List (List (AuditEvent × Except Exc Bool))}
    (h : List.Forall₂ SameTelemetry outs outs') :
    outs.map List.length = outs'.map List.length := by
  induction h with
  | nil => rfl
  | cons hout _ ih =>
    have hlen := congrArg List.length hout
    simp only [List.length_map] at hlen
    simp [hlen, ih]

/-- The subject decides whether an event is stored at all: hashing a lone
surrogate raises, so of two alike runs only one is audited. -/
theorem surrogate_subject_unaudited :
    keyedSettings.telemetryOmitPayload = true ∧
      List.Forall₂ (Alike keyedSettings) userRun surrogateRun ∧
      ¬ List.Forall₂ SameTelemetry (trace ssnStep emptyQueue userRun)
          (trace ssnStep emptyQueue surrogateRun) := by
  have hlen : (trace ssnStep emptyQueue userRun).map List.length = [1] := by decide +kernel
  have hlen' : (trace ssnStep emptyQueue surrogateRun).map List.length = [0] := by
    decide +kernel
  refine ⟨rfl, .cons (ssnCall_alike _ _ _ _ _ _) .nil, ?_⟩
  intro h
  have hsame := lengths_of_same h
  rw [hlen, hlen'] at hsame
  simp at hsame

end TrustModelEdge.Routes
