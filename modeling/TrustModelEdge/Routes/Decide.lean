/-
TrustModelEdge.Routes.Decide — `POST /v1/decide` (`routes/decide.py`).

A call reads the clock several times; the readings, the event id and the
elapsed times are one record (`Readings`). The counters and the telemetry
queue are outside: a call lists what it does to them, in order, and is
told how its `enqueue` ends.
-/
import TrustModelEdge.Policy.Stale
import TrustModelEdge.Routes.OAuth
import TrustModelEdge.Telemetry.Payload

namespace TrustModelEdge.Routes

open Py Policy OAuth Engine Telemetry

/-! ## The bearer token -/

def governEnforce : Str := "govern:enforce"

def unauthorized (detail : Str) : Failure :=
  .http
    { statusCode := 401, detail := .str detail, headers := [("WWW-Authenticate", "Bearer")] }

/-- The token of an `Authorization` header. -/
def bearerToken (authorization : Str) : Except Failure Str :=
  if authorization.isEmpty || !startsWith (lowerLatin1 authorization) "bearer " then
    .error (unauthorized "missing or malformed Authorization header (expected Bearer)")
  else if (strip (authorization.drop 7)).isEmpty then .error (unauthorized "empty bearer token")
  else .ok (strip (authorization.drop 7))

/-- The key a token is verified with. -/
def verifyingKey : Except OAuthError Bytes → Except Failure Bytes
  | .ok publicKeyPem => .ok publicKeyPem
  | .error (.enrollmentMissing message) =>
      .error (.http
        { statusCode := 503
          detail := .str (("edge enrollment incomplete: " : Str) ++ message) })
  | .error e => .error (.raised e)

/-- The claims of a token that verifies. -/
def verifiedClaims : Except OAuthError AgentTokenClaims → Except Failure AgentTokenClaims
  | .ok claims => .ok claims
  | .error (.invalidToken message) => .error (unauthorized message)
  | .error e => .error (.raised e)

def requireScope (claims : AgentTokenClaims) : Except Failure AgentTokenClaims :=
  if governEnforce ∈ claims.scopes then .ok claims
  else
    let granted := join (" " : Str) claims.scopes
    .error (.http
      { statusCode := 403
        detail := .str (("token is missing required scope '" : Str) ++ governEnforce
          ++ ("'; granted scopes: " : Str)
          ++ if granted.isEmpty then ("(none)" : Str) else granted) })

/-- `_require_agent_token` at the time `now`. -/
def requireAgentToken [PyRuntime] (jwt : JwtLib) (cfg : Settings) (disk : Disk) (now : Rat)
    (app : AppState) (authorization : Str) : AppState × Except Failure AgentTokenClaims :=
  match bearerToken authorization with
  | .error f => (app, .error f)
  | .ok token =>
      ((publicKey jwt cfg disk app).1, do
        let publicKeyPem ← verifyingKey (publicKey jwt cfg disk app).2
        let claims ← verifiedClaims (verifyAgentToken jwt now token publicKeyPem)
        requireScope claims)

/-! ## Requests and responses -/

structure DecideRequest where
  tool : Str
  args : Dict Json := ∅
  subject : Option Str := none
  subjectAttrs : Option (Dict Json) := none
  agentId : Option Str := none
  policyName : Option Str := none

structure DecideResponse where
  verdict : Str
  ruleId : Str
  reason : Str
  redactions : List Str := []
  matchedFrameworkTags : List Str := []
  latencyMs : Float64
  policyId : Option Str := none
  policyVersion : Option Str := none
  stale : Bool := false

/-- What a call does to the counters and to the queue. -/
inductive Effect where
  | policyNotFound
  | cacheHit
  | decision (verdict : Str)
  | latencyObserved (ms : Float64)
  | enqueue (event : AuditEvent)

/-- What a call reads from its surroundings: the clock when the token is
verified and when staleness is checked, the elapsed times that `evaluate`
and the handler measure, and the identity of the event. -/
structure Readings where
  verifiedAt : Rat
  checkedAt : Rat
  evaluateMs : Float64
  observedMs : Float64
  eventId : Str
  occurredAt : Str

/-- The answer to an authorised request, and the effects before it. -/
structure Answer where
  effects : List Effect
  reply : Except Failure DecideResponse

/-! ## Deciding -/

section Deciding

variable [PyRuntime] (hash : HashLib) (cfg : Settings)

/-- The name a request is routed by: its own when multi-policy is on. -/
def requestedName (body : DecideRequest) : Option Str :=
  if cfg.multiPolicyEnabled then body.policyName.filter (fun name => !name.isEmpty) else none

def policyNotFound (cache : PolicyCache) (name : Str) : HttpException where
  statusCode := 400
  detail := .obj
    [("error", .str (("policy_name=" : Str) ++ reprText name
        ++ (" not found in Edge cache" : Str))),
     ("code", .str "policy_not_found"),
     ("available", strs cache.allNames)]

/-- No policy at all yet. -/
def answerCold : Answer :=
  match cfg.policyFailMode with
  | .closed =>
      { effects := []
        reply := .error (.http { statusCode := 503, detail := .str "policy cache not warm" }) }
  | .open_ =>
      let (verdict, reason) := failModeVerdict cfg.policyFailMode
      { effects := [.decision verdict]
        reply := .ok
          { verdict := verdict, ruleId := reason
            reason := "no policy cached; fail-open per tenant config"
            latencyMs := 0, stale := true } }

/-- The policy is stale. Without a time of refresh, `int(inf)` raises. -/
def answerStale (compiled : CompiledPolicy) (stale : StaleStatus) : Answer :=
  let (verdict, reason) := failModeVerdict cfg.policyFailMode
  { effects := [.decision verdict]
    reply :=
      match stale.secondsSinceRefresh with
      | none => .error (.raised (.other .overflowError))
      | some seconds => .ok
          { verdict := verdict, ruleId := reason
            reason := ("policy stale (" : Str) ++ reprInt (truncate seconds)
              ++ ("s since last sync); applying fail_mode=" : Str) ++ cfg.policyFailMode.text
            latencyMs := 0, policyId := some compiled.policyId
            policyVersion := some compiled.version, stale := true } }

/-- What the evaluator is asked. -/
def DecideRequest.input (body : DecideRequest) : EvaluationInput where
  tool := body.tool
  args := body.args
  subject := body.subject
  subjectAttrs := body.subjectAttrs

/-- `forwarded_subject`. -/
def forwardedSubject (body : DecideRequest) : Except Exc (Option Str) :=
  if cfg.telemetryOmitPayload then
    (hashSubject hash body.subject cfg.telemetrySubjectHashKey).map some
  else .ok body.subject

/-- The audit event of an evaluated request. -/
def auditEvent (rd : Readings) (agentId : Json) (body : DecideRequest)
    (compiled : CompiledPolicy) (result : EvaluationResult) : Except Exc AuditEvent := do
  let subject ← forwardedSubject hash cfg body
  buildAuditEvent hash rd.eventId rd.occurredAt cfg.tenantId
    { agentId := agentId
      subject := subject
      policyId := compiled.policyId
      verdict := result.verdict
      ruleId := result.ruleId
      reason := result.reason
      tool := body.tool
      args := if cfg.telemetryOmitPayload then ∅ else body.args
      redactions := result.redactions
      frameworkTags := result.matchedFrameworkTags
      latencyMs := result.latencyMs }

/-- The response to an evaluated request. -/
def evaluatedResponse (compiled : CompiledPolicy) (result : EvaluationResult) :
    DecideResponse where
  verdict := result.verdict
  ruleId := result.ruleId
  reason := result.reason
  redactions := result.redactions
  matchedFrameworkTags := result.matchedFrameworkTags
  latencyMs := result.latencyMs
  policyId := some compiled.policyId
  policyVersion := some compiled.version
  stale := false

/-- What an evaluated request does to the counters. -/
def counted (rd : Readings) (result : EvaluationResult) : List Effect :=
  [.cacheHit, .decision result.verdict, .latencyObserved rd.observedMs]

/-- A fresh policy: evaluate, audit, answer. -/
def answerFresh (enqueue : AuditEvent → Except Exc Bool) (rd : Readings) (agentId : Json)
    (body : DecideRequest) (compiled : CompiledPolicy) : Answer :=
  let result := evaluate rd.evaluateMs compiled body.input
  match auditEvent hash cfg rd agentId body compiled result with
  | .error e => { effects := counted rd result, reply := .error (.raised (.other e)) }
  | .ok event =>
      { effects := counted rd result ++ [.enqueue event]
        reply := (uncaught (enqueue event)).map (fun _ => evaluatedResponse compiled result) }

/-- The part after the routing, for the policy found. -/
def answerWith (enqueue : AuditEvent → Except Exc Bool) (cache : PolicyCache) (rd : Readings)
    (agentId : Json) (body : DecideRequest) : Option CompiledPolicy → Answer
  | none => answerCold cfg
  | some compiled =>
      let stale := status cache cfg.policyStaleThresholdSeconds rd.checkedAt
      if stale.isStale then answerStale cfg compiled stale
      else answerFresh hash cfg enqueue rd agentId body compiled

/-- The part after the token. -/
def answer (enqueue : AuditEvent → Except Exc Bool) (cache : PolicyCache) (rd : Readings)
    (agentId : Json) (body : DecideRequest) : Answer :=
  match requestedName cfg body with
  | some name =>
      match cache.compiledByName name with
      | none =>
          { effects := [.policyNotFound], reply := .error (.http (policyNotFound cache name)) }
      | some compiled => answerWith hash cfg enqueue cache rd agentId body (some compiled)
  | none => answerWith hash cfg enqueue cache rd agentId body cache.primaryCompiled

/-- `claims.agent_id or body.agent_id`. -/
def callerAgentId (claims : AgentTokenClaims) (body : DecideRequest) : Json :=
  if claims.agentId.truthy then claims.agentId else optStr body.agentId

/-- What a call of `decide` leaves and returns. -/
structure DecideOutcome where
  app : AppState
  effects : List Effect
  reply : Except Failure DecideResponse

/-- `decide`. -/
def decide (jwt : JwtLib) (enqueue : AuditEvent → Except Exc Bool) (disk : Disk)
    (cache : PolicyCache) (rd : Readings) (app : AppState) (authorization : Str)
    (body : DecideRequest) : DecideOutcome :=
  let checked := requireAgentToken jwt cfg disk rd.verifiedAt app authorization
  match checked.2 with
  | .error f => { app := checked.1, effects := [], reply := .error f }
  | .ok claims =>
      let a := answer hash cfg enqueue cache rd (callerAgentId claims body) body
      { app := checked.1, effects := a.effects, reply := a.reply }

end Deciding

end TrustModelEdge.Routes
