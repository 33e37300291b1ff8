/-
TrustModelEdge.Routes.DecideTheorems — what a call of `decide` answers.

`Situation` is the one case analysis of the handler after the token: name
missing, no policy, stale policy, fresh policy; each has its equation. On
them rests `closed_permits`, fail-closed safety over every reachable cache.
-/
import TrustModelEdge.Policy.CacheTheorems
import TrustModelEdge.Routes.Decide

namespace TrustModelEdge.Routes

open Py Policy OAuth Engine Telemetry Lib

/-! ## Routing -/

/-- The name whose policy a request is for: its own when multi-policy is on and
the name is not empty, the primary name otherwise. -/
def routedName (cfg : Settings) (cache : PolicyCache) (body : DecideRequest) : Option Str :=
  if cfg.multiPolicyEnabled = true ∧ body.policyName.getD [] ≠ [] then body.policyName
  else cache.primaryName

theorem routedName_eq (cfg : Settings) (cache : PolicyCache) (body : DecideRequest) :
    routedName cfg cache body = (requestedName cfg body).or cache.primaryName := by
  unfold routedName requestedName
  cases cfg.multiPolicyEnabled with
  | false => simp
  | true =>
    cases hn : body.policyName with
    | none => simp
    | some name => cases name <;> simp [Option.filter]

/-- The policy a request is decided by. -/
def routed (cfg : Settings) (cache : PolicyCache) (body : DecideRequest) :
    Option CompiledPolicy :=
  (routedName cfg cache body).bind cache.compiledByName

/-- A cold cache has no policy for the request. -/
theorem routed_of_cold {cfg : Settings} {cache : PolicyCache} {body : DecideRequest}
    (hreq : requestedName cfg body = none) (hnone : cache.primaryCompiled = none) :
    routed cfg cache body = none := by
  simpa [routed, routedName_eq, hreq, PolicyCache.primaryCompiled] using hnone

theorem routed_of_missing {cfg : Settings} {cache : PolicyCache} {body : DecideRequest}
    {name : Str} (hreq : requestedName cfg body = some name)
    (hmiss : cache.compiledByName name = none) : routed cfg cache body = none := by
  simp [routed, routedName_eq, hreq, hmiss]

/-- Where a request stands once its token is accepted, at the time `checkedAt`. -/
inductive Situation (cfg : Settings) (cache : PolicyCache) (checkedAt : Rat)
    (body : DecideRequest) : Prop where
  | nameMissing (name : Str) (hreq : requestedName cfg body = some name)
      (hmiss : cache.compiledByName name = none)
  | cold (hreq : requestedName cfg body = none) (hnone : cache.primaryCompiled = none)
  | stale (compiled : CompiledPolicy) (hfound : routed cfg cache body = some compiled)
      (hstale : (status cache cfg.policyStaleThresholdSeconds checkedAt).isStale = true)
  | fresh (compiled : CompiledPolicy) (hfound : routed cfg cache body = some compiled)
      (hfresh : (status cache cfg.policyStaleThresholdSeconds checkedAt).isStale = false)

theorem situation_of_found {cfg : Settings} {cache : PolicyCache} {body : DecideRequest}
    {compiled : CompiledPolicy} (checkedAt : Rat)
    (hfound : routed cfg cache body = some compiled) : Situation cfg cache checkedAt body := by
  cases hs : (status cache cfg.policyStaleThresholdSeconds checkedAt).isStale with
  | true => exact .stale compiled hfound hs
  | false => exact .fresh compiled hfound hs

theorem situation (cfg : Settings) (cache : PolicyCache) (checkedAt : Rat)
    (body : DecideRequest) : Situation cfg cache checkedAt body := by
  cases hreq : requestedName cfg body with
  | some name =>
    cases hc : cache.compiledByName name with
    | none => exact .nameMissing name hreq hc
    | some compiled =>
      have hfound : routed cfg cache body = some compiled := by
        simp [routed, routedName_eq, hreq, hc]
      exact situation_of_found checkedAt hfound
  | none =>
    cases hc : cache.primaryCompiled with
    | none => exact .cold hreq hc
    | some compiled =>
      have hfound : routed cfg cache body = some compiled := by
        simpa [routed, routedName_eq, hreq, PolicyCache.primaryCompiled] using hc
      exact situation_of_found checkedAt hfound

section Handler

variable [PyRuntime]

section Cases

variable {hash : HashLib} {cfg : Settings} {enqueue : AuditEvent → Except Exc Bool}
  {cache : PolicyCache} {rd : Readings} {agentId : Json} {body : DecideRequest}

theorem answer_of_missing {name : Str} (hreq : requestedName cfg body = some name)
    (hmiss : cache.compiledByName name = none) :
    answer hash cfg enqueue cache rd agentId body =
      { effects := [.policyNotFound], reply := .error (.http (policyNotFound cache name)) } := by
  simp only [answer, hreq, hmiss]

theorem answer_of_cold (hreq : requestedName cfg body = none)
    (hnone : cache.primaryCompiled = none) :
    answer hash cfg enqueue cache rd agentId body = answerCold cfg := by
  simp only [answer, hreq, hnone, answerWith]

variable {compiled : CompiledPolicy}

theorem answer_of_found (hfound : routed cfg cache body = some compiled) :
    answer hash cfg enqueue cache rd agentId body =
      answerWith hash cfg enqueue cache rd agentId body (some compiled) := by
  rw [routed, routedName_eq] at hfound
  cases hreq : requestedName cfg body with
  | some name =>
    have hc : cache.compiledByName name = some compiled := by simpa [hreq] using hfound
    simp only [answer, hreq, hc]
  | none =>
    have hc : cache.primaryCompiled = some compiled := by
      simpa [hreq, PolicyCache.primaryCompiled] using hfound
    simp only [answer, hreq, hc]

theorem answer_of_stale (hfound : routed cfg cache body = some compiled)
    (hstale : (status cache cfg.policyStaleThresholdSeconds rd.checkedAt).isStale = true) :
    answer hash cfg enqueue cache rd agentId body =
      answerStale cfg compiled (status cache cfg.policyStaleThresholdSeconds rd.checkedAt) := by
  rw [answer_of_found hfound]
  simp only [answerWith, hstale, if_true]

theorem answer_of_fresh (hfound : routed cfg cache body = some compiled)
    (hfresh : (status cache cfg.policyStaleThresholdSeconds rd.checkedAt).isStale = false) :
    answer hash cfg enqueue cache rd agentId body =
      answerFresh hash cfg enqueue rd agentId body compiled := by
  rw [answer_of_found hfound]
  simp only [answerWith, hfresh, Bool.false_eq_true, if_false]

theorem answerFresh_unbuilt {e : Exc}
    (h : auditEvent hash cfg rd agentId body compiled
      (evaluate rd.evaluateMs compiled body.input) = .error e) :
    answerFresh hash cfg enqueue rd agentId body compiled =
      { effects := counted rd (evaluate rd.evaluateMs compiled body.input)
        reply := .error (.raised (.other e)) } := by
  simp only [answerFresh, h]

theorem answerFresh_built {event : AuditEvent}
    (h : auditEvent hash cfg rd agentId body compiled
      (evaluate rd.evaluateMs compiled body.input) = .ok event) :
    answerFresh hash cfg enqueue rd agentId body compiled =
      { effects :=
          counted rd (evaluate rd.evaluateMs compiled body.input) ++ [.enqueue event]
        reply := (uncaught (enqueue event)).map
          (fun _ => evaluatedResponse compiled (evaluate rd.evaluateMs compiled body.input)) } := by
  simp only [answerFresh, h]

/-- The response of an evaluated request, when there is one. -/
theorem answerFresh_response {resp : DecideResponse}
    (h : (answerFresh hash cfg enqueue rd agentId body compiled).reply = .ok resp) :
    resp = evaluatedResponse compiled (evaluate rd.evaluateMs compiled body.input) := by
  cases hev : auditEvent hash cfg rd agentId body compiled
      (evaluate rd.evaluateMs compiled body.input) with
  | error e => simp [answerFresh_unbuilt hev] at h
  | ok event =>
    rw [answerFresh_built hev] at h
    cases he : enqueue event with
    | error e => simp [he, uncaught, Except.map] at h
    | ok b => simpa [he, uncaught, Except.map] using h.symm

end Cases

section Calls

variable {hash : HashLib} {cfg : Settings} {jwt : JwtLib}
  {enqueue : AuditEvent → Except Exc Bool} {disk : Disk} {cache : PolicyCache} {rd : Readings}
  {app : AppState} {authorization : Str} {body : DecideRequest}

theorem decide_of_refused {f : Failure}
    (h : (requireAgentToken jwt cfg disk rd.verifiedAt app authorization).2 = .error f) :
    decide hash cfg jwt enqueue disk cache rd app authorization body =
      { app := (requireAgentToken jwt cfg disk rd.verifiedAt app authorization).1
        effects := [], reply := .error f } := by
  simp only [decide, h]

theorem decide_of_authorised {claims : AgentTokenClaims}
    (h : (requireAgentToken jwt cfg disk rd.verifiedAt app authorization).2 = .ok claims) :
    decide hash cfg jwt enqueue disk cache rd app authorization body =
      { app := (requireAgentToken jwt cfg disk rd.verifiedAt app authorization).1
        effects :=
          (answer hash cfg enqueue cache rd (callerAgentId claims body) body).effects
        reply := (answer hash cfg enqueue cache rd (callerAgentId claims body) body).reply } := by
  simp only [decide, h]

/-- The key cache changes only in the token check. -/
theorem decide_app :
    (decide hash cfg jwt enqueue disk cache rd app authorization body).app =
      (requireAgentToken jwt cfg disk rd.verifiedAt app authorization).1 := by
  cases h : (requireAgentToken jwt cfg disk rd.verifiedAt app authorization).2 with
  | error f => rw [decide_of_refused h]
  | ok claims => rw [decide_of_authorised h]

theorem verifyAgentToken_ok_iff {now : Rat} {token : Str} {publicKeyPem : Bytes}
    {claims : AgentTokenClaims} :
    verifyAgentToken jwt now token publicKeyPem = .ok claims ↔
      ∃ payload, jwt.decode now token publicKeyPem = .ok payload ∧
        readClaims payload = .ok claims := by
  unfold verifyAgentToken
  cases hd : jwt.decode now token publicKeyPem with
  | error e => cases e <;> simp
  | ok payload => cases hr : readClaims payload <;> simp [raising, hr]

/-- A call passes with a token that verifies and carries the scope. -/
theorem requireAgentToken_ok_iff {now : Rat} {claims : AgentTokenClaims} :
    (requireAgentToken jwt cfg disk now app authorization).2 = .ok claims ↔
      ∃ token publicKeyPem, bearerToken authorization = .ok token ∧
        (publicKey jwt cfg disk app).2 = .ok publicKeyPem ∧
        verifyAgentToken jwt now token publicKeyPem = .ok claims ∧
        governEnforce ∈ claims.scopes := by
  unfold requireAgentToken
  cases hb : bearerToken authorization with
  | error f => simp
  | ok token =>
    cases hk : (publicKey jwt cfg disk app).2 with
    | error e => cases e <;> simp [verifyingKey, bind, Except.bind]
    | ok publicKeyPem =>
      cases hv : verifyAgentToken jwt now token publicKeyPem with
      | error e => cases e <;> simp [hv, verifyingKey, verifiedClaims, bind, Except.bind]
      | ok claims' =>
        simp only [hv, verifyingKey, verifiedClaims, requireScope, bind, Except.bind,
          Except.ok.injEq, exists_and_left, exists_eq_left']
        by_cases hs : governEnforce ∈ claims'.scopes
        · simp only [hs, if_true, Except.ok.injEq]
          constructor
          · intro h
            exact ⟨h, h ▸ hs⟩
          · exact fun h => h.1
        · simp only [hs, if_false, reduceCtorEq, false_iff, not_and]
          intro h
          exact h ▸ hs

end Calls

/-! ## Fail-closed safety -/

section Permits

variable {hash : HashLib} {cfg : Settings}

/-- What must hold for a call at `rd` to answer with a verdict other than
deny: the token, the age of the cache, and the policy that gave the verdict,
the last of its name in the latest install. -/
structure Permitted (jwt : JwtLib) (cfg : Settings) (disk : Disk) (cache : PolicyCache)
    (latest : List EdgePolicy) (rd : Readings) (app : AppState) (authorization : Str)
    (body : DecideRequest) (resp : DecideResponse) : Prop where
  token : ∃ token publicKeyPem claims, bearerToken authorization = .ok token ∧
    (publicKey jwt cfg disk app).2 = .ok publicKeyPem ∧
    verifyAgentToken jwt rd.verifiedAt token publicKeyPem = .ok claims ∧
    governEnforce ∈ claims.scopes
  recent : ∃ last, cache.lastSuccessAt = some last ∧
    rd.checkedAt - last ≤ cfg.policyStaleThresholdSeconds
  evaluated : ∃ name snap policy, routedName cfg cache body = some name ∧
    cache.snapshots.lookup name = some snap ∧
    lastWith bundleName name latest = some policy ∧
    snap.edgePolicy = policy ∧ snap.compiled = compile policy ∧
    resp.policyId = some policy.id ∧
    resp.verdict = (evaluate rd.evaluateMs snap.compiled
      { tool := body.tool, args := body.args, subject := body.subject
        subjectAttrs := body.subjectAttrs }).verdict

omit [PyRuntime] in
/-- A cache that is not stale has a time of refresh within the threshold. -/
theorem recent_of_fresh {cache : PolicyCache} {threshold : Nat} {now : Rat}
    (h : (status cache threshold now).isStale = false) :
    ∃ last, cache.lastSuccessAt = some last ∧ now - last ≤ threshold := by
  unfold status at h
  cases hl : cache.lastSuccessAt with
  | none => simp [hl] at h
  | some last =>
    simp only [hl, decide_eq_false_iff_not, gt_iff_lt, not_lt] at h
    exact ⟨last, rfl, h⟩

/-- The routed policy of an installed cache is the last of its name in the
latest install, compiled. -/
theorem routed_of_installed {installs : List (Option (List EdgePolicy))} {cache : PolicyCache}
    (hc : Installed installs cache) {body : DecideRequest} {compiled : CompiledPolicy}
    (h : routed cfg cache body = some compiled) :
    ∃ name snap policy, routedName cfg cache body = some name ∧
      cache.snapshots.lookup name = some snap ∧
      lastWith bundleName name (latestInstall installs) = some policy ∧
      snap.edgePolicy = policy ∧ snap.compiled = compile policy ∧ snap.compiled = compiled := by
  obtain ⟨name, hname, hcomp⟩ := Option.bind_eq_some_iff.mp h
  obtain ⟨snap, hsnap, hcompiled⟩ := Option.map_eq_some_iff.mp hcomp
  have hserved := hc.served name
  rw [hsnap, Option.map_some] at hserved
  exact ⟨name, snap, snap.edgePolicy, hname, hsnap, hserved.symm, rfl,
    (hc.inv.keyed name snap hsnap).2, hcompiled⟩

/-- **Fail-closed safety.** In the closed fail mode, from every cache that
installs and loads can reach, a 200 with a verdict other than deny comes
from an accepted token, a recent cache and the routed policy itself. -/
theorem closed_permits (wire : PolicyWire) (ops : List CacheOp) (jwt : JwtLib)
    (enqueue : AuditEvent → Except Exc Bool) (disk : Disk) (rd : Readings) (app : AppState)
    (authorization : Str) (body : DecideRequest) (resp : DecideResponse)
    (hclosed : cfg.policyFailMode = .closed)
    (hreply : (decide hash cfg jwt enqueue disk (final (cacheStep wire) {} ops) rd app
      authorization body).reply = .ok resp)
    (hverdict : resp.verdict ≠ "deny") :
    Permitted jwt cfg disk (final (cacheStep wire) {} ops)
      (latestInstall (trace (cacheStep wire) {} ops)) rd app authorization body resp := by
  have hinst := installed_run wire ops
  generalize final (cacheStep wire) {} ops = cache at hreply hinst ⊢
  cases hck : (requireAgentToken jwt cfg disk rd.verifiedAt app authorization).2 with
  | error f => rw [decide_of_refused hck] at hreply; simp at hreply
  | ok claims =>
    rw [decide_of_authorised hck] at hreply
    simp only at hreply
    cases situation cfg cache rd.checkedAt body with
    | nameMissing name hreq hmiss => rw [answer_of_missing hreq hmiss] at hreply; simp at hreply
    | cold hreq hnone =>
      rw [answer_of_cold hreq hnone] at hreply
      simp [answerCold, hclosed] at hreply
    | stale compiled hfound hstale =>
      rw [answer_of_stale hfound hstale] at hreply
      simp only [answerStale, hclosed, failModeVerdict] at hreply
      split at hreply
      · simp at hreply
      · obtain rfl := Except.ok.inj hreply
        exact absurd rfl hverdict
    | fresh compiled hfound hfresh =>
      rw [answer_of_fresh hfound hfresh] at hreply
      obtain ⟨token, publicKeyPem, htoken⟩ := requireAgentToken_ok_iff.mp hck
      refine ⟨⟨token, publicKeyPem, claims, htoken⟩, recent_of_fresh hfresh, ?_⟩
      obtain ⟨name, snap, policy, hname, hsnap, hlast, hpol, hcomp, rfl⟩ :=
        routed_of_installed hinst hfound
      refine ⟨name, snap, policy, hname, hsnap, hlast, hpol, hcomp, ?_⟩
      obtain rfl := answerFresh_response hreply
      exact ⟨by rw [hcomp]; rfl, rfl⟩

end Permits

end Handler

/-! A concrete edge: one client, one key pair, one agent token, and a policy
that allows every tool. -/

def demoSettings (mode : FailMode) : Settings where
  tenantId := "acme"
  stateDir := ["state"]
  policyFailMode := mode

def demoKeyPem : Str := "key"

def demoPublicPem : Bytes := asciiBytes "pub"

def demoToken : Str := "header.payload.signature"

/-- What the token at time 1000 carries. -/
def demoPayload : Json :=
  agentPayload "edge:acme" "client-1" (some "agent-1") ["govern:enforce"] 1000 4600

/-- RS256 on the one payload and the one key pair of the examples. -/
def demoJwt : JwtLib where
  encode := fun payload key =>
    if payload.pyEq demoPayload && key == demoKeyPem then .ok demoToken else .error .valueError
  decode := fun now token key =>
    if token ≠ demoToken ∨ key ≠ demoPublicPem then
      .error (.pyJwtError "Signature verification failed")
    else if now < 4600 then .ok demoPayload
    else .error (.pyJwtError "Signature has expired")
  publicPem := fun key =>
    if key = asciiBytes demoKeyPem then .ok demoPublicPem else .error .valueError

/-- PBKDF2 of `secret` with `salt`, once. -/
def demoDerived : Bytes :=
  [56, 223, 66, 139, 48, 147, 8, 228, 140, 54, 135, 231, 249, 11, 218, 14, 156, 242, 83, 86,
   140, 33, 236, 117, 74, 14, 7, 106, 180, 171, 100, 35]

/-- PBKDF2 with the sentinel's salt and count: of the sentinel, and of `secret`. -/
def sentinelDerived : Bytes :=
  [37, 99, 111, 49, 88, 49, 120, 60, 64, 13, 141, 253, 134, 8, 227, 66, 68, 71, 29, 230, 83,
   139, 221, 45, 169, 228, 89, 210, 167, 187, 164, 156]

def sentinelDerivedSecret : Bytes :=
  [252, 87, 56, 128, 37, 60, 4, 121, 136, 230, 135, 97, 139, 182, 99, 122, 112, 153, 166, 4,
   250, 196, 112, 193, 99, 88, 29, 141, 19, 82, 130, 128]

/-- The hashes that the examples compute. -/
def demoHash : HashLib where
  pbkdf2 := fun password salt iterations =>
    if salt = asciiBytes "salt" ∧ iterations = 1 then
      if password = asciiBytes "secret" then .ok demoDerived else .error .valueError
    else if iterations = 600000 then
      if password = asciiBytes "secret" then .ok sentinelDerivedSecret else .ok sentinelDerived
    else .error .valueError
  hmacSha256 := fun key message =>
    if key = asciiBytes "k1" ∧ message = asciiBytes "user-1"
    then "f777eb2184e7828d6320167d8dd0a054326f1700dbcb1ecfc9f567458234f8ad" else []
  uuid5 := fun name =>
    if name = asciiBytes "acme" then "a719dee4-7b82-5596-b97a-a5543842c9f9" else []

def demoClient : AuthorizedClient where
  clientId := "client-1"
  clientSecretHash := "pbkdf2_sha256$1$salt$ON9CizCTCOSMNofn+QvaDpzyU1aMIex1Sg4HarSrZCM="
  allowedScopes := ["govern:enforce"]
  agentId := some "agent-1"

def allowAll : EdgePolicy where
  id := "pol-1"
  tenantId := "acme"
  name := "demo"
  version := "1"
  bundle :=
    { name := "demo"
      version := "1"
      rules := [{ ruleId := "any", when := AList.singleton ("tool" : Str) (.str "*"),
                  then_ := "allow" }] }
  isActive := true
  isPrimary := true
  createdAt := 0
  authorizedClients := [demoClient]

/-- A process that has loaded its keys. -/
def demoApp : AppState where
  oauthPrivateKeyPem := some demoKeyPem
  oauthPublicKeyPem := some demoPublicPem

def demoReadings : Readings where
  verifiedAt := 1100
  checkedAt := 1100
  evaluateMs := 0
  observedMs := 0
  eventId := "e-1"
  occurredAt := "1970-01-01T00:18:20+00:00"

def demoAuthorization : Str := ("Bearer " : Str) ++ demoToken

def demoBody : DecideRequest where
  tool := "mail.send"

/-- The cache after one `replace` at time 1000. -/
def demoOps : List CacheOp := [.replace 1000 allowAll]

/-- Text forms that nothing parses: a run that loads nothing reads none. -/
def noWire : PolicyWire where
  json := { loads := fun _ => .error .jsonDecodeError, dumps := fun _ => [] }
  validate := fun _ => .error .validationError
  dump := fun _ => .ok []

/-- An allow verdict in the closed fail mode, with what it rests on. -/
theorem closed_permits_allow :
    let cfg := demoSettings .closed
    let cache := final (@cacheStep asciiRuntime noWire) {} demoOps
    let latest := latestInstall (trace (@cacheStep asciiRuntime noWire) {} demoOps)
    ∃ resp, (@decide asciiRuntime demoHash cfg demoJwt (fun _ => .ok true) .empty cache
        demoReadings demoApp demoAuthorization demoBody).reply = .ok resp ∧
      resp.verdict = "allow" ∧
      @Permitted asciiRuntime demoJwt cfg .empty cache latest demoReadings demoApp
        demoAuthorization demoBody resp := by
  intro cfg cache latest
  have hrun : ((@decide asciiRuntime demoHash cfg demoJwt (fun _ => .ok true) .empty cache
      demoReadings demoApp demoAuthorization demoBody).reply.toOption.map (·.verdict)) =
        some ("allow" : Str) := by decide +kernel
  cases hreply : (@decide asciiRuntime demoHash cfg demoJwt (fun _ => .ok true) .empty cache
      demoReadings demoApp demoAuthorization demoBody).reply with
  | error f => simp [hreply, Except.toOption] at hrun
  | ok resp =>
    have hallow : resp.verdict = "allow" := by simpa [hreply, Except.toOption] using hrun
    have hne : ("allow" : Str) ≠ ("deny" : Str) := by decide
    exact ⟨resp, rfl, hallow, @closed_permits asciiRuntime demoHash cfg noWire demoOps demoJwt
      (fun _ => .ok true) .empty demoReadings demoApp demoAuthorization demoBody resp rfl hreply
      (by rw [hallow]; exact hne)⟩

end TrustModelEdge.Routes
