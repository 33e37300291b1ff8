/-
TrustModelEdge.Routes.FailModeTheorems — when `decide` falls back to the
fail mode.

The handler tests three things in turn: whether the requested name is
cached, whether there is a policy at all, whether the cache is stale. The
results follow the `Situation` of a request. Two of them are neither of an
empty nor of a stale cache: a name that the cache does not hold (400 in
either mode), and a warm cache without a primary asked without a name.
-/
import TrustModelEdge.Routes.DecideTheorems

namespace TrustModelEdge.Routes

open Py Policy OAuth Engine Telemetry Lib

/-! ## The outcomes of the fail mode -/

/-- The reply for want of any policy. -/
def ColdReply : FailMode → Except Failure DecideResponse → Prop
  | .closed, reply =>
      reply = .error (.http { statusCode := 503, detail := .str "policy cache not warm" })
  | .open_, reply => ∃ resp, reply = .ok resp ∧ resp.verdict = "allow" ∧ resp.stale = true

/-- The reply on a stale cache: deny or allow, marked stale. -/
def StaleReply (mode : FailMode) (reply : Except Failure DecideResponse) : Prop :=
  ∃ resp, reply = .ok resp ∧ resp.verdict = (failModeVerdict mode).1 ∧ resp.stale = true

/-- The reply is an outcome of the fail mode. -/
def FailModeReply (mode : FailMode) (reply : Except Failure DecideResponse) : Prop :=
  ColdReply mode reply ∨ StaleReply mode reply

/-- The last success is older than the threshold. -/
def Outdated (cfg : Settings) (cache : PolicyCache) (now : Rat) : Prop :=
  ∃ last, cache.lastSuccessAt = some last ∧ (cfg.policyStaleThresholdSeconds : Rat) < now - last

/-- The request names a policy that is not cached. -/
def NameMissing (cfg : Settings) (cache : PolicyCache) (body : DecideRequest) : Prop :=
  ∃ name, requestedName cfg body = some name ∧ cache.compiledByName name = none

/-- The request names no policy, and the cache holds policies but no primary. -/
def NoPrimary (cfg : Settings) (cache : PolicyCache) (body : DecideRequest) : Prop :=
  requestedName cfg body = none ∧ cache.isWarm = true ∧ cache.primaryName = none

variable {cfg : Settings} {cache : PolicyCache} {body : DecideRequest} {now : Rat}

/-! ## Situations and the state of the cache -/

theorem compiledByName_of_empty (h : cache.isWarm = false) (name : Str) :
    cache.compiledByName name = none := by
  have hentries : cache.snapshots.entries = [] := by simpa [PolicyCache.isWarm] using h
  have hlookup : cache.snapshots.lookup name = none := by
    simp [AList.lookup, hentries]
  simp [PolicyCache.compiledByName, hlookup]

theorem routed_of_empty (h : cache.isWarm = false) : routed cfg cache body = none := by
  simp [routed, compiledByName_of_empty h]

/-- In an installed cache, a primary that is set is found. -/
theorem primaryCompiled_eq_none [PyRuntime] (hc : CacheInv cache)
    (h : cache.primaryCompiled = none) : cache.primaryName = none := by
  cases hp : cache.primaryName with
  | none => rfl
  | some name =>
    have hmem := hc.primary name hp
    obtain ⟨snap, hsnap⟩ := Option.isSome_iff_exists.mp (AList.lookup_isSome.mpr hmem)
    simp [PolicyCache.primaryCompiled, PolicyCache.compiledByName, hp, hsnap] at h

theorem isStale_iff [PyRuntime] (hc : CacheInv cache) (hwarm : cache.isWarm = true) :
    (status cache cfg.policyStaleThresholdSeconds now).isStale = true ↔
      Outdated cfg cache now := by
  unfold status Outdated
  cases hl : cache.lastSuccessAt with
  | none => exact absurd hl (hc.dated hwarm)
  | some last => simp

theorem warm_of_routed {compiled : CompiledPolicy} (h : routed cfg cache body = some compiled) :
    cache.isWarm = true := by
  cases hw : cache.isWarm with
  | true => rfl
  | false =>
    rw [routed_of_empty hw] at h
    cases h

/-! ## The reply in each situation -/

section Reply

variable [PyRuntime] {hash : HashLib} {enqueue : AuditEvent → Except Exc Bool} {rd : Readings}
  {agentId : Json}

omit [PyRuntime] in
theorem coldReply_answerCold : ColdReply cfg.policyFailMode (answerCold cfg).reply := by
  unfold answerCold
  cases hmode : cfg.policyFailMode with
  | closed => rfl
  | open_ => exact ⟨_, rfl, rfl, rfl⟩

/-- A stale answer is given only where the time of the last success is known. -/
theorem staleReply_answerStale {compiled : CompiledPolicy} (hc : CacheInv cache)
    (hwarm : cache.isWarm = true) :
    StaleReply cfg.policyFailMode
      (answerStale cfg compiled
        (status cache cfg.policyStaleThresholdSeconds rd.checkedAt)).reply := by
  unfold status
  cases hl : cache.lastSuccessAt with
  | none => exact absurd hl (hc.dated hwarm)
  | some last => exact ⟨_, rfl, rfl, rfl⟩

/-- An evaluated request is not answered by the fail mode. -/
theorem not_failModeReply_answerFresh {compiled : CompiledPolicy} :
    ¬ FailModeReply cfg.policyFailMode
      (answerFresh hash cfg enqueue rd agentId body compiled).reply := by
  have hfresh : ∀ resp, (answerFresh hash cfg enqueue rd agentId body compiled).reply = .ok resp →
      resp.stale = false := by
    intro resp h
    rw [answerFresh_response h]
    rfl
  have hraised : ∀ e, (answerFresh hash cfg enqueue rd agentId body compiled).reply ≠
      .error (.http e) := by
    intro e h
    cases hev : auditEvent hash cfg rd agentId body compiled
        (evaluate rd.evaluateMs compiled body.input) with
    | error x => simp [answerFresh_unbuilt hev] at h
    | ok event =>
      rw [answerFresh_built hev] at h
      cases hq : enqueue event <;> simp [hq, uncaught, Except.map] at h
  rintro (h | ⟨resp, h, -, hs⟩)
  · cases hmode : cfg.policyFailMode with
    | closed =>
      rw [hmode] at h
      exact hraised _ h
    | open_ =>
      rw [hmode] at h
      obtain ⟨resp, h, -, hs⟩ := h
      rw [hfresh resp h] at hs
      cases hs
  · rw [hfresh resp h] at hs
    cases hs

end Reply

/-- What the fail mode of `decide` comes to, for a reply to an accepted token. -/
structure FailModeSpec [PyRuntime] (cfg : Settings) (cache : PolicyCache) (rd : Readings)
    (body : DecideRequest) (reply : Except Failure DecideResponse) : Prop where
  /-- A name that the cache does not hold is refused in either mode. -/
  nameMissing : ∀ name, requestedName cfg body = some name → cache.compiledByName name = none →
    reply = .error (.http (policyNotFound cache name))
  /-- Without a primary, a request without a name is refused when the mode is
  closed. -/
  noPrimary : NoPrimary cfg cache body → cfg.policyFailMode = .closed →
    ColdReply cfg.policyFailMode reply
  empty : ¬ NameMissing cfg cache body → cache.isWarm = false →
    ColdReply cfg.policyFailMode reply
  stale : ¬ NameMissing cfg cache body → ¬ NoPrimary cfg cache body → cache.isWarm = true →
    Outdated cfg cache rd.checkedAt → StaleReply cfg.policyFailMode reply
  iff_empty_or_stale : ¬ NameMissing cfg cache body → ¬ NoPrimary cfg cache body →
    (FailModeReply cfg.policyFailMode reply ↔
      cache.isWarm = false ∨ Outdated cfg cache rd.checkedAt)
  /-- Warm and fresh, a 200 is the evaluator's answer on the routed policy. -/
  fresh : ¬ NoPrimary cfg cache body → cache.isWarm = true → ¬ Outdated cfg cache rd.checkedAt →
    ∀ resp, reply = .ok resp → ∃ compiled, routed cfg cache body = some compiled ∧
      resp = evaluatedResponse compiled (evaluate rd.evaluateMs compiled body.input)

section Spec

variable [PyRuntime] {hash : HashLib} {enqueue : AuditEvent → Except Exc Bool} {rd : Readings}
  {agentId : Json}

omit [PyRuntime] in
theorem not_nameMissing_of_routed {compiled : CompiledPolicy}
    (h : routed cfg cache body = some compiled) : ¬ NameMissing cfg cache body := by
  rintro ⟨name, hreq, hmiss⟩
  rw [routed_of_missing hreq hmiss] at h
  cases h

omit [PyRuntime] in
theorem not_noPrimary_of_routed {compiled : CompiledPolicy}
    (h : routed cfg cache body = some compiled) : ¬ NoPrimary cfg cache body := by
  rintro ⟨hreq, -, hprim⟩
  simp [routed, routedName_eq, hreq, hprim] at h

/-- Of a request that is routed to a policy only the age matters. -/
theorem failModeSpec_of_routed {compiled : CompiledPolicy} {reply : Except Failure DecideResponse}
    (hfound : routed cfg cache body = some compiled)
    (hstale : Outdated cfg cache rd.checkedAt → StaleReply cfg.policyFailMode reply)
    (hiff : FailModeReply cfg.policyFailMode reply ↔ Outdated cfg cache rd.checkedAt)
    (hfresh : ¬ Outdated cfg cache rd.checkedAt → ∀ resp, reply = .ok resp →
      resp = evaluatedResponse compiled (evaluate rd.evaluateMs compiled body.input)) :
    FailModeSpec cfg cache rd body reply where
  nameMissing := fun name hreq hmiss =>
    absurd ⟨name, hreq, hmiss⟩ (not_nameMissing_of_routed hfound)
  noPrimary := fun h => absurd h (not_noPrimary_of_routed hfound)
  empty := fun _ hcold => by simp [warm_of_routed hfound] at hcold
  stale := fun _ _ _ => hstale
  iff_empty_or_stale := fun _ _ => by simp [hiff, warm_of_routed hfound]
  fresh := fun _ _ hrecent resp h => ⟨compiled, hfound, hfresh hrecent resp h⟩

/-- One case per situation. -/
theorem failModeSpec_answer (hc : CacheInv cache) :
    FailModeSpec cfg cache rd body (answer hash cfg enqueue cache rd agentId body).reply := by
  cases situation cfg cache rd.checkedAt body with
  | nameMissing name hreq hmiss =>
    have hmissing : NameMissing cfg cache body := ⟨name, hreq, hmiss⟩
    have hnot : ¬ NoPrimary cfg cache body := by
      rintro ⟨hnone, -, -⟩
      rw [hreq] at hnone
      cases hnone
    rw [answer_of_missing hreq hmiss]
    refine ⟨?_, fun h => absurd h hnot, fun h => absurd hmissing h, fun h => absurd hmissing h,
      fun h => absurd hmissing h, ?_⟩
    · intro name' hreq' _
      rw [hreq] at hreq'
      rw [Option.some.inj hreq']
    · intro _ _ _ resp h
      cases h
  | cold hreq hnone =>
    have hprim := primaryCompiled_eq_none hc hnone
    have hcold : ColdReply cfg.policyFailMode (answerCold cfg).reply := coldReply_answerCold
    -- where the cache is warm, this is the situation without a primary
    have hempty : ¬ NoPrimary cfg cache body → cache.isWarm = false := by
      intro h
      cases hw : cache.isWarm with
      | false => rfl
      | true => exact absurd ⟨hreq, hw, hprim⟩ h
    rw [answer_of_cold hreq hnone]
    refine ⟨?_, fun _ _ => hcold, fun _ _ => hcold, ?_, ?_, ?_⟩
    · intro name hname
      rw [hreq] at hname
      cases hname
    · intro _ h hwarm
      rw [hempty h] at hwarm
      cases hwarm
    · intro _ h
      exact iff_of_true (Or.inl hcold) (Or.inl (hempty h))
    · intro h hwarm
      rw [hempty h] at hwarm
      cases hwarm
  | stale compiled hfound hstale =>
    have hwarm := warm_of_routed hfound
    have hold : Outdated cfg cache rd.checkedAt := (isStale_iff hc hwarm).mp hstale
    have hreply : StaleReply cfg.policyFailMode (answerStale cfg compiled
        (status cache cfg.policyStaleThresholdSeconds rd.checkedAt)).reply :=
      staleReply_answerStale hc hwarm
    rw [answer_of_stale hfound hstale]
    exact failModeSpec_of_routed hfound (fun _ => hreply) (iff_of_true (Or.inr hreply) hold)
      (fun h => absurd hold h)
  | fresh compiled hfound hfresh =>
    have hrecent : ¬ Outdated cfg cache rd.checkedAt := by
      rw [← isStale_iff hc (warm_of_routed hfound), hfresh]
      simp
    rw [answer_of_fresh hfound hfresh]
    exact failModeSpec_of_routed hfound (fun h => absurd h hrecent)
      (iff_of_false not_failModeReply_answerFresh hrecent)
      (fun _ resp h => answerFresh_response h)

end Spec

/-- **When the fail mode applies.** For every configuration, every cache that
installs and loads can reach, every time and every request with an accepted
token: apart from a requested name that is not cached, and from a warm cache
without a primary asked without a name, the reply is an outcome of the fail
mode exactly on an empty or outdated cache. -/
theorem fail_mode_applies [PyRuntime] (hash : HashLib) (cfg : Settings) (wire : PolicyWire)
    (ops : List CacheOp) (jwt : JwtLib) (enqueue : AuditEvent → Except Exc Bool) (disk : Disk)
    (rd : Readings) (app : AppState) (authorization : Str) (body : DecideRequest)
    (hauth : ∃ claims,
      (requireAgentToken jwt cfg disk rd.verifiedAt app authorization).2 = .ok claims) :
    let cache := final (cacheStep wire) {} ops
    FailModeSpec cfg cache rd body
      (decide hash cfg jwt enqueue disk cache rd app authorization body).reply := by
  obtain ⟨claims, hclaims⟩ := hauth
  intro cache
  rw [decide_of_authorised hclaims]
  exact failModeSpec_answer (installed_run wire ops).inv

/-! Requests of the concrete edge. -/

def multiSettings (mode : FailMode) : Settings :=
  { demoSettings mode with multiPolicyEnabled := true }

/-- The same, where a policy is stale after a minute. -/
def hastySettings (mode : FailMode) : Settings :=
  { multiSettings mode with policyStaleThresholdSeconds := 60, stale_ge := le_refl 60 }

def namedBody : DecideRequest where
  tool := "mail.send"
  policyName := some "other"

/-- Policies without a primary, installed at time 1000. -/
def noPrimaryOps : List CacheOp := [.replaceAll 1000 [allowAll] none]

theorem demo_authorised (mode : FailMode) : ∃ claims,
    (@requireAgentToken asciiRuntime demoJwt (multiSettings mode) .empty demoReadings.verifiedAt
      demoApp demoAuthorization).2 = .ok claims := by
  have hrun : (@requireAgentToken asciiRuntime demoJwt (multiSettings mode) .empty
      demoReadings.verifiedAt demoApp demoAuthorization).2.toOption.isSome = true := by
    cases mode <;> decide +kernel
  exact isSome_toOption.mp hrun

theorem hasty_authorised (mode : FailMode) : ∃ claims,
    (@requireAgentToken asciiRuntime demoJwt (hastySettings mode) .empty demoReadings.verifiedAt
      demoApp demoAuthorization).2 = .ok claims := demo_authorised mode

/-- An unknown name on an empty cache, then the request without a name on a policy
that is a hundred seconds old: stale where the threshold is a minute, and evaluated
where it is two hours. -/
theorem fail_mode_applies_aged :
    let cold := final (@cacheStep asciiRuntime noWire) {} []
    let aged := final (@cacheStep asciiRuntime noWire) {} demoOps
    let reply := fun cfg cache body => (@decide asciiRuntime demoHash cfg demoJwt
      (fun _ => .ok true) .empty cache demoReadings demoApp demoAuthorization body).reply
    reply (multiSettings .closed) cold namedBody =
        .error (.http (@policyNotFound asciiRuntime cold "other")) ∧
      StaleReply .closed (reply (hastySettings .closed) aged demoBody) ∧
      ∃ compiled, routed (multiSettings .closed) aged demoBody = some compiled ∧
        reply (multiSettings .closed) aged demoBody = .ok (evaluatedResponse compiled
          (@evaluate asciiRuntime demoReadings.evaluateMs compiled demoBody.input)) := by
  intro cold aged reply
  have hspec := fun cfg ops body hauth => @fail_mode_applies asciiRuntime demoHash cfg noWire ops
    demoJwt (fun _ => .ok true) .empty demoReadings demoApp demoAuthorization body hauth
  have hnamed : ∀ cfg, ¬ NameMissing cfg aged demoBody := by
    rintro cfg ⟨name, hname, -⟩
    have hnone : requestedName cfg demoBody = none := by
      cases hmulti : cfg.multiPolicyEnabled <;> simp [requestedName, hmulti, demoBody]
    rw [hnone] at hname
    cases hname
  have hprimary : ∀ cfg, ¬ NoPrimary cfg aged demoBody := by
    rintro cfg ⟨-, -, hprim⟩
    cases hprim
  refine ⟨?_, ?_, ?_⟩
  · exact @FailModeSpec.nameMissing asciiRuntime _ _ _ _ _
      (hspec (multiSettings .closed) [] namedBody (demo_authorised .closed)) "other" rfl rfl
  · refine @FailModeSpec.stale asciiRuntime _ _ _ _ _
      (hspec (hastySettings .closed) demoOps demoBody (hasty_authorised .closed))
      (hnamed _) (hprimary _) rfl ⟨1000, rfl, by decide +kernel⟩
  · have hrun : (reply (multiSettings .closed) aged demoBody).toOption.isSome = true := by
      decide +kernel
    obtain ⟨resp, hresp⟩ := isSome_toOption.mp hrun
    have hrecent : ¬ Outdated (multiSettings .closed) aged demoReadings.checkedAt := by
      rintro ⟨last, hlast, hold⟩
      obtain rfl := Option.some.inj hlast
      revert hold
      decide +kernel
    obtain ⟨compiled, hrouted, rfl⟩ := @FailModeSpec.fresh asciiRuntime _ _ _ _ _
      (hspec (multiSettings .closed) demoOps demoBody (demo_authorised .closed))
      (hprimary _) rfl hrecent resp hresp
    exact ⟨compiled, hrouted, hresp⟩

/-- On the empty cache the reply is no outcome of the fail mode; on the warm
and fresh one it is. -/
theorem fail_mode_beyond_empty_and_stale :
    let cfg := multiSettings .closed
    let cold := final (@cacheStep asciiRuntime noWire) {} []
    let warm := final (@cacheStep asciiRuntime noWire) {} noPrimaryOps
    let reply := fun cache body => (@decide asciiRuntime demoHash cfg demoJwt (fun _ => .ok true)
      .empty cache demoReadings demoApp demoAuthorization body).reply
    (∃ claims, (@requireAgentToken asciiRuntime demoJwt cfg .empty demoReadings.verifiedAt
        demoApp demoAuthorization).2 = .ok claims) ∧
      (cold.isWarm = false ∧ ¬ FailModeReply cfg.policyFailMode (reply cold namedBody)) ∧
      (warm.isWarm = true ∧ ¬ Outdated cfg warm demoReadings.checkedAt ∧
        FailModeReply cfg.policyFailMode (reply warm demoBody)) := by
  intro cfg cold warm reply
  let _ : PyRuntime := asciiRuntime
  obtain ⟨claims, hclaims⟩ := demo_authorised .closed
  have hname : requestedName cfg namedBody = some "other" := rfl
  have hnamed : reply cold namedBody = .error (.http (policyNotFound cold "other")) := by
    show (@decide asciiRuntime demoHash cfg demoJwt (fun _ => .ok true) .empty cold demoReadings
      demoApp demoAuthorization namedBody).reply = _
    rw [decide_of_authorised hclaims, answer_of_missing hname rfl]
  have hplain : reply warm demoBody = (answerCold cfg).reply := by
    show (@decide asciiRuntime demoHash cfg demoJwt (fun _ => .ok true) .empty warm demoReadings
      demoApp demoAuthorization demoBody).reply = _
    rw [decide_of_authorised hclaims, answer_of_cold rfl rfl]
  refine ⟨⟨claims, hclaims⟩, ⟨rfl, ?_⟩, by decide +kernel, ?_, ?_⟩
  · rw [hnamed]
    rintro (h | ⟨resp, h, -⟩)
    · simp [ColdReply, cfg, multiSettings, demoSettings, policyNotFound] at h
    · cases h
  · rintro ⟨last, hlast, hold⟩
    obtain rfl := Option.some.inj hlast
    revert hold
    decide +kernel
  · rw [hplain]
    exact Or.inl coldReply_answerCold

end TrustModelEdge.Routes
