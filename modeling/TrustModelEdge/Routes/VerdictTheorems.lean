/-
TrustModelEdge.Routes.VerdictTheorems — the verdicts that leave a call of
`decide`: in the response, on the counter and in the audit event.

Each is the verdict of the fail mode or of the evaluator. The first is one
of two texts; the second is the base action of the winning rule, which
nothing has checked.
-/
import TrustModelEdge.Engine.RedactionTheorems
import TrustModelEdge.Policy.CallTheorems
import TrustModelEdge.Routes.AuditTheorems
import TrustModelEdge.Routes.FailModeTheorems

namespace TrustModelEdge.Routes

open Py Policy OAuth Engine Telemetry Lib

/-- A verdict that effects and a reply let out. -/
inductive Reports (effects : List Effect) (reply : Except Failure DecideResponse) : Str → Prop where
  | response (resp : DecideResponse) (h : reply = .ok resp) : Reports effects reply resp.verdict
  | metric (verdict : Str) (h : .decision verdict ∈ effects) : Reports effects reply verdict
  | audit (event : AuditEvent) (h : .enqueue event ∈ effects) :
      Reports effects reply event.decision

/-- The call evaluates the policy `p`: the token is accepted, and the snapshot that
the request is routed to is not stale. -/
structure Evaluates [PyRuntime] (jwt : JwtLib) (cfg : Settings) (disk : Disk)
    (cache : PolicyCache) (rd : Readings) (app : AppState) (authorization : Str)
    (body : DecideRequest) (p : EdgePolicy) : Prop where
  token : ∃ claims,
    (requireAgentToken jwt cfg disk rd.verifiedAt app authorization).2 = .ok claims
  routed : ∃ name snap, routedName cfg cache body = some name ∧
    cache.snapshots.lookup name = some snap ∧ snap.edgePolicy = p
  fresh : (status cache cfg.policyStaleThresholdSeconds rd.checkedAt).isStale = false

/-- What is evaluated was found. -/
theorem Evaluates.found [PyRuntime] {jwt : JwtLib} {cfg : Settings} {disk : Disk}
    {cache : PolicyCache} {rd : Readings} {app : AppState} {authorization : Str}
    {body : DecideRequest} {p : EdgePolicy}
    (h : Evaluates jwt cfg disk cache rd app authorization body p) :
    Routes.routed cfg cache body ≠ none := by
  obtain ⟨name, snap, hname, hsnap, -⟩ := h.routed
  simp [Routes.routed, hname, PolicyCache.compiledByName, hsnap]

/-! ## The verdicts of an answer -/

section Answers

variable {hash : HashLib} {cfg : Settings} {cache : PolicyCache} {rd : Readings}
  {enqueue : AuditEvent → Except Exc Bool} {agentId : Json} {body : DecideRequest}

theorem failModeVerdict_inProtocol (mode : FailMode) : InProtocol (failModeVerdict mode).1 := by
  cases mode with
  | open_ => exact Or.inl rfl
  | closed => exact Or.inr (Or.inl rfl)

/-- An error without effects tells nobody a verdict. -/
theorem not_reports_error {f : Failure} {v : Str} : ¬ Reports [] (.error f) v := by
  intro h
  cases h with
  | response resp hr => cases hr
  | metric v he => cases he
  | audit event he => cases he

theorem reports_missing {f : Failure} {v : Str} (h : Reports [.policyNotFound] (.error f) v) :
    InProtocol v := by
  cases h with
  | response resp hr => cases hr
  | metric v he => cases List.mem_singleton.mp he
  | audit event he => cases List.mem_singleton.mp he

theorem reports_cold {v : Str} (h : Reports (answerCold cfg).effects (answerCold cfg).reply v) :
    InProtocol v := by
  unfold answerCold at h
  cases hm : cfg.policyFailMode with
  | closed =>
    rw [hm] at h
    exact absurd h not_reports_error
  | open_ =>
    rw [hm] at h
    cases h with
    | response resp hr =>
      cases hr
      exact failModeVerdict_inProtocol .open_
    | metric v he =>
      obtain rfl := Effect.decision.inj (List.mem_singleton.mp he)
      exact failModeVerdict_inProtocol .open_
    | audit event he => cases List.mem_singleton.mp he

theorem reports_stale {compiled : CompiledPolicy} {stale : StaleStatus} {v : Str}
    (h : Reports (answerStale cfg compiled stale).effects (answerStale cfg compiled stale).reply v) :
    InProtocol v := by
  unfold answerStale at h
  cases h with
  | response resp hr =>
    simp only at hr
    split at hr
    · cases hr
    · cases hr
      exact failModeVerdict_inProtocol cfg.policyFailMode
  | metric v he =>
    obtain rfl := Effect.decision.inj (List.mem_singleton.mp he)
    exact failModeVerdict_inProtocol cfg.policyFailMode
  | audit event he => cases List.mem_singleton.mp he

variable [PyRuntime] {compiled : CompiledPolicy}

/-- The effects of an evaluated request: it is counted, and an event that was
built is put into the queue. -/
theorem answerFresh_effects :
    let result := evaluate rd.evaluateMs compiled body.input
    let effects := (answerFresh hash cfg enqueue rd agentId body compiled).effects
    effects = counted rd result ∨
      ∃ event, event.decision = result.verdict ∧ effects = counted rd result ++ [.enqueue event] := by
  intro result effects
  cases hev : auditEvent hash cfg rd agentId body compiled result with
  | error e => exact Or.inl (by simp only [effects, answerFresh_unbuilt hev, result])
  | ok event =>
    refine Or.inr ⟨event, (auditEvent_tells hev).1, ?_⟩
    simp only [effects, answerFresh_built hev, result]

/-- An evaluated request lets out the verdict of the evaluator. -/
theorem reports_fresh {v : Str} :
    Reports (answerFresh hash cfg enqueue rd agentId body compiled).effects
        (answerFresh hash cfg enqueue rd agentId body compiled).reply v ↔
      v = (evaluate rd.evaluateMs compiled body.input).verdict := by
  have heffects := @answerFresh_effects hash cfg rd enqueue agentId body _ compiled
  constructor
  · intro h
    cases h with
    | response resp hr =>
      rw [answerFresh_response hr]
      rfl
    | metric v he =>
      rcases heffects with heq | ⟨event, -, heq⟩ <;> rw [heq] at he <;> simpa [counted] using he
    | audit event he =>
      rcases heffects with heq | ⟨event', hdecision, heq⟩ <;> rw [heq] at he
      · simp [counted] at he
      · obtain rfl : event = event' := by simpa [counted] using he
        exact hdecision
  · rintro rfl
    refine .metric _ ?_
    rcases heffects with heq | ⟨event, -, heq⟩ <;> rw [heq] <;> simp [counted]

end Answers

/-- **Verdicts stay in the protocol**, of an evaluation exactly when the base action
of the winning rule is in it, and of a call on any cache that calls lead to
exactly when that is so where the call evaluates a policy. -/
theorem verdicts_in_protocol_iff [PyRuntime] :
    (∀ (p : EdgePolicy) (inp : EvaluationInput) (t : Float64),
      InProtocol (evaluate t (compile p) inp).verdict ↔
        ∀ i r, Wins p.bundle.rules inp i r → InProtocol (baseAction r.then_)) ∧
    ∀ (hash : HashLib) (cfg : Settings) (jwt : JwtLib) (wire : PolicyWire)
      (enqueue : AuditEvent → Except Exc Bool) (calls : List CacheCall) (disk : Disk)
      (rd : Readings) (app : AppState) (authorization : Str) (body : DecideRequest),
      let cache := final (callStep wire) {} calls
      let o := decide hash cfg jwt enqueue disk cache rd app authorization body
      (∀ v, Reports o.effects o.reply v → InProtocol v) ↔
        ∀ p, Evaluates jwt cfg disk cache rd app authorization body p →
          ∀ i r, Wins p.bundle.rules body.input i r → InProtocol (baseAction r.then_) := by
  refine ⟨fun p inp t => evaluate_inProtocol_iff p inp t, ?_⟩
  intro hash cfg jwt wire enqueue calls disk rd app authorization body cache o
  have hc : CacheInv cache := cacheInv_calls wire calls
  cases hck : (requireAgentToken jwt cfg disk rd.verifiedAt app authorization).2 with
  | error f =>
    simp only [o, decide_of_refused hck]
    refine iff_of_true (fun v h => absurd h not_reports_error) ?_
    · rintro p ⟨⟨claims, hclaims⟩, -, -⟩
      rw [hck] at hclaims
      cases hclaims
  | ok claims =>
    simp only [o, decide_of_authorised hck]
    cases situation cfg cache rd.checkedAt body with
    | nameMissing name hreq hmiss =>
      rw [answer_of_missing hreq hmiss]
      refine iff_of_true (fun v h => reports_missing h) fun p hp => ?_
      exact absurd (routed_of_missing hreq hmiss) hp.found
    | cold hreq hnone =>
      rw [answer_of_cold hreq hnone]
      refine iff_of_true (fun v h => reports_cold h) fun p hp => ?_
      exact absurd (routed_of_cold hreq hnone) hp.found
    | stale compiled hfound hstale =>
      rw [answer_of_stale hfound hstale]
      refine iff_of_true (fun v h => reports_stale h) fun p hp => ?_
      rw [hp.fresh] at hstale
      cases hstale
    | fresh compiled hfound hfresh =>
      rw [answer_of_fresh hfound hfresh]
      simp only [reports_fresh, forall_eq]
      obtain ⟨name, hname, hcompiled⟩ := Option.bind_eq_some_iff.mp hfound
      obtain ⟨snap, hsnap, rfl⟩ := Option.map_eq_some_iff.mp hcompiled
      rw [(hc.keyed name snap hsnap).2, evaluate_inProtocol_iff]
      constructor
      · rintro h p ⟨-, ⟨name', snap', hname', hsnap', rfl⟩, -⟩
        rw [hname] at hname'
        obtain rfl := Option.some.inj hname'
        rw [hsnap] at hsnap'
        obtain rfl := Option.some.inj hsnap'
        exact h
      · intro h
        exact h snap.edgePolicy ⟨⟨claims, hck⟩, ⟨name, snap, hname, hsnap, rfl⟩, hfresh⟩

/-! A policy whose rule says "Deny", in a cache that one `replace` filled. -/

def denyAll : EdgePolicy :=
  { allowAll with
    bundle :=
      { name := "demo"
        version := "1"
        rules := [{ ruleId := "any", when := AList.singleton ("tool" : Str) (.str "*"),
                    then_ := "Deny" }] } }

def denyCalls : List CacheCall :=
  [.replace (fun _ => none) 1000 denyAll none { disk := .empty, now := 1000, faults := [] }]

/-- The evaluator's verdict, and the one in the response, is none of the three. -/
theorem verdict_outside_protocol :
    let cache := final (@callStep asciiRuntime noWire) {} denyCalls
    ¬ InProtocol
        (@evaluate asciiRuntime 0 (@compile asciiRuntime denyAll) demoBody.input).verdict ∧
      ∃ resp, (@decide asciiRuntime demoHash (demoSettings .closed) demoJwt (fun _ => .ok true)
        .empty cache demoReadings demoApp demoAuthorization demoBody).reply = .ok resp ∧
          ¬ InProtocol resp.verdict := by
  intro cache
  have hrun : ((@decide asciiRuntime demoHash (demoSettings .closed) demoJwt (fun _ => .ok true)
      .empty cache demoReadings demoApp demoAuthorization demoBody).reply.toOption.map
        (·.verdict)) = some ("Deny" : Str) := by decide +kernel
  refine ⟨by decide, ?_⟩
  cases hreply : (@decide asciiRuntime demoHash (demoSettings .closed) demoJwt (fun _ => .ok true)
      .empty cache demoReadings demoApp demoAuthorization demoBody).reply with
  | error f => simp [hreply, Except.toOption] at hrun
  | ok resp =>
    have hverdict : resp.verdict = ("Deny" : Str) := by
      simpa [hreply, Except.toOption] using hrun
    refine ⟨resp, rfl, ?_⟩
    rw [hverdict]
    decide

end TrustModelEdge.Routes
