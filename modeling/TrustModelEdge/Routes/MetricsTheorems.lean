/-
TrustModelEdge.Routes.MetricsTheorems — what the metrics of a process tell of its
decide calls.

A call has one of four shapes (`Counted`), from which each counter follows call by
call. The label of a decision is never the caller's: it is `allow`, `deny`, or the
base action of a rule of a policy that the process held, so no caller can make the
registry grow (`series_bounded`).
-/
import TrustModelEdge.Routes.Metrics
import TrustModelEdge.Routes.VerdictTheorems

namespace TrustModelEdge.Routes

open Py Policy OAuth Engine Telemetry Lib

/-! ## The registry of some effects -/

def Effect.verdict : Effect → Option Str
  | .decision verdict => some verdict
  | _ => none

def Effect.isCacheHit : Effect → Bool
  | .cacheHit => true
  | _ => false

def Effect.isPolicyNotFound : Effect → Bool
  | .policyNotFound => true
  | _ => false

def Effect.latency : Effect → Option Float64
  | .latencyObserved ms => some ms
  | _ => none

/-- The verdicts that effects count. -/
def verdicts (effects : List Effect) : List Str := effects.filterMap Effect.verdict

@[simp] theorem verdicts_nil : verdicts [] = [] := rfl

@[simp] theorem verdicts_cons (e : Effect) (effects : List Effect) :
    verdicts (e :: effects) = e.verdict.toList ++ verdicts effects := by
  unfold verdicts
  cases h : e.verdict <;> simp [h]

/-- The counters of a registry, without its gauges. -/
structure Counters (m : Registry) (effects : List Effect) : Prop where
  decisions : m.decisionsTotal = Tally.incAll ∅ (verdicts effects)
  latencies : m.decisionLatencyMs = effects.filterMap Effect.latency
  cacheHits : m.cacheHitsTotal = effects.countP Effect.isCacheHit
  policyNotFound : m.policyNotFoundTotal = effects.countP Effect.isPolicyNotFound

theorem counters_start : Counters {} [] := ⟨rfl, rfl, rfl, rfl⟩

theorem Counters.add {m : Registry} {effects : List Effect} (h : Counters m effects) (e : Effect) :
    Counters (m.add e) (effects ++ [e]) := by
  obtain ⟨hd, hl, hc, hp⟩ := h
  cases e <;>
    constructor <;>
      simp [Registry.add, verdicts, List.filterMap_cons, Effect.verdict, Effect.latency,
        Effect.isCacheHit, Effect.isPolicyNotFound, Tally.incAll, hd, hl, hc, hp]

theorem Counters.addAll {m : Registry} {effects : List Effect} (h : Counters m effects)
    (more : List Effect) : Counters (m.addAll more) (effects ++ more) := by
  induction more generalizing m effects with
  | nil =>
    rw [List.append_nil]
    exact h
  | cons e more ih =>
    have hrest := ih (h.add e)
    rwa [List.append_assoc] at hrest

theorem Counters.scraped {m : Registry} {effects : List Effect} (h : Counters m effects)
    (cache : PolicyCache) (now : Rat) : Counters (m.scraped cache now) effects := by
  obtain ⟨hd, hl, hc, hp⟩ := h
  unfold Registry.scraped
  split <;> exact ⟨hd, hl, hc, hp⟩

/-! ## One call -/

def Effect.IsEnqueue (e : Effect) : Prop := ∃ event, e = .enqueue event

/-- The reply tells this verdict, or an exception came in its place. -/
def TellsOrRaises (stale : Bool) (v : Str) (reply : Except Failure DecideResponse) : Prop :=
  (∃ resp, reply = .ok resp ∧ resp.verdict = v ∧ resp.stale = stale) ∨
    ∃ e, reply = .error (.raised e)

/-- The ways a call is counted. -/
inductive Counted : List Effect → Except Failure DecideResponse → Prop
  | not (f : Failure) (h : f.statusCode ≠ 400) : Counted [] (.error f)
  | missing (e : HttpException) (h : e.statusCode = 400) :
      Counted [.policyNotFound] (.error (.http e))
  | failMode (v : Str) (reply : Except Failure DecideResponse) (h : TellsOrRaises true v reply) :
      Counted [.decision v] reply
  | evaluated (v : Str) (ms : Float64) (queued : List Effect)
      (reply : Except Failure DecideResponse) (hqueued : ∀ e ∈ queued, e.IsEnqueue)
      (h : TellsOrRaises false v reply) :
      Counted (.cacheHit :: .decision v :: .latencyObserved ms :: queued) reply

section Calls

variable {hash : HashLib} {cfg : Settings} {jwt : JwtLib}
  {enqueue : AuditEvent → Except Exc Bool} {disk : Disk} {cache : PolicyCache} {rd : Readings}
  {app : AppState} {authorization : Str} {body : DecideRequest} {agentId : Json}

theorem counted_cold : Counted (answerCold cfg).effects (answerCold cfg).reply := by
  unfold answerCold
  cases cfg.policyFailMode with
  | closed => exact .not _ (by simp [Failure.statusCode])
  | open_ => exact .failMode _ _ (Or.inl ⟨_, rfl, rfl, rfl⟩)

theorem counted_stale {compiled : CompiledPolicy} {stale : StaleStatus} :
    Counted (answerStale cfg compiled stale).effects (answerStale cfg compiled stale).reply := by
  unfold answerStale
  cases stale.secondsSinceRefresh with
  | none => exact .failMode _ _ (Or.inr ⟨_, rfl⟩)
  | some seconds => exact .failMode _ _ (Or.inl ⟨_, rfl, rfl, rfl⟩)

variable [PyRuntime]

theorem counted_fresh {compiled : CompiledPolicy} :
    Counted (answerFresh hash cfg enqueue rd agentId body compiled).effects
      (answerFresh hash cfg enqueue rd agentId body compiled).reply := by
  let result := evaluate rd.evaluateMs compiled body.input
  cases hev : auditEvent hash cfg rd agentId body compiled result with
  | error e =>
    rw [answerFresh_unbuilt hev]
    exact .evaluated result.verdict _ [] _ (fun _ h => absurd h List.not_mem_nil) (Or.inr ⟨_, rfl⟩)
  | ok event =>
    rw [answerFresh_built hev]
    refine .evaluated result.verdict _ [.enqueue event] _ (fun e he => ?_) ?_
    · exact ⟨event, List.mem_singleton.mp he⟩
    · cases enqueue event with
      | error e => exact Or.inr ⟨_, rfl⟩
      | ok b => exact Or.inl ⟨_, rfl, rfl, rfl⟩

/-- A call that is refused has another status than one whose policy is missing. -/
theorem refused_not_400 {now : Rat} {f : Failure}
    (h : (requireAgentToken jwt cfg disk now app authorization).2 = .error f) :
    f.statusCode ≠ 400 := by
  have hbearer : ∀ f, bearerToken authorization = .error f → f.statusCode ≠ 400 := by
    intro f hf
    unfold bearerToken at hf
    split at hf
    · obtain rfl := Except.error.inj hf
      simp [unauthorized, Failure.statusCode]
    · split at hf
      · obtain rfl := Except.error.inj hf
        simp [unauthorized, Failure.statusCode]
      · cases hf
  have hkey : ∀ r f, verifyingKey r = .error f → f.statusCode ≠ 400 := by
    intro r f hf
    unfold verifyingKey at hf
    split at hf <;> cases hf <;> simp [Failure.statusCode]
  have hclaims : ∀ r f, verifiedClaims r = .error f → f.statusCode ≠ 400 := by
    intro r f hf
    unfold verifiedClaims at hf
    split at hf <;> cases hf <;> simp [unauthorized, Failure.statusCode]
  have hscope : ∀ c f, requireScope c = .error f → f.statusCode ≠ 400 := by
    intro c f hf
    unfold requireScope at hf
    split at hf <;> cases hf
    simp [Failure.statusCode]
  unfold requireAgentToken at h
  split at h
  · rename_i g hg
    obtain rfl := Except.error.inj h
    exact hbearer g hg
  · simp only [bind, Except.bind] at h
    split at h
    · rename_i g hg
      obtain rfl := Except.error.inj h
      exact hkey _ g hg
    · split at h
      · rename_i g hg
        obtain rfl := Except.error.inj h
        exact hclaims _ g hg
      · exact hscope _ f h

/-- **Each call is counted in one of the four ways.** -/
theorem decide_counted :
    Counted (decide hash cfg jwt enqueue disk cache rd app authorization body).effects
      (decide hash cfg jwt enqueue disk cache rd app authorization body).reply := by
  cases hck : (requireAgentToken jwt cfg disk rd.verifiedAt app authorization).2 with
  | error f =>
    rw [decide_of_refused hck]
    exact .not f (refused_not_400 hck)
  | ok claims =>
    rw [decide_of_authorised hck]
    cases situation cfg cache rd.checkedAt body with
    | nameMissing name hreq hmiss =>
      rw [answer_of_missing hreq hmiss]
      exact .missing _ rfl
    | cold hreq hnone =>
      rw [answer_of_cold hreq hnone]
      exact counted_cold
    | stale compiled hfound hstale =>
      rw [answer_of_stale hfound hstale]
      exact counted_stale
    | fresh compiled hfound hfresh =>
      rw [answer_of_fresh hfound hfresh]
      exact counted_fresh

end Calls

/-! ## The counters of a run -/

/-- The steps of the process that runs after these, in order. -/
def stepsAfter (steps : List (Monitored × MonitoredEvent)) (v : Monitored × MonitoredEvent) :
    List (Monitored × MonitoredEvent) :=
  match v.2 with
  | .pod (.restart _) => []
  | _ => steps ++ [v]

def stepsSince (vs : List (Monitored × MonitoredEvent)) : List (Monitored × MonitoredEvent) :=
  vs.foldl stepsAfter []

theorem stepsSince_concat (vs : List (Monitored × MonitoredEvent))
    (v : Monitored × MonitoredEvent) : stepsSince (vs ++ [v]) = stepsAfter (stepsSince vs) v := by
  unfold stepsSince
  rw [List.foldl_append]
  rfl

section Runs

variable [PyRuntime] (lib : Libraries)

/-- The decide call of a step, if it is one. -/
def callOf (v : Monitored × MonitoredEvent) : Option DecideOutcome :=
  match v.2 with
  | .pod ev => (podStep lib v.1.pod ev).2.answer.outcome
  | .scrape => none

/-- What the calls of these steps did, in order. -/
def effectsOf (steps : List (Monitored × MonitoredEvent)) : List Effect :=
  (steps.filterMap (callOf lib)).flatMap DecideOutcome.effects

variable {lib}

theorem effectsOf_concat (steps : List (Monitored × MonitoredEvent))
    (v : Monitored × MonitoredEvent) :
    effectsOf lib (steps ++ [v]) = effectsOf lib steps ++ (callOf lib v).elim [] (·.effects) := by
  unfold effectsOf
  rw [List.filterMap_append, List.flatMap_append]
  cases h : callOf lib v <;> simp [h]

/-- **One step** keeps the counters in step with the calls of the process. -/
theorem counters_step (vs : List (Monitored × MonitoredEvent)) (m : Monitored)
    (i : MonitoredEvent) (h : Counters m.registry (effectsOf lib (stepsSince vs))) :
    Counters (monitoredStep lib m i).1.registry (effectsOf lib (stepsSince (vs ++ [(m, i)]))) := by
  rw [stepsSince_concat]
  cases i with
  | scrape =>
    have hnone : callOf lib (m, .scrape) = none := rfl
    simp only [stepsAfter, effectsOf_concat, hnone, Option.elim_none, List.append_nil]
    exact h.scraped _ _
  | pod ev =>
    cases ev with
    | restart s => exact counters_start
    | _ =>
      simp only [stepsAfter, effectsOf_concat]
      exact h.addAll _

theorem counters_run (lib : Libraries) (start : Pod) (evs : List MonitoredEvent) :
    Counters (final (monitoredStep lib) { pod := start } evs).registry
      (effectsOf lib (stepsSince (visits (monitoredStep lib) { pod := start } evs))) :=
  visits_inv (monitoredStep lib)
    (R := fun vs m => Counters m.registry (effectsOf lib (stepsSince vs)))
    counters_step counters_start

/-- The call of a step, on the cache of the process. -/
theorem callOf_some {v : Monitored × MonitoredEvent} {o : DecideOutcome}
    (h : callOf lib v = some o) :
    let w := v.1.pod.world
    ∃ authorization body rd enqueue, o = Routes.decide lib.hash w.settings lib.jwt enqueue w.disk
      w.cache rd w.app authorization body := by
  intro w
  obtain ⟨m, i⟩ := v
  cases i with
  | scrape => cases h
  | pod ev =>
    cases ev with
    | decide authorization body rd storedAt fault =>
      exact ⟨authorization, body, _, _, (Option.some.inj h).symm⟩
    | serve ev hev =>
      cases ev with
      | decide => cases hev
      | _ => cases h
    | drain i hi => cases h
    | restart s => cases h

end Runs

/-! ## What the counters account for -/

/-- The call answered with this verdict. -/
def DecideOutcome.tells (o : DecideOutcome) (v : Str) : Bool :=
  match o.reply with
  | .ok resp => resp.verdict = v
  | .error _ => false

/-- The call answered with the verdict of the policy. -/
def DecideOutcome.tellsFresh (o : DecideOutcome) : Bool :=
  match o.reply with
  | .ok resp => !resp.stale
  | .error _ => false

def DecideOutcome.raises (o : DecideOutcome) : Bool :=
  match o.reply with
  | .error (.raised _) => true
  | _ => false

/-- The call was counted and then raised, so that its verdict is told to nobody. -/
def DecideOutcome.loses (o : DecideOutcome) (v : Str) : Bool :=
  o.raises && (verdicts o.effects).contains v

def DecideOutcome.losesFresh (o : DecideOutcome) : Bool :=
  o.raises && o.effects.any Effect.isCacheHit

/-- The call was refused for the name of its policy. -/
def DecideOutcome.missesPolicy (o : DecideOutcome) : Bool := statusOf o.reply = 400

section Accounts

variable {o : DecideOutcome}

theorem counts_enqueues {effects : List Effect} (h : ∀ e ∈ effects, e.IsEnqueue) :
    verdicts effects = [] ∧ effects.filterMap Effect.latency = [] ∧
      effects.countP Effect.isCacheHit = 0 ∧ effects.countP Effect.isPolicyNotFound = 0 := by
  have hno : ∀ e ∈ effects, e.verdict = none ∧ e.latency = none ∧ e.isCacheHit ≠ true ∧
      e.isPolicyNotFound ≠ true := by
    intro e he
    obtain ⟨event, rfl⟩ := h e he
    exact ⟨rfl, rfl, by simp [Effect.isCacheHit], by simp [Effect.isPolicyNotFound]⟩
  exact ⟨List.filterMap_eq_nil_iff.mpr (fun e he => (hno e he).1),
    List.filterMap_eq_nil_iff.mpr (fun e he => (hno e he).2.1),
    List.countP_eq_zero.mpr (fun e he => (hno e he).2.2.1),
    List.countP_eq_zero.mpr (fun e he => (hno e he).2.2.2)⟩

/-- A call that counts one decision tells it or loses it. -/
theorem TellsOrRaises.count {stale : Bool} {v : Str} (h : TellsOrRaises stale v o.reply)
    (hverdicts : verdicts o.effects = [v]) (x : Str) :
    (verdicts o.effects).count x = (o.tells x).toNat + (o.loses x).toNat := by
  have hcount : (verdicts o.effects).count x = if v = x then 1 else 0 := by
    simp [hverdicts, List.count_singleton]
  rw [hcount]
  unfold DecideOutcome.tells DecideOutcome.loses DecideOutcome.raises
  rcases h with ⟨resp, hreply, rfl, -⟩ | ⟨e, hreply⟩
  · by_cases hx : resp.verdict = x <;> simp [hreply, hx]
  · by_cases hx : v = x <;> simp [hreply, hverdicts, eq_comm, hx]

/-- It has evaluated the policy, and tells that or loses it, or it has not. -/
theorem TellsOrRaises.hits {stale : Bool} {v : Str} (h : TellsOrRaises stale v o.reply)
    (hhits : o.effects.countP Effect.isCacheHit = (!stale).toNat) :
    o.effects.countP Effect.isCacheHit = o.tellsFresh.toNat + o.losesFresh.toNat := by
  have hany : o.effects.any Effect.isCacheHit = !stale := by
    rw [Bool.eq_iff_iff, List.any_eq_true, ← List.countP_pos_iff, hhits]
    cases stale <;> simp
  rw [hhits]
  unfold DecideOutcome.tellsFresh DecideOutcome.losesFresh DecideOutcome.raises
  rcases h with ⟨resp, hreply, -, hstale⟩ | ⟨e, hreply⟩
  · simp [hreply, hstale]
  · simp [hreply, hany]

theorem TellsOrRaises.not_missing {stale : Bool} {v : Str} (h : TellsOrRaises stale v o.reply) :
    o.missesPolicy = false := by
  unfold DecideOutcome.missesPolicy
  rcases h with ⟨resp, hreply, -⟩ | ⟨e, hreply⟩ <;> simp [hreply, statusOf, Failure.statusCode]

/-- What a call adds to each counter, from its reply. -/
theorem Counted.account (h : Counted o.effects o.reply) :
    (∀ v, (verdicts o.effects).count v = (o.tells v).toNat + (o.loses v).toNat) ∧
      o.effects.countP Effect.isCacheHit = o.tellsFresh.toNat + o.losesFresh.toNat ∧
      (o.effects.filterMap Effect.latency).length = o.effects.countP Effect.isCacheHit ∧
      o.effects.countP Effect.isPolicyNotFound = o.missesPolicy.toNat := by
  obtain ⟨app, effects, reply⟩ := o
  cases h with
  | not f hf =>
    refine ⟨fun v => ?_, ?_, rfl, ?_⟩
    · cases f <;> simp [DecideOutcome.tells, DecideOutcome.loses, DecideOutcome.raises]
    · cases f <;> simp [DecideOutcome.tellsFresh, DecideOutcome.losesFresh, DecideOutcome.raises]
    · simp [DecideOutcome.missesPolicy, statusOf, hf]
  | missing e he =>
    refine ⟨fun v => ?_, ?_, rfl, ?_⟩
    · simp [Effect.verdict, DecideOutcome.tells, DecideOutcome.loses, DecideOutcome.raises]
    · simp [Effect.isCacheHit, DecideOutcome.tellsFresh, DecideOutcome.losesFresh,
        DecideOutcome.raises]
    · simp [Effect.isPolicyNotFound, DecideOutcome.missesPolicy, statusOf, Failure.statusCode, he]
  | failMode v reply h =>
    refine ⟨fun x => h.count (by simp [Effect.verdict]) x, h.hits rfl, rfl, ?_⟩
    rw [h.not_missing]
    rfl
  | evaluated v ms queued reply hqueued h =>
    obtain ⟨hverdicts, hlatency, hhits, hmissing⟩ := counts_enqueues hqueued
    refine ⟨fun x => h.count (by simp [Effect.verdict, hverdicts]) x, h.hits ?_, ?_, ?_⟩
    · simp [List.countP_cons, Effect.isCacheHit, hhits]
    · simp [List.countP_cons, List.filterMap_cons, Effect.latency, Effect.isCacheHit, hlatency,
        hhits]
    · rw [h.not_missing]
      simp [Effect.isPolicyNotFound, hmissing]

end Accounts

/-- What some calls add to each counter. -/
theorem account_flatMap {os : List DecideOutcome} (h : ∀ o ∈ os, Counted o.effects o.reply) :
    (∀ v, (verdicts (os.flatMap DecideOutcome.effects)).count v =
        os.countP (·.tells v) + os.countP (·.loses v)) ∧
      (os.flatMap DecideOutcome.effects).countP Effect.isCacheHit =
        os.countP DecideOutcome.tellsFresh + os.countP DecideOutcome.losesFresh ∧
      ((os.flatMap DecideOutcome.effects).filterMap Effect.latency).length =
        (os.flatMap DecideOutcome.effects).countP Effect.isCacheHit ∧
      (os.flatMap DecideOutcome.effects).countP Effect.isPolicyNotFound =
        os.countP DecideOutcome.missesPolicy := by
  induction os with
  | nil => simp
  | cons o os ih =>
    obtain ⟨hd, hh, hl, hp⟩ := (h o List.mem_cons_self).account
    obtain ⟨ihd, ihh, ihl, ihp⟩ := ih (fun o' ho' => h o' (List.mem_cons_of_mem _ ho'))
    have happend : ∀ es es', verdicts (es ++ es') = verdicts es ++ verdicts es' :=
      fun _ _ => List.filterMap_append
    simp only [List.flatMap_cons, happend, List.count_append, List.countP_append,
      List.filterMap_append, List.length_append, countP_cons_toNat]
    refine ⟨fun v => ?_, ?_, ?_, ?_⟩
    · rw [hd, ihd]
      omega
    · rw [hh, ihh]
      omega
    · rw [hl, ihl]
    · rw [hp, ihp]

/-- **The counters account for the calls.** Whatever runs in a pod, with scrapes and
restarts in between, the registry of a process counts for each verdict the calls that
answered with it, and beyond those just the calls that had decided it and then raised;
the cache hits and the latencies are in the same way those of the answers that are not
stale, and the missing policies are the answers of status 400. -/
theorem counters_account [PyRuntime] (lib : Libraries) (start : Pod) (evs : List MonitoredEvent) :
    let m := final (monitoredStep lib) { pod := start } evs
    let calls := (stepsSince (visits (monitoredStep lib) { pod := start } evs)).filterMap
      (callOf lib)
    (∀ v, m.registry.decisionsTotal.count v =
        calls.countP (·.tells v) + calls.countP (·.loses v)) ∧
      m.registry.cacheHitsTotal =
        calls.countP DecideOutcome.tellsFresh + calls.countP DecideOutcome.losesFresh ∧
      m.registry.decisionLatencyMs.length = m.registry.cacheHitsTotal ∧
      m.registry.policyNotFoundTotal = calls.countP DecideOutcome.missesPolicy := by
  intro m calls
  obtain ⟨hd, hl, hc, hp⟩ := counters_run lib start evs
  have hcalls : ∀ o ∈ calls, Counted o.effects o.reply := by
    intro o ho
    obtain ⟨v, -, hv⟩ := List.mem_filterMap.mp ho
    obtain ⟨authorization, body, rd, enqueue, rfl⟩ := callOf_some hv
    exact decide_counted
  obtain ⟨ad, ah, al, ap⟩ := account_flatMap hcalls
  refine ⟨fun v => ?_, ?_, ?_, ?_⟩
  · rw [hd, Tally.count_incAll, Tally.count_empty, Nat.zero_add]
    exact ad v
  · rw [hc]
    exact ah
  · rw [hl, hc]
    exact al
  · rw [hp]
    exact ap

/-! ## The labels -/

/-- The base actions of the rules in a cache. -/
def cachedActions (cache : PolicyCache) : List Str :=
  cache.snapshots.entries.flatMap
    (fun e => e.2.compiled.rules.map (fun rule => baseAction rule.action))

section Labels

variable [PyRuntime] {hash : HashLib} {cfg : Settings} {jwt : JwtLib}
  {enqueue : AuditEvent → Except Exc Bool} {disk : Disk} {cache : PolicyCache} {rd : Readings}
  {app : AppState} {authorization : Str} {body : DecideRequest}

theorem verdict_of_resolveAction (rule : CompiledRule) (inp : EvaluationInput) :
    (resolveAction rule inp).verdict = "allow" ∨
      (resolveAction rule inp).verdict = baseAction rule.action := by
  unfold resolveAction
  dsimp only
  split
  · rename_i hredact
    split
    · exact Or.inl rfl
    · exact Or.inr hredact.symm
  · exact Or.inr rfl

/-- The verdict of an evaluation is none of the caller's texts. -/
theorem verdict_of_evaluate (t : Float64) (policy : CompiledPolicy) (inp : EvaluationInput) :
    (evaluate t policy inp).verdict = "allow" ∨ (evaluate t policy inp).verdict = "deny" ∨
      ∃ rule ∈ policy.rules, (evaluate t policy inp).verdict = baseAction rule.action := by
  unfold evaluate
  split
  · rename_i rule hrule
    rcases verdict_of_resolveAction rule inp with h | h
    · exact Or.inl h
    · exact Or.inr (Or.inr ⟨rule, List.mem_of_find?_eq_some hrule, h⟩)
  · exact Or.inr (Or.inl rfl)

omit [PyRuntime] in
theorem mem_cachedActions {compiled : CompiledPolicy}
    (hfound : routed cfg cache body = some compiled) {rule : CompiledRule}
    (hrule : rule ∈ compiled.rules) : baseAction rule.action ∈ cachedActions cache := by
  obtain ⟨name, -, hcompiled⟩ := Option.bind_eq_some_iff.mp hfound
  obtain ⟨snap, hsnap, rfl⟩ := Option.map_eq_some_iff.mp hcompiled
  exact List.mem_flatMap.mpr ⟨⟨name, snap⟩, AList.mem_lookup_iff.mp hsnap,
    List.mem_map.mpr ⟨rule, hrule, rfl⟩⟩

/-- What a call counts is `allow`, `deny` or an action of its cache. -/
theorem verdicts_decide {v : Str}
    (hv : v ∈ verdicts
      (decide hash cfg jwt enqueue disk cache rd app authorization body).effects) :
    v = "allow" ∨ v = "deny" ∨ v ∈ cachedActions cache := by
  have hmode : ∀ mode, (failModeVerdict mode).1 = "allow" ∨ (failModeVerdict mode).1 = "deny" := by
    intro mode
    cases mode with
    | open_ => exact Or.inl rfl
    | closed => exact Or.inr rfl
  cases hck : (requireAgentToken jwt cfg disk rd.verifiedAt app authorization).2 with
  | error f =>
    rw [decide_of_refused hck] at hv
    cases hv
  | ok claims =>
    rw [decide_of_authorised hck] at hv
    cases situation cfg cache rd.checkedAt body with
    | nameMissing name hreq hmiss =>
      rw [answer_of_missing hreq hmiss] at hv
      cases hv
    | cold hreq hnone =>
      rw [answer_of_cold hreq hnone] at hv
      unfold answerCold at hv
      cases hm : cfg.policyFailMode with
      | closed =>
        rw [hm] at hv
        cases hv
      | open_ =>
        rw [hm] at hv
        exact Or.inl (List.mem_singleton.mp hv)
    | stale compiled hfound hstale =>
      rw [answer_of_stale hfound hstale] at hv
      obtain rfl : v = (failModeVerdict cfg.policyFailMode).1 := List.mem_singleton.mp hv
      rcases hmode cfg.policyFailMode with h | h
      · exact Or.inl h
      · exact Or.inr (Or.inl h)
    | fresh compiled hfound hfresh =>
      rw [answer_of_fresh hfound hfresh] at hv
      obtain rfl : v = (evaluate rd.evaluateMs compiled body.input).verdict := by
        rcases @answerFresh_effects hash cfg rd enqueue (callerAgentId claims body) body _
          compiled with heq | ⟨event, -, heq⟩ <;> rw [heq] at hv <;>
          simpa [counted, Effect.verdict] using hv
      rcases verdict_of_evaluate rd.evaluateMs compiled body.input with h | h | ⟨rule, hrule, h⟩
      · exact Or.inl h
      · exact Or.inr (Or.inl h)
      · rw [h]
        exact Or.inr (Or.inr (mem_cachedActions hfound hrule))

end Labels

theorem length_dedup_cons_le {α : Type} [DecidableEq α] (a : α) (as : List α) :
    (a :: as).dedup.length ≤ as.dedup.length + 1 := by
  by_cases h : a ∈ as
  · rw [List.dedup_cons_of_mem h]
    exact Nat.le_succ _
  · rw [List.dedup_cons_of_notMem h, List.length_cons]

/-- **Callers mint no time series.** Whatever is called in a pod, each label that the
registry of a process has is `allow`, `deny`, or the base action of a rule that the
process held, so there are at most two more series than there are such actions. -/
theorem series_bounded [PyRuntime] (lib : Libraries) (start : Pod) (evs : List MonitoredEvent) :
    let m := final (monitoredStep lib) { pod := start } evs
    let held := (stepsSince (visits (monitoredStep lib) { pod := start } evs)).flatMap
      (fun v => cachedActions v.1.pod.world.cache)
    (∀ v ∈ m.registry.decisionsTotal, v = "allow" ∨ v = "deny" ∨ v ∈ held) ∧
      m.registry.decisionsTotal.keys.length ≤ held.dedup.length + 2 := by
  intro m held
  have hlabels : ∀ v ∈ m.registry.decisionsTotal, v = "allow" ∨ v = "deny" ∨ v ∈ held := by
    intro v hv
    rw [(counters_run lib start evs).decisions, Tally.mem_incAll] at hv
    obtain ⟨e, he, hverdict⟩ := List.mem_filterMap.mp (hv.resolve_left (AList.notMem_empty v))
    obtain ⟨o, ho, heo⟩ := List.mem_flatMap.mp he
    obtain ⟨w, hw, hcall⟩ := List.mem_filterMap.mp ho
    obtain ⟨authorization, body, rd, enqueue, rfl⟩ := callOf_some hcall
    rcases verdicts_decide (List.mem_filterMap.mpr ⟨e, heo, hverdict⟩) with h | h | h
    · exact Or.inl h
    · exact Or.inr (Or.inl h)
    · exact Or.inr (Or.inr (List.mem_flatMap.mpr ⟨w, hw, h⟩))
  refine ⟨hlabels, ?_⟩
  calc m.registry.decisionsTotal.keys.length
      ≤ (("allow" : Str) :: ("deny" : Str) :: held).dedup.length :=
        Tally.length_keys_le (fun v hv => by simpa using hlabels v hv)
    _ ≤ (("deny" : Str) :: held).dedup.length + 1 := length_dedup_cons_le _ _
    _ ≤ held.dedup.length + 2 := Nat.succ_le_succ (length_dedup_cons_le _ _)

end TrustModelEdge.Routes
