/-
TrustModelEdge.Routes.ReplicaTheorems — an edge refines its replica.

`Holds` connects a cache to what a replica holds. A sync, a load and a call keep it, so
every run of an edge, with its crashes, failing writes and refused tokens, is a run of
its replica, ruling by ruling (`edge_refines`); and edges that hold one edition answer
alike, whatever else befell them (`replicas_agree`).
-/
import TrustModelEdge.Routes.FreshnessTheorems
import TrustModelEdge.Routes.Replica

namespace TrustModelEdge.Routes

open Py Policy OAuth Engine Telemetry Lib

section Holding

variable [PyRuntime]

/-! ## Caches and editions -/

/-- The cache serves what the replica holds. -/
structure Holds (c : PolicyCache) (h : Held) : Prop where
  policy : ∀ n, (c.snapshots.lookup n).map (·.edgePolicy) = h.edition.policy n
  compiled : ∀ n s, c.snapshots.lookup n = some s → s.compiled = compile s.edgePolicy
  primary : (c.primaryName.bind (c.snapshots.lookup ·)).map (·.edgePolicy) = h.edition.primary
  asOf : c.isWarm = true → c.lastSuccessAt = some h.asOf

section Reading

variable {c : PolicyCache} {h : Held}

theorem Holds.compiledByName (hc : Holds c h) (n : Str) :
    c.compiledByName n = (h.edition.policy n).map compile := by
  rw [← hc.policy n, Option.map_map]
  unfold PolicyCache.compiledByName
  cases hs : c.snapshots.lookup n with
  | none => rfl
  | some s => exact congrArg some (hc.compiled n s hs)

theorem Holds.primaryCompiled (hc : Holds c h) :
    c.primaryCompiled = h.edition.primary.map compile := by
  rw [← hc.primary]
  unfold PolicyCache.primaryCompiled
  cases c.primaryName with
  | none => rfl
  | some n =>
    show c.compiledByName n = ((c.snapshots.lookup n).map (·.edgePolicy)).map compile
    rw [hc.compiledByName, hc.policy]

/-- A request is routed as the edition says. -/
theorem Holds.routed (hc : Holds c h) (cfg : Settings) (body : DecideRequest) :
    Routes.routed cfg c body = (h.edition.routed (requestedName cfg body)).map compile := by
  unfold Routes.routed
  rw [routedName_eq]
  cases requestedName cfg body with
  | some name => exact hc.compiledByName name
  | none => exact hc.primaryCompiled

theorem Holds.clients (hc : Holds c h) : c.authorizedClients = h.edition.clients := by
  unfold Edition.clients PolicyCache.authorizedClients PolicyCache.snapshot
  rw [← hc.primary]
  cases c.primaryName.bind (c.snapshots.lookup ·) <;> rfl

omit [PyRuntime] in
theorem Edition.policy_isSome_iff (e : Edition) (n : Str) :
    (e.policy n).isSome ↔ n ∈ e.policies.map bundleName := by
  rw [List.mem_map]
  constructor
  · intro hsome
    obtain ⟨p, hp⟩ := Option.isSome_iff_exists.mp hsome
    exact ⟨p, lastWith_eq_some hp⟩
  · rintro ⟨p, hp, rfl⟩
    obtain ⟨q, hq⟩ := exists_lastWith bundleName hp
    exact Option.isSome_iff_exists.mpr ⟨q, hq⟩

/-- The names that a refusal lists. -/
theorem Holds.names (hc : Holds c h) : c.allNames = h.edition.names := by
  refine sorted_congr c.snapshots.nodupKeys (List.nodup_dedup _) fun n => ?_
  rw [List.mem_dedup, ← Edition.policy_isSome_iff, ← hc.policy n, Option.isSome_map,
    AList.lookup_isSome]
  exact Iff.rfl

omit [PyRuntime] in
theorem isWarm_of_routed {cfg : Settings} {body : DecideRequest} {compiled : CompiledPolicy}
    (hfound : Routes.routed cfg c body = some compiled) : c.isWarm = true := by
  obtain ⟨name, -, hcomp⟩ := Option.bind_eq_some_iff.mp hfound
  obtain ⟨snap, hsnap, -⟩ := Option.map_eq_some_iff.mp hcomp
  unfold PolicyCache.isWarm
  cases hentries : c.snapshots.entries with
  | cons e es => rfl
  | nil =>
    have hmem : name ∈ c.snapshots := AList.lookup_isSome.mp (by rw [hsnap]; rfl)
    rw [AList.mem_keys, AList.keys, hentries] at hmem
    cases hmem

end Reading

/-! ## What makes a cache hold an edition -/

theorem holds_empty : Holds {} {} where
  policy := fun _ => rfl
  compiled := fun n s hs => by cases hs
  primary := rfl
  asOf := fun hwarm => by cases hwarm

/-- A cache that keeps its invariant, from what it looks up. -/
theorem holds_of_inv {c : PolicyCache} {h : Held} (hinv : CacheInv c)
    (hpolicy : ∀ n, (c.snapshots.lookup n).map (·.edgePolicy) = h.edition.policy n)
    (hprimary : c.primaryName.bind (c.snapshots.lookup ·) =
      h.edition.primaryName.bind (c.snapshots.lookup ·))
    (hasOf : c.isWarm = true → c.lastSuccessAt = some h.asOf) : Holds c h where
  policy := hpolicy
  compiled := fun n s hs => (hinv.keyed n s hs).2
  primary := by
    rw [hprimary]
    unfold Edition.primary
    cases h.edition.primaryName with
    | none => rfl
    | some n => exact hpolicy n
  asOf := hasOf

omit [PyRuntime] in
/-- A primary name that is cleared has looked nothing up. -/
theorem bind_keepPrimary (snapshots : Dict CacheSnapshot) (primaryName : Option Str) :
    (PolicyCache.keepPrimary snapshots primaryName).bind (snapshots.lookup ·) =
      primaryName.bind (snapshots.lookup ·) := by
  cases primaryName with
  | none => rfl
  | some n =>
    by_cases hn : n ∈ snapshots
    · simp [PolicyCache.keepPrimary, Option.filter, hn]
    · have hnone : snapshots.lookup n = none := AList.lookup_eq_none.mpr hn
      simp [PolicyCache.keepPrimary, Option.filter, hn, hnone]

theorem holds_installAll (now : Rat) (policies : List EdgePolicy) (primaryName : Option Str) :
    Holds (.installAll now policies primaryName)
      { edition := { policies := policies, primaryName := primaryName }, asOf := now } := by
  refine holds_of_inv (cacheInv_installAll now policies primaryName) (fun n => ?_)
    (bind_keepPrimary _ primaryName) (fun _ => rfl)
  rw [lookup_installAll, Option.map_map]
  exact Option.map_id_apply

theorem holds_install (now : Rat) (p : EdgePolicy) :
    Holds (.install now p)
      { edition := { policies := [p], primaryName := some p.bundle.name }, asOf := now } := by
  refine holds_of_inv (cacheInv_install now p) (fun n => ?_) rfl (fun _ => rfl)
  rw [lookup_install]
  show _ = lastWith bundleName n [p]
  rw [lastWith_cons]
  split <;> rfl

/-- What a load assigns holds what the load found. -/
theorem holds_readDisk {wire : PolicyWire} {d : Disk} {stateDir : Path} {c : PolicyCache}
    (h : readDisk wire d stateDir = .ok (some c)) :
    Holds c
      { edition := { policies := loadedPolicies wire d stateDir, primaryName := c.primaryName }
        asOf := c.lastSuccessAt.getD 0 } := by
  refine holds_of_inv (cacheInv_readDisk h) (lookup_readDisk h) rfl fun hwarm => ?_
  cases hlast : c.lastSuccessAt with
  | none => exact absurd hlast ((cacheInv_readDisk h).dated hwarm)
  | some last => rfl

/-! ## Syncs -/

section Syncs

variable {compileFails : EdgePolicy → Bool} {wire : BodyWire} {g : Gateway} {now : Rat}
  {stateDir : Path} {multi : Bool}

/-- A sync that has nothing to swap in brings no edition. -/
theorem brought_of_unplanned
    (h : plannedSwap compileFails wire g now stateDir multi = none) :
    brought compileFails wire g multi = none := by
  unfold plannedSwap at h
  unfold brought
  cases multi with
  | true =>
    simp only [if_true] at h ⊢
    cases hf : fetchAll wire g with
    | error e => rfl
    | ok r =>
      obtain ⟨policies, primaryName, clients⟩ := r
      by_cases hc : policies.any compileFails = true
      · simp only [hc, if_true]
      · simp [hf, hc] at h
  | false =>
    simp only [Bool.false_eq_true, if_false] at h ⊢
    cases hf : fetch wire g with
    | error e => rfl
    | ok p =>
      by_cases hc : compileFails p = true
      · simp only [hc, if_true]
      · simp [hf, hc] at h

/-- What a sync swaps in holds the edition that it brings. -/
theorem brought_of_planned {swap : PolicyCache × DiskM Unit}
    (h : plannedSwap compileFails wire g now stateDir multi = some swap) :
    ∃ edition, brought compileFails wire g multi = some edition ∧
      Holds swap.1 { edition := edition, asOf := now } := by
  rcases plannedSwap_some h with
    ⟨hmulti, policies, primaryName, clients, hf, hc, rfl⟩ | ⟨hmulti, p, hf, hc, rfl⟩
  · refine ⟨_, ?_, holds_installAll now policies primaryName⟩
    simp only [brought, hmulti, hf, hc, if_true, Bool.false_eq_true, if_false]
  · refine ⟨_, ?_, holds_install now p⟩
    simp only [brought, hmulti, hf, hc, Bool.false_eq_true, if_false]

end Syncs

/-! ## Answers -/

omit [PyRuntime] in
theorem untimed_cold (cfg : Settings) :
    (answerCold cfg).reply.map untimed = (answerCold cfg).reply := by
  unfold answerCold
  cases cfg.policyFailMode <;> rfl

omit [PyRuntime] in
/-- The answer to a stale cache is about its age only. -/
theorem untimed_stale (cfg : Settings) (compiled : CompiledPolicy) {stale stale' : StaleStatus}
    (h : stale.secondsSinceRefresh = stale'.secondsSinceRefresh) :
    (answerStale cfg compiled stale).reply.map untimed =
      (answerStale cfg compiled stale').reply := by
  unfold answerStale
  rw [h]
  cases stale'.secondsSinceRefresh <;> rfl

/-- A policy's response, but for the time it took, is that of the least of its rules that
matches. -/
theorem untimed_evaluated (t : Float64) (p : EdgePolicy) (inp : EvaluationInput) :
    untimed (evaluatedResponse (compile p) (evaluate t (compile p) inp)) =
      evaluatedResponse (compile p) (answerOf 0 inp (winner inp p.bundle.rules)) := by
  rw [evaluate_eq_answerOf]
  cases winner inp p.bundle.rules <;> rfl

theorem status_of_holds {c : PolicyCache} {h : Held} (hc : Holds c h) (hwarm : c.isWarm = true)
    (threshold : Nat) (now : Rat) :
    status c threshold now =
      { isStale := now - h.asOf > threshold, secondsSinceRefresh := some (now - h.asOf)
        lastSuccessAt := some h.asOf } := by
  unfold status
  rw [hc.asOf hwarm]

section Calls

variable {hash : HashLib} {cfg : Settings} {jwt : JwtLib}
  {enqueue : AuditEvent → Except Exc Bool} {disk : Disk} {c : PolicyCache} {rd : Readings}
  {app : AppState} {authorization : Str} {body : DecideRequest} {h : Held}

theorem ruling_of_routed {requested : Option Str} {p : EdgePolicy} (inp : EvaluationInput)
    (hp : h.edition.routed requested = some p) :
    h.edition.ruling requested inp = .judged p (answerOf 0 inp (winner inp p.bundle.rules)) := by
  unfold Edition.ruling
  rw [hp]

/-- A call whose token is accepted gets the ruling of the edition. -/
theorem answers_of_authorised {claims : AgentTokenClaims} (hc : Holds c h)
    (hck : (requireAgentToken jwt cfg disk rd.verifiedAt app authorization).2 = .ok claims) :
    Answers cfg (some (decide hash cfg jwt enqueue disk c rd app authorization body))
      (some (h.ruling cfg.policyStaleThresholdSeconds rd.checkedAt (requestedName cfg body)
        body.input)) := by
  rw [decide_of_authorised hck]
  have hrouted := hc.routed cfg body
  unfold Held.ruling
  cases situation cfg c rd.checkedAt body with
  | nameMissing name hreq hmiss =>
    rw [routed_of_missing hreq hmiss] at hrouted
    have hruling : h.edition.ruling (requestedName cfg body) body.input =
        .unknown name h.edition.names := by
      unfold Edition.ruling
      rw [Option.map_eq_none_iff.mp hrouted.symm, hreq]
    rw [hruling, answer_of_missing hreq hmiss]
    refine .told _ _ ?_
    simp only [Except.map, Ruling.reply, policyNotFound, hc.names]
  | cold hreq hnone =>
    rw [routed_of_cold hreq hnone] at hrouted
    have hruling : h.edition.ruling (requestedName cfg body) body.input = .noPolicy := by
      unfold Edition.ruling
      rw [Option.map_eq_none_iff.mp hrouted.symm, hreq]
    rw [hruling, answer_of_cold hreq hnone]
    exact .told _ _ (untimed_cold cfg)
  | stale compiled hfound hstale =>
    rw [hfound] at hrouted
    obtain ⟨p, hp, rfl⟩ := Option.map_eq_some_iff.mp hrouted.symm
    rw [answer_of_stale hfound hstale, ruling_of_routed body.input hp]
    rw [status_of_holds hc (isWarm_of_routed hfound)] at hstale ⊢
    dsimp only
    rw [if_pos (of_decide_eq_true hstale)]
    refine .told _ _ ?_
    dsimp only [Ruling.reply]
    exact untimed_stale cfg (compile p) rfl
  | fresh compiled hfound hfresh =>
    rw [hfound] at hrouted
    obtain ⟨p, hp, rfl⟩ := Option.map_eq_some_iff.mp hrouted.symm
    rw [answer_of_fresh hfound hfresh, ruling_of_routed body.input hp]
    rw [status_of_holds hc (isWarm_of_routed hfound)] at hfresh
    dsimp only
    rw [if_neg (of_decide_eq_false hfresh)]
    cases hev : auditEvent hash cfg rd (callerAgentId claims body) body (compile p)
        (evaluate rd.evaluateMs (compile p) body.input) with
    | error e =>
      rw [answerFresh_unbuilt hev]
      exact .raised _ _ _ _ rfl
    | ok event =>
      rw [answerFresh_built hev]
      cases he : enqueue event with
      | error e => exact .raised _ _ _ _ rfl
      | ok b =>
        exact .told _ _ (congrArg Except.ok (untimed_evaluated rd.evaluateMs p body.input))

end Calls

/-! ## Runs -/

/-- What an edge has is what its replica is. -/
inductive Replicates : Option PolicyCache → Replica → Prop
  | down : Replicates none .down
  | up (c : PolicyCache) (h : Held) (hc : Holds c h) : Replicates (some c) (.up h)

theorem Replicates.of_up {o : Option PolicyCache} {r : Replica} {h : Held} (hr : Replicates o r)
    (hup : r = .up h) : ∃ c, o = some c ∧ Holds c h := by
  cases hr with
  | down => cases hup
  | up c h' hc =>
    cases hup
    exact ⟨c, rfl, hc⟩

theorem Replicates.of_some {o : Option PolicyCache} {r : Replica} {c : PolicyCache}
    (hr : Replicates o r) (hsome : o = some c) : ∃ h, r = .up h := by
  cases hr with
  | down => cases hsome
  | up _ h _ => exact ⟨h, rfl⟩

section Steps

variable {hash : HashLib} {cfg : Settings} {jwt : JwtLib} {wire : BodyWire} {e : Edge}

theorem replicates_restart :
    Replicates (e.restart cfg wire).cache
      ((foundOnDisk cfg wire e.disk).elim .down .up) := by
  unfold Edge.restart PolicyCache.loadFromDisk foundOnDisk
  cases hr : readDisk wire.toPolicyWire e.disk cfg.stateDir with
  | error x => exact .down
  | ok r =>
    cases r with
    | none => exact .up _ _ holds_empty
    | some c => exact .up c _ (holds_readDisk hr)

/-- What a running edge has after a sync, if it survives it. -/
theorem sync_cache {c c' : PolicyCache} {s : EdgeSync} (h : (e.sync cfg wire c s).cache = some c') :
    c' = (syncOnceCompiling s.compileFails wire s.gateway s.now cfg.stateDir
      { disk := e.disk, now := s.writtenAt, faults := s.faults } c
      cfg.multiPolicyEnabled).cache := by
  unfold Edge.sync at h
  dsimp only at h
  split at h
  · cases h
  · exact (Option.some.inj h).symm

theorem replicates_sync {c : PolicyCache} {h : Held} (hc : Holds c h) (s : EdgeSync)
    (he : e.cache = some c) :
    Replicates (e.sync cfg wire c s).cache
      (replicaStep cfg.policyStaleThresholdSeconds (.up h)
        (view cfg jwt wire (e, .sync s))).1 := by
  unfold view
  simp only [he]
  cases hsync : (e.sync cfg wire c s).cache with
  | none => exact .down
  | some c' =>
    have hc' := sync_cache hsync
    cases hp : plannedSwap s.compileFails wire s.gateway s.now cfg.stateDir
        cfg.multiPolicyEnabled with
    | none =>
      rw [brought_of_unplanned hp]
      rw [(unplanned hp).1] at hc'
      rw [hc']
      exact .up c h hc
    | some swap =>
      obtain ⟨edition, hed, hholds⟩ := brought_of_planned hp
      rw [hed]
      rw [syncOnceCompiling_planned hp, swapped_cache] at hc'
      rw [hc']
      exact .up _ _ hholds

theorem answers_call {c : PolicyCache} {h : Held} (hc : Holds c h) (call : EdgeCall)
    (he : e.cache = some c) :
    Answers cfg (edgeStep hash cfg jwt wire e (.decide call)).2
      (replicaStep cfg.policyStaleThresholdSeconds (.up h)
        (view cfg jwt wire (e, .decide call))).2 := by
  unfold view edgeStep EdgeCall.passes
  simp only [he]
  cases hck : (requireAgentToken jwt cfg e.disk call.readings.verifiedAt e.app
      call.authorization).2 with
  | error f =>
    rw [decide_of_refused hck]
    exact .refused _ f rfl rfl
  | ok claims => exact answers_of_authorised hc hck

/-- A sync asks nothing. -/
theorem replicaStep_sync (threshold : Nat) (h : Held) (s : EdgeSync) :
    (replicaStep threshold (.up h) (view cfg jwt wire (e, .sync s))).2 = none := by
  unfold view
  split
  · rfl
  · split
    · rfl
    · rename_i s' _ _ _ _
      cases brought s'.compileFails wire s'.gateway cfg.multiPolicyEnabled <;> rfl
  · rename_i heq _
    cases heq
  · rfl

/-- A call publishes nothing. -/
theorem replicaStep_decide (threshold : Nat) (h : Held) (call : EdgeCall) :
    (replicaStep threshold (.up h) (view cfg jwt wire (e, .decide call))).1 = .up h := by
  unfold view
  cases e.cache with
  | none => rfl
  | some c =>
    dsimp only
    split <;> rfl

/-- One step of an edge is one of its replica. -/
theorem replicates_step {r : Replica} (h : Replicates e.cache r) (i : EdgeInput) :
    Replicates (edgeStep hash cfg jwt wire e i).1.cache
        (replicaStep cfg.policyStaleThresholdSeconds r (view cfg jwt wire (e, i))).1 ∧
      Answers cfg (edgeStep hash cfg jwt wire e i).2
        (replicaStep cfg.policyStaleThresholdSeconds r (view cfg jwt wire (e, i))).2 := by
  cases hc : e.cache with
  | none =>
    rw [hc] at h
    cases h
    cases i with
    | restart => exact ⟨replicates_restart, .silent⟩
    | sync s =>
      simp only [edgeStep, view, hc]
      exact ⟨.down, .silent⟩
    | decide call =>
      simp only [edgeStep, view, hc]
      exact ⟨.down, .silent⟩
  | some c =>
    rw [hc] at h
    cases h with
    | up _ held hholds =>
      cases i with
      | restart => exact ⟨replicates_restart, .silent⟩
      | sync s =>
        have hstep : edgeStep hash cfg jwt wire e (.sync s) = (e.sync cfg wire c s, none) := by
          simp only [edgeStep, hc]
        rw [hstep, replicaStep_sync]
        exact ⟨replicates_sync hholds s hc, .silent⟩
      | decide call =>
        refine ⟨?_, answers_call hholds call hc⟩
        rw [replicaStep_decide]
        have hcache : (edgeStep hash cfg jwt wire e (.decide call)).1.cache = some c := by
          simp only [edgeStep, hc]
        rw [hcache]
        exact .up c held hholds

end Steps

theorem Site.replicates (s : Site) : Replicates s.edge.cache s.replica :=
  (simulates s.step (replicaStep s.cfg.policyStaleThresholdSeconds) (view s.cfg s.jwt s.wire)
    (fun _ _ i h => replicates_step h i) (R := fun e r => Replicates e.cache r) .down s.inputs).1

end Holding

/-- **An edge is a replica.** In every run, whatever the gateway answers and is called,
through writes that fail or kill the process, though none is torn, and restarts: what the
process serves is the newest edition that reached it or, since a restart, what that found;
and each call whose token is accepted is answered with the ruling of that edition. -/
theorem edge_refines [PyRuntime] (s : Site) :
    Replicates s.edge.cache s.replica ∧ List.Forall₂ (Answers s.cfg) s.outcomes s.rulings :=
  simulates s.step (replicaStep s.cfg.policyStaleThresholdSeconds) (view s.cfg s.jwt s.wire)
    (R := fun e r => Replicates e.cache r)
    (fun _ _ i h => replicates_step h i) .down s.inputs

/-! ## Two replicas -/

section Agreement

variable [PyRuntime]

theorem ruling_of_recent {threshold : Nat} {h : Held} {at_ : Rat} (requested : Option Str)
    (inp : EvaluationInput) (hrecent : at_ - h.asOf ≤ threshold) :
    h.ruling threshold at_ requested inp = h.edition.ruling requested inp := by
  unfold Held.ruling
  split
  · rename_i heq
    rw [if_neg (not_lt.mpr hrecent), heq]
  · rfl

/-- A call on an edition within the threshold. -/
theorem answers_passed {s : Site} {c : PolicyCache} {h : Held} {call : EdgeCall}
    (hc : Holds c h) (he : s.edge.cache = some c)
    (hpass : call.passes s.cfg s.jwt s.edge.disk s.edge.app = true)
    (hrecent : call.readings.checkedAt - h.asOf ≤ s.cfg.policyStaleThresholdSeconds) :
    Answers s.cfg (s.step s.edge (.decide call)).2
      (some (h.edition.ruling (requestedName s.cfg call.body) call.body.input)) := by
  have hview : view s.cfg s.jwt s.wire (s.edge, .decide call) =
      .asked call.readings.checkedAt (requestedName s.cfg call.body) call.body.input := by
    simp only [view, he, hpass, if_true]
  have hanswers : Answers s.cfg (s.step s.edge (.decide call)).2 _ := answers_call hc call he
  rw [hview] at hanswers
  dsimp only [replicaStep] at hanswers
  rwa [ruling_of_recent _ _ hrecent] at hanswers

/-- Where no edition is outdated, the fail mode is all that a reply has from the settings. -/
theorem reply_congr {cfg cfg' : Settings} (hmode : cfg.policyFailMode = cfg'.policyFailMode)
    (e : Edition) (requested : Option Str) (inp : EvaluationInput) :
    (e.ruling requested inp).reply cfg = (e.ruling requested inp).reply cfg' := by
  unfold Edition.ruling
  split
  · rfl
  · rfl
  · simp only [Ruling.reply, answerCold, hmode]

theorem sameAnswer_of_answers {cfg cfg' : Settings} {o o' : Option DecideOutcome} {r : Ruling}
    (hreply : r.reply cfg = r.reply cfg') (h : Answers cfg o (some r))
    (h' : Answers cfg' o' (some r)) :
    ∃ x x', o = some x ∧ o' = some x' ∧ SameAnswer x.reply x'.reply := by
  cases h with
  | raised o p result e h =>
    cases h' with
    | raised o' _ _ e' h' => exact ⟨o, o', rfl, rfl, Or.inl ⟨e, h⟩⟩
    | told o' _ h' => exact ⟨o, o', rfl, rfl, Or.inl ⟨e, h⟩⟩
  | told o _ h =>
    cases h' with
    | raised o' p result e' h' => exact ⟨o, o', rfl, rfl, Or.inr (Or.inl ⟨e', h'⟩)⟩
    | told o' _ h' => exact ⟨o, o', rfl, rfl, Or.inr (Or.inr (h.trans (hreply.trans h'.symm)))⟩

/-- **Replicas agree.** Two edges with the same fail mode and the same flag that hold one
edition, wherever they run and whatever befell them before, have the same clients, and
answer a request alike for as long as it is not outdated at either. -/
theorem replicas_agree (a b : Site) (hmode : a.cfg.policyFailMode = b.cfg.policyFailMode)
    (hmulti : a.cfg.multiPolicyEnabled = b.cfg.multiPolicyEnabled) {h k : Held}
    (ha : a.replica = .up h) (hb : b.replica = .up k) (hsame : h.edition = k.edition) :
    a.edge.cache.map (·.authorizedClients) = b.edge.cache.map (·.authorizedClients) ∧
      ∀ x y : EdgeCall, x.body = y.body →
        x.passes a.cfg a.jwt a.edge.disk a.edge.app = true →
        y.passes b.cfg b.jwt b.edge.disk b.edge.app = true →
        x.readings.checkedAt - h.asOf ≤ a.cfg.policyStaleThresholdSeconds →
        y.readings.checkedAt - k.asOf ≤ b.cfg.policyStaleThresholdSeconds →
        ∃ o o', (a.step a.edge (.decide x)).2 = some o ∧
          (b.step b.edge (.decide y)).2 = some o' ∧ SameAnswer o.reply o'.reply := by
  obtain ⟨c, hca, hc⟩ := a.replicates.of_up ha
  obtain ⟨c', hcb, hc'⟩ := b.replicates.of_up hb
  refine ⟨?_, fun x y hbody hx hy hxr hyr => ?_⟩
  · rw [hca, hcb, Option.map_some, Option.map_some, hc.clients, hc'.clients, hsame]
  · have hax := answers_passed hc hca hx hxr
    have hby := answers_passed hc' hcb hy hyr
    have hreq : requestedName a.cfg x.body = requestedName b.cfg y.body := by
      unfold requestedName
      rw [hmulti, hbody]
    rw [hreq, hbody, hsame] at hax
    exact sameAnswer_of_answers (reply_congr hmode _ _ _) hax hby

/-- The replica after a sync that the process survives and that brings an edition. -/
theorem Site.replica_after_sync (s : Site) (x : EdgeSync) {edition : Edition}
    (hed : brought x.compileFails s.wire x.gateway s.cfg.multiPolicyEnabled = some edition)
    (hup : ({ s with inputs := s.inputs ++ [.sync x] } : Site).edge.cache.isSome = true) :
    ({ s with inputs := s.inputs ++ [.sync x] } : Site).replica =
      .up { edition := edition, asOf := x.now } := by
  have hedge : ({ s with inputs := s.inputs ++ [.sync x] } : Site).edge =
      (s.step s.edge (.sync x)).1 := final_append _ _ _ _
  have hreplica : ({ s with inputs := s.inputs ++ [.sync x] } : Site).replica =
      (replicaStep s.cfg.policyStaleThresholdSeconds s.replica
        (view s.cfg s.jwt s.wire (s.edge, .sync x))).1 := by
    unfold Site.replica Site.views
    dsimp only
    rw [show ({ s with inputs := s.inputs ++ [.sync x] } : Site).step = s.step from rfl,
      visits_concat, List.map_append, final_append]
    rfl
  rw [hedge] at hup
  have hstep : s.step s.edge (.sync x) = edgeStep s.hash s.cfg s.jwt s.wire s.edge (.sync x) := rfl
  cases hc : s.edge.cache with
  | none =>
    simp only [hstep, edgeStep, hc] at hup
    cases hup
  | some c =>
    obtain ⟨held, hheld⟩ := s.replicates.of_some hc
    have halive : (s.edge.sync s.cfg s.wire c x).cache.isNone = false := by
      simp only [hstep, edgeStep, hc] at hup
      simpa using hup
    have hview : view s.cfg s.jwt s.wire (s.edge, .sync x) = .published edition x.now := by
      simp only [view, hc, halive, hed, Bool.false_eq_true, if_false, Option.elim_some]
    rw [hreplica, hheld, hview]
    rfl

end Agreement

/-! A site that gets both policies in its first sync, and one that died in the middle of a
sync and was restarted before it gets them again. -/

def steadySite : Site where
  hash := demoHash
  cfg := multiSettings .closed
  jwt := demoJwt
  wire := pairWire
  disk := keyDisk
  inputs := [.restart]

def troubledSite : Site :=
  { steadySite with
    inputs := [.restart, .sync (syncAt 100 [pairA, pairB] 100),
      .sync (syncAt 500 [pairA, pairB] 4), .restart] }

def bothAt (at_ : Rat) : EdgeSync := syncAt at_ [pairA, pairB] 100

/-- The site after it got both policies. -/
def Site.withBoth (s : Site) (at_ : Rat) : Site :=
  { s with inputs := s.inputs ++ [.sync (bothAt at_)] }

theorem replicas_agree_after_crash :
    ∃ o o', (@Site.step asciiRuntime (steadySite.withBoth 1000)
        (@Site.edge asciiRuntime (steadySite.withBoth 1000)) (.decide (callAt 1100))).2 = some o ∧
      (@Site.step asciiRuntime (troubledSite.withBoth 900)
        (@Site.edge asciiRuntime (troubledSite.withBoth 900)) (.decide (callAt 1200))).2 = some o' ∧
      SameAnswer o.reply o'.reply := by
  have hbrought : (brought (fun _ => false) pairWire (serving [pairA, pairB]) true).isSome =
      true := by decide +kernel
  obtain ⟨edition, hed⟩ := Option.isSome_iff_exists.mp hbrought
  have hupa : (@Site.edge asciiRuntime (steadySite.withBoth 1000)).cache.isSome = true := by
    decide +kernel
  have hupb : (@Site.edge asciiRuntime (troubledSite.withBoth 900)).cache.isSome = true := by
    decide +kernel
  have ha := @Site.replica_after_sync asciiRuntime steadySite (bothAt 1000) edition hed hupa
  have hb := @Site.replica_after_sync asciiRuntime troubledSite (bothAt 900) edition hed hupb
  have hra : (1100 - 1000 : Rat) ≤ (multiSettings .closed).policyStaleThresholdSeconds := by
    decide +kernel
  have hrb : (1200 - 900 : Rat) ≤ (multiSettings .closed).policyStaleThresholdSeconds := by
    decide +kernel
  exact (@replicas_agree asciiRuntime (steadySite.withBoth 1000) (troubledSite.withBoth 900) rfl rfl
    _ _ ha hb rfl).2 (callAt 1100) (callAt 1200) rfl (by decide +kernel) (by decide +kernel) hra hrb

end TrustModelEdge.Routes
