/-
TrustModelEdge.Policy.WarmTheorems — what the first sync delivers.

`warm` looks at the cache only where the sync failed. A sync that returns
`True` tells that it swapped, not what it swapped in, so the one cold cache
that `warm` lets pass is that of a plural body without a policy
(`returned_true_cold_iff`).
-/
import TrustModelEdge.Policy.SyncTheorems

namespace TrustModelEdge.Policy

open Py OAuth Lib

/-! ## Bodies without a policy -/

/-- The plural path answers a body that lists no policy. -/
def EmptyBody (wire : BodyWire) (g : Gateway) : Prop :=
  ∃ payload rawPolicies clients, httpGet g.plural = .ok payload ∧
    payload.field? "policies" = some rawPolicies ∧ listOf rawPolicies = .ok [] ∧
    validateAll wire.validateClient ((payload.field? "authorized_clients").getD (.arr [])) =
      .ok clients

/-- Nothing is against the layout of no policy, in the surroundings `env`: the two
directories can be made, the sweep gets past each `*.json` file, and the manifest can be
written aside and moved. -/
def EmptyLayoutWritten (wire : PolicyWire) (stateDir : Path) (env : DiskEnv) : Prop :=
  ∃ rest, meet (manifestHazards wire stateDir env.disk [] none) env.faults = .through rest

theorem emptyLayoutWritten_iff {wire : PolicyWire} {stateDir : Path} {env : DiskEnv} :
    EmptyLayoutWritten wire stateDir env ↔
      ∃ env', (persistManifest wire stateDir [] none).run env = (.ok (), env') := by
  unfold EmptyLayoutWritten
  rw [← meets_persistManifest.finishes_iff rfl]
  exact ⟨fun ⟨_, env', h⟩ => ⟨env', h⟩, fun ⟨env', h⟩ => ⟨(), env', h⟩⟩

theorem mapM_nil_iff {α β : Type} {f : α → Except Exc β} {as : List α} :
    as.mapM f = .ok [] ↔ as = [] := by
  cases as with
  | nil => simp [pure, Except.pure]
  | cons a as => simp [List.mapM_cons, bind_eq_ok, pure, Except.pure]

theorem validateAll_nil_iff {α : Type} {validate : Json → Except Exc α} {raw : Json} :
    validateAll validate raw = .ok [] ↔ listOf raw = .ok [] := by
  unfold validateAll
  rw [bind_eq_ok]
  simp only [mapM_nil_iff, exists_eq_right]

theorem parsePlural_nil_iff {wire : BodyWire} {payload : Json} {primaryName : Option Str}
    {clients : List AuthorizedClient} :
    parsePlural wire payload = .ok ([], primaryName, clients) ↔
      primaryName = none ∧ ∃ rawPolicies, payload.field? "policies" = some rawPolicies ∧
        listOf rawPolicies = .ok [] ∧
        validateAll wire.validateClient ((payload.field? "authorized_clients").getD (.arr [])) =
          .ok clients := by
  have hnil : ∀ raw, listOf raw = .ok [] ↔ validateAll wire.validate raw = .ok [] :=
    fun _ => validateAll_nil_iff.symm
  simp only [hnil]
  unfold parsePlural
  cases payload.field? "policies" with
  | none => simp
  | some rawPolicies =>
    simp only [Option.some.injEq, exists_eq_left']
    cases validateAll wire.validate rawPolicies with
    | error e => simp
    | ok policies =>
      cases validateAll wire.validateClient
          ((payload.field? "authorized_clients").getD (.arr [])) with
      | error e => simp
      | ok clients' =>
        simp only [Except.ok.injEq, Prod.mk.injEq]
        constructor
        · rintro ⟨rfl, rfl, rfl⟩
          exact ⟨rfl, rfl, rfl⟩
        · rintro ⟨rfl, rfl, rfl⟩
          exact ⟨rfl, rfl, rfl⟩

/-- A fetch gives no policy exactly when the plural body lists none: the
singular path gives one. -/
theorem fetchAll_nil_iff {wire : BodyWire} {g : Gateway} :
    (∃ primaryName clients, fetchAll wire g = .ok ([], primaryName, clients)) ↔
      EmptyBody wire g := by
  unfold fetchAll EmptyBody
  cases hget : httpGet g.plural with
  | ok payload =>
    simp only [parsePlural_nil_iff, Except.ok.injEq]
    constructor
    · rintro ⟨_, clients, -, raw, hraw, hnil, hclients⟩
      exact ⟨payload, raw, clients, rfl, hraw, hnil, hclients⟩
    · rintro ⟨_, raw, clients, rfl, hraw, hnil, hclients⟩
      exact ⟨none, clients, rfl, raw, hraw, hnil, hclients⟩
  | error e =>
    cases e with
    | policyNotFound detail => simp [bind_eq_ok, pure, Except.pure]
    | policyFetchError => simp
    | raised e => simp

/-! ## The first sync -/

section Warm

variable [PyRuntime] {compileFails : EdgePolicy → Bool} {wire : BodyWire} {g : Gateway}
  {now : Rat} {stateDir : Path} {env : DiskEnv} {c : PolicyCache}
  {requireSuccess multiPolicyEnabled : Bool}

omit [PyRuntime] in
/-- A swap returns `True` exactly when its disk half completes. -/
theorem swapped_returned_true {swap : PolicyCache × DiskM Unit} :
    (swapped swap env).ended = .returned true ↔ ∃ env', swap.2.run env = (.ok (), env') := by
  unfold swapped
  rcases hr : swap.2.run env with ⟨r, env'⟩
  cases r with
  | ok a => simp
  | error s => cases s <;> simp

theorem isWarm_install (now : Rat) (p : EdgePolicy) :
    (PolicyCache.install now p).isWarm = true := by
  show (!([snapshotOf now p].foldl PolicyCache.addSnapshot ∅).entries.isEmpty) = true
  rw [isEmpty_addSnapshots]
  rfl

theorem isWarm_installAll (policies : List EdgePolicy) (primaryName : Option Str) :
    (PolicyCache.installAll now policies primaryName).isWarm = !policies.isEmpty := by
  unfold PolicyCache.isWarm PolicyCache.installAll
  rw [isEmpty_addSnapshots, List.isEmpty_map]

/-- What is swapped in is cold exactly when it is of a plural body without a
policy. -/
theorem plannedSwap_cold_iff {swap : PolicyCache × DiskM Unit}
    (h : plannedSwap compileFails wire g now stateDir multiPolicyEnabled = some swap) :
    swap.1.isWarm = false ↔ multiPolicyEnabled = true ∧ EmptyBody wire g := by
  rw [← fetchAll_nil_iff]
  rcases plannedSwap_some h with
    ⟨hmulti, policies, primaryName, clients, hfetch, -, rfl⟩ | ⟨hmulti, p, -, -, rfl⟩
  · show (PolicyCache.installAll now policies primaryName).isWarm = false ↔ _
    rw [isWarm_installAll, Bool.not_eq_false', List.isEmpty_iff]
    constructor
    · rintro rfl
      exact ⟨hmulti, primaryName, clients, hfetch⟩
    · rintro ⟨-, primaryName', clients', hnil⟩
      rw [hfetch] at hnil
      exact congrArg Prod.fst (Except.ok.inj hnil)
  · have hwarm : (PolicyCache.install now p).isWarm = true := isWarm_install now p
    show (PolicyCache.install now p).isWarm = false ↔ _
    simp [hwarm, hmulti]

/-- A body without a policy is swapped in. -/
theorem plannedSwap_of_empty (h : EmptyBody wire g) :
    plannedSwap compileFails wire g now stateDir true =
      some (PolicyCache.replaceAll wire.toPolicyWire now [] none (some stateDir)) := by
  obtain ⟨payload, rawPolicies, clients, hget, hraw, hnil, hclients⟩ := h
  have hfetch : fetchAll wire g = .ok ([], none, clients) := by
    simp only [fetchAll, hget]
    exact parsePlural_nil_iff.mpr ⟨rfl, rawPolicies, hraw, hnil, hclients⟩
  simp only [plannedSwap, if_true, hfetch]
  rfl

/-- **The cold success**: a sync returns `True` and leaves a cold cache exactly
when it wrote a plural body without a policy. -/
theorem returned_true_cold_iff :
    (syncOnceCompiling compileFails wire g now stateDir env c multiPolicyEnabled).ended =
          .returned true ∧
        (syncOnceCompiling compileFails wire g now stateDir env c multiPolicyEnabled).cache.isWarm =
          false ↔
      multiPolicyEnabled = true ∧ EmptyBody wire g ∧
        EmptyLayoutWritten wire.toPolicyWire stateDir env := by
  constructor
  · rintro ⟨hended, hcold⟩
    cases hp : plannedSwap compileFails wire g now stateDir multiPolicyEnabled with
    | none => exact absurd hended (unplanned hp).2.2
    | some swap =>
      rw [syncOnceCompiling_planned hp] at hended hcold
      rw [swapped_cache, plannedSwap_cold_iff hp] at hcold
      obtain ⟨rfl, hempty⟩ := hcold
      rw [plannedSwap_of_empty hempty] at hp
      cases hp
      exact ⟨rfl, hempty, emptyLayoutWritten_iff.mpr (swapped_returned_true.mp hended)⟩
  · rintro ⟨rfl, hempty, hwritten⟩
    have hp : plannedSwap compileFails wire g now stateDir true = some _ :=
      plannedSwap_of_empty hempty
    rw [syncOnceCompiling_planned hp, swapped_cache, swapped_returned_true]
    exact ⟨emptyLayoutWritten_iff.mp hwritten, isWarm_installAll [] none⟩

omit [PyRuntime] in
/-- When `warm` returns. -/
theorem warmEnd_returned_iff {o : SyncOutcome} :
    o.warmEnd requireSuccess = .returned ↔
      o.ended = .returned true ∨
        o.ended = .returned false ∧ requireSuccess = false ∧ o.cache.isWarm = true := by
  unfold SyncOutcome.warmEnd
  cases o.ended with
  | returned success => cases success <;> simp
  | raised e => simp
  | crashed => simp

omit [PyRuntime] in
/-- The error of `warm` itself tells of a cold cache, or of a failure that the
caller asked for. -/
theorem warmEnd_runtimeError {o : SyncOutcome} {message : Str}
    (h : o.warmEnd requireSuccess = .runtimeError message) :
    requireSuccess = true ∨ o.cache.isWarm = false := by
  unfold SyncOutcome.warmEnd at h
  split at h
  · cases h
  · split at h
    · rename_i hfail
      simpa using hfail
    · cases h
  · cases h
  · cases h

end Warm

/-- **What the first sync delivers.** `warm` returns with a warm cache, and raises
on its own account only where success was required or the cache is empty,
exactly when it did not write a plural body without a policy. -/
theorem warm_delivers_iff [PyRuntime] (compileFails : EdgePolicy → Bool) (wire : BodyWire)
    (g : Gateway) (now : Rat) (stateDir : Path) (env : DiskEnv) (c : PolicyCache)
    (requireSuccess multiPolicyEnabled : Bool) :
    let o := warm compileFails wire g now stateDir env c requireSuccess multiPolicyEnabled
    ((o.ended = .returned → o.cache.isWarm = true) ∧
        ∀ message, o.ended = .runtimeError message →
          requireSuccess = true ∨ o.cache.isWarm = false) ↔
      ¬ (multiPolicyEnabled = true ∧ EmptyBody wire g ∧
          EmptyLayoutWritten wire.toPolicyWire stateDir env) := by
  intro o
  let sync := syncOnceCompiling compileFails wire g now stateDir env c multiPolicyEnabled
  have hcold_iff : sync.ended = .returned true ∧ sync.cache.isWarm = false ↔
      multiPolicyEnabled = true ∧ EmptyBody wire g ∧
        EmptyLayoutWritten wire.toPolicyWire stateDir env := returned_true_cold_iff
  rw [← hcold_iff]
  constructor
  · rintro ⟨hwarm, -⟩ ⟨hended, hcold⟩
    have hreturned : o.ended = .returned := warmEnd_returned_iff.mpr (Or.inl hended)
    have hcold' : o.cache.isWarm = false := hcold
    rw [hwarm hreturned] at hcold'
    cases hcold'
  · intro hnot
    refine ⟨fun hreturned => ?_, fun message h => warmEnd_runtimeError h⟩
    rcases warmEnd_returned_iff.mp hreturned with hended | ⟨-, -, hwarm⟩
    · rw [← Bool.not_eq_false]
      exact fun hcold => hnot ⟨hended, hcold⟩
    · exact hwarm

/-- A gateway whose tenant has no policy, as the plural path tells it. -/
def noPolicies : Gateway where
  singular := .response 404 (.ok []) (.error .jsonDecodeError)
  plural := .response 200 (.ok [])
    (.ok (.obj [("policies", .arr []), ("authorized_clients", .arr [])]))

/-- The cache was loaded from the disk; `warm` empties it and returns, also where
success is required. -/
theorem warm_returns_cold :
    let c := @PolicyCache.install asciiRuntime 1000 policyA
    let o := @warm asciiRuntime (fun _ => false) demoBodyWire noPolicies 2000 stateDir
      { disk := .empty, now := 2000, faults := [] } c true true
    c.isWarm = true ∧ o.ended = .returned ∧ o.cache.isWarm = false := by
  decide +kernel

end TrustModelEdge.Policy
