/-
TrustModelEdge.Policy.PluralTheorems — what a plural sync keeps of the body
it received.

A policy of the body has two names, that of its wrapper and that of its
bundle. The map is filled by the second, so the bodies that lose a policy
are those whose bundle names collide, whatever the wrappers are called.
-/
import TrustModelEdge.Policy.SyncTheorems

namespace TrustModelEdge.Policy

open Py Engine OAuth Lib

/-! ## The body -/

/-- The primary name of an accepted body is that of its first flagged policy. -/
theorem parsePlural_primary {wire : BodyWire} {payload : Json} {policies : List EdgePolicy}
    {primaryName : Option Str} {clients : List AuthorizedClient}
    (h : parsePlural wire payload = .ok (policies, primaryName, clients)) :
    primaryName = primaryNameOf policies := by
  unfold parsePlural at h
  cases hf : payload.field? "policies" with
  | none => simp [hf] at h
  | some rawPolicies =>
    simp only [hf] at h
    split at h
    · cases h
      rfl
    · cases h
    · cases h

/-- The primary name of a body is the name of one of its policies. -/
theorem exists_of_primaryNameOf {policies : List EdgePolicy} {name : Str}
    (h : primaryNameOf policies = some name) : ∃ p ∈ policies, bundleName p = name := by
  obtain ⟨p, hp, hname⟩ := Option.map_eq_some_iff.mp h
  exact ⟨p, List.mem_of_find?_eq_some hp, hname⟩

/-! ## What the cache keeps -/

/-- The cache holds every policy of a body, each under the name that `nameOf`
gives, and has the flagged one as its primary. -/
structure KeepsBody [PyRuntime] (nameOf : EdgePolicy → Str) (policies : List EdgePolicy)
    (c : PolicyCache) : Prop where
  count : c.snapshots.entries.length = policies.length
  served : ∀ p ∈ policies, (c.snapshots.lookup (nameOf p)).map (·.edgePolicy) = some p
  flagged : ∀ p ∈ policies, p.isPrimary = true → c.primaryCompiled = some (compile p)
  unflagged : (∀ p ∈ policies, p.isPrimary = false) → c.primaryCompiled = none

section Kept

variable [PyRuntime] {now : Rat} {policies : List EdgePolicy}

theorem length_installAll (primaryName : Option Str) :
    (PolicyCache.installAll now policies primaryName).snapshots.entries.length =
      (policies.map bundleName).dedup.length := by
  have h := length_foldl_insert (fun s : CacheSnapshot => bundleName s.edgePolicy)
    (policies.map (snapshotOf now))
  rw [List.map_map] at h
  exact h

omit [PyRuntime] in
/-- Of a body that flags one policy at most, the first flagged is the only one. -/
theorem find_flagged (hone : (policies.filter (·.isPrimary)).length ≤ 1) {p : EdgePolicy}
    (hp : p ∈ policies) (hprimary : p.isPrimary = true) :
    policies.find? (·.isPrimary) = some p := by
  have hmem : p ∈ policies.filter (·.isPrimary) := List.mem_filter.mpr ⟨hp, hprimary⟩
  rw [← List.head?_filter]
  match hf : policies.filter (·.isPrimary) with
  | [] => simp [hf] at hmem
  | [q] =>
    rw [hf, List.mem_singleton] at hmem
    rw [hf, hmem]
    rfl
  | q :: r :: rest =>
    rw [hf] at hone
    simp at hone

theorem keepsBody_installAll (hone : (policies.filter (·.isPrimary)).length ≤ 1)
    (hnodup : (policies.map bundleName).Nodup) :
    KeepsBody bundleName policies (.installAll now policies (primaryNameOf policies)) := by
  have hlookup : ∀ p ∈ policies,
      (PolicyCache.installAll now policies (primaryNameOf policies)).snapshots.lookup
        (bundleName p) = some (snapshotOf now p) := by
    intro p hp
    rw [lookup_installAll, lastWith_of_nodup hnodup hp]
    rfl
  refine ⟨?_, ?_, ?_, ?_⟩
  · rw [length_installAll, hnodup.dedup, List.length_map]
  · intro p hp
    rw [hlookup p hp]
    rfl
  · intro p hp hprimary
    have hname : primaryNameOf policies = some (bundleName p) := by
      rw [primaryNameOf, find_flagged hone hp hprimary]
      rfl
    have hkept : (PolicyCache.installAll now policies (primaryNameOf policies)).primaryName =
        some (bundleName p) := by
      have hmem := AList.lookup_isSome.mp (by rw [hlookup p hp]; rfl)
      simpa [PolicyCache.installAll, PolicyCache.keepPrimary, hname, Option.filter] using hmem
    rw [PolicyCache.primaryCompiled, hkept]
    simp [PolicyCache.compiledByName, hlookup p hp, snapshotOf]
  · intro hnone
    have hname : primaryNameOf policies = none := by
      simpa [primaryNameOf] using hnone
    rw [hname]
    rfl

/-- A cache that has as many snapshots as the body has policies lost none to
another of its bundle name. -/
theorem nodup_of_count {primaryName : Option Str}
    (h : (PolicyCache.installAll now policies primaryName).snapshots.entries.length =
      policies.length) : (policies.map bundleName).Nodup := by
  rw [length_installAll] at h
  refine List.dedup_eq_self.mp ((List.dedup_sublist _).eq_of_length ?_)
  rw [h, List.length_map]

/-- A cache that serves every policy under its wrapper's name has it under both
names. -/
theorem bundleName_eq_of_kept {primaryName : Option Str}
    (h : KeepsBody (·.name) policies (.installAll now policies primaryName)) {p : EdgePolicy}
    (hp : p ∈ policies) : bundleName p = p.name := by
  have hserved := h.served p hp
  rw [lookup_installAll, Option.map_map] at hserved
  obtain ⟨q, hq, rfl⟩ := Option.map_eq_some_iff.mp hserved
  exact (lastWith_eq_some hq).2

/-- The assignments of a plural sync that returns `True`. -/
theorem syncOnceMultiCompiling_cache {compileFails : EdgePolicy → Bool} {wire : BodyWire}
    {g : Gateway} {stateDir : Path} {env : DiskEnv} {c : PolicyCache} {payload : Json}
    {primaryName : Option Str} {clients : List AuthorizedClient}
    (hget : httpGet g.plural = .ok payload)
    (hbody : parsePlural wire payload = .ok (policies, primaryName, clients))
    (hended : (syncOnceMultiCompiling compileFails wire g now stateDir env c).ended =
      .returned true) :
    (syncOnceMultiCompiling compileFails wire g now stateDir env c).cache =
      .installAll now policies (primaryNameOf policies) := by
  have hfetch : fetchAll wire g = .ok (policies, primaryNameOf policies, clients) := by
    rw [← parsePlural_primary hbody, ← hbody]
    simp only [fetchAll, hget]
  simp only [syncOnceMultiCompiling, hfetch, swappedCompiling] at hended ⊢
  split at hended
  · cases hended
  · rename_i hcompiles
    rw [if_neg hcompiles, swapped_cache]
    rfl

end Kept

/-- **No policy is lost** by a plural sync that returns `True`, of a body whose
policies have different names and of which one is flagged at most, exactly when
their bundles have different names too; each is served under the name of its
wrapper exactly when the two names are the same. -/
theorem plural_sync_keeps_body_iff [PyRuntime] (compileFails : EdgePolicy → Bool) (wire : BodyWire)
    (g : Gateway) (now : Rat) (stateDir : Path) (env : DiskEnv) (c : PolicyCache) (payload : Json)
    (policies : List EdgePolicy) (primaryName : Option Str) (clients : List AuthorizedClient)
    (hget : httpGet g.plural = .ok payload)
    (hbody : parsePlural wire payload = .ok (policies, primaryName, clients))
    (hnames : (policies.map (·.name)).Nodup)
    (hone : (policies.filter (·.isPrimary)).length ≤ 1)
    (hended : (syncOnceMultiCompiling compileFails wire g now stateDir env c).ended =
      .returned true) :
    let cache := (syncOnceMultiCompiling compileFails wire g now stateDir env c).cache
    (KeepsBody bundleName policies cache ↔ (policies.map bundleName).Nodup) ∧
      (KeepsBody (·.name) policies cache ↔ ∀ p ∈ policies, bundleName p = p.name) := by
  intro cache
  have hcache : cache = .installAll now policies (primaryNameOf policies) :=
    syncOnceMultiCompiling_cache hget hbody hended
  rw [hcache]
  constructor
  · exact ⟨fun h => nodup_of_count h.count, keepsBody_installAll hone⟩
  · constructor
    · exact fun h p hp => bundleName_eq_of_kept h hp
    · intro hsame
      have hmap : policies.map bundleName = policies.map (·.name) := List.map_congr_left hsame
      have hkept : KeepsBody bundleName policies
          (.installAll now policies (primaryNameOf policies)) :=
        keepsBody_installAll hone (hmap ▸ hnames)
      refine ⟨hkept.count, ?_, hkept.flagged, hkept.unflagged⟩
      intro p hp
      rw [← hsame p hp]
      exact hkept.served p hp

/-! Bodies of two policies, the first flagged: with their bundle names apart, and
with the same one. -/

/-- A row of a body: the id, the wrapper's name, the bundle's name, the flag. -/
def rowJson (id name bundle : Str) (isPrimary : Bool) : Json :=
  .obj
    [("id", .str id), ("tenant_id", .str "acme"), ("name", .str name), ("version", .str "1"),
     ("bundle", .obj [("name", .str bundle), ("version", .str "1")]), ("is_active", .bool true),
     ("is_primary", .bool isPrimary), ("created_at", .str "1970-01-01T00:00:00Z")]

/-- `model_validate` on such rows. -/
def rowWire : BodyWire where
  json := demoWire.json
  validate := fun v =>
    match v.field? "id", v.field? "name", v.field? "bundle" >>= (·.field? "name"),
        v.field? "is_primary" with
    | some (.str id), some (.str name), some (.str bundle), some (.bool isPrimary) =>
        .ok { demoPolicy id bundle with name := name, isPrimary := isPrimary }
    | _, _, _, _ => .error .validationError
  dump := demoWire.dump
  validateClient := fun _ => .error .validationError

def rowsGateway (rows : List Json) : Gateway where
  singular := .transportError
  plural := .response 200 (.ok []) (.ok (.obj [("policies", .arr rows)]))

/-- The two policies as validated, with the bundle name of the second. -/
def rowPolicies (bundle : Str) : List EdgePolicy :=
  [{ demoPolicy "pol-1" "a" with name := "x", isPrimary := true },
   { demoPolicy "pol-2" bundle with name := "y" }]

/-- The sync of such a body on an empty cache. -/
def rowSync (bundle : Str) : SyncOutcome :=
  @syncOnceMultiCompiling asciiRuntime (fun _ => false) rowWire
    (rowsGateway [rowJson "pol-1" "x" "a" true, rowJson "pol-2" "y" bundle false]) 1000 ["state"]
    { disk := .empty, now := 1000, faults := [] } {}

theorem rowBody_parses (bundle : Str) :
    parsePlural rowWire
      (.obj [("policies", .arr [rowJson "pol-1" "x" "a" true, rowJson "pol-2" "y" bundle false])]) =
        .ok (rowPolicies bundle, some "a", []) := rfl

theorem plural_sync_keeps_body_apart :
    @KeepsBody asciiRuntime bundleName (rowPolicies "b") (rowSync "b").cache :=
  (@plural_sync_keeps_body_iff asciiRuntime (fun _ => false) rowWire
    (rowsGateway [rowJson "pol-1" "x" "a" true, rowJson "pol-2" "y" "b" false]) 1000 ["state"]
    { disk := .empty, now := 1000, faults := [] } {} _ (rowPolicies "b") (some "a") [] rfl
    (rowBody_parses "b") (by decide) (by decide) (by decide +kernel)).1.mpr (by decide)

/-- Both policies have the bundle name `a`: one snapshot is left, and the primary is
the policy that was not flagged. -/
theorem plural_sync_loses_policy :
    parsePlural rowWire
        (.obj [("policies", .arr [rowJson "pol-1" "x" "a" true, rowJson "pol-2" "y" "a" false])]) =
          .ok (rowPolicies "a", some "a", []) ∧
      ((rowPolicies "a").map (·.name)).Nodup ∧
      ((rowPolicies "a").filter (·.isPrimary)).length ≤ 1 ∧
      (rowSync "a").ended = .returned true ∧
      (rowSync "a").cache.snapshots.entries.length ≠ (rowPolicies "a").length ∧
      (rowSync "a").cache.primaryCompiled.map (·.policyId) = some "pol-2" ∧
      ∀ nameOf, ¬ @KeepsBody asciiRuntime nameOf (rowPolicies "a") (rowSync "a").cache := by
  have hcount : (rowSync "a").cache.snapshots.entries.length ≠ (rowPolicies "a").length := by
    decide +kernel
  refine ⟨rowBody_parses "a", by decide, by decide, by decide +kernel, hcount, by decide +kernel, ?_⟩
  intro nameOf h
  exact hcount (@KeepsBody.count asciiRuntime _ _ _ h)

end TrustModelEdge.Policy
