/-
TrustModelEdge.Routes.StateTheorems — the cache as the routes find it, in
every state that the program reaches.

Two readers rest on the same record: `decide` takes a time of refresh for
granted where it finds a policy, the readiness probe takes a filled map for
a cache that can serve. The first is the representation invariant. The
second is not: a map may be filled without a primary, and `ServesAll` says
which inputs keep the two apart.
-/
import TrustModelEdge.Policy.CallTheorems
import TrustModelEdge.Policy.PluralTheorems
import TrustModelEdge.Routes.FreshnessTheorems
import TrustModelEdge.Routes.Health
import TrustModelEdge.Routes.ProcessTheorems

namespace TrustModelEdge.Routes

open Py Policy OAuth Engine Telemetry Lib

/-! ## The representation invariant -/

/-- What the readers of a cache take for granted. -/
structure Represents [PyRuntime] (c : PolicyCache) : Prop where
  primary : ∀ name, c.primaryName = some name → name ∈ c.snapshots
  keyed : ∀ name snap, c.snapshots.lookup name = some snap →
    name = snap.edgePolicy.bundle.name ∧ snap.compiled = compile snap.edgePolicy
  dated : c.isWarm = true → c.lastSuccessAt ≠ none
  compiled : c.primaryCompiled.isSome = true ↔ c.primaryName.isSome = true
  /-- Where `decide` looks at the age of the cache, the age is finite. -/
  aged : ∀ cfg body now policy, routed cfg c body = some policy →
    (status c cfg.policyStaleThresholdSeconds now).secondsSinceRefresh ≠ none

section Cache

variable [PyRuntime] {c : PolicyCache}

theorem primaryCompiled_isSome (hc : CacheInv c) :
    c.primaryCompiled.isSome = true ↔ c.primaryName.isSome = true := by
  constructor
  · intro h
    obtain ⟨policy, hpolicy⟩ := Option.isSome_iff_exists.mp h
    obtain ⟨name, hname, -⟩ := Option.bind_eq_some_iff.mp hpolicy
    rw [hname]
    rfl
  · intro h
    cases hp : c.primaryCompiled with
    | some _ => rfl
    | none =>
      rw [primaryCompiled_eq_none hc hp] at h
      cases h

omit [PyRuntime] in
theorem secondsSinceRefresh_ne_none {threshold : Nat} {now : Rat} (h : c.lastSuccessAt ≠ none) :
    (status c threshold now).secondsSinceRefresh ≠ none := by
  unfold status
  cases hl : c.lastSuccessAt with
  | none => exact absurd hl h
  | some last => simp

/-- **The representation invariant** holds after any calls, however each of them
ends. -/
theorem calls_represent (wire : PolicyWire) (calls : List CacheCall) :
    Represents (final (callStep wire) {} calls) := by
  have hc := cacheInv_calls wire calls
  refine ⟨hc.primary, ?_, hc.dated, primaryCompiled_isSome hc, ?_⟩
  · intro name snap h
    obtain ⟨hname, hcompiled⟩ := hc.keyed name snap h
    exact ⟨hname.symm, hcompiled⟩
  · intro cfg body now policy h
    exact secondsSinceRefresh_ne_none (hc.dated (warm_of_routed h))

end Cache

/-! ## Caches with a primary -/

/-- A filled cache has a primary. -/
def ServesAll (c : PolicyCache) : Prop := c.isWarm = true → c.primaryName ≠ none

/-- The primary name of a manifest is the name of a policy read. No cache is made
with a list or an object there. -/
def NamesRow (rows : List (EdgePolicy × Rat)) : Json → Prop
  | .str name => ∃ r ∈ rows, bundleName r.1 = name
  | .arr _ | .obj _ => True
  | _ => False

section Primary

variable [PyRuntime]

theorem servesAll_install (now : Rat) (p : EdgePolicy) : ServesAll (.install now p) := by
  intro _ h
  cases h

theorem servesAll_installAll {now : Rat} {policies : List EdgePolicy} {name : Str}
    (h : ∃ p ∈ policies, bundleName p = name) :
    ServesAll (.installAll now policies (some name)) := by
  obtain ⟨p, hp, hname⟩ := h
  have hmem : name ∈ (policies.map (snapshotOf now)).foldl PolicyCache.addSnapshot ∅ :=
    (mem_addSnapshots _ _).mpr ⟨snapshotOf now p, List.mem_map.mpr ⟨p, hp, rfl⟩, hname⟩
  intro _
  simp [PolicyCache.installAll, PolicyCache.keepPrimary, Option.filter, hmem]

theorem servesAll_installAll_nil (now : Rat) (primaryName : Option Str) :
    ServesAll (.installAll now [] primaryName) := by
  intro h
  cases h

theorem servesAll_loadedCache {rows : List (EdgePolicy × Rat)} {v : Json} {c : PolicyCache}
    (h : loadedCache rows v = .ok (some c)) (hv : NamesRow rows v) : ServesAll c := by
  obtain ⟨hsnap, hprim, -⟩ := loadedCache_some h
  intro _ hnone
  rw [hnone] at hprim
  cases v with
  | str name =>
    obtain ⟨r, hr, hname⟩ := hv
    have hmem : name ∈ c.snapshots := by
      rw [hsnap]
      exact (mem_addSnapshots _ _).mpr
        ⟨snapshotOf r.2 r.1, List.mem_map.mpr ⟨r, hr, rfl⟩, hname⟩
    simp [loadedPrimary, PolicyCache.keepPrimary, Option.filter, hmem] at hprim
  | arr _ => cases hprim
  | obj _ => cases hprim
  | null => exact hv
  | bool _ => exact hv
  | int _ => exact hv
  | float _ => exact hv

end Primary

/-! ## Inputs that give a primary -/

/-- The plural answer, if it fills the cache, flags a policy as primary. -/
def SyncGivesPrimary (wire : BodyWire) (s : ProbedSync) : Prop :=
  s.multiPolicyEnabled = true → ∀ policies primaryName clients,
    fetchAll wire s.gateway = .ok (policies, primaryName, clients) → policies ≠ [] →
    policies.any s.compileFails = false → primaryName ≠ none

/-- The manifest, if it fills the cache, names a primary among the policies read. -/
def LoadGivesPrimary [PyRuntime] (raises : CompileRaises) (wire : PolicyWire) (d : Disk)
    (stateDir : Path) : Prop :=
  ∀ names primaryName rows,
    readText d (manifestPath stateDir) >>= wire.json.loads >>= manifestEntries =
      .ok (names, primaryName) →
    readPoliciesCompiling raises wire d stateDir names = .ok rows → rows ≠ [] →
    NamesRow rows primaryName

/-- What an input puts into the cache has a primary. -/
def GivesPrimary [PyRuntime] (wire : BodyWire) (cfg : Settings) : ProbedInput → Prop
  | .sync s => SyncGivesPrimary wire s
  | .loadFromDisk raises d => LoadGivesPrimary raises wire.toPolicyWire d cfg.stateDir
  | _ => True

section Inputs

variable [PyRuntime] {wire : BodyWire} {cfg : Settings}

omit [PyRuntime] in
/-- A fetched primary name is the name of a fetched policy. -/
theorem fetchAll_primary {g : Gateway} {policies : List EdgePolicy} {name : Str}
    {clients : List AuthorizedClient} (h : fetchAll wire g = .ok (policies, some name, clients)) :
    ∃ p ∈ policies, bundleName p = name := by
  unfold fetchAll at h
  split at h
  · exact exists_of_primaryNameOf (parsePlural_primary h).symm
  · obtain ⟨one, -, h⟩ := bind_eq_ok.mp h
    cases h
    exact ⟨one, List.mem_singleton_self one, rfl⟩
  · cases h

theorem servesAll_plannedSwap {s : ProbedSync} (hs : SyncGivesPrimary wire s)
    {swap : PolicyCache × DiskM Unit}
    (h : plannedSwap s.compileFails wire s.gateway s.now cfg.stateDir s.multiPolicyEnabled =
      some swap) : ServesAll swap.1 := by
  rcases plannedSwap_some h with
    ⟨hmulti, policies, primaryName, clients, hf, hc, rfl⟩ | ⟨-, p, -, -, rfl⟩
  · show ServesAll (.installAll s.now policies primaryName)
    by_cases hne : policies = []
    · rw [hne]
      exact servesAll_installAll_nil s.now primaryName
    · cases hprim : primaryName with
      | none => exact absurd hprim (hs hmulti policies primaryName clients hf hne hc)
      | some name =>
        rw [hprim] at hf
        exact servesAll_installAll (fetchAll_primary hf)
  · exact servesAll_install s.now p

theorem servesAll_readDisk {raises : CompileRaises} {d : Disk} {stateDir : Path}
    {wire : PolicyWire} (hd : LoadGivesPrimary raises wire d stateDir) {c : PolicyCache}
    (h : readDiskCompiling raises wire d stateDir = .ok (some c)) : ServesAll c := by
  obtain ⟨m, hm, h⟩ := bind_eq_ok.mp h
  cases m with
  | none =>
    obtain ⟨r, -, rfl⟩ := readLegacy_some (readLegacyCompiling_ok h)
    exact servesAll_install r.2 r.1
  | some c' =>
    cases h
    obtain ⟨names, v, rows, hentries, hrows, hloaded⟩ := readManifestCompiling_some hm
    by_cases hne : rows = []
    · rw [hne] at hloaded
      cases hloaded
    · exact servesAll_loadedCache hloaded (hd names v rows hentries hrows hne)

theorem cacheInv_plannedSwap {s : ProbedSync} {swap : PolicyCache × DiskM Unit}
    (h : plannedSwap s.compileFails wire s.gateway s.now cfg.stateDir s.multiPolicyEnabled =
      some swap) : CacheInv swap.1 := by
  rcases plannedSwap_some h with ⟨-, policies, primaryName, -, -, -, rfl⟩ | ⟨-, p, -, -, rfl⟩
  · exact cacheInv_installAll _ _ _
  · exact cacheInv_install _ _

/-- What an input does to the cache: nothing, a load, or a swap. -/
theorem probedStep_cache (lib : HeartbeatLib) (s : ProbedState) (i : ProbedInput) :
    let c := (probedStep lib wire cfg s i).1.cache
    c = s.cache ∨
      (∃ raises d, i = .loadFromDisk raises d ∧
        readDiskCompiling raises wire.toPolicyWire d cfg.stateDir = .ok (some c)) ∨
      (∃ s' swap, i = .sync s' ∧
        plannedSwap s'.compileFails wire s'.gateway s'.now cfg.stateDir s'.multiPolicyEnabled =
          some swap ∧
        c = swap.1) := by
  cases i with
  | skipEnrollment => exact Or.inl rfl
  | enrolled creds => exact Or.inl rfl
  | heartbeat t => exact Or.inl rfl
  | loadFromDisk raises d =>
    simp only [probedStep, PolicyCache.loadFromDiskCompiling]
    cases hr : readDiskCompiling raises wire.toPolicyWire d cfg.stateDir with
    | error e => exact Or.inl rfl
    | ok r =>
      cases r with
      | none => exact Or.inl rfl
      | some c => exact Or.inr (Or.inl ⟨raises, d, rfl, hr⟩)
  | sync s' =>
    simp only [probedStep, ProbedSync.run]
    cases hp : plannedSwap s'.compileFails wire s'.gateway s'.now cfg.stateDir
        s'.multiPolicyEnabled with
    | none => exact Or.inl (unplanned hp).1
    | some swap =>
      refine Or.inr (Or.inr ⟨s', swap, rfl, hp, ?_⟩)
      rw [syncOnceCompiling_planned hp, swapped_cache]

theorem cacheInv_probedStep {lib : HeartbeatLib} {s : ProbedState} (i : ProbedInput)
    (h : CacheInv s.cache) : CacheInv (probedStep lib wire cfg s i).1.cache := by
  rcases probedStep_cache lib s i with hsame | ⟨raises, d, -, hload⟩ | ⟨s', swap, -, hp, hswap⟩
  · rw [hsame]
    exact h
  · exact cacheInv_readDisk (readDiskCompiling_ok hload)
  · rw [hswap]
    exact cacheInv_plannedSwap hp

/-- **One input** that gives a primary, if anything, keeps a primary in the
cache. -/
theorem servesAll_probedStep {lib : HeartbeatLib} {s : ProbedState} {i : ProbedInput}
    (hi : GivesPrimary wire cfg i) (h : ServesAll s.cache) :
    ServesAll (probedStep lib wire cfg s i).1.cache := by
  rcases probedStep_cache lib s i with hsame | ⟨raises, d, rfl, hload⟩ | ⟨s', swap, rfl, hp, hswap⟩
  · rw [hsame]
    exact h
  · exact servesAll_readDisk hi hload
  · rw [hswap]
    exact servesAll_plannedSwap hi hp

end Inputs

/-! ## The probe and the handler -/

section Replies

variable [PyRuntime] {hash : HashLib} {cfg : Settings} {cache : PolicyCache} {rd : Readings}
  {enqueue : AuditEvent → Except Exc Bool} {agentId : Json} {body : DecideRequest}

omit [PyRuntime] in
theorem statusOf_answerStale {compiled : CompiledPolicy} {stale : StaleStatus} :
    statusOf (answerStale cfg compiled stale).reply ≠ 503 := by
  cases h : stale.secondsSinceRefresh <;> simp [answerStale, h, statusOf, Failure.statusCode]

theorem statusOf_answerFresh {compiled : CompiledPolicy} :
    statusOf (answerFresh hash cfg enqueue rd agentId body compiled).reply ≠ 503 := by
  cases hev : auditEvent hash cfg rd agentId body compiled
      (evaluate rd.evaluateMs compiled body.input) with
  | error e =>
    rw [answerFresh_unbuilt hev]
    simp [statusOf, Failure.statusCode]
  | ok event =>
    rw [answerFresh_built hev]
    cases he : enqueue event <;> simp [uncaught, Except.map, statusOf, Failure.statusCode]

/-- In the closed fail mode, what names no policy is answered 503 for want of a
primary, and for nothing else. -/
theorem unavailable_iff (hc : CacheInv cache) (hclosed : cfg.policyFailMode = .closed)
    (hname : body.policyName = none) :
    statusOf (answer hash cfg enqueue cache rd agentId body).reply = 503 ↔
      cache.primaryName = none := by
  have hreq : requestedName cfg body = none := by simp [requestedName, hname]
  cases situation cfg cache rd.checkedAt body with
  | nameMissing name hreq' hmiss =>
    rw [hreq] at hreq'
    cases hreq'
  | cold _ hnone =>
    rw [answer_of_cold hreq hnone]
    refine iff_of_true ?_ (primaryCompiled_eq_none hc hnone)
    simp [answerCold, hclosed, statusOf, Failure.statusCode]
  | stale compiled hfound hstale =>
    rw [answer_of_stale hfound hstale]
    exact iff_of_false statusOf_answerStale
      fun hprim => not_noPrimary_of_routed hfound ⟨hreq, warm_of_routed hfound, hprim⟩
  | fresh compiled hfound hfresh =>
    rw [answer_of_fresh hfound hfresh]
    exact iff_of_false statusOf_answerFresh
      fun hprim => not_noPrimary_of_routed hfound ⟨hreq, warm_of_routed hfound, hprim⟩

end Replies

/-- The probe answers 200. -/
def Ready (probe : ProbeLib) (s : ProbedState) : Prop :=
  ∃ r, healthReady probe s = .ok r ∧ r.statusCode = 200

theorem jsonResponse_ok {probe : ProbeLib} {statusCode : Nat} {content : List (Str × Json)}
    {r : JsonResponse} (h : jsonResponse probe statusCode content = .ok r) :
    r.statusCode = statusCode := by
  unfold jsonResponse at h
  cases hr : probe.render (.obj content) with
  | error e => simp [hr, Except.map] at h
  | ok body =>
    simp only [hr, Except.map, Except.ok.injEq] at h
    rw [← h]

theorem Ready.warm {probe : ProbeLib} {s : ProbedState} (h : Ready probe s) :
    s.cache.isWarm = true := by
  obtain ⟨r, hr, hstatus⟩ := h
  unfold healthReady at hr
  simp only at hr
  split at hr
  · rw [jsonResponse_ok hr] at hstatus
    cases hstatus
  · rename_i hgates
    simp only [Bool.or_eq_true, not_or] at hgates
    simpa using hgates.2

/-- **A pod that is ready serves**, in the closed fail mode, in every state that
inputs lead to which give the cache a primary whenever they fill it. -/
theorem ready_pod_serves [PyRuntime] (hash : HashLib) (cfg : Settings) (jwt : JwtLib)
    (lib : HeartbeatLib) (wire : BodyWire) (probe : ProbeLib)
    (enqueue : AuditEvent → Except Exc Bool) (inputs : List ProbedInput) (disk : Disk)
    (rd : Readings) (app : AppState) (authorization : Str) (body : DecideRequest)
    (hclosed : cfg.policyFailMode = .closed) (hinputs : ∀ i ∈ inputs, GivesPrimary wire cfg i)
    (hauth : ∃ claims,
      (requireAgentToken jwt cfg disk rd.verifiedAt app authorization).2 = .ok claims)
    (hname : body.policyName = none) :
    let s := final (probedStep lib wire cfg) {} inputs
    Ready probe s →
      statusOf (decide hash cfg jwt enqueue disk s.cache rd app authorization body).reply ≠ 503 := by
  intro s hready
  obtain ⟨claims, hclaims⟩ := hauth
  have hstep : ∀ s i, CacheInv s.cache ∧ ServesAll s.cache → GivesPrimary wire cfg i →
      CacheInv (probedStep lib wire cfg s i).1.cache ∧
        ServesAll (probedStep lib wire cfg s i).1.cache :=
    fun s i h hi => ⟨cacheInv_probedStep i h.1, servesAll_probedStep hi h.2⟩
  have hstart : CacheInv ({} : ProbedState).cache ∧ ServesAll ({} : ProbedState).cache :=
    ⟨cacheInv_empty, fun h => by cases h⟩
  obtain ⟨hc, hserves⟩ := final_inv (probedStep lib wire cfg) hstep hstart hinputs
  rw [decide_of_authorised hclaims]
  intro hunavailable
  exact hserves hready.warm ((unavailable_iff hc hclosed hname).mp hunavailable)

/-! Two pods: one that synced a policy through the fallback of the plural path,
and one that runs without the flag and loads what a plural sync without a
primary left on its disk. -/

def demoProbe : ProbeLib where
  version := "0.0.0"
  timeText := fun _ => []
  render := fun _ => .ok []

/-- The libraries of a heartbeat that has not ticked yet. -/
def idleLib : HeartbeatLib where
  jwt := demoJwt
  json := noWire.json
  isoformat := fun _ => []
  fromisoformat := fun _ => .error .valueError

theorem ready_of_status {probe : ProbeLib} {s : ProbedState}
    (h : (healthReady probe s).toOption.map (·.statusCode) = some 200) : Ready probe s := by
  cases hr : healthReady probe s with
  | error e => simp [hr, Except.toOption] at h
  | ok r => exact ⟨r, hr, by simpa [hr, Except.toOption] using h⟩

/-- A gateway without the plural path, which serves the policy `b`. -/
def singularOnly : Gateway where
  singular := .response 200 (.ok []) (.ok pairB)
  plural := .response 404 (.ok []) (.error .jsonDecodeError)

def fallbackSync : ProbedSync where
  multiPolicyEnabled := true
  gateway := singularOnly
  compileFails := fun _ => false
  now := 1000
  env := { disk := keyDisk, now := 1000, faults := [] }

def enrolledInput : ProbedInput := .enrolled (demoCredentials demoKeyPem).loaded

/-- A pod without the flag. -/
def probedRun : List ProbedInput → ProbedState :=
  final (@probedStep asciiRuntime idleLib pairWire (demoSettings .closed)) {}

theorem keyDisk_authorised : ∃ claims,
    (@requireAgentToken asciiRuntime demoJwt (demoSettings .closed) keyDisk
      demoReadings.verifiedAt {} demoAuthorization).2 = .ok claims := by
  have hrun : (@requireAgentToken asciiRuntime demoJwt (demoSettings .closed) keyDisk
      demoReadings.verifiedAt {} demoAuthorization).2.toOption.isSome = true := by
    decide +kernel
  exact isSome_toOption.mp hrun

/-- The pod that synced a policy. -/
theorem ready_pod_serves_fallback :
    let s := probedRun [enrolledInput, .sync fallbackSync]
    Ready demoProbe s ∧
      statusOf (@decide asciiRuntime demoHash (demoSettings .closed) demoJwt (fun _ => .ok true)
        keyDisk s.cache demoReadings {} demoAuthorization demoBody).reply ≠ 503 := by
  intro s
  have hready : Ready demoProbe s := ready_of_status (by decide +kernel)
  refine ⟨hready, @ready_pod_serves asciiRuntime demoHash (demoSettings .closed) demoJwt idleLib
    pairWire demoProbe (fun _ => .ok true) [enrolledInput, .sync fallbackSync] keyDisk
    demoReadings {} demoAuthorization demoBody rfl ?_ keyDisk_authorised rfl hready⟩
  intro i hi
  simp only [List.mem_cons, List.not_mem_nil, or_false] at hi
  rcases hi with rfl | rfl
  · trivial
  · intro _ policies primaryName clients hfetch _ _
    have hprim : (fetchAll pairWire singularOnly).toOption.map (·.2.1) = some (some ("b" : Str)) := by
      decide +kernel
    have hfetch' : fetchAll pairWire singularOnly = .ok (policies, primaryName, clients) := hfetch
    rw [hfetch'] at hprim
    intro hnone
    rw [hnone] at hprim
    cases hprim

/-- The state directory after a sync of two policies of which none is flagged. -/
def unflaggedDisk : Disk :=
  (final pairStep { disk := keyDisk } (wholeRun.take 2)).disk

/-- The pod that loaded them is ready, and answers 503 to every authorised
request. -/
theorem ready_pod_refuses :
    let s := probedRun [enrolledInput, .loadFromDisk (fun _ => none) unflaggedDisk]
    Ready demoProbe s ∧
      (∃ claims, (@requireAgentToken asciiRuntime demoJwt (demoSettings .closed) unflaggedDisk
        demoReadings.verifiedAt {} demoAuthorization).2 = .ok claims) ∧
      demoBody.policyName = none ∧
      statusOf (@decide asciiRuntime demoHash (demoSettings .closed) demoJwt (fun _ => .ok true)
        unflaggedDisk s.cache demoReadings {} demoAuthorization demoBody).reply = 503 := by
  intro s
  have hready : Ready demoProbe s := ready_of_status (by decide +kernel)
  have hrun : (@requireAgentToken asciiRuntime demoJwt (demoSettings .closed) unflaggedDisk
      demoReadings.verifiedAt {} demoAuthorization).2.toOption.isSome = true := by
    decide +kernel
  exact ⟨hready, isSome_toOption.mp hrun, rfl, by decide +kernel⟩

end TrustModelEdge.Routes
