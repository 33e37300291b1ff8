/-
TrustModelEdge.Routes.FreshnessTheorems — how old a policy can be when
`decide` evaluates it.

The cache has one time of refresh for all its policies. A swap sets it to
the time of the sync, a load to the newest of the file times it found. So
the invariant is that the policies of the cache were received no earlier
than its time of refresh (`CacheRecent`). Every sync keeps it, whenever its
files are written; a load has it only where no file that it finds is newer
than the last receipt of a policy beside it (`LoadsRecent`).
-/
import TrustModelEdge.Policy.CrashTheorems
import TrustModelEdge.Policy.SyncTheorems
import TrustModelEdge.Routes.Edge
import TrustModelEdge.Routes.FailModeTheorems

namespace TrustModelEdge.Routes

open Py Py.DiskM Policy OAuth Engine Telemetry Lib

/-! ## Received policies -/

/-- `q` is the policy `p`, or what its file reads as. -/
def SameContent (wire : PolicyWire) (p q : EdgePolicy) : Prop :=
  q = p ∨ ∃ text, wire.dump p = .ok text ∧ wire.parse (universalNewlines text) = .ok q

/-- The content of `q` was received at the time `at_`. -/
def ReceivedAt (wire : PolicyWire) (received : List (Rat × EdgePolicy)) (at_ : Rat)
    (q : EdgePolicy) : Prop :=
  ∃ p, (at_, p) ∈ received ∧ SameContent wire p q

/-- It was received no earlier than `since`. -/
def ReceivedSince (wire : PolicyWire) (received : List (Rat × EdgePolicy)) (since : Rat)
    (q : EdgePolicy) : Prop :=
  ∃ at_, since ≤ at_ ∧ ReceivedAt wire received at_ q

/-- The policies of the cache were received no earlier than its time of refresh. -/
def CacheRecent [PyRuntime] (wire : PolicyWire) (received : List (Rat × EdgePolicy))
    (c : PolicyCache) : Prop :=
  ∀ n snap last, c.snapshots.lookup n = some snap → c.lastSuccessAt = some last →
    snap.compiled = compile snap.edgePolicy ∧ ReceivedSince wire received last snap.edgePolicy

section Received

variable {wire : PolicyWire} {received received' : List (Rat × EdgePolicy)}

theorem ReceivedSince.mono {since : Rat} {q : EdgePolicy}
    (h : ReceivedSince wire received since q) (hsub : received ⊆ received') :
    ReceivedSince wire received' since q := by
  obtain ⟨at_, hat, p, hp, hsame⟩ := h
  exact ⟨at_, hat, p, hsub hp, hsame⟩

theorem ReceivedSince.earlier {since since' : Rat} {q : EdgePolicy}
    (h : ReceivedSince wire received since q) (hle : since' ≤ since) :
    ReceivedSince wire received since' q := by
  obtain ⟨at_, hat, hrec⟩ := h
  exact ⟨at_, hle.trans hat, hrec⟩

variable [PyRuntime]

theorem CacheRecent.mono {c : PolicyCache} (h : CacheRecent wire received c)
    (hsub : received ⊆ received') : CacheRecent wire received' c := by
  intro n snap last hs hl
  obtain ⟨hcomp, hrec⟩ := h n snap last hs hl
  exact ⟨hcomp, hrec.mono hsub⟩

theorem cacheRecent_empty : CacheRecent wire received {} := by
  intro n snap last hs hl
  cases hl

theorem cacheRecent_installAll {now : Rat} {policies : List EdgePolicy}
    (h : ∀ p ∈ policies, (now, p) ∈ received) (primaryName : Option Str) :
    CacheRecent wire received (.installAll now policies primaryName) := by
  intro n snap last hs hl
  rw [lookup_installAll] at hs
  obtain ⟨p, hp, rfl⟩ := Option.map_eq_some_iff.mp hs
  obtain rfl : now = last := by simpa [PolicyCache.installAll] using hl
  exact ⟨rfl, now, le_refl now, p, h p (lastWith_eq_some hp).1, Or.inl rfl⟩

theorem cacheRecent_install {now : Rat} {p : EdgePolicy} (h : ReceivedSince wire received now p) :
    CacheRecent wire received (.install now p) := by
  intro n snap last hs hl
  rw [lookup_install] at hs
  obtain rfl : now = last := by simpa [PolicyCache.install] using hl
  split at hs
  · obtain rfl := Option.some.inj hs
    exact ⟨rfl, h⟩
  · cases hs

end Received

/-! ## Files -/

/-- `q` was read from a file written at `at_`. -/
def ReadFrom (wire : PolicyWire) (d : Disk) (q : EdgePolicy) (at_ : Rat) : Prop :=
  ∃ path body text, d.lookup path = some (.file body) ∧ body.text = some text ∧
    wire.parse (universalNewlines text) = .ok q ∧ body.mtime = at_

section Files

variable {wire : PolicyWire} {d : Disk} {stateDir : Path}

theorem fileAt_ok {p : PurePath} {body : FileBody} (h : fileAt d p = .ok body) :
    ∃ q, d.lookup q = some (.file body) := by
  unfold fileAt at h
  split at h
  · cases h
  · rename_i q hq
    split at h
    · cases h
    · cases h
    · rename_i body' hl
      obtain rfl := Except.ok.inj h
      exact ⟨q, hl⟩

/-- A policy that was read, and the time with it, are those of one file. -/
theorem readPolicy_ok {p : PurePath} {q : EdgePolicy} {at_ : Rat}
    (h : readPolicy wire d p = .ok (some (q, at_))) : ReadFrom wire d q at_ := by
  unfold readPolicy readText mtime at h
  cases hf : fileAt d p with
  | error e =>
    simp only [hf, bind, Except.bind] at h
    split at h <;> simp at h
  | ok body =>
    obtain ⟨path, hl⟩ := fileAt_ok hf
    simp only [hf, bind, Except.bind, pure, Except.pure] at h
    cases ht : body.text with
    | none => simp [ht] at h; split at h <;> simp at h
    | some text =>
      simp only [ht] at h
      cases hp : wire.parse (universalNewlines text) with
      | error e => simp only [hp] at h; split at h <;> simp at h
      | ok q' =>
        simp only [hp, Except.ok.injEq, Option.some.injEq, Prod.mk.injEq] at h
        exact ⟨path, body, text, hl, ht, by rw [hp, h.1], h.2⟩

variable [PyRuntime]

theorem readPolicies_ok {names : List Json} {rows : List (EdgePolicy × Rat)}
    (h : readPolicies wire d stateDir names = .ok rows) :
    ∀ r ∈ rows, ReadFrom wire d r.1 r.2 := by
  induction names generalizing rows with
  | nil =>
    obtain rfl := Except.ok.inj h
    intro r hr
    simp at hr
  | cons name names ih =>
    obtain ⟨row, rest, hrow, hrest, rfl⟩ := readPolicies_cons.mp h
    intro r hr
    rcases List.mem_append.mp hr with hr | hr
    · obtain rfl : row = some r := by simpa using hr
      exact readPolicy_ok (readListed_some.mp hrow).2
    · exact ih hrest r hr

/-- The rows of a manifest are read from files. -/
theorem readManifestRows_ok {rows : List (EdgePolicy × Rat)} {v : Json}
    (h : readManifestRows wire d stateDir = .ok (some (rows, v))) :
    ∀ r ∈ rows, ReadFrom wire d r.1 r.2 := by
  unfold readManifestRows at h
  obtain ⟨found, -, h⟩ := bind_eq_ok.mp h
  split at h
  · split at h
    · split at h <;> cases h
    · obtain ⟨rows', hrows, h⟩ := bind_eq_ok.mp h
      cases h
      exact readPolicies_ok hrows
  · cases h

end Files

/-! ## Loads -/

section Loads

variable [PyRuntime]

/-- A file that a load takes a policy from, by its time: of those the manifest
leads to the last of each bundle name, or else `policy.json`. -/
inductive Found (wire : PolicyWire) (d : Disk) (stateDir : Path) (q : EdgePolicy) (at_ : Rat) :
    Prop
  | listed {rows : List (EdgePolicy × Rat)} {v : Json} {c : PolicyCache}
      (hrows : readManifestRows wire d stateDir = .ok (some (rows, v)))
      (hload : loadedCache rows v = .ok (some c))
      (hlast : lastWith (fun r => bundleName r.1) (bundleName q) rows = some (q, at_)) :
      Found wire d stateDir q at_
  | legacy (hnone : readManifest wire d stateDir = .ok none)
      (hfound : pathExists d (legacyPath stateDir) = .ok true)
      (hread : readPolicy wire d (legacyPath stateDir) = .ok (some (q, at_))) :
      Found wire d stateDir q at_

/-- Each policy that a load finds was received no earlier than any file it finds
was written. -/
def LoadsRecent (wire : PolicyWire) (received : List (Rat × EdgePolicy)) (d : Disk)
    (stateDir : Path) : Prop :=
  ∀ q at_ q' newest, Found wire d stateDir q at_ → Found wire d stateDir q' newest →
    ReceivedSince wire received newest q

variable {wire : PolicyWire} {received : List (Rat × EdgePolicy)} {d : Disk} {stateDir : Path}
  {c : PolicyCache}

/-- The snapshots of a manifest are its rows, the last of each name. -/
theorem lookup_loadedCache {rows : List (EdgePolicy × Rat)} {v : Json}
    (h : loadedCache rows v = .ok (some c)) (n : Str) :
    c.snapshots.lookup n =
      (lastWith (fun r => bundleName r.1) n rows).map (fun r => snapshotOf r.2 r.1) := by
  rw [(loadedCache_some h).1, lookup_addSnapshots, lastWith_map]
  rfl

theorem found_of_lookup {rows : List (EdgePolicy × Rat)} {v : Json}
    (hrows : readManifestRows wire d stateDir = .ok (some (rows, v)))
    (hload : loadedCache rows v = .ok (some c)) {n : Str} {snap : CacheSnapshot}
    (h : c.snapshots.lookup n = some snap) :
    Found wire d stateDir snap.edgePolicy snap.refreshedAt ∧
      snap.compiled = compile snap.edgePolicy := by
  rw [lookup_loadedCache hload] at h
  obtain ⟨r, hr, rfl⟩ := Option.map_eq_some_iff.mp h
  refine ⟨.listed hrows hload ?_, rfl⟩
  have hname : bundleName r.1 = n := (lastWith_eq_some hr).2
  show lastWith (fun r => bundleName r.1) (bundleName r.1) rows = some r
  rw [hname, hr]

/-- **A load** of files none of which is too new. -/
theorem cacheRecent_readDisk (hrecent : LoadsRecent wire received d stateDir)
    (h : readDisk wire d stateDir = .ok (some c)) : CacheRecent wire received c := by
  rcases readDisk_some h with hm | ⟨hnone, hl⟩
  · obtain ⟨rows, v, hrows, hload⟩ := readManifest_some hm
    intro n snap last hs hlast
    obtain ⟨hfound, hcomp⟩ := found_of_lookup hrows hload hs
    -- the time of refresh is the time of some file
    rw [loadedCache_date hload] at hlast
    obtain ⟨entry, hentry, rfl⟩ := List.mem_map.mp (List.max?_mem hlast)
    obtain ⟨hnewest, -⟩ := found_of_lookup hrows hload (AList.mem_lookup_iff.mpr hentry)
    exact ⟨hcomp, hrecent _ _ _ _ hfound hnewest⟩
  · obtain ⟨found, hfound, hl'⟩ := bind_eq_ok.mp hl
    obtain ⟨r, hr, rfl⟩ := readLegacy_some hl
    cases found with
    | false => cases hl'
    | true =>
      have hf : Found wire d stateDir r.1 r.2 := .legacy hnone hfound hr
      exact cacheRecent_install (hrecent _ _ _ _ hf hf)

theorem readFrom_of_found {q : EdgePolicy} {at_ : Rat} (h : Found wire d stateDir q at_) :
    ReadFrom wire d q at_ := by
  cases h with
  | listed hrows hload hlast => exact readManifestRows_ok hrows _ (lastWith_eq_some hlast).1
  | legacy hnone hfound hread => exact readPolicy_ok hread

/-- Files written no later than each of their policies was received. -/
theorem loadsRecent_of_files {since : Rat}
    (h : FileTree.EveryFile (fun body => ∀ text q, body.text = some text →
      wire.parse (universalNewlines text) = .ok q →
        body.mtime ≤ since ∧ ReceivedSince wire received since q) d) :
    LoadsRecent wire received d stateDir := by
  intro q at_ q' newest hq hq'
  obtain ⟨path, body, text, hl, ht, hparse, -⟩ := readFrom_of_found hq
  obtain ⟨path', body', text', hl', ht', hparse', rfl⟩ := readFrom_of_found hq'
  exact (h path body hl text q ht hparse).2.earlier (h path' body' hl' text' q' ht' hparse').1

/-- A file that is found is in the cache, which is no older than it. -/
theorem readDisk_of_found {q : EdgePolicy} {at_ : Rat} (h : Found wire d stateDir q at_) :
    ∃ c newest, readDisk wire d stateDir = .ok (some c) ∧
      c.snapshots.lookup (bundleName q) = some (snapshotOf at_ q) ∧
      c.lastSuccessAt = some newest ∧ at_ ≤ newest := by
  cases h with
  | @listed rows v c hrows hload hlast =>
    have hread : readDisk wire d stateDir = .ok (some c) := by
      simp only [readDisk, readManifest, hrows, hload, bind, Except.bind, pure, Except.pure]
    have hlook : c.snapshots.lookup (bundleName q) = some (snapshotOf at_ q) := by
      rw [lookup_loadedCache hload, hlast]
      rfl
    obtain ⟨newest, hnewest⟩ := Option.ne_none_iff_exists'.mp (loadedCache_some hload).2.2
    refine ⟨c, newest, hread, hlook, hnewest, ?_⟩
    rw [loadedCache_date hload] at hnewest
    exact (List.max?_eq_some_iff.mp hnewest).2 _
      (List.mem_map.mpr ⟨_, AList.mem_lookup_iff.mp hlook, rfl⟩)
  | legacy hnone hfound hread =>
    refine ⟨.install at_ q, at_, ?_, ?_, rfl, le_refl at_⟩
    · simp only [readDisk, readLegacy, hnone, hfound, hread, bind, Except.bind, pure, Except.pure,
        if_true]
      rfl
    · rw [lookup_install, if_pos rfl]

end Loads

/-! ## Runs -/

section Runs

variable [PyRuntime] {hash : HashLib} {cfg : Settings} {jwt : JwtLib} {wire : BodyWire}

/-- The invariant of an edge. -/
def EdgeRecent (wire : PolicyWire) (e : Edge) : Prop :=
  ∀ c, e.cache = some c → CacheRecent wire e.received c

/-- What a sync swaps in was received at its time. -/
theorem planned_recent {compileFails : EdgePolicy → Bool} {g : Gateway} {now : Rat}
    {swap : PolicyCache × DiskM Unit} {received : List (Rat × EdgePolicy)}
    (hrec : ∀ p ∈ fetched cfg wire g, (now, p) ∈ received)
    (h : plannedSwap compileFails wire g now cfg.stateDir cfg.multiPolicyEnabled = some swap) :
    CacheRecent wire.toPolicyWire received swap.1 := by
  unfold fetched at hrec
  rcases plannedSwap_some h with
    ⟨hmulti, policies, primaryName, clients, hf, -, rfl⟩ | ⟨hmulti, p, hf, -, rfl⟩
  · simp only [hmulti, if_true, hf] at hrec
    exact cacheRecent_installAll hrec primaryName
  · simp only [hmulti, Bool.false_eq_true, if_false, hf] at hrec
    exact cacheRecent_install ⟨now, le_refl now, p, hrec p List.mem_cons_self, Or.inl rfl⟩

/-- A sync, however its writes end and whenever they happen. -/
theorem edgeRecent_sync {e : Edge} {c : PolicyCache} (s : EdgeSync)
    (h : EdgeRecent wire.toPolicyWire e) (hc : e.cache = some c) :
    EdgeRecent wire.toPolicyWire (e.sync cfg wire c s) := by
  let received := e.received ++ (fetched cfg wire s.gateway).map (fun p => (s.now, p))
  have hsub : e.received ⊆ received := fun r hr => List.mem_append_left _ hr
  have hrec : ∀ p ∈ fetched cfg wire s.gateway, (s.now, p) ∈ received :=
    fun p hp => List.mem_append_right _ (List.mem_map.mpr ⟨p, hp, rfl⟩)
  let env : DiskEnv := { disk := e.disk, now := s.writtenAt, faults := s.faults }
  let o := syncOnceCompiling s.compileFails wire s.gateway s.now cfg.stateDir env c
    cfg.multiPolicyEnabled
  have hend : CacheRecent wire.toPolicyWire received o.cache := by
    cases hp : plannedSwap s.compileFails wire s.gateway s.now cfg.stateDir
        cfg.multiPolicyEnabled with
    | none =>
      obtain ⟨hcache, -⟩ : o.cache = c ∧ _ := unplanned hp
      rw [hcache]
      exact (h c hc).mono hsub
    | some swap =>
      have ho : o = swapped swap env := syncOnceCompiling_planned hp
      rw [ho, swapped_cache]
      exact planned_recent hrec hp
  intro c' hc'
  have hcache : (e.sync cfg wire c s).cache =
      if o.ended = .crashed then none else some o.cache := rfl
  rw [hcache] at hc'
  split at hc'
  · cases hc'
  · obtain rfl := Option.some.inj hc'
    exact hend

/-- The cache of an edge after a restart. -/
theorem restart_cache {e : Edge} {c : PolicyCache}
    (h : (e.restart cfg wire).cache = some c) :
    readDisk wire.toPolicyWire e.disk cfg.stateDir = .ok (some c) ∨ c = {} := by
  unfold Edge.restart PolicyCache.loadFromDisk at h
  cases hr : readDisk wire.toPolicyWire e.disk cfg.stateDir with
  | error x =>
    rw [hr] at h
    cases h
  | ok r =>
    rw [hr] at h
    cases r with
    | none => exact Or.inr (Option.some.inj h).symm
    | some c' =>
      obtain rfl := Option.some.inj h
      exact Or.inl rfl

theorem restart_received (e : Edge) : (e.restart cfg wire).received = e.received := by
  unfold Edge.restart
  split <;> rfl

/-- A restart that finds no file too new. -/
theorem edgeRecent_restart {e : Edge}
    (hrecent : LoadsRecent wire.toPolicyWire e.received e.disk cfg.stateDir) :
    EdgeRecent wire.toPolicyWire (e.restart cfg wire) := by
  intro c hc
  rw [restart_received]
  rcases restart_cache hc with hr | rfl
  · exact cacheRecent_readDisk hrecent hr
  · exact cacheRecent_empty

theorem edgeRecent_step {e : Edge} {i : EdgeInput} (h : EdgeRecent wire.toPolicyWire e)
    (hi : i = .restart → LoadsRecent wire.toPolicyWire e.received e.disk cfg.stateDir) :
    EdgeRecent wire.toPolicyWire (edgeStep hash cfg jwt wire e i).1 := by
  cases i with
  | restart => exact edgeRecent_restart (hi rfl)
  | sync s =>
    unfold edgeStep
    cases hc : e.cache with
    | none => exact h
    | some c => exact edgeRecent_sync s h hc
  | decide call =>
    unfold edgeStep
    cases hc : e.cache with
    | none => exact h
    | some c => exact fun c' hc' => h c' (hc.trans hc')

/-- A call that reached the evaluator had a cache within the threshold, and
was routed to a policy of it. -/
theorem evaluated_fresh {enqueue : AuditEvent → Except Exc Bool} {disk : Disk}
    {c : PolicyCache} {rd : Readings} {app : AppState} {authorization : Str}
    {body : DecideRequest}
    (h : Effect.cacheHit ∈
      (decide hash cfg jwt enqueue disk c rd app authorization body).effects) :
    ∃ name snap last, routedName cfg c body = some name ∧ c.snapshots.lookup name = some snap ∧
      c.lastSuccessAt = some last ∧ rd.checkedAt - last ≤ cfg.policyStaleThresholdSeconds := by
  cases hck : (requireAgentToken jwt cfg disk rd.verifiedAt app authorization).2 with
  | error f => rw [decide_of_refused hck] at h; simp at h
  | ok claims =>
    rw [decide_of_authorised hck] at h
    simp only at h
    cases situation cfg c rd.checkedAt body with
    | nameMissing name hreq hmiss => rw [answer_of_missing hreq hmiss] at h; simp at h
    | cold hreq hnone =>
      rw [answer_of_cold hreq hnone] at h
      unfold answerCold at h
      split at h <;> simp at h
    | stale compiled hfound hstale =>
      rw [answer_of_stale hfound hstale] at h
      simp [answerStale] at h
    | fresh compiled hfound hfresh =>
      obtain ⟨last, hlast, hage⟩ := recent_of_fresh hfresh
      obtain ⟨name, hname, hcomp⟩ := Option.bind_eq_some_iff.mp hfound
      obtain ⟨snap, hsnap, -⟩ := Option.map_eq_some_iff.mp hcomp
      exact ⟨name, snap, last, hname, hsnap, hlast, hage⟩

/-- The policy a call is routed to was received no longer than the threshold
before the call looked at the cache. -/
def RoutedRecently (wire : PolicyWire) (cfg : Settings) (e : Edge) (c : PolicyCache)
    (call : EdgeCall) : Prop :=
  ∃ name snap at_, routedName cfg c call.body = some name ∧
    c.snapshots.lookup name = some snap ∧ snap.compiled = compile snap.edgePolicy ∧
    ReceivedAt wire e.received at_ snap.edgePolicy ∧
    call.readings.checkedAt - cfg.policyStaleThresholdSeconds ≤ at_

/-- **Freshness across restarts.** In every run whose restarts find no file newer
than the last receipt of a policy beside it, in either layout and either fail
mode: a call that evaluates does so on a policy whose content was received at
most the threshold ago. The clock may even go back, and each write has its own
time. -/
theorem evaluated_received_recently (hash : HashLib) (cfg : Settings) (jwt : JwtLib)
    (wire : BodyWire) (disk : Disk) (inputs : List EdgeInput)
    (hrun : ∀ v ∈ visits (edgeStep hash cfg jwt wire) { disk := disk } inputs,
      v.2 = .restart → LoadsRecent wire.toPolicyWire v.1.received v.1.disk cfg.stateDir) :
    ∀ v ∈ visits (edgeStep hash cfg jwt wire) { disk := disk } inputs, ∀ call c o,
      v.2 = .decide call → v.1.cache = some c →
      (edgeStep hash cfg jwt wire v.1 v.2).2 = some o → .cacheHit ∈ o.effects →
      RoutedRecently wire.toPolicyWire cfg v.1 c call := by
  have hstart : EdgeRecent wire.toPolicyWire { disk := disk } := fun c hc => by cases hc
  have hinv := visits_state_inv (edgeStep hash cfg jwt wire)
    (fun e i h hi => edgeRecent_step h hi) hstart hrun
  rintro ⟨e, i⟩ hv call c o rfl hc ho heff
  have hrecent := hinv _ hv c hc
  simp only at hc
  simp only [edgeStep, hc, Option.some.injEq] at ho
  rw [← ho] at heff
  obtain ⟨name, snap, last, hname, hsnap, hlast, hage⟩ := evaluated_fresh heff
  obtain ⟨hcomp, at_, hat, hrec⟩ := hrecent name snap last hsnap hlast
  exact ⟨name, snap, at_, hname, hsnap, hcomp, hrec, (sub_le_comm.mp hage).trans hat⟩

/-- **No restart can do with less.** After one that finds a file too new for some
policy, an accepted call for that policy, at the last moment at which the
newest file is fresh, is evaluated on content received too long ago. -/
theorem revived_by_restart {e : Edge}
    (h : ¬ LoadsRecent wire.toPolicyWire e.received e.disk cfg.stateDir) :
    ∃ c n newest, (e.restart cfg wire).cache = some c ∧ c.lastSuccessAt = some newest ∧
      ∀ call claims, routedName cfg c call.body = some n →
        call.readings.checkedAt = newest + cfg.policyStaleThresholdSeconds →
        (requireAgentToken jwt cfg e.disk call.readings.verifiedAt {} call.authorization).2 =
          .ok claims →
        ∃ o, (edgeStep hash cfg jwt wire (e.restart cfg wire) (.decide call)).2 = some o ∧
          .cacheHit ∈ o.effects ∧
          ¬ RoutedRecently wire.toPolicyWire cfg (e.restart cfg wire) c call := by
  unfold LoadsRecent at h
  push Not at h
  obtain ⟨q, at_, q', at_', hq, hq', hold⟩ := h
  obtain ⟨c, newest, hread, hlook, hnewest, -⟩ := readDisk_of_found hq
  obtain ⟨c', newest', hread', -, hnewest', hle⟩ := readDisk_of_found hq'
  obtain rfl : c = c' := Option.some.inj (Except.ok.inj (hread.symm.trans hread'))
  obtain rfl : newest = newest' := Option.some.inj (hnewest.symm.trans hnewest')
  have hrestart : e.restart cfg wire = { e with cache := some c, app := {} } := by
    simp only [Edge.restart, PolicyCache.loadFromDisk, hread]
  refine ⟨c, bundleName q, newest, by rw [hrestart], hnewest, ?_⟩
  intro call claims hname hat hclaims
  have hrouted : routed cfg c call.body = some (compile q) := by
    rw [routed, hname]
    show (c.snapshots.lookup (bundleName q)).map (·.compiled) = _
    rw [hlook]
    rfl
  have hfresh : (status c cfg.policyStaleThresholdSeconds call.readings.checkedAt).isStale =
      false := by
    simp only [status, hnewest, hat, decide_eq_false_iff_not, gt_iff_lt, not_lt]
    exact (add_sub_cancel_left newest _).le
  rw [hrestart]
  refine ⟨_, rfl, ?_, ?_⟩
  · rw [decide_of_authorised hclaims]
    simp only [answer_of_fresh hrouted hfresh]
    unfold answerFresh
    dsimp only
    split <;> simp [counted]
  · rintro ⟨name, snap, received, hname', hsnap, -, hrec, hage⟩
    obtain rfl : bundleName q = name := Option.some.inj (hname.symm.trans hname')
    obtain rfl : snapshotOf at_ q = snap := Option.some.inj (hlook.symm.trans hsnap)
    rw [hat, add_sub_cancel_right] at hage
    exact hold ⟨received, hle.trans hage, hrec⟩

end Runs

/-! Two policies, `a` and `b`, without a primary. -/

def pairManifestText : Str := "\x7b\"primary_name\": null, \"names\": [\"a\", \"b\"]\x7d"

/-- The texts of the runs below, as the libraries print and parse them. -/
def pairWire : BodyWire where
  json :=
    { loads := fun t =>
        if t = pairManifestText then .ok (manifestJson [policyA, policyB] none)
        else if t = demoText "pol-a" "a" then .ok (demoJsonOf "pol-a" "a")
        else if t = demoText "pol-b" "b" then .ok (demoJsonOf "pol-b" "b")
        else .error .jsonDecodeError
      dumps := fun _ => pairManifestText }
  validate := demoWire.validate
  dump := demoWire.dump
  validateClient := fun _ => .error .validationError

/-- A gateway that serves these policies on the plural path. -/
def serving (policies : List Json) : Gateway where
  singular := .transportError
  plural := .response 200 (.ok []) (.ok (.obj [("policies", .arr policies)]))

/-- A sync that writes at once; the process dies before the operation after the
first `done`, unless that is beyond the last one. -/
def syncAt (at_ : Rat) (policies : List Json) (done : Nat) : EdgeSync where
  gateway := serving policies
  now := at_
  writtenAt := at_
  faults := List.replicate done .none ++ [.crash none]
  whole := whole_crash_after done

/-- A call for the policy `b`. -/
def callAt (at_ : Rat) : EdgeCall where
  readings := { demoReadings with verifiedAt := at_, checkedAt := at_ }
  authorization := demoAuthorization
  body := { tool := "mail.send", policyName := some "b" }
  stored := .ok true

/-- A state directory with nothing but the key file. -/
def keyDisk : Disk :=
  ((do
      makeDirs ["state"]
      writeText (credentialPath ["state"] keyFile) demoKeyPem : DiskM Unit).run
    { disk := .empty, now := 0, faults := [] }).2.disk

def pairA : Json := demoJsonOf "pol-a" "a"

def pairB : Json := demoJsonOf "pol-b" "b"

/-- Both policies come at 1000; the process is restarted. -/
def wholeRun : List EdgeInput :=
  [.restart, .sync (syncAt 1000 [pairA, pairB] 100), .restart, .decide (callAt 1100)]

/-- Both come at 100. The next sync, at 4000, gets `a` only, and the process dies
before it drops the file of `b`. -/
def cutRun : List EdgeInput :=
  [.restart, .sync (syncAt 100 [pairA, pairB] 100), .sync (syncAt 4000 [pairA] 4), .restart,
   .decide (callAt 4100)]

def pairStep : Edge → EdgeInput → Edge × Option DecideOutcome :=
  @edgeStep asciiRuntime demoHash (multiSettings .closed) demoJwt pairWire

def Effect.isHit : Effect → Bool
  | .cacheHit => true
  | _ => false

/-- The outcome of a call that evaluated. -/
def hitOf (o : Option DecideOutcome) : Bool := o.any (fun o => o.effects.any Effect.isHit)

theorem hitOf_some {o : Option DecideOutcome} (h : hitOf o = true) :
    ∃ out, o = some out ∧ .cacheHit ∈ out.effects := by
  cases o with
  | none => cases h
  | some out =>
    obtain ⟨e, he, hit⟩ := List.any_eq_true.mp h
    cases e with
    | cacheHit => exact ⟨out, rfl, he⟩
    | _ => cases hit

/-- The files that read as policies were written by 1000, and their policies
received then or later. -/
def receivedBy1000 (e : Edge) : Bool :=
  e.disk.nodes.entries.all fun entry =>
    match entry.2 with
    | .dir => true
    | .file body =>
        match body.text with
        | none => true
        | some text =>
            !(pairWire.parse (universalNewlines text)).toBool ||
              Decidable.decide (body.mtime ≤ 1000) &&
                e.received.any (fun r => Decidable.decide (1000 ≤ r.1) &&
                  ((pairWire.dump r.2).toOption == some text))

theorem loadsRecent_of_received {e : Edge} (h : receivedBy1000 e = true) {stateDir : Path} :
    @LoadsRecent asciiRuntime pairWire.toPolicyWire e.received e.disk stateDir := by
  refine @loadsRecent_of_files asciiRuntime _ _ _ _ 1000 ?_
  intro path body hl text q ht hq
  have hne : path ≠ [] := by
    rintro rfl
    cases hl
  have hmem : (⟨path, .file body⟩ : Sigma fun _ : Path => Node FileBody) ∈
      e.disk.nodes.entries := by
    refine AList.mem_lookup_iff.mp ?_
    rwa [FileTree.lookup, if_neg hne] at hl
  have hfile := List.all_eq_true.mp h _ hmem
  simp only [ht, hq, Except.toBool, Bool.not_true, Bool.false_or, Bool.and_eq_true,
    decide_eq_true_eq, List.any_eq_true, beq_iff_eq] at hfile
  obtain ⟨hm, r, hr, hsince, hdump⟩ := hfile
  refine ⟨hm, r.1, hsince, r.2, hr, Or.inr ⟨text, ?_, hq⟩⟩
  cases hd : pairWire.dump r.2 with
  | error e =>
    rw [hd] at hdump
    cases hdump
  | ok text' =>
    rw [hd] at hdump
    rw [Option.some.inj hdump]

def EdgeInput.isRestart : EdgeInput → Bool
  | .restart => true
  | _ => false

/-- A call after a restart, 100 seconds after the sync. -/
theorem evaluated_received_recently_after_restart :
    (trace pairStep { disk := keyDisk } wholeRun).any hitOf = true ∧
      ∀ v ∈ visits pairStep { disk := keyDisk } wholeRun, ∀ call c o, v.2 = .decide call →
        v.1.cache = some c → (pairStep v.1 v.2).2 = some o → .cacheHit ∈ o.effects →
        @RoutedRecently asciiRuntime pairWire.toPolicyWire (multiSettings .closed) v.1 c call := by
  have hcheck : (trace pairStep { disk := keyDisk } wholeRun).any hitOf = true ∧
      (visits pairStep { disk := keyDisk } wholeRun).all (fun v =>
        !v.2.isRestart || receivedBy1000 v.1) = true := by decide +kernel
  refine ⟨hcheck.1, ?_⟩
  have hrun : ∀ v ∈ visits pairStep { disk := keyDisk } wholeRun, v.2 = .restart →
      @LoadsRecent asciiRuntime pairWire.toPolicyWire v.1.received v.1.disk
        (multiSettings .closed).stateDir := by
    intro v hv hi
    have hreceived := List.all_eq_true.mp hcheck.2 v hv
    rw [hi] at hreceived
    exact loadsRecent_of_received hreceived
  exact @evaluated_received_recently asciiRuntime demoHash (multiSettings .closed) demoJwt pairWire
    keyDisk wholeRun hrun

/-- An edge that received `b` at 100 only, and serves it at 4100. -/
@[mk_iff]
structure ServesOld (e : Edge) : Prop where
  received : e.received.map (fun r => (r.1, r.2.id, r.2.bundle.name)) =
    ([(100, "pol-a", "a"), (100, "pol-b", "b"), (4000, "pol-a", "a")] : List (Rat × Str × Str))
  serves : (e.cache.bind (·.snapshots.lookup ("b" : Str))).map (·.edgePolicy.bundle.name) =
    some ("b" : Str)
  evaluates : hitOf (pairStep e (.decide (callAt 4100))).2 = true

/-- What `a` reads back as has its name. -/
theorem name_of_sameContent {p q : EdgePolicy} (hid : p.id = ("pol-a" : Str))
    (hname : p.bundle.name = ("a" : Str)) (h : SameContent pairWire.toPolicyWire p q) :
    q.bundle.name = ("a" : Str) := by
  rcases h with rfl | ⟨text, hdump, hq⟩
  · exact hname
  · have hread : (pairWire.parse (universalNewlines (demoText "pol-a" "a"))).toOption.map
        (·.bundle.name) = some ("a" : Str) := by decide +kernel
    have htext : demoText p.id p.bundle.name = text := Except.ok.inj hdump
    rw [hid, hname] at htext
    rw [← htext] at hq
    rw [hq] at hread
    exact Option.some.inj hread

theorem ServesOld.not_recent {e : Edge} (h : ServesOld e) {c : PolicyCache}
    (hc : e.cache = some c) :
    ¬ @RoutedRecently asciiRuntime pairWire.toPolicyWire (multiSettings .closed) e c
      (callAt 4100) := by
  rintro ⟨name, snap, at_, hrouted, hsnap, -, ⟨p, hp, hsame⟩, hrecent⟩
  obtain rfl : ("b" : Str) = name := Option.some.inj hrouted
  have hb : snap.edgePolicy.bundle.name = ("b" : Str) := by
    have hserves := h.serves
    rw [hc] at hserves
    simpa [hsnap] using hserves
  have hrow : (at_, p.id, p.bundle.name) ∈
      e.received.map (fun r => (r.1, r.2.id, r.2.bundle.name)) :=
    List.mem_map.mpr ⟨(at_, p), hp, rfl⟩
  rw [h.received] at hrow
  have hlate : (500 : Rat) ≤ at_ := by
    refine le_trans ?_ hrecent
    decide +kernel
  simp only [List.mem_cons, Prod.mk.injEq, List.not_mem_nil, or_false] at hrow
  rcases hrow with ⟨rfl, -⟩ | ⟨rfl, -⟩ | ⟨-, hid, hname⟩
  · exact absurd hlate (by decide)
  · exact absurd hlate (by decide)
  · have ha := name_of_sameContent hid hname hsame
    rw [hb] at ha
    exact absurd ha (by decide)

/-- The newest file makes the cache fresh, and the call is answered by the `b` of
100, longer ago than the threshold. -/
theorem cut_sync_revives_old_policy :
    (∀ v ∈ visits pairStep { disk := keyDisk } cutRun, ∀ s, v.2 = .sync s → s.writtenAt = s.now) ∧
      ∃ v ∈ visits pairStep { disk := keyDisk } cutRun, ∃ call c o, v.2 = .decide call ∧
        v.1.cache = some c ∧ (pairStep v.1 v.2).2 = some o ∧ .cacheHit ∈ o.effects ∧
        ¬ @RoutedRecently asciiRuntime pairWire.toPolicyWire (multiSettings .closed) v.1 c call := by
  constructor
  · intro v hv s hs
    have hmem := mem_visits pairStep hv
    rw [hs] at hmem
    simp only [cutRun, List.mem_cons, reduceCtorEq, EdgeInput.sync.injEq, false_or, or_false,
      List.not_mem_nil] at hmem
    rcases hmem with rfl | rfl <;> rfl
  · have hserves : ServesOld (final pairStep { disk := keyDisk } (cutRun.take 4)) :=
      (servesOld_iff _).mpr (by decide +kernel)
    have hvisit : visits pairStep { disk := keyDisk } cutRun =
        visits pairStep { disk := keyDisk } (cutRun.take 4) ++
          [(final pairStep { disk := keyDisk } (cutRun.take 4), .decide (callAt 4100))] :=
      visits_concat pairStep { disk := keyDisk } (cutRun.take 4) (.decide (callAt 4100))
    rw [hvisit]
    generalize final pairStep { disk := keyDisk } (cutRun.take 4) = e at hserves ⊢
    obtain ⟨o, ho, hit⟩ := hitOf_some hserves.evaluates
    cases hc : e.cache with
    | none =>
      have hnone := hserves.serves
      rw [hc] at hnone
      cases hnone
    | some c =>
      exact ⟨(e, .decide (callAt 4100)), List.mem_append_right _ List.mem_cons_self, callAt 4100, c,
        o, rfl, hc, ho, hit, hserves.not_recent hc⟩

end TrustModelEdge.Routes
