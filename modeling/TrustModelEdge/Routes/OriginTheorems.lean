/-
TrustModelEdge.Routes.OriginTheorems — where the policies that an edge enforces come from.

Times are not needed for this, so nothing is asked of clocks, of the times of files, or of
which syncs the files that a restart finds are of. The invariant is about files, wherever
they lie: what reads as a policy came in a sync (`Genuine`).
-/
import TrustModelEdge.Routes.ReplicaTheorems

namespace TrustModelEdge.Routes

open Py Py.DiskM Policy OAuth Engine Telemetry Lib

/-! ## Sent policies -/

/-- The content of `q` came in a sync. -/
def Sent (wire : PolicyWire) (received : List (Rat × EdgePolicy)) (q : EdgePolicy) : Prop :=
  ∃ r ∈ received, SameContent wire r.2 q

/-- A file that reads as a policy reads as one that was sent. -/
def Genuine (wire : PolicyWire) (received : List (Rat × EdgePolicy)) (body : FileBody) : Prop :=
  ∀ text q, body.text = some text → wire.parse (universalNewlines text) = .ok q →
    Sent wire received q

/-- No text of the program but a policy's reads as a policy: not the empty one,
and no manifest. -/
structure OnlyPolicies (wire : PolicyWire) : Prop where
  empty : ∀ q, wire.parse [] ≠ .ok q
  manifest : ∀ policies primaryName q,
    wire.parse (universalNewlines (wire.json.dumps (manifestJson policies primaryName))) ≠ .ok q

section Files

variable {wire : PolicyWire} {received received' : List (Rat × EdgePolicy)} {d : Disk}
  {stateDir : Path}

theorem Sent.mono {q : EdgePolicy} (h : Sent wire received q) (hsub : received ⊆ received') :
    Sent wire received' q := by
  obtain ⟨r, hr, hsame⟩ := h
  exact ⟨r, hsub hr, hsame⟩

theorem Genuine.mono {body : FileBody} (h : Genuine wire received body)
    (hsub : received ⊆ received') : Genuine wire received' body :=
  fun text q ht hq => (h text q ht hq).mono hsub

theorem genuine_dump {p : EdgePolicy} {text : Str} {now at_ : Rat} (hp : (now, p) ∈ received)
    (hdump : wire.dump p = .ok text) :
    Genuine wire received { text := some text, mtime := at_ } := by
  intro text' q ht hq
  obtain rfl := Option.some.inj ht
  exact ⟨(now, p), hp, Or.inr ⟨text, hdump, hq⟩⟩

/-- A text that is no policy. -/
theorem genuine_other {text : Str} (h : ∀ q, wire.parse (universalNewlines text) ≠ .ok q)
    (at_ : Rat) : Genuine wire received { text := some text, mtime := at_ } := by
  intro text' q ht hq
  obtain rfl := Option.some.inj ht
  exact absurd hq (h q)

theorem sent_readFrom (hd : FileTree.EveryFile (Genuine wire received) d) {q : EdgePolicy}
    {at_ : Rat} (h : ReadFrom wire d q at_) : Sent wire received q := by
  obtain ⟨path, body, text, hl, ht, hq, -⟩ := h
  exact hd path body hl text q ht hq

variable [PyRuntime]

/-- All that a load takes from the disk was sent. -/
theorem sent_loadedPolicies (hd : FileTree.EveryFile (Genuine wire received) d) :
    ∀ p ∈ loadedPolicies wire d stateDir, Sent wire received p := by
  unfold loadedPolicies
  intro p hp
  split at hp
  · rename_i hrows
    obtain ⟨r, hr, rfl⟩ := List.mem_map.mp hp
    exact sent_readFrom hd (readManifestRows_ok hrows r hr)
  · split at hp
    · rename_i hread
      obtain rfl := List.mem_singleton.mp hp
      exact sent_readFrom hd (readPolicy_ok hread)
    · cases hp

end Files

/-! ## Caches -/

/-- The cache serves policies that were sent, compiled. -/
def ServesSent [PyRuntime] (wire : PolicyWire) (received : List (Rat × EdgePolicy))
    (c : PolicyCache) : Prop :=
  ∀ n snap, c.snapshots.lookup n = some snap →
    snap.compiled = compile snap.edgePolicy ∧ Sent wire received snap.edgePolicy

section Caches

variable [PyRuntime] {wire : PolicyWire} {received received' : List (Rat × EdgePolicy)}

theorem ServesSent.mono {c : PolicyCache} (h : ServesSent wire received c)
    (hsub : received ⊆ received') : ServesSent wire received' c := by
  intro n snap hs
  obtain ⟨hcomp, hsent⟩ := h n snap hs
  exact ⟨hcomp, hsent.mono hsub⟩

/-- A cache that holds an edition of sent policies. -/
theorem servesSent_of_holds {c : PolicyCache} {h : Held} (hc : Holds c h)
    (hsent : ∀ p ∈ h.edition.policies, Sent wire received p) : ServesSent wire received c := by
  intro n snap hs
  refine ⟨hc.compiled n snap hs, hsent _ ?_⟩
  have hpolicy := hc.policy n
  rw [hs, Option.map_some] at hpolicy
  exact (lastWith_eq_some hpolicy.symm).1

end Caches

/-! ## Runs -/

/-- The files of an edge, and the cache of a running one, have policies that were sent. -/
structure EdgeGenuine [PyRuntime] (wire : PolicyWire) (e : Edge) : Prop where
  files : FileTree.EveryFile (Genuine wire e.received) e.disk
  cache : ∀ c, e.cache = some c → ServesSent wire e.received c

section Runs

variable [PyRuntime] {cfg : Settings} {wire : BodyWire} {e : Edge}

omit [PyRuntime] in
/-- The policies of the edition that a sync brings are those that it fetched. -/
theorem policies_brought {compileFails : EdgePolicy → Bool} {g : Gateway} {edition : Edition}
    (h : brought compileFails wire g cfg.multiPolicyEnabled = some edition) :
    edition.policies = fetched cfg wire g := by
  unfold brought at h
  split at h
  · rename_i hmulti
    split at h
    · rename_i policies primaryName clients hf
      have hfetched : fetched cfg wire g = policies := by
        unfold fetched
        rw [if_pos hmulti, hf]
      split at h
      · cases h
      · cases h
        exact hfetched.symm
    · cases h
  · rename_i hmulti
    split at h
    · rename_i p hf
      have hfetched : fetched cfg wire g = [p] := by
        unfold fetched
        rw [if_neg hmulti, hf]
      split at h
      · cases h
      · cases h
        exact hfetched.symm
    · cases h

/-- The files that a sync writes are genuine where what it fetched is recorded. -/
theorem planned_keeps {compileFails : EdgePolicy → Bool} {g : Gateway} {now : Rat}
    {swap : PolicyCache × DiskM Unit} {received : List (Rat × EdgePolicy)}
    (honly : OnlyPolicies wire.toPolicyWire)
    (hrec : ∀ p ∈ fetched cfg wire g, (now, p) ∈ received)
    (h : plannedSwap compileFails wire g now cfg.stateDir cfg.multiPolicyEnabled = some swap) :
    Keeps (FileTree.EveryFile (Genuine wire.toPolicyWire received)) swap.2 := by
  unfold fetched at hrec
  have hempty : ∀ t, Genuine wire.toPolicyWire received { text := some [], mtime := t } :=
    genuine_other honly.empty
  rcases plannedSwap_some h with
    ⟨hmulti, policies, primaryName, clients, hf, -, rfl⟩ | ⟨hmulti, p, hf, -, rfl⟩
  · simp only [hmulti, if_true, hf] at hrec
    exact persistManifest_keeps (fun p hp text ht _ => genuine_dump (hrec p hp) ht)
      (genuine_other (honly.manifest policies _)) hempty
  · simp only [hmulti, Bool.false_eq_true, if_false, hf] at hrec
    exact persistLegacy_keeps (fun text ht _ => genuine_dump (hrec p List.mem_cons_self) ht) hempty

theorem edgeGenuine_sync {c : PolicyCache} {s : EdgeSync} (honly : OnlyPolicies wire.toPolicyWire)
    (h : EdgeGenuine wire.toPolicyWire e) (hc : e.cache = some c) :
    EdgeGenuine wire.toPolicyWire (e.sync cfg wire c s) := by
  let received := e.received ++ (fetched cfg wire s.gateway).map (fun p => (s.now, p))
  have hsub : e.received ⊆ received := fun r hr => List.mem_append_left _ hr
  have hrec : ∀ p ∈ fetched cfg wire s.gateway, (s.now, p) ∈ received :=
    fun p hp => List.mem_append_right _ (List.mem_map.mpr ⟨p, hp, rfl⟩)
  have hfiles : FileTree.EveryFile (Genuine wire.toPolicyWire received) e.disk :=
    fun p body hl => (h.files p body hl).mono hsub
  let env : DiskEnv := { disk := e.disk, now := s.writtenAt, faults := s.faults }
  let o := syncOnceCompiling s.compileFails wire s.gateway s.now cfg.stateDir env c
    cfg.multiPolicyEnabled
  have hend : FileTree.EveryFile (Genuine wire.toPolicyWire received) o.env.disk ∧
      ServesSent wire.toPolicyWire received o.cache := by
    cases hp : plannedSwap s.compileFails wire s.gateway s.now cfg.stateDir
        cfg.multiPolicyEnabled with
    | none =>
      obtain ⟨hcache, henv, -⟩ : o.cache = c ∧ o.env = env ∧ _ := unplanned hp
      rw [hcache, henv]
      exact ⟨hfiles, (h.cache c hc).mono hsub⟩
    | some swap =>
      obtain ⟨edition, hed, hholds⟩ := brought_of_planned hp
      have ho : o = swapped swap env := syncOnceCompiling_planned hp
      rw [ho, swapped_cache, swapped_env]
      refine ⟨(planned_keeps honly hrec hp).run s.whole hfiles,
        servesSent_of_holds hholds fun p hmem => ?_⟩
      rw [policies_brought hed] at hmem
      exact ⟨(s.now, p), hrec p hmem, Or.inl rfl⟩
  refine ⟨hend.1, fun c' hc' => ?_⟩
  rw [sync_cache hc']
  exact hend.2

theorem edgeGenuine_restart (h : EdgeGenuine wire.toPolicyWire e) :
    EdgeGenuine wire.toPolicyWire (e.restart cfg wire) := by
  unfold Edge.restart PolicyCache.loadFromDisk
  cases hr : readDisk wire.toPolicyWire e.disk cfg.stateDir with
  | error x => exact ⟨h.files, fun c hc => by cases hc⟩
  | ok r =>
    cases r with
    | none =>
      refine ⟨h.files, fun c hc => ?_⟩
      obtain rfl := Option.some.inj hc
      exact fun n snap hs => by cases hs
    | some c' =>
      refine ⟨h.files, fun c hc => ?_⟩
      obtain rfl := Option.some.inj hc
      exact servesSent_of_holds (holds_readDisk hr) (sent_loadedPolicies h.files)

theorem edgeGenuine_step {hash : HashLib} {jwt : JwtLib} (honly : OnlyPolicies wire.toPolicyWire)
    (h : EdgeGenuine wire.toPolicyWire e) (i : EdgeInput) :
    EdgeGenuine wire.toPolicyWire (edgeStep hash cfg jwt wire e i).1 := by
  cases i with
  | restart => exact edgeGenuine_restart h
  | sync s =>
    unfold edgeStep
    cases hc : e.cache with
    | none => exact h
    | some c => exact edgeGenuine_sync honly h hc
  | decide call =>
    unfold edgeStep
    cases hc : e.cache with
    | none => exact h
    | some c => exact ⟨h.files, fun c' hc' => h.cache c' (hc.trans hc')⟩

end Runs

/-- **An edge enforces only what it was sent.** In every run from a disk without policies,
with whatever clocks, crashes, failing writes (though none is torn) and restarts, and
whatever mixture of files these leave: the policy that a request is routed to, and the
clients that tokens are issued to, came in a sync. -/
theorem enforces_only_sent [PyRuntime] (s : Site) (honly : OnlyPolicies s.wire.toPolicyWire)
    (hdisk : FileTree.EveryFile (Genuine s.wire.toPolicyWire []) s.disk) (c : PolicyCache)
    (hc : s.edge.cache = some c) :
    (∀ body compiled, routed s.cfg c body = some compiled →
        ∃ p, compiled = compile p ∧ Sent s.wire.toPolicyWire s.edge.received p) ∧
      ∀ client ∈ c.authorizedClients,
        ∃ p, Sent s.wire.toPolicyWire s.edge.received p ∧ client ∈ p.authorizedClients := by
  have hstart : EdgeGenuine s.wire.toPolicyWire { disk := s.disk } :=
    ⟨hdisk, fun c hc => by cases hc⟩
  have hstep : ∀ e i, EdgeGenuine s.wire.toPolicyWire e → True →
      EdgeGenuine s.wire.toPolicyWire (s.step e i).1 := fun e i h _ => edgeGenuine_step honly h i
  have hend := final_inv s.step hstep hstart (fun i (_ : i ∈ s.inputs) => trivial)
  have hserves : ServesSent s.wire.toPolicyWire s.edge.received c := hend.cache c hc
  constructor
  · intro body compiled hrouted
    obtain ⟨name, -, hcomp⟩ := Option.bind_eq_some_iff.mp hrouted
    obtain ⟨snap, hsnap, rfl⟩ := Option.map_eq_some_iff.mp hcomp
    obtain ⟨hcompiled, hsent⟩ := hserves name snap hsnap
    exact ⟨snap.edgePolicy, hcompiled, hsent⟩
  · intro client hclient
    unfold PolicyCache.authorizedClients at hclient
    split at hclient
    · rename_i snap hsnap
      obtain ⟨name, -, hlookup⟩ := Option.bind_eq_some_iff.mp hsnap
      exact ⟨snap.edgePolicy, (hserves name snap hlookup).2, hclient⟩
    · cases hclient

theorem pair_onlyPolicies : OnlyPolicies pairWire.toPolicyWire := by
  have hempty : (pairWire.parse []).toOption.isSome = false := by decide +kernel
  have hman : (pairWire.parse (universalNewlines pairManifestText)).toOption.isSome = false := by
    decide +kernel
  constructor
  · intro q h
    rw [h] at hempty
    cases hempty
  · intro policies primaryName q h
    have h' : pairWire.parse (universalNewlines pairManifestText) = .ok q := h
    rw [h'] at hman
    cases hman

/-- The key file is no policy. -/
theorem keyDisk_genuine : FileTree.EveryFile (Genuine pairWire.toPolicyWire []) keyDisk := by
  have hkey : (pairWire.parse (universalNewlines demoKeyPem)).toOption.isSome = false := by
    decide +kernel
  have hnone : ∀ q, pairWire.parse (universalNewlines demoKeyPem) ≠ .ok q := by
    intro q hq
    rw [hq] at hkey
    cases hkey
  have hkeeps : Keeps (FileTree.EveryFile (Genuine pairWire.toPolicyWire [])) (do
      makeDirs ["state"]
      writeText (credentialPath ["state"] keyFile) demoKeyPem) :=
    .bind .makeDirs fun _ =>
      .writeText (genuine_other hnone) (genuine_other pair_onlyPolicies.empty)
  refine hkeeps.run (fun f hf => by simp at hf) ?_
  intro p body h
  simp [FileTree.lookup, FileTree.empty] at h

/-! The run of an edge that serves what a sync cut short left, older than the rest. -/

def cutSite : Site :=
  { steadySite with inputs := cutRun.dropLast }

theorem enforces_only_sent_cut : ∃ c,
    (@Site.edge asciiRuntime cutSite).cache = some c ∧
      ∃ compiled, routed cutSite.cfg c (callAt 4100).body = some compiled ∧
        ∃ p, compiled = @compile asciiRuntime p ∧
          Sent cutSite.wire.toPolicyWire (@Site.edge asciiRuntime cutSite).received p := by
  have hserves : ((@Site.edge asciiRuntime cutSite).cache.bind (fun c =>
      routed cutSite.cfg c (callAt 4100).body)).isSome = true := by decide +kernel
  obtain ⟨compiled, hcompiled⟩ := Option.isSome_iff_exists.mp hserves
  obtain ⟨c, hc, hrouted⟩ := Option.bind_eq_some_iff.mp hcompiled
  obtain ⟨hsent, -⟩ :=
    @enforces_only_sent asciiRuntime cutSite pair_onlyPolicies keyDisk_genuine c hc
  exact ⟨c, hc, compiled, hrouted, hsent _ compiled hrouted⟩

end TrustModelEdge.Routes
