/-
TrustModelEdge.Policy.RestartTheorems — what a restart restores.

The two layouts have separate writers, and the loader prefers the
manifest. `Layouts` is the abstract disk: the arguments of the latest
`replace_all` and of the latest `replace`. A finished call keeps the disk
a picture of the layouts (`written_step`), and a load serves what the
layouts serve (`loadFromDisk_served`). Comparing that with the memory
state of the last call gives the exact condition under which a restart
restores it: a `replace` does not remove an older manifest, and an empty
manifest does not hide an older `policy.json`.
-/
import TrustModelEdge.Policy.CacheTheorems
import TrustModelEdge.Policy.PersistTheorems

namespace TrustModelEdge.Policy

open Py Lib

/-! ## Calls and layouts -/

/-- A write call on the state directory, with its time and the faults its
operations meet. -/
inductive Call where
  | replace (now : Rat) (faults : List Fault) (p : EdgePolicy)
  | replaceAll (now : Rat) (faults : List Fault) (policies : List EdgePolicy)
      (primaryName : Option Str)

/-- What a cache serves: the policy of each name, and the primary. -/
abbrev Served := (Str → Option EdgePolicy) × Option Str

/-- The primary name, cleared when no policy of the list carries it. -/
def keptName (policies : List EdgePolicy) (primaryName : Option Str) : Option Str :=
  primaryName.filter (fun name => decide (name ∈ policies.map bundleName))

/-- What a list of policies with a primary name serves. -/
def servedBy (policies : List EdgePolicy) (primaryName : Option Str) : Served :=
  (fun n => lastWith bundleName n policies, keptName policies primaryName)

/-- The arguments of the latest call that wrote each layout. -/
structure Layouts where
  manifest : Option (List EdgePolicy × Option Str) := none
  legacy : Option EdgePolicy := none

def Layouts.after (L : Layouts) : Call → Layouts
  | .replace _ _ p => { L with legacy := some p }
  | .replaceAll _ _ policies primaryName => { L with manifest := some (policies, primaryName) }

def Layouts.ofCalls (calls : List Call) : Layouts := calls.foldl Layouts.after {}

/-- What the layouts serve: the manifest unless it is absent or empty. -/
def Layouts.served (L : Layouts) : Served :=
  match L.manifest, L.legacy with
  | some (p :: ps, primaryName), _ => servedBy (p :: ps) primaryName
  | _, some p => servedBy [p] (some (bundleName p))
  | _, none => servedBy [] none

theorem served_ext {s t : Served} (h1 : ∀ n, s.1 n = t.1 n) (h2 : s.2 = t.2) : s = t :=
  Prod.ext (funext h1) h2

section Runs

variable [PyRuntime]

def PolicyCache.served (c : PolicyCache) : Served :=
  (fun n => (c.snapshots.lookup n).map (·.edgePolicy), c.primaryName)

/-- The call of the program: the cache it leaves and its disk half. -/
def Call.run (wire : PolicyWire) (dir : Path) : Call → PolicyCache × DiskM Unit
  | .replace now _ p => PolicyCache.replace wire now p (some dir)
  | .replaceAll now _ policies primaryName =>
      PolicyCache.replaceAll wire now policies primaryName (some dir)

def Call.env (d : Disk) : Call → DiskEnv
  | .replace now faults _ | .replaceAll now faults _ _ =>
      { disk := d, now := now, faults := faults }

/-- The disk after a list of calls, if each of them finishes its writes. -/
def runCalls (wire : PolicyWire) (dir : Path) : Disk → List Call → Option Disk
  | d, [] => some d
  | d, call :: calls =>
      match (call.run wire dir).2.run (call.env d) with
      | (.ok (), env) => runCalls wire dir env.disk calls
      | (.error _, _) => none

/-- A fresh cache after `load_from_disk`: what it serves, if the call returns. -/
def restored (wire : PolicyWire) (dir : Path) (d : Disk) : Except Exc Served :=
  match PolicyCache.loadFromDisk wire d dir {} with
  | (c, .ok _) => .ok c.served
  | (_, .error e) => .error e

/-! ## What memory serves -/

omit [PyRuntime] in
theorem lastWith_single (p : EdgePolicy) (n : Str) :
    lastWith bundleName n [p] = if bundleName p = n then some p else none := by
  rw [lastWith_cons]
  simp [lastWith]

omit [PyRuntime] in
theorem keptName_single (p : EdgePolicy) :
    keptName [p] (some (bundleName p)) = some (bundleName p) := by
  simp [keptName, Option.filter]

theorem served_install (now : Rat) (p : EdgePolicy) :
    (PolicyCache.install now p).served = servedBy [p] (some (bundleName p)) := by
  apply served_ext
  · exact content_install now p
  · exact (keptName_single p).symm

theorem served_installAll (now : Rat) (policies : List EdgePolicy) (primaryName : Option Str) :
    (PolicyCache.installAll now policies primaryName).served = servedBy policies primaryName := by
  apply served_ext
  · exact content_installAll now policies primaryName
  · show PolicyCache.keepPrimary _ primaryName = keptName policies primaryName
    unfold PolicyCache.keepPrimary keptName
    congr 1
    funext n
    rw [decide_eq_decide, mem_addSnapshots]
    simp only [List.mem_map, exists_exists_and_eq_and]
    rfl

theorem served_run (wire : PolicyWire) (dir : Path) (call : Call) :
    (call.run wire dir).1.served = match call with
      | .replace _ _ p => servedBy [p] (some (bundleName p))
      | .replaceAll _ _ policies primaryName => servedBy policies primaryName := by
  cases call with
  | replace now faults p => exact served_install now p
  | replaceAll now faults policies primaryName => exact served_installAll now policies primaryName

end Runs

/-! ## The disk as a picture of the layouts -/

/-- A policy survives its file: its text has no carriage return and parses
back to it. -/
def PolicyWire.Survives (wire : PolicyWire) (p : EdgePolicy) : Prop :=
  ∀ text, wire.dump p = .ok text → CodePoint.cr ∉ text ∧ wire.parse text = .ok p

/-- The manifest object survives its file. -/
def JsonSurvives (json : JsonText) (v : Json) : Prop :=
  CodePoint.cr ∉ json.dumps v ∧ json.loads (json.dumps v) = .ok v

/-- `manifest.json` and the files of its policies are on disk. -/
structure HoldsManifest (wire : PolicyWire) (dir : Path) (d : Disk) (policies : List EdgePolicy)
    (primaryName : Option Str) : Prop where
  subdir : d.isDir (policiesDir dir) = true
  manifest : ∃ m, d.lookup (dir ++ [fileName "manifest"]) =
    some (.file { text := some (wire.json.dumps
                    (manifestJson policies (keptName policies primaryName)))
                  mtime := m })
  files : ∀ n p, lastWith bundleName n policies = some p →
    ∃ m, HoldsPolicy wire d (policiesDir dir) p m

/-- `policy.json` is on disk. -/
def HoldsLegacy (wire : PolicyWire) (dir : Path) (d : Disk) (p : EdgePolicy) : Prop :=
  ∃ text m, wire.dump p = .ok text ∧ d.lookup (dir ++ [fileName "policy"]) =
    some (.file { text := some text, mtime := m })

/-- The disk holds exactly the layouts. -/
structure Written (wire : PolicyWire) (dir : Path) (d : Disk) (L : Layouts) : Prop where
  manifest : match L.manifest with
    | none => d.lookup (dir ++ [fileName "manifest"]) = none
    | some (policies, primaryName) => HoldsManifest wire dir d policies primaryName
  legacy : match L.legacy with
    | none => d.lookup (dir ++ [fileName "policy"]) = none
    | some p => HoldsLegacy wire dir d p

/-- The directory is there and takes the names of both layouts. -/
structure Ready (dir : Path) (d : Disk) : Prop where
  isDir : d.isDir dir = true
  manifest : Usable dir (fileName "manifest")
  legacy : Usable dir (fileName "policy")

/-- The bundle names of a call are plain. -/
def Call.Named : Call → Prop
  | .replace _ _ p => Plain (bundleName p)
  | .replaceAll _ _ policies _ => ∀ p ∈ policies, Plain (bundleName p)

section Picture

variable {wire : PolicyWire} {dir : Path} {d d' : Disk} {L : Layouts}

theorem holdsManifest_congr {policies : List EdgePolicy} {primaryName : Option Str}
    (h : HoldsManifest wire dir d policies primaryName)
    (hdir : d'.lookup (policiesDir dir) = d.lookup (policiesDir dir))
    (hman : d'.lookup (dir ++ [fileName "manifest"]) = d.lookup (dir ++ [fileName "manifest"]))
    (hpol : ∀ f, d'.lookup (policiesDir dir ++ [f]) = d.lookup (policiesDir dir ++ [f])) :
    HoldsManifest wire dir d' policies primaryName where
  subdir := isDir_of_lookup h.subdir hdir
  manifest := by rw [hman]; exact h.manifest
  files := by
    intro n p hp
    obtain ⟨m, hu, text, hdump, hf⟩ := h.files n p hp
    exact ⟨m, hu, text, hdump, by rw [hpol, hf]⟩

/-- The shorter name of a layout is usable where a longer temporary name was. -/
theorem usable_of_tmp {a b : Str} (h : Usable dir (tmpName a))
    (hs : (fileName b).any isSurrogate = false) (h0 : CodePoint.nul ∉ fileName b)
    (hlen : byteLength (fileName b) ≤ byteLength (tmpName a)) : Usable dir (fileName b) :=
  h.of_shorter hs h0 hlen (fileName_ne_up b)

variable [PyRuntime]

/-- The disk half of `replace_all` writes the primary name that was kept. -/
theorem replaceAll_disk (now : Rat) (policies : List EdgePolicy) (primaryName : Option Str) :
    (PolicyCache.replaceAll wire now policies primaryName (some dir)).2 =
      persistManifest wire dir policies (keptName policies primaryName) := by
  have hkept : (PolicyCache.installAll now policies primaryName).primaryName =
      keptName policies primaryName :=
    congrArg Prod.snd (served_installAll now policies primaryName)
  unfold PolicyCache.replaceAll
  simp only [hkept]

omit [PyRuntime] in
/-- What a finished write leaves, whatever was there before. -/
theorem holdsManifest_of_finished {policies : List EdgePolicy} {primaryName : Option Str}
    (hn : ∀ p ∈ policies, Plain (bundleName p)) {env env' : DiskEnv}
    (hrun : (persistManifest wire dir policies (keptName policies primaryName)).run env =
      (.ok (), env')) :
    HoldsManifest wire dir env'.disk policies primaryName ∧ Ready dir env'.disk := by
  obtain ⟨hdir, hsub, hut, hum, hfile, hfiles, -⟩ := persistManifest_ok hn hrun
  have huf : Usable dir (fileName "policy") :=
    usable_of_tmp hut (by decide) (by decide) (by decide)
  exact ⟨⟨hsub, hfile, hfiles⟩, ⟨hdir, hum, huf⟩⟩

omit [PyRuntime] in
/-- A write of `policy.json` does not touch the manifest layout. -/
theorem manifestFiles_of_legacyWrite {d d' : Disk}
    (hframe : ∀ r, r ≠ dir ++ [fileName "policy"] → r ≠ dir ++ [tmpName "policy"] →
      dir.length < r.length → d'.lookup r = d.lookup r) :
    d'.lookup (dir ++ [fileName "manifest"]) = d.lookup (dir ++ [fileName "manifest"]) ∧
      d'.lookup (policiesDir dir) = d.lookup (policiesDir dir) ∧
      ∀ f, d'.lookup (policiesDir dir ++ [f]) = d.lookup (policiesDir dir ++ [f]) := by
  refine ⟨?_, ?_, fun f => ?_⟩
  · apply hframe
    · exact child_ne_child dir (by decide)
    · exact child_ne_child dir (by decide)
    · simp
  · apply hframe
    · exact policiesDir_ne dir (by decide)
    · exact policiesDir_ne dir (by decide)
    · simp [policiesDir]
  · apply hframe
    · exact (child_ne_policyFile dir _ f).symm
    · exact (child_ne_policyFile dir _ f).symm
    · simp [policiesDir]

/-- **One finished call** keeps the disk a picture of the layouts and leaves
the directory ready. -/
theorem written_step {call : Call} (hn : call.Named) (h : Written wire dir d L) {env : DiskEnv}
    (hrun : (call.run wire dir).2.run (call.env d) = (.ok (), env)) :
    Written wire dir env.disk (L.after call) ∧ Ready dir env.disk := by
  cases call with
  | replace now faults p =>
    obtain ⟨hdir, hut, huf, hfile, hframe⟩ := persistLegacy_ok hrun
    have hum : Usable dir (fileName "manifest") :=
      usable_of_tmp hut (by decide) (by decide) (by decide)
    refine ⟨⟨?_, hfile⟩, ⟨hdir, hum, huf⟩⟩
    obtain ⟨hman, hsub, hpol⟩ := manifestFiles_of_legacyWrite hframe
    have hold := h.manifest
    show match L.manifest with
      | none => env.disk.lookup (dir ++ [fileName "manifest"]) = none
      | some (policies, primaryName) => HoldsManifest wire dir env.disk policies primaryName
    cases hm : L.manifest with
    | none =>
      rw [hm] at hold
      exact hman.trans hold
    | some r =>
      rw [hm] at hold
      exact holdsManifest_congr hold hsub hman hpol
  | replaceAll now faults policies primaryName =>
    have hpersist : (persistManifest wire dir policies (keptName policies primaryName)).run
        { disk := d, now := now, faults := faults } = (.ok (), env) := by
      rw [← replaceAll_disk now]
      exact hrun
    obtain ⟨-, -, -, -, -, -, hleg⟩ := persistManifest_ok hn hpersist
    obtain ⟨hman, hready⟩ := holdsManifest_of_finished hn hpersist
    refine ⟨⟨hman, ?_⟩, hready⟩
    have hold := h.legacy
    show match L.legacy with
      | none => env.disk.lookup (dir ++ [fileName "policy"]) = none
      | some p => HoldsLegacy wire dir env.disk p
    cases hl : L.legacy with
    | none =>
      rw [hl] at hold
      exact hleg.trans hold
    | some p =>
      rw [hl] at hold
      obtain ⟨text, m, hdump, hf⟩ := hold
      exact ⟨text, m, hdump, hleg.trans hf⟩

/-- A list of finished calls, the last of them included. -/
theorem written_run {calls : List Call} {call : Call} (hn : ∀ c ∈ calls ++ [call], c.Named)
    (h : Written wire dir d L) (hrun : runCalls wire dir d (calls ++ [call]) = some d') :
    Written wire dir d' ((calls ++ [call]).foldl Layouts.after L) ∧ Ready dir d' := by
  induction calls generalizing d L with
  | nil =>
    simp only [List.nil_append, runCalls] at hrun
    cases hr : (call.run wire dir).2.run (call.env d) with
    | mk r env =>
      rw [hr] at hrun
      cases r with
      | error e => simp at hrun
      | ok _ =>
        obtain rfl : env.disk = d' := by simpa using hrun
        exact written_step (hn call (by simp)) h hr
  | cons c cs ih =>
    simp only [List.cons_append, runCalls] at hrun
    cases hr : (c.run wire dir).2.run (c.env d) with
    | mk r env =>
      rw [hr] at hrun
      cases r with
      | error e => simp at hrun
      | ok _ =>
        have hstep := (written_step (hn c (by simp)) h hr).1
        exact ih (fun c' hc' => hn c' (List.mem_cons_of_mem _ hc')) hstep hrun

end Picture

/-! ## Loading what was written -/

section Loading

variable {wire : PolicyWire} {dir : Path} {d : Disk}

theorem keptName_mem {policies : List EdgePolicy} {primaryName : Option Str} {n : Str}
    (h : keptName policies primaryName = some n) : ∃ p ∈ policies, bundleName p = n := by
  obtain ⟨-, hn⟩ := Option.filter_eq_some_iff.mp h
  simpa [List.mem_map] using hn

theorem readPolicy_child {name text : Str} {p : EdgePolicy} {m : Rat} (hs : wire.Survives p)
    (hu : Usable dir name) (hdir : d.isDir dir = true) (hdump : wire.dump p = .ok text)
    (hf : d.lookup (dir ++ [name]) = some (.file { text := some text, mtime := m })) :
    readPolicy wire d (child dir name) = .ok (some (p, m)) := by
  obtain ⟨hcr, hparse⟩ := hs text hdump
  have hread : readText d (child dir name) >>= wire.parse = .ok p := by
    rw [readText_child hu hdir hf hcr]
    exact hparse
  unfold readPolicy
  rw [hread]
  show (mtime d (child dir name) >>= fun m => pure (some (p, m))) = _
  rw [mtime_child hu hdir hf]
  rfl

/-- The entries of a manifest the program wrote. -/
theorem manifestEntries_manifestJson (policies : List EdgePolicy) (primaryName : Option Str) :
    manifestEntries (manifestJson policies primaryName) =
      .ok ((sorted (policies.map bundleName)).map .str,
        primaryName.elim .null .str) := rfl

/-- Rows that are the last policies of all the names serve what the policies
serve. -/
theorem lastWith_rows {policies : List EdgePolicy} {rows : List (EdgePolicy × Rat)}
    (hmem : ∀ p ∈ policies, ∃ r ∈ rows, bundleName r.1 = bundleName p)
    (hlast : ∀ r ∈ rows, lastWith bundleName (bundleName r.1) policies = some r.1) (n : Str) :
    lastWith bundleName n (rows.map Prod.fst) = lastWith bundleName n policies := by
  cases hr : lastWith bundleName n (rows.map Prod.fst) with
  | some p =>
    obtain ⟨hp, hn⟩ := lastWith_eq_some hr
    obtain ⟨r, hrm, rfl⟩ := List.mem_map.mp hp
    rw [← hn]
    exact (hlast r hrm).symm
  | none =>
    symm
    rw [lastWith_eq_none] at hr ⊢
    intro p hp hn
    obtain ⟨r, hrm, hrn⟩ := hmem p hp
    exact hr r.1 (List.mem_map.mpr ⟨r, hrm, rfl⟩) (hrn.trans hn)

/-- A primary among the names loaded is kept. -/
theorem loadedPrimary_of_mem {snapshots : Dict CacheSnapshot} {primaryName : Option Str}
    (h : ∀ n, primaryName = some n → n ∈ snapshots) :
    loadedPrimary snapshots (primaryName.elim .null .str) = .ok primaryName := by
  cases primaryName with
  | none => rfl
  | some n =>
    show Except.ok (PolicyCache.keepPrimary _ (some n)) = _
    simp [PolicyCache.keepPrimary, Option.filter, h n rfl]

variable [PyRuntime]

/-- A load that read a policy has a snapshot. -/
theorem isEmpty_addRows {rows : List (EdgePolicy × Rat)} (h : rows ≠ []) :
    ((rows.map (fun r => snapshotOf r.2 r.1)).foldl
      PolicyCache.addSnapshot ∅).entries.isEmpty = false := by
  rw [isEmpty_addSnapshots]
  simpa using h

theorem loadedCache_ok {rows : List (EdgePolicy × Rat)} {v : Json} {n : Str}
    {primaryName : Option Str}
    (hn : n ∈ (rows.map (fun r => snapshotOf r.2 r.1)).foldl PolicyCache.addSnapshot ∅)
    (hp : loadedPrimary ((rows.map (fun r => snapshotOf r.2 r.1)).foldl
      PolicyCache.addSnapshot ∅) v = .ok primaryName) :
    ∃ c, loadedCache rows v = .ok (some c) ∧
      c.snapshots = (rows.map (fun r => snapshotOf r.2 r.1)).foldl PolicyCache.addSnapshot ∅ ∧
      c.primaryName = primaryName := by
  have hrows : rows ≠ [] := by
    intro he
    simp [he] at hn
  have hne := isEmpty_addRows hrows
  unfold loadedCache
  simp only [hne, hp, Bool.false_eq_true, if_false]
  exact ⟨_, rfl, rfl, rfl⟩

/-- Reading the files of a list of names whose policies are on disk. -/
theorem readPolicies_of_holds {policies : List EdgePolicy}
    (hsub : d.isDir (policiesDir dir) = true)
    (hfiles : ∀ n p, lastWith bundleName n policies = some p →
      ∃ m, HoldsPolicy wire d (policiesDir dir) p m)
    (hsurv : ∀ p ∈ policies, wire.Survives p) (hplain : ∀ p ∈ policies, Plain (bundleName p))
    (names : List Str) (hnames : ∀ n ∈ names, ∃ p ∈ policies, bundleName p = n) :
    ∃ rows, readPolicies wire d dir (names.map .str) = .ok rows ∧
      rows.map (fun r => bundleName r.1) = names ∧
      ∀ r ∈ rows, lastWith bundleName (bundleName r.1) policies = some r.1 := by
  induction names with
  | nil => exact ⟨[], rfl, rfl, by simp⟩
  | cons n ns ih =>
    obtain ⟨rows, hrows, hmap, hlast⟩ := ih (fun k hk => hnames k (List.mem_cons_of_mem _ hk))
    obtain ⟨q, hq, rfl⟩ := hnames n List.mem_cons_self
    obtain ⟨p, hp⟩ := exists_lastWith bundleName hq
    obtain ⟨hpmem, hpname⟩ := lastWith_eq_some hp
    obtain ⟨m, hu, text, hdump, hf⟩ := hfiles _ p hp
    have hpath : policyPath dir (Json.str (bundleName q)).toStr =
        child (policiesDir dir) (fileName (bundleName p)) := by
      rw [hpname]
      exact policyPath_eq (hplain q hq)
    refine ⟨(p, m) :: rows, ?_, ?_, ?_⟩
    · have hfound := pathExists_child hu hsub
      rw [hf, ← hpath] at hfound
      have hread := readPolicy_child (hsurv p hpmem) hu hsub hdump hf
      rw [← hpath] at hread
      have hrow := readListed_some.mpr ⟨hfound, hread⟩
      exact readPolicies_cons.mpr ⟨some (p, m), rows, hrow, hrows, rfl⟩
    · rw [List.map_cons, hmap, hpname]
    · intro r hr
      rcases List.mem_cons.mp hr with rfl | hr
      · rw [hpname]; exact hp
      · exact hlast r hr

/-- The rows a written manifest reads: the last policy of each name, once. -/
theorem readManifest_rows {policies : List EdgePolicy} {primaryName : Option Str}
    (hready : Ready dir d) (h : HoldsManifest wire dir d policies primaryName)
    (hjson : JsonSurvives wire.json (manifestJson policies (keptName policies primaryName)))
    (hsurv : ∀ p ∈ policies, wire.Survives p) (hplain : ∀ p ∈ policies, Plain (bundleName p)) :
    ∃ rows, readManifest wire d dir =
        loadedCache rows ((keptName policies primaryName).elim .null .str) ∧
      rows.map (fun r => bundleName r.1) = sorted (policies.map bundleName) ∧
      ∀ r ∈ rows, lastWith bundleName (bundleName r.1) policies = some r.1 := by
  obtain ⟨m, hman⟩ := h.manifest
  obtain ⟨hcr, hloads⟩ := hjson
  obtain ⟨rows, hrows, hmap, hlast⟩ := readPolicies_of_holds h.subdir h.files hsurv hplain
    (sorted (policies.map bundleName)) (fun n hn => List.mem_map.mp (mem_sorted.mp hn))
  have hfound := pathExists_child hready.manifest hready.isDir
  have htext := readText_child hready.manifest hready.isDir hman hcr
  rw [hman] at hfound
  rw [← manifestPath_eq] at hfound htext
  have hread : readManifestRows wire d dir = .ok (some (rows,
      (keptName policies primaryName).elim .null .str)) := by
    simp only [readManifestRows, hfound, htext, hloads, manifestEntries_manifestJson, hrows, bind,
      Except.bind, pure, Except.pure, Option.isSome_some, if_true]
  refine ⟨rows, ?_, hmap, hlast⟩
  unfold readManifest
  rw [hread]
  rfl

/-- **A load of the manifest layout** serves what its policies serve, and finds
nothing exactly when there are none. -/
theorem readManifest_of_holds {policies : List EdgePolicy} {primaryName : Option Str}
    (hready : Ready dir d) (h : HoldsManifest wire dir d policies primaryName)
    (hjson : JsonSurvives wire.json (manifestJson policies (keptName policies primaryName)))
    (hsurv : ∀ p ∈ policies, wire.Survives p) (hplain : ∀ p ∈ policies, Plain (bundleName p)) :
    (policies = [] ∧ readManifest wire d dir = .ok none) ∨
      (policies ≠ [] ∧ ∃ c, readManifest wire d dir = .ok (some c) ∧
        c.served = servedBy policies primaryName) := by
  obtain ⟨rows, hmanifest, hmap, hlast⟩ := readManifest_rows hready h hjson hsurv hplain
  rw [hmanifest]
  cases policies with
  | nil =>
    left
    obtain rfl : rows = [] := by simpa [sorted] using hmap
    exact ⟨rfl, rfl⟩
  | cons p ps =>
    right
    have hrowmem : ∀ q ∈ p :: ps, ∃ r ∈ rows, bundleName r.1 = bundleName q := by
      intro q hq
      have hn : bundleName q ∈ sorted ((p :: ps).map bundleName) :=
        mem_sorted.mpr (List.mem_map.mpr ⟨q, hq, rfl⟩)
      rw [← hmap] at hn
      exact List.mem_map.mp hn
    have hin : ∀ n, (∃ q ∈ p :: ps, bundleName q = n) →
        n ∈ (rows.map (fun r => snapshotOf r.2 r.1)).foldl PolicyCache.addSnapshot ∅ := by
      rintro n ⟨q, hq, rfl⟩
      obtain ⟨r, hr, hrn⟩ := hrowmem q hq
      rw [mem_addSnapshots]
      exact ⟨_, List.mem_map.mpr ⟨r, hr, rfl⟩, hrn⟩
    have hprimary : loadedPrimary _ ((keptName (p :: ps) primaryName).elim .null .str) =
        .ok (keptName (p :: ps) primaryName) :=
      loadedPrimary_of_mem fun n hn => hin n (keptName_mem hn)
    obtain ⟨c, hc, hsnap, hname⟩ := loadedCache_ok (hin _ ⟨p, List.mem_cons_self, rfl⟩) hprimary
    refine ⟨List.cons_ne_nil _ _, c, hc, served_ext ?_ hname⟩
    intro n
    show (c.snapshots.lookup n).map (·.edgePolicy) = lastWith bundleName n (p :: ps)
    rw [hsnap, lookup_addSnapshots, ← lastWith_rows hrowmem hlast n, lastWith_map, lastWith_map,
      Option.map_map]
    rfl

/-- A load of the legacy layout serves its policy. -/
theorem readLegacy_of_holds {p : EdgePolicy} (hready : Ready dir d) (h : HoldsLegacy wire dir d p)
    (hsurv : wire.Survives p) :
    ∃ c, readLegacy wire d dir = .ok (some c) ∧ c.served = servedBy [p] (some (bundleName p)) := by
  obtain ⟨text, m, hdump, hf⟩ := h
  have hfound := pathExists_child hready.legacy hready.isDir
  have hread := readPolicy_child hsurv hready.legacy hready.isDir hdump hf
  rw [hf] at hfound
  rw [← legacyPath_eq] at hfound hread
  refine ⟨.install m p, ?_, served_install m p⟩
  simp only [readLegacy, hfound, hread, bind, Except.bind, pure, Except.pure, Option.isSome_some,
    if_true, Option.map_some]

theorem readLegacy_of_absent (hready : Ready dir d)
    (h : d.lookup (dir ++ [fileName "policy"]) = none) : readLegacy wire d dir = .ok none := by
  have hfound := pathExists_child hready.legacy hready.isDir
  rw [h, ← legacyPath_eq] at hfound
  simp [readLegacy, hfound, bind, Except.bind, pure, Except.pure]

theorem readManifest_of_absent (hready : Ready dir d)
    (h : d.lookup (dir ++ [fileName "manifest"]) = none) :
    readManifest wire d dir = .ok none := by
  have hfound := pathExists_child hready.manifest hready.isDir
  rw [h, ← manifestPath_eq] at hfound
  simp [readManifest, readManifestRows, hfound, bind, Except.bind, pure, Except.pure]

/-- The texts of the layouts survive their files. -/
structure LayoutsSurvive (wire : PolicyWire) (L : Layouts) : Prop where
  manifest : ∀ policies primaryName, L.manifest = some (policies, primaryName) →
    JsonSurvives wire.json (manifestJson policies (keptName policies primaryName)) ∧
      ∀ p ∈ policies, wire.Survives p ∧ Plain (bundleName p)
  legacy : ∀ p, L.legacy = some p → wire.Survives p

/-- **A restart serves what the layouts serve.** -/
theorem restored_of_written {L : Layouts} (hready : Ready dir d) (h : Written wire dir d L)
    (hsurv : LayoutsSurvive wire L) : restored wire dir d = .ok L.served := by
  have hload : ∀ c, readDisk wire d dir = .ok (some c) → restored wire dir d = .ok c.served := by
    intro c hc
    simp only [restored, PolicyCache.loadFromDisk, hc]
  -- without a manifest to load, the legacy layout decides
  have hlegacy : readManifest wire d dir = .ok none → restored wire dir d =
      .ok (Layouts.served { L with manifest := none }) := by
    intro hm
    have hdisk : readDisk wire d dir = readLegacy wire d dir := by
      simp only [readDisk, hm, bind, Except.bind]
    have hw := h.legacy
    cases hl : L.legacy with
    | none =>
      rw [hl] at hw
      rw [readLegacy_of_absent hready hw] at hdisk
      simp only [restored, PolicyCache.loadFromDisk, hdisk]
      rfl
    | some p =>
      rw [hl] at hw
      obtain ⟨c, hc, hserved⟩ := readLegacy_of_holds hready hw (hsurv.legacy p hl)
      rw [hload c (hdisk.trans hc), hserved]
      rfl
  have hw := h.manifest
  obtain ⟨manifest, legacy⟩ := L
  cases manifest with
  | none => exact hlegacy (readManifest_of_absent hready hw)
  | some r =>
    obtain ⟨ps, prim⟩ := r
    obtain ⟨hjson, hps⟩ := hsurv.manifest ps prim rfl
    rcases readManifest_of_holds hready hw hjson (fun p hp => (hps p hp).1)
      (fun p hp => (hps p hp).2) with ⟨rfl, hr⟩ | ⟨hne, c, hr, hc⟩
    · rw [hlegacy hr]
      cases legacy <;> rfl
    · have hdisk : readDisk wire d dir = .ok (some c) := by
        simp only [readDisk, hr, bind, Except.bind, pure, Except.pure]
      rw [hload c hdisk, hc]
      cases ps with
      | nil => exact absurd rfl hne
      | cons p ps => cases legacy <;> rfl

end Loading

/-! ## When a restart restores the last call -/

/-- **The condition**, on the arguments of the calls: after a `replace` the
latest manifest before it is empty or serves just that policy; after a
`replace_all` of nothing there was no `replace` before; a `replace_all` of
something is always restored. -/
def RestartOk (earlier : List Call) : Call → Prop
  | .replace _ _ p => ∀ policies primaryName,
      (Layouts.ofCalls earlier).manifest = some (policies, primaryName) → policies = [] ∨
        ((∀ q ∈ policies, bundleName q = bundleName p) ∧ policies.getLast? = some p ∧
          primaryName = some (bundleName p))
  | .replaceAll _ _ policies _ => policies = [] → (Layouts.ofCalls earlier).legacy = none

/-- A list that serves what a single policy does has only that policy's name, and
the policy last. -/
theorem of_servedBy_single {policies : List EdgePolicy} {primaryName : Option Str} {p : EdgePolicy}
    (hne : policies ≠ [])
    (h : servedBy policies primaryName = servedBy [p] (some (bundleName p))) :
    (∀ q ∈ policies, bundleName q = bundleName p) ∧ policies.getLast? = some p ∧
      primaryName = some (bundleName p) := by
  have hmap : ∀ n, lastWith bundleName n policies = if bundleName p = n then some p else none := by
    intro n
    rw [← lastWith_single]
    exact congrFun (congrArg Prod.fst h) n
  have hname : keptName policies primaryName = some (bundleName p) :=
    (congrArg Prod.snd h).trans (keptName_single p)
  refine ⟨?_, ?_, (Option.filter_eq_some_iff.mp hname).1⟩
  · intro q hq
    obtain ⟨b, hb⟩ := exists_lastWith bundleName hq
    rw [hmap] at hb
    by_contra hne'
    rw [if_neg (fun he => hne' he.symm)] at hb
    simp at hb
  · have hlast := List.getLast?_eq_some_getLast hne
    have hl := lastWith_getLast? bundleName hlast
    rw [hmap] at hl
    split at hl
    · rw [hlast]
      exact congrArg some (Option.some.inj hl).symm
    · simp at hl

/-- Two lists serve the same exactly when the first serves what the second,
a single policy, does. -/
theorem servedBy_eq_single {policies : List EdgePolicy} {primaryName : Option Str} {p : EdgePolicy}
    (hne : policies ≠ []) :
    servedBy policies primaryName = servedBy [p] (some (bundleName p)) ↔
      (∀ q ∈ policies, bundleName q = bundleName p) ∧ policies.getLast? = some p ∧
        primaryName = some (bundleName p) := by
  refine ⟨of_servedBy_single hne, ?_⟩
  rintro ⟨hall, hl, rfl⟩
  apply served_ext
  · intro n
    show lastWith bundleName n policies = lastWith bundleName n [p]
    rw [lastWith_single]
    by_cases hn : bundleName p = n
    · rw [if_pos hn, ← hn]
      exact lastWith_getLast? bundleName hl
    · rw [if_neg hn, lastWith_eq_none]
      intro q hq he
      exact hn ((hall q hq).symm.trans he)
  · show keptName policies (some (bundleName p)) = keptName [p] (some (bundleName p))
    have hp : p ∈ policies := List.mem_of_getLast? hl
    rw [keptName_single]
    simp only [keptName, Option.filter, decide_eq_true_eq]
    exact if_pos (List.mem_map.mpr ⟨p, hp, rfl⟩)

/-- The texts a call writes survive their files. -/
def Call.Survives (wire : PolicyWire) : Call → Prop
  | .replace _ _ p => wire.Survives p
  | .replaceAll _ _ policies primaryName =>
      JsonSurvives wire.json (manifestJson policies (keptName policies primaryName)) ∧
        ∀ p ∈ policies, wire.Survives p

theorem layoutsSurvive_after {wire : PolicyWire} {L : Layouts} {call : Call}
    (h : LayoutsSurvive wire L) (hs : call.Survives wire) (hn : call.Named) :
    LayoutsSurvive wire (L.after call) := by
  cases call with
  | replace now faults p =>
    refine ⟨h.manifest, ?_⟩
    intro q hq
    obtain rfl : p = q := by simpa [Layouts.after] using hq
    exact hs
  | replaceAll now faults policies primaryName =>
    refine ⟨?_, h.legacy⟩
    intro ps prim he
    obtain ⟨rfl, rfl⟩ : policies = ps ∧ primaryName = prim := by simpa [Layouts.after] using he
    exact ⟨hs.1, fun p hp => ⟨hs.2 p hp, hn p hp⟩⟩

theorem layoutsSurvive_ofCalls {wire : PolicyWire} {calls : List Call}
    (hs : ∀ c ∈ calls, c.Survives wire) (hn : ∀ c ∈ calls, c.Named) :
    LayoutsSurvive wire (Layouts.ofCalls calls) := by
  suffices h : ∀ L, LayoutsSurvive wire L → LayoutsSurvive wire (calls.foldl Layouts.after L) from
    h {} ⟨fun _ _ he => by simp at he, fun _ he => by simp at he⟩
  induction calls with
  | nil => intro L hL; exact hL
  | cons c cs ih =>
    intro L hL
    exact ih (fun c' hc' => hs c' (List.mem_cons_of_mem _ hc'))
      (fun c' hc' => hn c' (List.mem_cons_of_mem _ hc')) _
      (layoutsSurvive_after hL (hs c List.mem_cons_self) (hn c List.mem_cons_self))

theorem ofCalls_concat (calls : List Call) (call : Call) :
    Layouts.ofCalls (calls ++ [call]) = (Layouts.ofCalls calls).after call := by
  simp [Layouts.ofCalls]

/-- After a `replace` a manifest, if there is one, must serve what that policy
does. -/
theorem served_after_replace_iff {manifest : Option (List EdgePolicy × Option Str)}
    {p : EdgePolicy} :
    (Layouts.served { manifest := manifest, legacy := some p } =
        servedBy [p] (some (bundleName p))) ↔
      ∀ policies primaryName, manifest = some (policies, primaryName) → policies = [] ∨
        (∀ q ∈ policies, bundleName q = bundleName p) ∧ policies.getLast? = some p ∧
          primaryName = some (bundleName p) := by
  rcases manifest with - | ⟨- | ⟨q, qs⟩, primaryName⟩
  · simp only [reduceCtorEq, false_implies, implies_true, iff_true]
    rfl
  · refine iff_of_true rfl fun ps prim he => Or.inl ?_
    obtain ⟨rfl, -⟩ : [] = ps ∧ primaryName = prim := by simpa using he
    rfl
  · show servedBy (q :: qs) primaryName = _ ↔ _
    rw [servedBy_eq_single (List.cons_ne_nil q qs)]
    constructor
    · intro h ps prim he
      obtain ⟨rfl, rfl⟩ : q :: qs = ps ∧ primaryName = prim := by simpa using he
      exact Or.inr h
    · intro h
      exact (h _ _ rfl).resolve_left (List.cons_ne_nil q qs)

/-- After a `replace_all` of no policy there must be no `policy.json`. -/
theorem served_after_replaceAll_iff {legacy : Option EdgePolicy} {policies : List EdgePolicy}
    {primaryName : Option Str} :
    (Layouts.served { manifest := some (policies, primaryName), legacy := legacy } =
        servedBy policies primaryName) ↔ (policies = [] → legacy = none) := by
  cases policies with
  | cons q qs =>
    simp only [reduceCtorEq, false_implies, iff_true]
    cases legacy <;> rfl
  | nil =>
    have hnone : keptName [] primaryName = none := by
      cases primaryName <;> simp [keptName, Option.filter]
    cases legacy with
    | none =>
      simp only [true_implies, iff_true]
      apply served_ext
      · intro n
        rfl
      · show keptName [] none = keptName [] primaryName
        rw [hnone]
        rfl
    | some q =>
      -- the primary tells the two apart
      simp only [true_implies, reduceCtorEq, iff_false]
      intro h
      have hp : keptName [q] (some (bundleName q)) = keptName [] primaryName := congrArg Prod.snd h
      rw [hnone, keptName_single] at hp
      cases hp

/-- What the layouts serve after a call is what the call leaves in memory
exactly under the condition. -/
theorem served_after_iff [PyRuntime] (wire : PolicyWire) (dir : Path) (earlier : List Call)
    (last : Call) :
    ((Layouts.ofCalls earlier).after last).served = (last.run wire dir).1.served ↔
      RestartOk earlier last := by
  rw [served_run]
  cases last with
  | replace now faults p => exact served_after_replace_iff
  | replaceAll now faults policies primaryName => exact served_after_replaceAll_iff

/-- **A restart restores the last call exactly under the condition.** For every
history of finished calls from an empty directory, `load_from_disk` on a
fresh cache returns and serves the policies and the primary that the last
call left in memory if and only if `RestartOk` holds. -/
theorem restored_iff [PyRuntime] (wire : PolicyWire) (dir : Path) (d₀ d : Disk)
    (earlier : List Call) (last : Call)
    (hempty : ∀ rest, rest ≠ [] → d₀.lookup (dir ++ rest) = none)
    (hnamed : ∀ c ∈ earlier ++ [last], c.Named)
    (hsurv : ∀ c ∈ earlier ++ [last], c.Survives wire)
    (hrun : runCalls wire dir d₀ (earlier ++ [last]) = some d) :
    restored wire dir d = .ok (last.run wire dir).1.served ↔ RestartOk earlier last := by
  have hstart : Written wire dir d₀ {} :=
    ⟨hempty [_] (List.cons_ne_nil _ _), hempty [_] (List.cons_ne_nil _ _)⟩
  obtain ⟨hwritten, hready⟩ := written_run hnamed hstart hrun
  have hload := restored_of_written hready hwritten (layoutsSurvive_ofCalls hsurv hnamed)
  have hL : (earlier ++ [last]).foldl Layouts.after {} = (Layouts.ofCalls earlier).after last :=
    ofCalls_concat earlier last
  rw [hL] at hload
  rw [hload, ← served_after_iff wire dir earlier last, Except.ok.injEq]

/-! Two policies, `a` and `b`, with their texts as the program writes them. -/

def demoPolicy (id name : Str) : EdgePolicy where
  id := id
  tenantId := "acme"
  name := name
  version := "1"
  bundle := { name := name, version := "1" }
  isActive := true
  createdAt := 0

def policyA : EdgePolicy := demoPolicy "pol-a" "a"

def policyB : EdgePolicy := demoPolicy "pol-b" "b"

/-- The text of a demo policy between its id and its end. -/
def demoText (id name : Str) : Str :=
  ("\x7b\"id\":\"" : Str) ++ id ++ ("\",\"tenant_id\":\"acme\",\"name\":\"" : Str) ++ name ++
    ("\",\"version\":\"1\",\"bundle\":\x7b\"name\":\"" : Str) ++ name ++
    ("\",\"version\":\"1\",\"description\":\"\",\"rules\":[],\"framework_tags\":[]\x7d," : Str) ++
    ("\"is_active\":true,\"is_primary\":false," : Str) ++
    ("\"created_at\":\"1970-01-01T00:00:00Z\",\"authorized_clients\":[]\x7d" : Str)

/-- The fields of a demo policy that tell it from others. -/
def demoJsonOf (id name : Str) : Json :=
  .obj
    [("id", .str id), ("tenant_id", .str "acme"), ("name", .str name), ("version", .str "1"),
     ("bundle", .obj
       [("name", .str name), ("version", .str "1"), ("description", .str []), ("rules", .arr []),
        ("framework_tags", .arr [])]),
     ("is_active", .bool true), ("is_primary", .bool false),
     ("created_at", .str "1970-01-01T00:00:00Z"), ("authorized_clients", .arr [])]

def manifestText : Str := "\x7b\"primary_name\": \"a\", \"names\": [\"a\"]\x7d"

/-- The three texts of the runs below, as the libraries print and parse them. -/
def demoWire : PolicyWire where
  json :=
    { loads := fun t =>
        if t = manifestText then .ok (manifestJson [policyA] (some "a"))
        else if t = demoText "pol-a" "a" then .ok (demoJsonOf "pol-a" "a")
        else if t = demoText "pol-b" "b" then .ok (demoJsonOf "pol-b" "b")
        else .error .jsonDecodeError
      dumps := fun _ => manifestText }
  validate := fun v =>
    match v.field? "id", v.field? "name" with
    | some (.str id), some (.str name) => .ok (demoPolicy id name)
    | _, _ => .error .validationError
  dump := fun p => .ok (demoText p.id p.bundle.name)

def stateDir : Path := ["data"]

/-- A write of the singular layout, and one of the plural. -/
def singular : Call := .replace 10 [] policyB

def plural : Call := .replaceAll 20 [] [policyA] (some "a")

theorem demo_loads_a : demoWire.json.loads (demoText "pol-a" "a") =
    .ok (demoJsonOf "pol-a" "a") := by
  have h1 : demoText "pol-a" "a" ≠ manifestText := by decide +kernel
  simp only [demoWire, if_neg h1, if_true]

theorem demo_loads_b : demoWire.json.loads (demoText "pol-b" "b") =
    .ok (demoJsonOf "pol-b" "b") := by
  have h1 : demoText "pol-b" "b" ≠ manifestText := by decide +kernel
  have h2 : demoText "pol-b" "b" ≠ demoText "pol-a" "a" := by decide +kernel
  simp only [demoWire, if_neg h1, if_neg h2, if_true]

theorem demo_survives : singular.Survives demoWire ∧ plural.Survives demoWire := by
  have hcrA : CodePoint.cr ∉ demoText "pol-a" "a" := by decide +kernel
  have hcrB : CodePoint.cr ∉ demoText "pol-b" "b" := by decide +kernel
  have hcrM : CodePoint.cr ∉ manifestText := by decide +kernel
  have hA : demoWire.Survives policyA := by
    intro text ht
    obtain rfl : demoText "pol-a" "a" = text := Except.ok.inj ht
    refine ⟨hcrA, ?_⟩
    rw [PolicyWire.parse, demo_loads_a]
    rfl
  have hB : demoWire.Survives policyB := by
    intro text ht
    obtain rfl : demoText "pol-b" "b" = text := Except.ok.inj ht
    refine ⟨hcrB, ?_⟩
    rw [PolicyWire.parse, demo_loads_b]
    rfl
  refine ⟨hB, ⟨hcrM, ?_⟩, ?_⟩
  · show demoWire.json.loads manifestText = _
    simp only [demoWire, if_true]
    rfl
  · intro p hp
    rw [List.mem_singleton.mp hp]
    exact hA

theorem demo_named : singular.Named ∧ plural.Named := by
  refine ⟨⟨by decide, by decide⟩, ?_⟩
  intro p hp
  rw [List.mem_singleton.mp hp]
  exact ⟨by decide, by decide⟩

/-- The condition holds when the plural write comes last. -/
theorem restored_iff_plural_last :
    ∃ d, @runCalls asciiRuntime demoWire stateDir .empty ([singular] ++ [plural]) = some d ∧
      (@restored asciiRuntime demoWire stateDir d =
          .ok (@PolicyCache.served (@Call.run asciiRuntime demoWire stateDir plural).1) ↔
        RestartOk [singular] plural) := by
  have hrun : (@runCalls asciiRuntime demoWire stateDir .empty
      ([singular] ++ [plural])).isSome = true := by decide +kernel
  obtain ⟨d, hd⟩ := Option.isSome_iff_exists.mp hrun
  refine ⟨d, hd, @restored_iff asciiRuntime demoWire stateDir .empty d [singular] plural ?_ ?_ ?_ hd⟩
  · intro rest hne
    simp [FileTree.lookup, FileTree.empty, stateDir]
  · intro c hc
    rcases List.mem_append.mp hc with hc | hc <;> rw [List.mem_singleton.mp hc]
    · exact demo_named.1
    · exact demo_named.2
  · intro c hc
    rcases List.mem_append.mp hc with hc | hc <;> rw [List.mem_singleton.mp hc]
    · exact demo_survives.1
    · exact demo_survives.2

/-- A singular write after a plural one is not restored: the old manifest is
loaded, and with it a policy that memory had replaced. -/
theorem stale_manifest_restored :
    (∀ c ∈ [plural] ++ [singular], c.Named ∧ c.Survives demoWire) ∧
      ∃ d, @runCalls asciiRuntime demoWire stateDir .empty ([plural] ++ [singular]) = some d ∧
        @restored asciiRuntime demoWire stateDir d ≠
          .ok (@PolicyCache.served (@Call.run asciiRuntime demoWire stateDir singular).1) := by
  have hload : (@runCalls asciiRuntime demoWire stateDir .empty ([plural] ++ [singular])).map
      (fun d => (@restored asciiRuntime demoWire stateDir d).toOption.map Prod.snd) =
        some (some (some (("a" : String) : Str))) := by decide +kernel
  refine ⟨?_, ?_⟩
  · intro c hc
    rcases List.mem_append.mp hc with hc | hc <;> rw [List.mem_singleton.mp hc]
    · exact ⟨demo_named.2, demo_survives.2⟩
    · exact ⟨demo_named.1, demo_survives.1⟩
  · obtain ⟨d, hd, hprim⟩ := Option.map_eq_some_iff.mp hload
    refine ⟨d, hd, ?_⟩
    intro h
    rw [h] at hprim
    have hb : (@PolicyCache.served (@Call.run asciiRuntime demoWire stateDir singular).1).2 =
        some (("b" : String) : Str) := rfl
    have ha : (@PolicyCache.served (@Call.run asciiRuntime demoWire stateDir singular).1).2 =
        some (("a" : String) : Str) := by
      simpa [Except.toOption] using hprim
    rw [hb] at ha
    exact absurd (Option.some.inj ha) (by decide)

end TrustModelEdge.Policy
