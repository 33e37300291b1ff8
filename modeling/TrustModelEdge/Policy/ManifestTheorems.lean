/-
TrustModelEdge.Policy.ManifestTheorems — what a fresh cache loads over the
files that a `replace_all` wrote.

Bundle names are free, so two of them may lead to one file, and a file may be
the manifest. What decides a load is the files that the names of a manifest
lead to (`recovers_iff`): a file holds the policy that was written there last,
under a name that leads there, so it is never a policy of another file.
-/
import TrustModelEdge.Policy.FrameTheorems

namespace TrustModelEdge.Policy

open Py Py.DiskM Lib Lib.FileTree

/-! ## Two calls -/

/-- A call of `replace_all` with a primary among its policies. -/
structure PrimaryCall where
  now : Rat
  policies : List EdgePolicy
  primary : Str
  listed : primary ∈ policies.map bundleName

def PrimaryCall.names (call : PrimaryCall) : List Str := call.policies.map bundleName

/-- The text of the manifest of the call. -/
def PrimaryCall.manifestText (call : PrimaryCall) (wire : PolicyWire) : Str :=
  wire.json.dumps (manifestJson call.policies (some call.primary))

/-- The disk half of the call. -/
def PrimaryCall.persist [PyRuntime] (call : PrimaryCall) (wire : PolicyWire) (dir : Path) :
    DiskM Unit :=
  (PolicyCache.replaceAll wire call.now call.policies (some call.primary) (some dir)).2

theorem persist_eq [PyRuntime] (call : PrimaryCall) (wire : PolicyWire) (dir : Path) :
    call.persist wire dir = persistManifest wire dir call.policies (some call.primary) := by
  have hkept : keptName call.policies (some call.primary) = some call.primary := by
    have hlisted := call.listed
    simp only [keptName, Option.filter, hlisted, decide_true, if_true]
  rw [PrimaryCall.persist, replaceAll_disk, hkept]

/-- The libraries keep the texts of the call apart: each reads back, the manifest is
no policy, and a policy has no `names`. -/
structure PrimaryCall.Survives (call : PrimaryCall) (wire : PolicyWire) : Prop where
  manifest : JsonSurvives wire.json (manifestJson call.policies (some call.primary))
  noPolicy : ∃ e, wire.parse (call.manifestText wire) = .error e ∧ e.isValueError = true
  policies : ∀ p ∈ call.policies, wire.Survives p
  nameless : ∀ p ∈ call.policies, ∀ text, wire.dump p = .ok text →
    ∃ fields, wire.json.loads text = .ok (.obj fields) ∧ (Json.obj fields).field? "names" = none

section Safety

variable [PyRuntime] (wire : PolicyWire) (dir : Path) (old new : PrimaryCall)

/-- The old policy of its name, or the new one. -/
def Current (p : EdgePolicy) : Prop :=
  lastWith bundleName (bundleName p) old.policies = some p ∨
    lastWith bundleName (bundleName p) new.policies = some p

/-- A fresh cache loads the manifest layout: each snapshot is the old or the new
policy of its name, and the primary is the old or the new primary. -/
def Recovers (d : Disk) : Prop :=
  ∃ c, readManifest wire d dir = .ok (some c) ∧
    ({} : PolicyCache).loadFromDisk wire d dir = (c, .ok true) ∧
    (∀ n snap, c.snapshots.lookup n = some snap →
      lastWith bundleName n old.policies = some snap.edgePolicy ∨
        lastWith bundleName n new.policies = some snap.edgePolicy) ∧
    (c.primaryName = some old.primary ∨ c.primaryName = some new.primary)

/-- The disk after a call of which the process dies after these operations, or
which ends before. -/
def PrimaryCall.crashed (call : PrimaryCall) (d : Disk) (ops : List Fault) : Disk :=
  ((call.persist wire dir).run
    { disk := d, now := call.now, faults := ops ++ [.crash none] }).2.disk

/-- **Crash safety** of the second call on the disk of the first. -/
def CrashSafe (d : Disk) : Prop :=
  ∀ ops : List Fault, (∀ f ∈ ops, f.happens = true) →
    Recovers wire dir old new (new.crashed wire dir d ops)

end Safety

/-! ## Where names lead -/

/-- The file that a bundle name leads to. -/
def fileOf (d : Disk) (dir : Path) (name : Str) : Option Path :=
  (resolve d (policyPath dir name)).toOption

def manifestFile (dir : Path) : Path := dir ++ [fileName "manifest"]

/-- The policy that a list of them leaves in a file: the last whose name leads
there. -/
def leftIn (d : Disk) (dir : Path) (policies : List EdgePolicy) (q : Path) : Option EdgePolicy :=
  lastWith (fun p => fileOf d dir (bundleName p)) (some q) policies

/-- A path of a `*.json` file. -/
def JsonFile (q : Path) : Prop := ∃ par x, q = par ++ [fileName x]

section Names

variable {dir : Path} {d d' : Disk} {name : Str} {q : Path}

theorem fileOf_eq_some : fileOf d dir name = some q ↔ resolve d (policyPath dir name) = .ok q :=
  toOption_eq_some

theorem fileOf_congr (h : d.SameDirs d') : fileOf d' dir = fileOf d dir := by
  funext name
  ext q
  rw [fileOf_eq_some, fileOf_eq_some, resolve_congr h]

theorem leftIn_congr (h : d.SameDirs d') : leftIn d' dir = leftIn d dir := by
  unfold leftIn
  rw [fileOf_congr h]

theorem fileOf_of_leads (h : Leads d (policyPath dir name) q) : fileOf d dir name = some q :=
  fileOf_eq_some.mpr h.1

theorem jsonFile_of_fileOf (h : fileOf d dir name = some q) : JsonFile q := by
  obtain ⟨root, init, x, hpath, -⟩ := policyPath_parts dir name
  have hq := fileOf_eq_some.mp h
  rw [hpath] at hq
  obtain ⟨par, -, -, rfl⟩ := resolve_concat (fileName_ne_up x) hq
  exact ⟨par, x, rfl⟩

/-- The last policy of a file is the last of its name. -/
theorem lastWith_of_file {policies : List EdgePolicy} {p : EdgePolicy}
    (h : leftIn d dir policies q = some p) :
    lastWith bundleName (bundleName p) policies = some p := by
  have hfile : fileOf d dir (bundleName p) = some q := (lastWith_eq_some h).2
  unfold leftIn at h
  rw [← hfile] at h
  exact lastWith_of_coarser h

theorem jsonFile_manifestFile (dir : Path) : JsonFile (manifestFile dir) := ⟨dir, _, rfl⟩

theorem JsonFile.ne_tmp (h : JsonFile q) (par : Path) (x : Str) : q ≠ par ++ [tmpName x] := by
  obtain ⟨par', x', rfl⟩ := h
  intro he
  have hlast := congrArg List.getLast? he
  simp only [List.getLast?_concat, Option.some.injEq] at hlast
  exact fileName_ne_tmpName _ _ hlast

/-- A temporary file is no `*.json` file. -/
theorem JsonFile.ne_policyTmp (h : JsonFile q) {q' : Path}
    (ht : Leads d (policyTmp dir name) q') : q ≠ q' := by
  obtain ⟨root, init, x, -, htmp⟩ := policyPath_parts dir name
  have hq := ht.1
  rw [htmp] at hq
  obtain ⟨par, -, -, rfl⟩ := resolve_concat (tmpName_ne_up _) hq
  exact h.ne_tmp par _

theorem manifestFile_ne (dir : Path) (f : Str) : manifestFile dir ≠ policiesDir dir ++ [f] :=
  child_ne_policyFile dir _ f

end Names

/-! ## What a manifest loads -/

/-- The file holds the text of the policy. -/
def HoldsText (wire : PolicyWire) (d : Disk) (q : Path) (p : EdgePolicy) : Prop :=
  ∃ text m, wire.dump p = .ok text ∧ d.file? q = some { text := some text, mtime := m }

/-- A manifest names files: this policy is loaded for the name. -/
def Shown (wire : PolicyWire) (dir : Path) (d : Disk) (name : Str) (p : EdgePolicy) : Prop :=
  wire.Survives p ∧
    ∃ q, fileOf d dir name = some q ∧ q ≠ manifestFile dir ∧ HoldsText wire d q p

/-- The manifest is that of the call, and a file that one of its names leads to is
the manifest, or absent, or holds a policy whose own name leads there. -/
structure Filed (wire : PolicyWire) (dir : Path) (call : PrimaryCall) (d : Disk) : Prop where
  resolves : resolve d (manifestPath dir) = .ok (manifestFile dir)
  manifest : ∃ m, d.file? (manifestFile dir) =
    some { text := some (call.manifestText wire), mtime := m }
  leads : ∀ n ∈ call.names, ∃ q, Leads d (policyPath dir n) q
  files : ∀ n ∈ call.names, ∀ q, fileOf d dir n = some q → q ≠ manifestFile dir →
    d.file? q = none ∨
      ∃ p, wire.Survives p ∧ HoldsText wire d q p ∧ fileOf d dir (bundleName p) = some q

section Loads

variable {wire : PolicyWire} {dir : Path} {call : PrimaryCall} {d : Disk} {n : Str} {q : Path}
  {p p' : EdgePolicy}

theorem lookup_of_file? {body : FileBody} (h : d.file? q = some body) :
    d.lookup q = some (.file body) := by
  unfold FileTree.file? at h
  split at h
  · rename_i hq
    rw [hq, Option.some.inj h]
  · cases h

/-- Where no directory is, nothing is where no file is. -/
theorem lookup_of_no_file (hplace : d.Place q) (h : d.file? q = none) : d.lookup q = none := by
  unfold FileTree.file? at h
  cases hq : d.lookup q with
  | none => rfl
  | some node =>
    rw [hq] at h
    cases node with
    | file body => cases h
    | dir =>
      have hdir := (FileTree.isDir_iff _).mpr hq
      rw [hplace.2] at hdir
      cases hdir

theorem pathExists_of_resolve {path : PurePath} (h : resolve d path = .ok q) :
    pathExists d path = .ok (d.lookup q).isSome := by
  simp only [pathExists, h]

theorem fileAt_of_resolve {path : PurePath} {body : FileBody} (h : resolve d path = .ok q)
    (hbody : d.file? q = some body) : fileAt d path = .ok body := by
  simp only [fileAt, h, lookup_of_file? hbody]

theorem readText_of_resolve {path : PurePath} {text : Str} {m : Rat}
    (h : resolve d path = .ok q) (hbody : d.file? q = some { text := some text, mtime := m })
    (hcr : CodePoint.cr ∉ text) : readText d path = .ok text := by
  unfold readText
  rw [fileAt_of_resolve h hbody]
  show Except.ok (universalNewlines text) = _
  rw [universalNewlines_of_no_cr hcr]

theorem HoldsText.unique (hs : wire.Survives p) (hs' : wire.Survives p')
    (h : HoldsText wire d q p) (h' : HoldsText wire d q p') : p = p' := by
  obtain ⟨text, m, hdump, hbody⟩ := h
  obtain ⟨text', m', hdump', hbody'⟩ := h'
  obtain rfl : text = text' := by
    have he := hbody.symm.trans hbody'
    simp only [Option.some.injEq, FileBody.mk.injEq] at he
    exact he.1
  have hp := (hs text hdump).2
  rw [(hs' text hdump').2] at hp
  exact (Except.ok.inj hp).symm

theorem Shown.unique (h : Shown wire dir d n p) (h' : Shown wire dir d n p') : p = p' := by
  obtain ⟨hs, q, hq, -, ht⟩ := h
  obtain ⟨hs', q', hq', -, ht'⟩ := h'
  obtain rfl := Option.some.inj (hq.symm.trans hq')
  exact HoldsText.unique hs hs' ht ht'

/-- What is loaded lies in the file of its own name. -/
theorem Filed.own_file (h : Filed wire dir call d) (hn : n ∈ call.names)
    (hp : Shown wire dir d n p) :
    ∃ q, fileOf d dir (bundleName p) = some q ∧ HoldsText wire d q p := by
  obtain ⟨hs, q, hq, hne, htext⟩ := hp
  rcases h.files n hn q hq hne with hnone | ⟨r, hs', hr, hfile⟩
  · obtain ⟨text, m, -, hbody⟩ := htext
    rw [hnone] at hbody
    cases hbody
  · obtain rfl := HoldsText.unique hs hs' htext hr
    exact ⟨q, hfile, htext⟩

/-- What is loaded under one name is one policy. -/
theorem Filed.own (h : Filed wire dir call d) {n' : Str} (hn : n ∈ call.names)
    (hn' : n' ∈ call.names) (hp : Shown wire dir d n p) (hp' : Shown wire dir d n' p')
    (hname : bundleName p = bundleName p') : p = p' := by
  obtain ⟨q, hq, hr⟩ := h.own_file hn hp
  obtain ⟨q', hq', hr'⟩ := h.own_file hn' hp'
  rw [hname, hq'] at hq
  obtain rfl := Option.some.inj hq
  exact HoldsText.unique hp.1 hp'.1 hr hr'

variable [PyRuntime]

/-- The policy that a load keeps of a name is the row of that name. -/
theorem Filed.lookup_row (h : Filed wire dir call d) {rows : List (EdgePolicy × Rat)}
    (hmem : ∀ p, p ∈ rows.map Prod.fst ↔ ∃ n ∈ sorted call.names, Shown wire dir d n p) :
    (((rows.map (fun r => snapshotOf r.2 r.1)).foldl PolicyCache.addSnapshot ∅).lookup
        (bundleName p)).map (·.edgePolicy) = some p ↔ p ∈ rows.map Prod.fst := by
  have hlast : (((rows.map (fun r => snapshotOf r.2 r.1)).foldl PolicyCache.addSnapshot ∅).lookup
      (bundleName p)).map (·.edgePolicy) =
        lastWith bundleName (bundleName p) (rows.map Prod.fst) := by
    rw [lookup_addSnapshots, lastWith_map, lastWith_map, Option.map_map]
    rfl
  rw [hlast]
  refine ⟨fun hp => (lastWith_eq_some hp).1, fun hp => ?_⟩
  obtain ⟨p', hp'⟩ := exists_lastWith bundleName hp
  obtain ⟨hrow', hname⟩ := lastWith_eq_some hp'
  obtain ⟨n, hn, hshown⟩ := (hmem p).mp hp
  obtain ⟨n', hn', hshown'⟩ := (hmem p').mp hrow'
  rw [hp', h.own (mem_sorted.mp hn') (mem_sorted.mp hn) hshown' hshown hname]

/-- A listed name: its policy, or a warning. -/
theorem readListed_filed (h : Filed wire dir call d) (hs : call.Survives wire)
    (hn : n ∈ call.names) :
    (∃ p m, Shown wire dir d n p ∧
        readListed d dir (readPolicy wire d) (.str n) = .ok (some (p, m))) ∨
      (∀ p, ¬ Shown wire dir d n p) ∧
        readListed d dir (readPolicy wire d) (.str n) = skipWithWarning none := by
  obtain ⟨q, hq, hplace⟩ := h.leads n hn
  have hfile := fileOf_eq_some.mpr hq
  have hshown : ∀ p, Shown wire dir d n p → q ≠ manifestFile dir ∧ HoldsText wire d q p := by
    rintro p ⟨-, q', hq', hne, hp⟩
    obtain rfl := Option.some.inj (hfile.symm.trans hq')
    exact ⟨hne, hp⟩
  have hexists : pathExists d (policyPath dir (Json.str n).toStr) = .ok (d.lookup q).isSome :=
    pathExists_of_resolve hq
  by_cases hm : q = manifestFile dir
  · -- the manifest is no policy
    refine Or.inr ⟨fun p hp => (hshown p hp).1 hm, ?_⟩
    obtain ⟨m, hbody⟩ := h.manifest
    obtain ⟨e, he, hvalue⟩ := hs.noPolicy
    rw [← hm] at hbody
    have hread : readPolicy wire d (policyPath dir (Json.str n).toStr) = .ok none := by
      have htext : readText d (policyPath dir (Json.str n).toStr) =
          .ok (call.manifestText wire) := readText_of_resolve hq hbody hs.manifest.1
      simp only [readPolicy, htext, bind, Except.bind, he, hvalue, if_true]
    rw [lookup_of_file? hbody] at hexists
    simp only [readListed, hexists, hread, bind, Except.bind, Option.isSome_some, if_true]
  · rcases h.files n hn q hfile hm with hnone | ⟨p, hsp, hp, -⟩
    · refine Or.inr ⟨fun p hp => ?_, ?_⟩
      · obtain ⟨text, m, -, hbody⟩ := (hshown p hp).2
        rw [hnone] at hbody
        cases hbody
      · rw [lookup_of_no_file hplace hnone] at hexists
        simp only [readListed, hexists, bind, Except.bind, Option.isSome_none,
          Bool.false_eq_true, if_false]
    · obtain ⟨text, m, hdump, hbody⟩ := hp
      refine Or.inl ⟨p, m, ⟨hsp, q, hfile, hm, text, m, hdump, hbody⟩, readListed_some.mpr ⟨?_, ?_⟩⟩
      · rw [hexists, lookup_of_file? hbody]
        rfl
      · obtain ⟨hcr, hparse⟩ := hsp text hdump
        have htext : readText d (policyPath dir (Json.str n).toStr) = .ok text :=
          readText_of_resolve hq hbody hcr
        have htime : mtime d (policyPath dir (Json.str n).toStr) = .ok m := by
          unfold mtime
          rw [show fileAt d (policyPath dir (Json.str n).toStr) = _ from fileAt_of_resolve hq hbody]
          rfl
        simp only [readPolicy, htext, bind, Except.bind, hparse, htime, pure, Except.pure]

/-- Where a warning is logged, every name has its policy. -/
def AllShown (wire : PolicyWire) (dir : Path) (d : Disk) (names : List Str) : Prop :=
  PyRuntime.logsWarnings = true → ∀ n ∈ names, ∃ p, Shown wire dir d n p

/-- The loop over the names. -/
theorem readPolicies_filed (h : Filed wire dir call d) (hs : call.Survives wire)
    {names : List Str} (hnames : ∀ n ∈ names, n ∈ call.names) :
    (∀ rows, readPolicies wire d dir (names.map .str) = .ok rows →
      AllShown wire dir d names ∧
        ∀ p, p ∈ rows.map Prod.fst ↔ ∃ n ∈ names, Shown wire dir d n p) ∧
      (AllShown wire dir d names →
        ∃ rows, readPolicies wire d dir (names.map .str) = .ok rows) := by
  induction names with
  | nil =>
    refine ⟨fun rows hrows => ?_, fun _ => ⟨[], rfl⟩⟩
    obtain rfl : [] = rows := Except.ok.inj hrows
    exact ⟨fun _ n hn => by simp at hn, by simp⟩
  | cons n ns ih =>
    obtain ⟨ihok, ihsome⟩ := ih fun k hk => hnames k (List.mem_cons_of_mem _ hk)
    rcases readListed_filed h hs (hnames n List.mem_cons_self) with
      ⟨p, m, hp, hrow⟩ | ⟨hno, hrow⟩
    · refine ⟨fun rows hrows => ?_, fun hall => ?_⟩
      · obtain ⟨row, rest, hrow', hrest, rfl⟩ := readPolicies_cons.mp hrows
        obtain rfl := Except.ok.inj (hrow.symm.trans hrow')
        obtain ⟨hall, hmem⟩ := ihok rest hrest
        refine ⟨fun hlogs => List.forall_mem_cons.mpr ⟨⟨p, hp⟩, hall hlogs⟩, fun r => ?_⟩
        simp only [Option.toList_some, List.singleton_append, List.map_cons, List.mem_cons,
          hmem, exists_eq_or_imp]
        refine or_congr_left ⟨?_, fun hr => hr.unique hp⟩
        rintro rfl
        exact hp
      · obtain ⟨rest, hrest⟩ := ihsome fun hlogs k hk => hall hlogs k (List.mem_cons_of_mem _ hk)
        exact ⟨_, readPolicies_cons.mpr ⟨_, rest, hrow, hrest, rfl⟩⟩
    · refine ⟨fun rows hrows => ?_, fun hall => ?_⟩
      · obtain ⟨row, rest, hrow', hrest, rfl⟩ := readPolicies_cons.mp hrows
        rw [hrow] at hrow'
        simp only [skipWithWarning] at hrow'
        split at hrow'
        · cases hrow'
        · rename_i hquiet
          obtain rfl := Except.ok.inj hrow'
          obtain ⟨-, hmem⟩ := ihok rest hrest
          refine ⟨fun hlogs => absurd hlogs hquiet, fun r => ?_⟩
          simp only [Option.toList_none, List.nil_append, hmem, List.mem_cons, exists_eq_or_imp,
            hno r, false_or]
      · obtain ⟨rest, hrest⟩ := ihsome fun hlogs k hk => hall hlogs k (List.mem_cons_of_mem _ hk)
        have hquiet : ¬ PyRuntime.logsWarnings = true := fun hlogs =>
          (hall hlogs n List.mem_cons_self).elim fun p hp => hno p hp
        have hskip : readListed d dir (readPolicy wire d) (.str n) = .ok none := by
          rw [hrow, skipWithWarning, if_neg hquiet]
        exact ⟨_, readPolicies_cons.mpr ⟨_, rest, hskip, hrest, rfl⟩⟩

theorem readManifest_filed (h : Filed wire dir call d) (hs : call.Survives wire) :
    readManifest wire d dir =
      readPolicies wire d dir ((sorted call.names).map .str) >>= fun rows =>
        loadedCache rows (.str call.primary) := by
  obtain ⟨m, hman⟩ := h.manifest
  obtain ⟨hcr, hloads⟩ := hs.manifest
  have hexists : pathExists d (manifestPath dir) = .ok true := by
    rw [pathExists_of_resolve h.resolves, lookup_of_file? hman]
    rfl
  have htext : readText d (manifestPath dir) = .ok (call.manifestText wire) :=
    readText_of_resolve h.resolves hman hcr
  have hloads' : wire.json.loads (call.manifestText wire) =
      .ok (manifestJson call.policies (some call.primary)) := hloads
  simp only [readManifest, readManifestRows, hexists, htext, hloads',
    manifestEntries_manifestJson, bind, Except.bind, pure, Except.pure, if_true, Option.elim]
  have hnames : sorted (call.policies.map bundleName) = sorted call.names := rfl
  rw [hnames]
  cases readPolicies wire d dir ((sorted call.names).map .str) <;> rfl

/-- **What a load needs**: where warnings are logged a policy for every name, no
policy but the old or the new one of its name, and one named as the primary. -/
theorem recovers_iff {old new : PrimaryCall} (h : Filed wire dir call d)
    (hs : call.Survives wire) (hcall : call = old ∨ call = new) :
    Recovers wire dir old new d ↔
      AllShown wire dir d call.names ∧
        (∀ n ∈ call.names, ∀ p, Shown wire dir d n p → Current old new p) ∧
        ∃ n ∈ call.names, ∃ p, Shown wire dir d n p ∧ bundleName p = call.primary := by
  obtain ⟨hok, hsome⟩ := readPolicies_filed h hs fun n (hn : n ∈ sorted call.names) =>
    mem_sorted.mp hn
  have hall : AllShown wire dir d (sorted call.names) ↔ AllShown wire dir d call.names := by
    simp only [AllShown, mem_sorted]
  have hread := readManifest_filed h hs
  constructor
  · rintro ⟨c, hc, -, hcurrent, hprimary⟩
    rw [hread] at hc
    obtain ⟨rows, hrows, hcache⟩ := bind_eq_ok.mp hc
    obtain ⟨hallShown, hmem⟩ := hok rows hrows
    obtain ⟨hsnapshots, hkept, -⟩ := loadedCache_some hcache
    refine ⟨hall.mp hallShown, fun n hn p hp => ?_, ?_⟩
    · have hrow := (h.lookup_row hmem).mpr ((hmem p).mpr ⟨n, mem_sorted.mpr hn, hp⟩)
      rw [← hsnapshots] at hrow
      obtain ⟨snap, hsnap, rfl⟩ := Option.map_eq_some_iff.mp hrow
      exact hcurrent _ snap hsnap
    · obtain ⟨x, hx⟩ : ∃ x, c.primaryName = some x := hprimary.elim (fun h => ⟨_, h⟩) fun h => ⟨_, h⟩
      rw [hx] at hkept
      have hin := loadedPrimary_mem hkept
      have hname : x = call.primary :=
        (Option.some.inj (Option.filter_eq_some_iff.mp (Except.ok.inj hkept)).1).symm
      rw [hsnapshots, mem_addSnapshots, hname] at hin
      obtain ⟨snap, hsnap, hpname⟩ := hin
      obtain ⟨r, hr, rfl⟩ := List.mem_map.mp hsnap
      obtain ⟨n, hn, hshown⟩ := (hmem r.1).mp (List.mem_map.mpr ⟨r, hr, rfl⟩)
      exact ⟨n, mem_sorted.mp hn, r.1, hshown, hpname⟩
  · rintro ⟨hallShown, hcurrent, n, hn, p, hp, hpname⟩
    obtain ⟨rows, hrows⟩ := hsome (hall.mpr hallShown)
    obtain ⟨-, hmem⟩ := hok rows hrows
    obtain ⟨r, hr, rfl⟩ := List.mem_map.mp ((hmem p).mpr ⟨n, mem_sorted.mpr hn, hp⟩)
    have hin : call.primary ∈
        (rows.map (fun r => snapshotOf r.2 r.1)).foldl PolicyCache.addSnapshot ∅ :=
      (mem_addSnapshots _ _).mpr ⟨_, List.mem_map.mpr ⟨r, hr, rfl⟩, hpname⟩
    have hkeep : loadedPrimary ((rows.map (fun r => snapshotOf r.2 r.1)).foldl
        PolicyCache.addSnapshot ∅) ((some call.primary).elim .null .str) =
          .ok (some call.primary) := by
      refine loadedPrimary_of_mem fun n hn => ?_
      obtain rfl := Option.some.inj hn
      exact hin
    obtain ⟨c, hc, hsnapshots, hprimary⟩ := loadedCache_ok hin hkeep
    have hmanifest : readManifest wire d dir = .ok (some c) := by
      rw [hread, hrows]
      exact hc
    refine ⟨c, hmanifest, ?_, fun n snap hsnap => ?_, ?_⟩
    · simp only [PolicyCache.loadFromDisk, readDisk, hmanifest, bind, Except.bind, pure, Except.pure]
    · -- a snapshot lies under the name of its policy
      have hname : bundleName snap.edgePolicy = n := by
        rw [hsnapshots, lookup_addSnapshots] at hsnap
        exact (lastWith_eq_some hsnap).2
      subst hname
      have hrow := (h.lookup_row hmem).mp (by rw [← hsnapshots, hsnap]; rfl)
      obtain ⟨n, hn, hshown⟩ := (hmem _).mp hrow
      exact hcurrent n (mem_sorted.mp hn) _ hshown
    · rw [hprimary]
      exact hcall.imp (fun he => by rw [he]) fun he => by rw [he]

end Loads

/-! ## Finished writes -/

/-- The policy can be written: it has a text of bytes, and its two paths lead to places
for files. -/
structure Writable (wire : PolicyWire) (dir : Path) (d : Disk) (p : EdgePolicy) : Prop where
  text : ∃ text, wire.dump p = .ok text ∧ text.any isSurrogate = false
  tmp : ∃ q, Leads d (policyTmp dir (bundleName p)) q
  file : ∃ q, Leads d (policyPath dir (bundleName p)) q

/-- A file of the policies directory whose stem is none of the names. -/
def Swept (dir : Path) (names : List Str) (q : Path) : Prop :=
  ∃ f, q = policiesDir dir ++ [f] ∧ stem f ∉ names

section Finished

variable {wire : PolicyWire} {dir : Path} {d d' : Disk} {policies : List EdgePolicy}
  {env env' : DiskEnv}

theorem writable_congr (h : d.SameDirs d') {p : EdgePolicy} :
    Writable wire dir d' p ↔ Writable wire dir d p := by
  constructor
  · rintro ⟨htext, ⟨q, hq⟩, q', hq'⟩
    exact ⟨htext, ⟨q, (leads_congr h).mp hq⟩, q', (leads_congr h).mp hq'⟩
  · rintro ⟨htext, ⟨q, hq⟩, q', hq'⟩
    exact ⟨htext, ⟨q, (leads_congr h).mpr hq⟩, q', (leads_congr h).mpr hq'⟩

/-- **A finished write aside**: both paths led to places for files, and of the other
files none changed. -/
theorem writeAside_files {target : PurePath} {text : Str}
    (h : (writeAside target text).run env = (.ok (), env')) :
    text.any isSurrogate = false ∧ env.disk.SameDirs env'.disk ∧
      ∃ q q' m, Leads env.disk (target.withSuffix tmpSuffix) q ∧ Leads env.disk target q' ∧
        ∀ r, r ≠ q → env'.disk.file? r =
          if r = q' then some { text := some text, mtime := m } else env.disk.file? r := by
  obtain ⟨_, env₁, hw, hr⟩ := DiskM.bind_ok h
  obtain ⟨-, q, hq, hwrite⟩ := writeText_ok hw
  obtain ⟨-, p, q', hp, hq', hrename⟩ := replaceFile_ok hr
  have hdirs := sameDirs_write hwrite
  obtain rfl : q = p := Except.ok.inj (hq.symm.trans ((resolve_congr hdirs).mp hp))
  obtain ⟨body, hbody, hlook⟩ := lookup_rename hrename
  have hplace : env₁.disk.Place q' := (rename_iff_place hbody).mp ⟨_, hrename⟩
  rw [lookup_write hwrite, if_pos rfl] at hbody
  obtain rfl := Node.file.inj (Option.some.inj hbody)
  refine ⟨bytes_of_written hw, hdirs.trans (sameDirs_rename hrename), q, q', env.time,
    ⟨hq, write_iff_place.mp ⟨_, hwrite⟩⟩, (leads_congr hdirs).mp ⟨hq', hplace⟩, fun r hr => ?_⟩
  by_cases hrq : r = q'
  · rw [if_pos hrq]
    exact file?_of_lookup (by rw [hlook, if_pos hrq])
  · rw [if_neg hrq]
    refine file?_congr ?_
    rw [hlook, if_neg hrq, if_neg hr, lookup_write hwrite, if_neg hr]

/-- **The loop over the policies**: each of them could be written, and a `*.json` file
has the text of the last policy that leads there. -/
theorem persistPolicies_files
    (h : (persistPolicies wire dir policies).run env = (.ok (), env')) :
    env.disk.SameDirs env'.disk ∧ (∀ p ∈ policies, Writable wire dir env.disk p) ∧
      (∀ q p, leftIn env.disk dir policies q = some p → HoldsText wire env'.disk q p) ∧
      ∀ q, JsonFile q → leftIn env.disk dir policies q = none →
        env'.disk.file? q = env.disk.file? q := by
  induction policies generalizing env with
  | nil =>
    obtain ⟨-, rfl⟩ := DiskM.pure_ok h
    exact ⟨SameDirs.refl _, by simp, fun q p hp => by simp [leftIn, lastWith] at hp,
      fun _ _ _ => rfl⟩
  | cons p ps ih =>
    obtain ⟨text, env₁, hl, hrest⟩ := DiskM.bind_ok h
    obtain ⟨hdump, rfl⟩ := DiskM.lift_ok hl
    obtain ⟨_, env₂, hw, hps⟩ := DiskM.bind_ok hrest
    obtain ⟨hbytes, hdirs, q₁, q₂, m, htmp, hfile, hlook⟩ := writeAside_files hw
    obtain ⟨hdirs', hwritable, hheld, hkept⟩ := ih hps
    rw [leftIn_congr hdirs] at hheld hkept
    have hfileOf : fileOf env₁.disk dir (bundleName p) = some q₂ := fileOf_of_leads hfile
    have hstep : ∀ q, leftIn env₁.disk dir (p :: ps) q =
        (leftIn env₁.disk dir ps q).or (if q = q₂ then some p else none) := by
      intro q
      unfold leftIn
      rw [lastWith_cons, hfileOf]
      simp only [Option.some.injEq, eq_comm]
    have hjson₂ : JsonFile q₂ := jsonFile_of_fileOf hfileOf
    refine ⟨hdirs.trans hdirs', ?_, fun q r hr => ?_, fun q hq hnone => ?_⟩
    · refine List.forall_mem_cons.mpr ⟨⟨⟨text, hdump, hbytes⟩, ⟨q₁, htmp⟩, q₂, hfile⟩, ?_⟩
      exact fun r hr => (writable_congr hdirs).mp (hwritable r hr)
    · rw [hstep] at hr
      cases hps : leftIn env₁.disk dir ps q with
      | some r' =>
        rw [hps, Option.some_or] at hr
        exact Option.some.inj hr ▸ hheld q r' hps
      | none =>
        -- no later policy leads here: the file just written stays
        rw [hps, Option.none_or] at hr
        split at hr
        · rename_i hqq
          obtain rfl := Option.some.inj hr
          subst hqq
          refine ⟨text, m, hdump, ?_⟩
          rw [hkept q hjson₂ hps, hlook q (hjson₂.ne_policyTmp htmp), if_pos rfl]
        · cases hr
    · rw [hstep] at hnone
      obtain ⟨hps, hhere⟩ := Option.or_eq_none_iff.mp hnone
      have hne : q ≠ q₂ := fun he => by simp [he] at hhere
      rw [hkept q hq hps, hlook q (hq.ne_policyTmp htmp), if_neg hne]

/-- **The sweep**: a file goes only if it is swept. -/
theorem dropOrphans_files {names files : List Str} (hup : ∀ f ∈ files, f ≠ (".." : Str))
    (h : (dropOrphans dir names files).run env = (.ok (), env')) :
    env.disk.SameDirs env'.disk ∧ ∀ r, env'.disk.file? r = env.disk.file? r ∨
      Swept dir names r ∧ env'.disk.file? r = none := by
  induction files generalizing env with
  | nil =>
    obtain ⟨-, rfl⟩ := DiskM.pure_ok h
    exact ⟨SameDirs.refl _, fun _ => Or.inl rfl⟩
  | cons f fs ih =>
    obtain ⟨_, env₁, h₁, h₂⟩ := DiskM.bind_ok h
    obtain ⟨hdirs, hrest⟩ := ih (fun g hg => hup g (List.mem_cons_of_mem _ hg)) h₂
    unfold dropOrphan at h₁
    split at h₁
    · obtain ⟨-, rfl⟩ := DiskM.pure_ok h₁
      exact ⟨hdirs, hrest⟩
    · rename_i hstem
      obtain ⟨-, hdisk | ⟨q, hq, hremove⟩⟩ := ignoreOsError_unlink_ok h₁
      · rw [hdisk] at hdirs hrest
        exact ⟨hdirs, hrest⟩
      · obtain ⟨-, -, rfl⟩ := (resolve_child (hup f List.mem_cons_self)).mp hq
        refine ⟨(sameDirs_remove hremove).trans hdirs, fun r => ?_⟩
        have hfile := file?_remove hremove r
        by_cases hr : r = policiesDir dir ++ [f]
        · rw [if_pos hr] at hfile
          refine Or.inr ⟨⟨f, hr, hstem⟩, ?_⟩
          rcases hrest r with he | ⟨-, he⟩
          · rw [he, hfile]
          · exact he
        · rw [if_neg hr] at hfile
          rw [← hfile]
          exact hrest r

/-- What a finished call leaves. A file of the list has its text, unless the sweep of
the call took it. -/
structure Finished (wire : PolicyWire) (dir : Path) (call : PrimaryCall) (d : Disk) : Prop where
  isDir : d.isDir dir = true
  subdir : d.isDir (policiesDir dir) = true
  writable : ∀ p ∈ call.policies, Writable wire dir d p
  bytes : (call.manifestText wire).any isSurrogate = false
  manifestTmp : ∃ q, Leads d ((manifestPath dir).withSuffix tmpSuffix) q
  manifestLeads : Leads d (manifestPath dir) (manifestFile dir)
  manifest : ∃ m, d.file? (manifestFile dir) =
    some { text := some (call.manifestText wire), mtime := m }
  files : ∀ q p, leftIn d dir call.policies q = some p → q ≠ manifestFile dir →
    HoldsText wire d q p ∨ Swept dir call.names q ∧ d.file? q = none

/-- The manifest is written in the state directory. -/
theorem leads_manifestTmp {q : Path}
    (h : Leads d ((manifestPath dir).withSuffix tmpSuffix) q) : q = dir ++ [tmpName "manifest"] := by
  rw [manifestPath_eq, withSuffix_fileName (by decide)] at h
  exact leads_child (tmpName_ne_up _) h

theorem leads_manifest {q : Path} (h : Leads d (manifestPath dir) q) : q = manifestFile dir := by
  rw [manifestPath_eq] at h
  exact leads_child (fileName_ne_up _) h

theorem finished_of_run {call : PrimaryCall}
    (h : (persistManifest wire dir call.policies (some call.primary)).run env = (.ok (), env')) :
    Finished wire dir call env'.disk ∧
      (env.disk.isDir (policiesDir dir) = true → env.disk.SameDirs env'.disk) := by
  obtain ⟨_, env₁, h₁, hrest₁⟩ := DiskM.bind_ok h
  obtain ⟨_, env₂, h₂, hrest₂⟩ := DiskM.bind_ok hrest₁
  obtain ⟨_, env₃, h₃, hrest₃⟩ := DiskM.bind_ok hrest₂
  obtain ⟨disk, env₄, h₄, hrest₄⟩ := DiskM.bind_ok hrest₃
  obtain ⟨rfl, rfl⟩ := DiskM.getDisk_ok h₄
  obtain ⟨_, env₅, h₅, h₆⟩ := DiskM.bind_ok hrest₄
  obtain ⟨hdirs₃, hwritable, hheld, -⟩ := persistPolicies_files h₃
  obtain ⟨hdirs₅, hswept⟩ := dropOrphans_files globJson_ne_up h₅
  obtain ⟨hbytes, hdirs₆, q, q', m, htmp, hman, hlook⟩ := writeAside_files h₆
  obtain rfl := leads_manifest hman
  obtain rfl := leads_manifestTmp htmp
  have hdirs : env₂.disk.SameDirs env'.disk := (hdirs₃.trans hdirs₅).trans hdirs₆
  have hsub : env₂.disk.isDir (policiesDir dir) = true :=
    isDir_mkdirs (p := []) (isDir_root _) (makeDirs_ok h₂).2
  have hkept : ∀ r, JsonFile r → r ≠ manifestFile dir →
      env'.disk.file? r = env₅.disk.file? r := fun r hr hne => by
    rw [hlook r (hr.ne_tmp dir _), if_neg hne]
  have hthere : env.disk.isDir (policiesDir dir) = true → env.disk.SameDirs env'.disk := by
    intro hd
    have hsame₁ : env.disk = env₁.disk := Option.some.inj
      ((mkdirs_self (p := []) (isDir_of_append hd)).symm.trans (makeDirs_ok h₁).2)
    rw [hsame₁] at hd
    have hsame₂ : env₁.disk = env₂.disk := Option.some.inj
      ((mkdirs_self (p := []) hd).symm.trans (makeDirs_ok h₂).2)
    rw [hsame₁, hsame₂]
    exact hdirs
  refine ⟨?_, hthere⟩
  refine
    { isDir := (hdirs _).trans (isDir_of_append hsub)
      subdir := (hdirs _).trans hsub
      writable := fun p hp => (writable_congr hdirs).mpr (hwritable p hp)
      bytes := hbytes
      manifestTmp := ⟨_, (leads_congr hdirs₆).mpr htmp⟩
      manifestLeads := (leads_congr hdirs₆).mpr hman
      manifest := ⟨m, by
        rw [hlook _ ((jsonFile_manifestFile dir).ne_tmp dir _), if_pos rfl]
        rfl⟩
      files := fun r p hp hne => ?_ }
  rw [leftIn_congr hdirs] at hp
  have hjson : JsonFile r := jsonFile_of_fileOf (lastWith_eq_some hp).2
  obtain ⟨text, t, hdump, hbody⟩ := hheld r p hp
  rcases hswept r with hsame | ⟨hgone, hnone⟩
  · exact Or.inl ⟨text, t, hdump, by rw [hkept r hjson hne, hsame, hbody]⟩
  · exact Or.inr ⟨hgone, by rw [hkept r hjson hne, hnone]⟩

namespace Finished

variable {call : PrimaryCall}

theorem leads (h : Finished wire dir call d) {n : Str} (hn : n ∈ call.names) :
    ∃ q, Leads d (policyPath dir n) q := by
  obtain ⟨p, hp, rfl⟩ := List.mem_map.mp hn
  exact (h.writable p hp).file

/-- A file that a name leads to was left to a policy of the list. -/
theorem exists_left (h : Finished wire dir call d) {n : Str} (hn : n ∈ call.names) :
    ∃ q p, fileOf d dir n = some q ∧ leftIn d dir call.policies q = some p := by
  obtain ⟨r, hr, rfl⟩ := List.mem_map.mp hn
  obtain ⟨q, hq⟩ := (h.writable r hr).file
  have hfile := fileOf_of_leads hq
  obtain ⟨p, hp⟩ := exists_lastWith (fun p => fileOf d dir (bundleName p)) hr
  exact ⟨q, p, hfile, by rwa [hfile] at hp⟩

theorem filed (h : Finished wire dir call d) (hs : call.Survives wire) :
    Filed wire dir call d where
  resolves := h.manifestLeads.1
  manifest := h.manifest
  leads := fun n hn => h.leads hn
  files := by
    intro n hn q hq hne
    obtain ⟨q', p, hq', hp⟩ := h.exists_left hn
    obtain rfl := Option.some.inj (hq.symm.trans hq')
    obtain ⟨hmem, hfile⟩ := lastWith_eq_some hp
    rcases h.files q p hp hne with htext | ⟨-, hnone⟩
    · exact Or.inr ⟨p, hs.policies p hmem, htext, hfile⟩
    · exact Or.inl hnone

/-- What is loaded for a name is what the list left in its file. -/
theorem left_of_shown (h : Finished wire dir call d) (hs : call.Survives wire) {n : Str}
    (hn : n ∈ call.names) {p : EdgePolicy} (hp : Shown wire dir d n p) :
    ∃ q, fileOf d dir n = some q ∧ q ≠ manifestFile dir ∧
      leftIn d dir call.policies q = some p ∧ d.file? q ≠ none := by
  obtain ⟨hsurv, q, hq, hne, htext⟩ := hp
  obtain ⟨q', r, hq', hr⟩ := h.exists_left hn
  obtain rfl := Option.some.inj (hq.symm.trans hq')
  obtain ⟨text, m, -, hbody⟩ := id htext
  rcases h.files q r hr hne with htext' | ⟨-, hnone⟩
  · obtain rfl := HoldsText.unique hsurv (hs.policies r (lastWith_eq_some hr).1) htext htext'
    exact ⟨q, hq, hne, hr, by rw [hbody]; simp⟩
  · rw [hnone] at hbody
    cases hbody

end Finished

end Finished

end TrustModelEdge.Policy
