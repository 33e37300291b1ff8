/-
TrustModelEdge.Policy.RepairTheorems — what one finished `replace_all` makes
of a state directory that anything may have left.

The loads only ask for what was written, so the load afterwards is the one
after a write into an empty directory. The `*.json` files are a matter of
the sweep: it goes by the stem of a file, and a stem is the name of the file
it belongs to except for the file `.json`, whose stem is `.json` as well
(`eq_fileName_stem`).
-/
import TrustModelEdge.Policy.CrashTheorems

namespace TrustModelEdge.Policy

open Py Py.DiskM Lib

/-- The entries of the policies directory are regular files, under names that
a file can have there. -/
structure RegularFiles (dir : Path) (d : Disk) : Prop where
  file : ∀ f node, d.lookup (policiesDir dir ++ [f]) = some node → ∃ body, node = .file body
  usable : ∀ f node, d.lookup (policiesDir dir ++ [f]) = some node → Usable (policiesDir dir) f

/-- **A repaired directory**: one `*.json` file for each name and no other, and
a fresh cache loads what memory has. -/
structure Repaired [PyRuntime] (wire : PolicyWire) (dir : Path) (now : Rat)
    (policies : List EdgePolicy) (primaryName : Option Str) (d : Disk) : Prop where
  files : ∀ f, f ∈ globJson d (policiesDir dir) ↔ ∃ p ∈ policies, f = fileName (bundleName p)
  loaded : ∃ c, ({} : PolicyCache).loadFromDisk wire d dir = (c, .ok true) ∧
    c.served = (PolicyCache.installAll now policies primaryName).served

/-- The file of the empty name, which the sweep takes for one of the name
`.json`. -/
def bareFile : Str := ".json"

section Sweep

variable {wire : PolicyWire} {dir : Path} {policies : List EdgePolicy} {d : Disk}

theorem mem_globJson {f : Str} : f ∈ globJson d dir ↔
    (".json" : Str).isSuffixOf f = true ∧ ∃ node, d.lookup (dir ++ [f]) = some node := by
  constructor
  · intro h
    obtain ⟨hchild, hsuffix⟩ := List.mem_filter.mp h
    exact ⟨hsuffix, FileTree.exists_of_mem_children hchild⟩
  · rintro ⟨hsuffix, node, hnode⟩
    exact List.mem_filter.mpr ⟨FileTree.mem_children hnode, hsuffix⟩

theorem fileName_suffix (name : Str) : (".json" : Str).isSuffixOf (fileName name) = true :=
  List.isSuffixOf_iff_suffix.mpr (List.suffix_append name _)

/-- A `*.json` file is the one of its stem, except for the bare one. -/
theorem eq_fileName_stem {f : Str} (h : (".json" : Str).isSuffixOf f = true) :
    f = fileName (stem f) ∨ f = bareFile := by
  obtain ⟨name, rfl⟩ := List.isSuffixOf_iff_suffix.mp h
  cases name with
  | nil => exact Or.inr rfl
  | cons c cs => exact Or.inl (congrArg fileName (stem_fileName (List.cons_ne_nil c cs)).symm)

theorem stem_bareFile : stem bareFile = bareFile := by decide

/-- No temporary file is a `*.json` file. -/
theorem tmpName_not_suffix {f : Str} (h : (".json" : Str).isSuffixOf f = true) (n : Str) :
    f ≠ tmpName n := by
  obtain ⟨name, rfl⟩ := List.isSuffixOf_iff_suffix.mp h
  exact fileName_ne_tmpName name n

/-- What a `*.json` file must be for the loop over the policies to touch it. -/
theorem not_touchedBy {f : Str} (hsuffix : (".json" : Str).isSuffixOf f = true)
    (h : ∀ p ∈ policies, f ≠ fileName (bundleName p)) :
    ¬ TouchedBy (policiesDir dir) policies (policiesDir dir ++ [f]) := by
  rintro ⟨p, hp, he | he⟩
  · exact h p hp (by simpa using he)
  · exact tmpName_not_suffix hsuffix _ (by simpa using he)

/-- A finished write, as far as the policies directory is concerned: the loop
over the policies and the sweep. -/
theorem sweep_of_finished {primaryName : Option Str} (hn : ∀ p ∈ policies, Plain (bundleName p))
    {env env' : DiskEnv} (hf : env.faults = [])
    (h : (persistManifest wire dir policies primaryName).run env = (.ok (), env')) :
    ∃ env₃ env₄, env₃.faults = [] ∧
      (∀ f, ¬ TouchedBy (policiesDir dir) policies (policiesDir dir ++ [f]) →
        env₃.disk.lookup (policiesDir dir ++ [f]) = env.disk.lookup (policiesDir dir ++ [f])) ∧
      (dropOrphans dir (policies.map bundleName) (globJson env₃.disk (policiesDir dir))).run env₃ =
        (.ok (), env₄) ∧
      ∀ f, env'.disk.lookup (policiesDir dir ++ [f]) =
        env₄.disk.lookup (policiesDir dir ++ [f]) := by
  obtain ⟨_, env₁, h₁, hrest₁⟩ := DiskM.bind_ok h
  obtain ⟨hf₁, -, -⟩ := Replays.operation _ _ _ _ _ hf h₁
  obtain ⟨_, env₂, h₂, hrest₂⟩ := DiskM.bind_ok hrest₁
  obtain ⟨hf₂, -, -⟩ := Replays.operation _ _ _ _ _ hf₁ h₂
  obtain ⟨_, env₃, h₃, hrest₃⟩ := DiskM.bind_ok hrest₂
  obtain ⟨hf₃, -, -⟩ := replays_persistPolicies policies _ _ _ hf₂ h₃
  obtain ⟨disk, env₄, h₄, hrest₄⟩ := DiskM.bind_ok hrest₃
  obtain ⟨rfl, rfl⟩ := DiskM.getDisk_ok h₄
  obtain ⟨_, env₅, h₅, h₆⟩ := DiskM.bind_ok hrest₄
  rw [manifestPath_eq] at h₆
  obtain ⟨-, -, -, -, m, hlook⟩ := writeAside_ok (by decide) h₆
  refine ⟨env₄, env₅, hf₃, fun f hfree => ?_, h₅, fun f => ?_⟩
  · rw [(persistPolicies_ok hn h₃).2.1 _ hfree,
      FileTree.lookup_mkdirs (makeDirs_ok h₂).2 _ (not_prefix_of_length (by simp)),
      FileTree.lookup_mkdirs (makeDirs_ok h₁).2 _ (not_prefix_of_length (by simp [policiesDir]))]
  · rw [hlook, if_neg (child_ne_policyFile dir _ _).symm, if_neg (child_ne_policyFile dir _ _).symm]

/-- **A file of no name goes.** -/
theorem orphan_gone {primaryName : Option Str} (hn : ∀ p ∈ policies, Plain (bundleName p))
    {env env' : DiskEnv} (hf : env.faults = []) (hreg : RegularFiles dir env.disk)
    (h : (persistManifest wire dir policies primaryName).run env = (.ok (), env'))
    {f : Str} (hsuffix : (".json" : Str).isSuffixOf f = true)
    (hstem : stem f ∉ policies.map bundleName) :
    env'.disk.lookup (policiesDir dir ++ [f]) = none := by
  obtain ⟨env₃, env₄, hf₃, hkeep, hdrop, hend⟩ := sweep_of_finished hn hf h
  have hfree : ¬ TouchedBy (policiesDir dir) policies (policiesDir dir ++ [f]) := by
    refine not_touchedBy hsuffix fun p hp he => hstem ?_
    rw [he, stem_fileName (hn p hp).1]
    exact List.mem_map.mpr ⟨p, hp, rfl⟩
  have hsame := hkeep f hfree
  rw [hend]
  cases hl : env.disk.lookup (policiesDir dir ++ [f]) with
  | none => exact dropOrphans_absent hdrop (hsame.trans hl)
  | some node =>
    obtain ⟨body, rfl⟩ := hreg.file f node hl
    rw [hl] at hsame
    exact dropOrphans_removes (hreg.usable f _ hl) hstem globJson_ne_up hf₃ hdrop
      (mem_globJson.mpr ⟨hsuffix, _, hsame⟩) hsame

/-- **A file whose stem is a name stays.** -/
theorem kept_of_stem {primaryName : Option Str} (hn : ∀ p ∈ policies, Plain (bundleName p))
    {env env' : DiskEnv} (hf : env.faults = [])
    (h : (persistManifest wire dir policies primaryName).run env = (.ok (), env'))
    {f : Str} (hfree : ¬ TouchedBy (policiesDir dir) policies (policiesDir dir ++ [f]))
    (hstem : stem f ∈ policies.map bundleName) :
    env'.disk.lookup (policiesDir dir ++ [f]) = env.disk.lookup (policiesDir dir ++ [f]) := by
  obtain ⟨env₃, env₄, -, hkeep, hdrop, hend⟩ := sweep_of_finished hn hf h
  rw [hend, (dropOrphans_ok globJson_ne_up hdrop).2 _ ?_, hkeep f hfree]
  intro g hg
  obtain rfl : f = g := by simpa using hg
  exact hstem

end Sweep

/-- **One finished `replace_all` repairs the directory**, whatever it held: unless
the file of the empty name was there and `.json` is a name. -/
theorem repaired_iff [PyRuntime] (wire : PolicyWire) (dir : Path) (policies : List EdgePolicy)
    (primaryName : Option Str) (hne : policies ≠ []) (hn : ∀ p ∈ policies, Plain (bundleName p))
    (hsurv : ∀ p ∈ policies, wire.Survives p)
    (hjson : JsonSurvives wire.json (manifestJson policies (keptName policies primaryName)))
    {env env' : DiskEnv} (hf : env.faults = []) (hreg : RegularFiles dir env.disk)
    (hrun : (PolicyCache.replaceAll wire env.now policies primaryName (some dir)).2.run env =
      (.ok (), env')) :
    Repaired wire dir env.now policies primaryName env'.disk ↔
      ¬ (env.disk.lookup (policiesDir dir ++ [bareFile]) ≠ none ∧
        bareFile ∈ policies.map bundleName) := by
  rw [replaceAll_disk] at hrun
  have hbare : ∀ p ∈ policies, bareFile ≠ fileName (bundleName p) :=
    fun p hp he => (hn p hp).1 (by simpa [fileName, bareFile] using he)
  have hsuffix : (".json" : Str).isSuffixOf bareFile = true := by decide
  have hkept : bareFile ∈ policies.map bundleName →
      env'.disk.lookup (policiesDir dir ++ [bareFile]) =
        env.disk.lookup (policiesDir dir ++ [bareFile]) := fun hmem =>
    kept_of_stem hn hf hrun (not_touchedBy hsuffix hbare) (by rwa [stem_bareFile])
  obtain ⟨hholds, hready⟩ := holdsManifest_of_finished hn hrun
  constructor
  · rintro h ⟨hthere, hmem⟩
    obtain ⟨node, hnode⟩ := Option.ne_none_iff_exists'.mp hthere
    obtain ⟨p, hp, he⟩ := (h.files bareFile).mp (mem_globJson.mpr ⟨hsuffix, node, by
      rw [hkept hmem, hnode]⟩)
    exact hbare p hp he
  · intro hsafe
    refine ⟨fun f => ⟨fun hglob => ?_, ?_⟩, ?_⟩
    · obtain ⟨hjsonSuffix, node, hnode⟩ := mem_globJson.mp hglob
      have hstem : stem f ∈ policies.map bundleName := by
        by_contra hno
        rw [orphan_gone hn hf hreg hrun hjsonSuffix hno] at hnode
        cases hnode
      rcases eq_fileName_stem hjsonSuffix with he | rfl
      · obtain ⟨p, hp, hname⟩ := List.mem_map.mp hstem
        exact ⟨p, hp, by rw [hname]; exact he⟩
      · rw [stem_bareFile] at hstem
        rw [hkept hstem] at hnode
        exact absurd ⟨by simp [hnode], hstem⟩ hsafe
    · rintro ⟨q, hq, rfl⟩
      obtain ⟨p, hp⟩ := exists_lastWith bundleName hq
      obtain ⟨m, -, text, -, hfile⟩ := hholds.files _ p hp
      have hname : p.bundle.name = bundleName q := (lastWith_eq_some hp).2
      rw [hname] at hfile
      exact mem_globJson.mpr ⟨fileName_suffix _, _, hfile⟩
    · rcases readManifest_of_holds hready hholds hjson hsurv hn with ⟨hnil, -⟩ | ⟨-, c, hread, hc⟩
      · exact absurd hnil hne
      · refine ⟨c, ?_, hc.trans (served_installAll env.now policies primaryName).symm⟩
        simp only [PolicyCache.loadFromDisk, readDisk, hread, bind, Except.bind, pure, Except.pure]

/-! A directory with an orphan, a leftover temporary file and a manifest that is
no JSON, and one with the file of the empty name. -/

def diskOf (files : List (PurePath × Str)) : Disk :=
  ((do
      makeDirs (policiesDir stateDir)
      files.forM fun f => writeText f.1 f.2 : DiskM Unit).run
    { disk := .empty, now := 5, faults := [] }).2.disk

def messyFiles : List (PurePath × Str) :=
  [(policyPath stateDir "old", "\x7b\x7d"), (child (policiesDir stateDir) (tmpName "a"), "\x7b"),
    (manifestPath stateDir, "not json"), (legacyPath stateDir, demoText "pol-b" "b")]

def bareFiles : List (PurePath × Str) := [(child (policiesDir stateDir) bareFile, "\x7b\x7d")]

theorem regularFiles_of_children {d : Disk} {dir : Path}
    (h : ∀ f ∈ d.children (policiesDir dir), d.isDir (policiesDir dir ++ [f]) = false ∧
      (child (policiesDir dir) f).problem.isNone = true ∧ byteLength f ≤ nameMax ∧
        f ≠ (".." : Str)) : RegularFiles dir d := by
  refine ⟨fun f node hl => ?_, fun f node hl => ?_⟩
  · obtain ⟨hfile, -⟩ := h f (FileTree.mem_children hl)
    cases node with
    | dir => simp [(FileTree.isDir_iff d).mpr hl] at hfile
    | file body => exact ⟨body, rfl⟩
  · obtain ⟨-, hclean, hshort, hup⟩ := h f (FileTree.mem_children hl)
    exact ⟨Option.isNone_iff_eq_none.mp hclean, hshort, hup⟩

def overEnv (d : Disk) : DiskEnv where
  disk := d
  now := 20
  faults := []

/-- The write of one policy over a disk. -/
def writeOver (wire : PolicyWire) (d : Disk) (p : EdgePolicy) : Except Stop Unit × DiskEnv :=
  (@PolicyCache.replaceAll asciiRuntime wire (overEnv d).now [p] (some (bundleName p))
    (some stateDir)).2.run (overEnv d)

/-- The messy directory is repaired. -/
theorem repaired_messy : ∃ after, writeOver demoWire (diskOf messyFiles) policyA = (.ok (), after) ∧
    @Repaired asciiRuntime demoWire stateDir 20 [policyA] (some (bundleName policyA)) after.disk := by
  obtain ⟨after, hrun⟩ : ∃ after, writeOver demoWire (diskOf messyFiles) policyA =
      (.ok (), after) := ⟨_, finished_of_toBool (by decide +kernel)⟩
  have hreg : RegularFiles stateDir (overEnv (diskOf messyFiles)).disk :=
    regularFiles_of_children (by decide +kernel)
  have habsent : ((overEnv (diskOf messyFiles)).disk.lookup
      (policiesDir stateDir ++ [bareFile])).isNone = true := by decide +kernel
  refine ⟨after, hrun, ?_⟩
  have hrepaired := @repaired_iff asciiRuntime demoWire stateDir [policyA] (some (bundleName policyA))
    (List.cons_ne_nil _ _) demo_named.2 demo_survives.2.2 demo_survives.2.1 _ after rfl hreg hrun
  exact hrepaired.mpr fun h => h.1 (Option.isNone_iff_eq_none.mp habsent)

def policyJson : EdgePolicy := demoPolicy "pol-j" bareFile

def bareManifestText : Str := "\x7b\"primary_name\": \".json\", \"names\": [\".json\"]\x7d"

def bareWire : PolicyWire where
  json :=
    { loads := fun t =>
        if t = bareManifestText then .ok (manifestJson [policyJson] (some bareFile))
        else if t = demoText "pol-j" bareFile then .ok (demoJsonOf "pol-j" bareFile)
        else .error .jsonDecodeError
      dumps := fun _ => bareManifestText }
  validate := demoWire.validate
  dump := demoWire.dump

theorem bare_survives : JsonSurvives bareWire.json (manifestJson [policyJson]
      (keptName [policyJson] (some bareFile))) ∧ bareWire.Survives policyJson := by
  have hne : demoText "pol-j" bareFile ≠ bareManifestText := by decide +kernel
  refine ⟨⟨?_, ?_⟩, fun text htext => ⟨?_, ?_⟩⟩
  · show CodePoint.cr ∉ bareManifestText
    decide +kernel
  · show bareWire.json.loads bareManifestText = _
    simp only [bareWire, if_true]
    rfl
  · obtain rfl : demoText "pol-j" bareFile = text := Except.ok.inj htext
    decide +kernel
  · obtain rfl : demoText "pol-j" bareFile = text := Except.ok.inj htext
    have hloads : bareWire.json.loads (demoText "pol-j" bareFile) =
        .ok (demoJsonOf "pol-j" bareFile) := by simp only [bareWire, if_neg hne, if_true]
    rw [PolicyWire.parse, hloads]
    rfl

/-- The file of the empty name survives the write of a policy named `.json`. -/
theorem bare_file_stays :
    (Plain (bundleName policyJson) ∧ bareWire.Survives policyJson ∧
      JsonSurvives bareWire.json (manifestJson [policyJson]
        (keptName [policyJson] (some bareFile))) ∧ RegularFiles stateDir (diskOf bareFiles)) ∧
      ∃ after, writeOver bareWire (diskOf bareFiles) policyJson = (.ok (), after) ∧
        ¬ @Repaired asciiRuntime bareWire stateDir 20 [policyJson] (some bareFile) after.disk := by
  have hreg : RegularFiles stateDir (diskOf bareFiles) :=
    regularFiles_of_children (by decide +kernel)
  refine ⟨⟨⟨by decide, by decide⟩, bare_survives.2, bare_survives.1, hreg⟩, ?_⟩
  have hrun := finished_of_toBool
    (r := writeOver bareWire (diskOf bareFiles) policyJson) (by decide +kernel)
  refine ⟨_, hrun, fun h => ?_⟩
  have hglob : bareFile ∈ globJson (writeOver bareWire (diskOf bareFiles) policyJson).2.disk
      (policiesDir stateDir) := by decide +kernel
  obtain ⟨p, hp, he⟩ := (@Repaired.files asciiRuntime _ _ _ _ _ _ h bareFile).mp hglob
  obtain rfl := List.mem_singleton.mp hp
  exact absurd he (by decide)

end TrustModelEdge.Policy
