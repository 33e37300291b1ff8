/-
TrustModelEdge.Policy.PersistTheorems — what a finished write of the
policy layouts leaves on disk.

Every file of the layouts is written aside and moved into place, so a
finished write is one new file and nothing else (`writeAside_ok`); the
rest is a loop rule and frame rules. Bundle names are assumed to be
non-empty and free of separators throughout: with others a file can land
outside the directory.
-/
import TrustModelEdge.Lib.LastWins
import TrustModelEdge.Policy.Cache
import TrustModelEdge.Py.DiskRules

namespace TrustModelEdge.Policy

open Py Lib

/-! ## File names -/

/-- A bundle name that is one path component. -/
def Plain (name : Str) : Prop := name ≠ [] ∧ CodePoint.ofChar '/' ∉ name

def fileName (name : Str) : Str := name ++ (".json" : Str)

def tmpName (name : Str) : Str := name ++ (".json.tmp" : Str)

theorem fileName_inj {m n : Str} : fileName m = fileName n ↔ m = n := by
  simp [fileName]

theorem fileName_ne_tmpName (m n : Str) : fileName m ≠ tmpName n := by
  intro h
  have hlast := congrArg List.getLast? h
  have hn : (".json" : Str).getLast? = some (CodePoint.ofChar 'n') := by decide
  have hp : (".json.tmp" : Str).getLast? = some (CodePoint.ofChar 'p') := by decide
  rw [fileName, tmpName, List.getLast?_append, List.getLast?_append, hn, hp] at hlast
  revert hlast
  simp only [Option.some_or]
  decide

theorem fileName_ne_up (name : Str) : fileName name ≠ (".." : Str) := by
  intro h
  have hlen := congrArg List.length h
  have h5 : (".json" : Str).length = 5 := by decide
  have h2 : (".." : Str).length = 2 := by decide
  rw [fileName, List.length_append, h5, h2] at hlen
  omega

theorem tmpName_ne_up (name : Str) : tmpName name ≠ (".." : Str) := by
  intro h
  have hlen := congrArg List.length h
  have h9 : (".json.tmp" : Str).length = 9 := by decide
  have h2 : (".." : Str).length = 2 := by decide
  rw [tmpName, List.length_append, h9, h2] at hlen
  omega

theorem stem_fileName {name : Str} (h : name ≠ []) : stem (fileName name) = name := by
  have hext : (".json" : Str) = CodePoint.ofChar '.' :: ("json" : Str) := by decide
  rw [fileName, hext]
  exact stem_append h (by decide) (by decide)

theorem withSuffix_fileName {dir : Path} {name : Str} (h : name ≠ []) :
    (child dir (fileName name)).withSuffix tmpSuffix = child dir (tmpName name) := by
  simp only [PurePath.withSuffix, child, List.dropLast_singleton, List.getLast?_singleton,
    Option.getD_some, stem_fileName h, List.nil_append]
  rfl

theorem fileName_length (name : Str) : (fileName name).length = name.length + 5 := by
  have h5 : (".json" : Str).length = 5 := by decide
  rw [fileName, List.length_append, h5]

theorem fileName_ne_nil (name : Str) : fileName name ≠ [] := by
  intro he
  have hlen := fileName_length name
  rw [he] at hlen
  simp at hlen

theorem fileName_ne_dot (name : Str) : fileName name ≠ (".": Str) := by
  intro he
  have hlen := fileName_length name
  have h1 : (".": Str).length = 1 := by decide
  rw [he, h1] at hlen
  omega

/-- The file of a name without separators is one component. -/
theorem join_fileName {dir : Path} {name : Str} (h : CodePoint.ofChar '/' ∉ name) :
    (PurePath.ofDir dir).join (fileName name) = child dir (fileName name) := by
  have hext : CodePoint.ofChar '/' ∉ (".json" : Str) := by decide
  apply join_ofDir
  · intro hm
    rcases List.mem_append.mp hm with hm | hm
    · exact h hm
    · exact hext hm
  · exact fileName_ne_nil name
  · exact fileName_ne_dot name

theorem legacyPath_eq (dir : Path) : legacyPath dir = child dir (fileName "policy") := by
  have h : legacyFilename = fileName "policy" := by decide
  rw [legacyPath, h, join_fileName (by decide)]

theorem manifestPath_eq (dir : Path) : manifestPath dir = child dir (fileName "manifest") := by
  have h : manifestFilename = fileName "manifest" := by decide
  rw [manifestPath, h, join_fileName (by decide)]

theorem policyPath_eq {dir : Path} {name : Str} (h : Plain name) :
    policyPath dir name = child (policiesDir dir) (fileName name) :=
  join_fileName h.2

/-! ## One file -/

/-- **A finished write aside**: the target holds the text, the temporary file
is gone, and nothing else changed. -/
theorem writeAside_ok {dir : Path} {name text : Str} (hn : name ≠ []) {env env' : DiskEnv}
    (h : (writeAside (child dir (fileName name)) text).run env = (.ok (), env')) :
    env'.now = env.now ∧ env.disk.isDir dir = true ∧ Usable dir (fileName name) ∧
      Usable dir (tmpName name) ∧ ∃ m, ∀ r, env'.disk.lookup r =
        if r = dir ++ [fileName name] then some (.file { text := some text, mtime := m })
        else if r = dir ++ [tmpName name] then none
        else env.disk.lookup r := by
  unfold writeAside at h
  rw [withSuffix_fileName hn] at h
  obtain ⟨_, env₁, hw, hr⟩ := DiskM.bind_ok h
  obtain ⟨hnow₁, q, hq, hwrite⟩ := writeText_ok hw
  obtain ⟨hnow, p, p', hp, hp', hren⟩ := replaceFile_ok hr
  obtain ⟨hut, hdir, rfl⟩ := (resolve_child (tmpName_ne_up name)).mp hq
  obtain ⟨-, -, rfl⟩ := (resolve_child (tmpName_ne_up name)).mp hp
  obtain ⟨huf, -, rfl⟩ := (resolve_child (fileName_ne_up name)).mp hp'
  obtain ⟨body, hbody, hlook⟩ := FileTree.lookup_rename hren
  refine ⟨hnow.trans hnow₁, hdir, huf, hut, env.time, ?_⟩
  rw [FileTree.lookup_write hwrite, if_pos rfl] at hbody
  obtain rfl : ({ text := some text, mtime := env.time } : FileBody) = body := by simpa using hbody
  intro r
  rw [hlook, FileTree.lookup_write hwrite]
  by_cases h1 : r = dir ++ [fileName name]
  · rw [if_pos h1, if_pos h1]
  · by_cases h2 : r = dir ++ [tmpName name]
    · rw [if_neg h1, if_pos h2, if_neg h1, if_pos h2]
    · rw [if_neg h1, if_neg h2, if_neg h1, if_neg h2, if_neg h2]

/-- A name in the state directory is no file of the policies directory. -/
theorem child_ne_policyFile (dir : Path) (k f : Str) : dir ++ [k] ≠ policiesDir dir ++ [f] := by
  intro he
  have hlen := congrArg List.length he
  simp [policiesDir] at hlen

/-! ## The loops -/

/-- The paths the loop over the policies may touch. -/
def TouchedBy (dir : Path) (policies : List EdgePolicy) (r : Path) : Prop :=
  ∃ p ∈ policies, r = dir ++ [fileName p.bundle.name] ∨ r = dir ++ [tmpName p.bundle.name]

/-- What a file of the policies directory holds after the loop: the text of
the last policy of its name. -/
def HoldsPolicy (wire : PolicyWire) (d : Disk) (dir : Path) (p : EdgePolicy) (m : Rat) : Prop :=
  Usable dir (fileName p.bundle.name) ∧ ∃ text, wire.dump p = .ok text ∧
    d.lookup (dir ++ [fileName p.bundle.name]) = some (.file { text := some text, mtime := m })

theorem persistPolicies_ok {wire : PolicyWire} {dir : Path} {policies : List EdgePolicy}
    (hplain : ∀ p ∈ policies, Plain p.bundle.name) {env env' : DiskEnv}
    (h : (persistPolicies wire dir policies).run env = (.ok (), env')) :
    env'.now = env.now ∧
      (∀ r, ¬ TouchedBy (policiesDir dir) policies r → env'.disk.lookup r = env.disk.lookup r) ∧
      ∀ n p, lastWith bundleName n policies = some p →
        ∃ m, HoldsPolicy wire env'.disk (policiesDir dir) p m := by
  induction policies generalizing env with
  | nil =>
    obtain ⟨-, rfl⟩ := DiskM.pure_ok h
    exact ⟨rfl, fun _ _ => rfl, fun n p hp => by simp [lastWith] at hp⟩
  | cons p ps ih =>
    have hp := hplain p List.mem_cons_self
    obtain ⟨text, env₁, hl, hws⟩ := DiskM.bind_ok h
    obtain ⟨hdump, rfl⟩ := DiskM.lift_ok hl
    obtain ⟨_, env₂, hw, hrest⟩ := DiskM.bind_ok hws
    rw [policyPath_eq hp] at hw
    obtain ⟨hnow₂, hdir, huf, hut, m, hlook⟩ := writeAside_ok hp.1 hw
    obtain ⟨hnow, hframe, hlast⟩ := ih (fun q hq => hplain q (List.mem_cons_of_mem _ hq)) hrest
    refine ⟨hnow.trans hnow₂, ?_, ?_⟩
    · intro r hr
      have hps : ¬ TouchedBy (policiesDir dir) ps r := by
        rintro ⟨q, hq, hqr⟩
        exact hr ⟨q, List.mem_cons_of_mem _ hq, hqr⟩
      have h1 : r ≠ policiesDir dir ++ [fileName p.bundle.name] :=
        fun he => hr ⟨p, List.mem_cons_self, Or.inl he⟩
      have h2 : r ≠ policiesDir dir ++ [tmpName p.bundle.name] :=
        fun he => hr ⟨p, List.mem_cons_self, Or.inr he⟩
      rw [hframe r hps, hlook, if_neg h1, if_neg h2]
    · intro n q hq
      rw [lastWith_cons] at hq
      cases hqs : lastWith bundleName n ps with
      | some q' =>
        rw [hqs] at hq
        obtain rfl : q' = q := by simpa using hq
        exact hlast n q' hqs
      | none =>
        -- no later policy of this name: the file just written stays
        rw [hqs] at hq
        by_cases hpn : p.bundle.name = n
        · obtain rfl : p = q := by simpa [hpn] using hq
          refine ⟨m, huf, text, hdump, ?_⟩
          have hps : ¬ TouchedBy (policiesDir dir) ps
              (policiesDir dir ++ [fileName p.bundle.name]) := by
            rintro ⟨q, hq, hqr | hqr⟩
            · have hname : fileName p.bundle.name = fileName q.bundle.name := by simpa using hqr
              exact lastWith_eq_none.mp hqs q hq (by rw [← hpn]; exact (fileName_inj.mp hname).symm)
            · have hname : fileName p.bundle.name = tmpName q.bundle.name := by simpa using hqr
              exact fileName_ne_tmpName _ _ hname
          rw [hframe _ hps, hlook, if_pos rfl]
        · simp [hpn] at hq

theorem dropOrphans_ok {dir : Path} {names files : List Str}
    (hup : ∀ f ∈ files, f ≠ (".." : Str)) {env env' : DiskEnv}
    (h : (dropOrphans dir names files).run env = (.ok (), env')) :
    env'.now = env.now ∧
      ∀ r, (∀ f, r = policiesDir dir ++ [f] → stem f ∈ names) →
        env'.disk.lookup r = env.disk.lookup r := by
  induction files generalizing env with
  | nil =>
    obtain ⟨-, rfl⟩ := DiskM.pure_ok h
    exact ⟨rfl, fun _ _ => rfl⟩
  | cons f fs ih =>
    obtain ⟨_, env₁, h1, h2⟩ := DiskM.bind_ok h
    obtain ⟨hnow, hframe⟩ := ih (fun g hg => hup g (List.mem_cons_of_mem _ hg)) h2
    unfold dropOrphan at h1
    split at h1
    · obtain ⟨-, rfl⟩ := DiskM.pure_ok h1
      exact ⟨hnow, hframe⟩
    · rename_i hstem
      obtain ⟨hnow₁, hdisk | ⟨q, hq, hrem⟩⟩ := ignoreOsError_unlink_ok h1
      · exact ⟨hnow.trans hnow₁, fun r hr => by rw [hframe r hr, hdisk]⟩
      · obtain ⟨-, -, rfl⟩ := (resolve_child (hup f List.mem_cons_self)).mp hq
        refine ⟨hnow.trans hnow₁, ?_⟩
        intro r hr
        have hne : r ≠ policiesDir dir ++ [f] := fun he => hstem (hr f he)
        rw [hframe r hr, FileTree.lookup_remove hrem, if_neg hne]

theorem globJson_ne_up {d : Disk} {dir : Path} : ∀ f ∈ globJson d dir, f ≠ (".." : Str) := by
  intro f hf he
  have hs := (List.mem_filter.mp hf).2
  rw [he] at hs
  revert hs
  decide

/-- Both loops: outside the policies directory nothing changes, and no orphan
dropped is the file of a policy. -/
theorem policyLoops_ok {wire : PolicyWire} {dir : Path} {policies : List EdgePolicy}
    (hplain : ∀ p ∈ policies, Plain p.bundle.name) {env env₁ env₂ : DiskEnv}
    (hwrite : (persistPolicies wire dir policies).run env = (.ok (), env₁))
    (hdrop : (dropOrphans dir (policies.map (·.bundle.name))
      (globJson env₁.disk (policiesDir dir))).run env₁ = (.ok (), env₂)) :
    env₂.now = env.now ∧
      (∀ r, (∀ f, r ≠ policiesDir dir ++ [f]) → env₂.disk.lookup r = env.disk.lookup r) ∧
      ∀ n p, lastWith bundleName n policies = some p →
        ∃ m, HoldsPolicy wire env₂.disk (policiesDir dir) p m := by
  obtain ⟨hnow₁, hframe₁, hlast⟩ := persistPolicies_ok hplain hwrite
  obtain ⟨hnow₂, hframe₂⟩ := dropOrphans_ok globJson_ne_up hdrop
  refine ⟨hnow₂.trans hnow₁, ?_, ?_⟩
  · intro r hr
    have huntouched : ¬ TouchedBy (policiesDir dir) policies r := by
      rintro ⟨p, _, he | he⟩
      · exact hr _ he
      · exact hr _ he
    rw [hframe₂ r (fun f hf => absurd hf (hr f)), hframe₁ r huntouched]
  · intro n p hp
    obtain ⟨m, hu, text, hdump, hfile⟩ := hlast n p hp
    have hmem : p ∈ policies := (lastWith_eq_some hp).1
    have hkeep : env₂.disk.lookup (policiesDir dir ++ [fileName p.bundle.name]) =
        env₁.disk.lookup (policiesDir dir ++ [fileName p.bundle.name]) := by
      apply hframe₂
      intro f hf
      obtain rfl : fileName p.bundle.name = f := by simpa using hf
      rw [stem_fileName (hplain p hmem).1]
      exact List.mem_map.mpr ⟨p, hmem, rfl⟩
    exact ⟨m, hu, text, hdump, hkeep.trans hfile⟩

/-! ## The two layouts -/

/-- **A finished `_persist_legacy_to_disk`**: `policy.json` holds the policy,
and below the directory only it and its temporary file changed. -/
theorem persistLegacy_ok {wire : PolicyWire} {dir : Path} {p : EdgePolicy} {env env' : DiskEnv}
    (h : (persistLegacy wire dir p).run env = (.ok (), env')) :
    env'.disk.isDir dir = true ∧ Usable dir (tmpName "policy") ∧ Usable dir (fileName "policy") ∧
      (∃ text m, wire.dump p = .ok text ∧ env'.disk.lookup (dir ++ [fileName "policy"]) =
        some (.file { text := some text, mtime := m })) ∧
      ∀ r, r ≠ dir ++ [fileName "policy"] → r ≠ dir ++ [tmpName "policy"] →
        dir.length < r.length → env'.disk.lookup r = env.disk.lookup r := by
  obtain ⟨_, env₁, hm, hrest⟩ := DiskM.bind_ok h
  obtain ⟨text, env₂, hl, hw⟩ := DiskM.bind_ok hrest
  obtain ⟨hdump, rfl⟩ := DiskM.lift_ok hl
  obtain ⟨-, hmk⟩ := makeDirs_ok hm
  rw [legacyPath_eq] at hw
  obtain ⟨-, hdir, huf, hut, m, hlook⟩ := writeAside_ok (by decide) hw
  refine ⟨isDir_of_lookup hdir ?_, hut, huf, ⟨text, m, hdump, ?_⟩, ?_⟩
  · rw [hlook, if_neg (ne_child _ _), if_neg (ne_child _ _)]
  · rw [hlook, if_pos rfl]
  · intro r h1 h2 hlen
    rw [hlook, if_neg h1, if_neg h2]
    exact FileTree.lookup_mkdirs hmk r (not_prefix_of_length hlen)

theorem policiesDir_ne (dir : Path) {name : Str} (h : policiesSubdir ≠ name) :
    policiesDir dir ≠ dir ++ [name] :=
  child_ne_child dir h

/-- **A finished `_persist_manifest_to_disk`**: the manifest names the
policies, the file of each name holds the last policy of that name, and
`policy.json` is as before. -/
theorem persistManifest_ok {wire : PolicyWire} {dir : Path} {policies : List EdgePolicy}
    {primaryName : Option Str} (hplain : ∀ p ∈ policies, Plain p.bundle.name)
    {env env' : DiskEnv}
    (h : (persistManifest wire dir policies primaryName).run env = (.ok (), env')) :
    env'.disk.isDir dir = true ∧ env'.disk.isDir (policiesDir dir) = true ∧
      Usable dir (tmpName "manifest") ∧ Usable dir (fileName "manifest") ∧
      (∃ m, env'.disk.lookup (dir ++ [fileName "manifest"]) =
        some (.file { text := some (wire.json.dumps (manifestJson policies primaryName))
                      mtime := m })) ∧
      (∀ n p, lastWith bundleName n policies = some p →
        ∃ m, HoldsPolicy wire env'.disk (policiesDir dir) p m) ∧
      env'.disk.lookup (dir ++ [fileName "policy"]) =
        env.disk.lookup (dir ++ [fileName "policy"]) := by
  obtain ⟨_, env₁, h1, hrest1⟩ := DiskM.bind_ok h
  obtain ⟨_, env₂, h2, hrest2⟩ := DiskM.bind_ok hrest1
  obtain ⟨_, env₃, h3, hrest3⟩ := DiskM.bind_ok hrest2
  obtain ⟨disk, env₄, h4, hrest4⟩ := DiskM.bind_ok hrest3
  obtain ⟨rfl, rfl⟩ := DiskM.getDisk_ok h4
  obtain ⟨_, env₅, h5, h6⟩ := DiskM.bind_ok hrest4
  obtain ⟨-, hmk1⟩ := makeDirs_ok h1
  obtain ⟨-, hmk2⟩ := makeDirs_ok h2
  obtain ⟨-, hframe, hlast⟩ := policyLoops_ok hplain h3 h5
  rw [manifestPath_eq] at h6
  obtain ⟨-, hdir, huf, hut, at_, hlook⟩ := writeAside_ok (by decide) h6
  have hpol : env'.disk.lookup (policiesDir dir) = env₂.disk.lookup (policiesDir dir) := by
    rw [hlook, if_neg (policiesDir_ne dir (by decide)), if_neg (policiesDir_ne dir (by decide)),
      hframe _ (fun f => ne_child _ f)]
  have hpol₂ : env₂.disk.isDir (policiesDir dir) = true :=
    FileTree.isDir_mkdirs (p := []) (FileTree.isDir_root _) hmk2
  refine ⟨?_, isDir_of_lookup hpol₂ hpol, hut, huf, ⟨at_, ?_⟩, ?_, ?_⟩
  · apply isDir_of_lookup hdir
    rw [hlook, if_neg (ne_child _ _), if_neg (ne_child _ _)]
  · rw [hlook, if_pos rfl]
  · intro n p hp
    obtain ⟨m, hu, text, hdump, hfile⟩ := hlast n p hp
    refine ⟨m, hu, text, hdump, ?_⟩
    rw [hlook, if_neg (child_ne_policyFile dir _ _).symm, if_neg (child_ne_policyFile dir _ _).symm,
      hfile]
  · -- `policy.json` lies beside the manifest and outside the policies directory
    rw [hlook, if_neg (child_ne_child dir (by decide)), if_neg (child_ne_child dir (by decide)),
      hframe _ (fun f => child_ne_policyFile dir _ f)]
    have hpre : ¬ dir ++ [fileName "policy"] <+: [] ++ policiesDir dir := by
      intro hp
      have he := hp.eq_of_length (by simp [policiesDir])
      exact absurd he.symm (policiesDir_ne dir (by decide))
    rw [FileTree.lookup_mkdirs hmk2 _ hpre]
    exact FileTree.lookup_mkdirs hmk1 _ (not_prefix_of_length (by simp))

end TrustModelEdge.Policy
