/-
TrustModelEdge.Policy.LoadTheorems — which disks a startup gets over.

`load_from_disk` reads files that anything may have written, and each step
has its own list of exceptions: the manifest is parsed under one, every
policy file under another, and what lies between (the attribute access, the
warning for a skipped file, the test of the primary name, the compile) under
none. `Tolerated` says of the contents what that takes; the loop over the
names is handled name by name (`readPoliciesCompiling_ok_iff`).
-/
import TrustModelEdge.Policy.CallTheorems
import TrustModelEdge.Policy.RestartTheorems

namespace TrustModelEdge.Policy

open Py Engine Lib

/-! ## What the files hold -/

section Contents

variable [PyRuntime] (raises : CompileRaises) (wire : PolicyWire) (d : Disk) (stateDir : Path)

/-- The file at a path holds this policy. -/
def HoldsValid (path : PurePath) (p : EdgePolicy) : Prop :=
  pathExists d path = .ok true ∧ readText d path >>= wire.parse = .ok p

/-- `manifest.json` holds this value. -/
def ManifestIs (manifest : Json) : Prop :=
  pathExists d (manifestPath stateDir) = .ok true ∧
    readText d (manifestPath stateDir) >>= wire.json.loads = .ok manifest

/-- The value has this one among its names. -/
def Lists (manifest name : Json) : Prop :=
  ∃ names, listOf ((manifest.field? "names").getD (.arr [])) = .ok names ∧ name ∈ names

/-- The manifest lists a valid policy file. -/
def ListsValid : Prop :=
  ∃ manifest name p, ManifestIs wire d stateDir manifest ∧ Lists manifest name ∧
    HoldsValid wire d (policyPath stateDir name.toStr) p

/-- Only its contents can be wrong with a file. -/
def IsReadable (path : PurePath) : Prop :=
  pathExists d path = .ok true → ∃ body, fileAt d path = .ok body

/-- The files of both layouts are readable, and the state directory leaves room
for the names of its own two. -/
structure FilesReadable : Prop where
  manifest : IsReadable d (manifestPath stateDir)
  manifestProbed : ∃ found, pathExists d (manifestPath stateDir) = .ok found
  legacy : IsReadable d (legacyPath stateDir)
  legacyProbed : ∃ found, pathExists d (legacyPath stateDir) = .ok found
  listed : ∀ manifest name, ManifestIs wire d stateDir manifest → Lists manifest name →
    IsReadable d (policyPath stateDir name.toStr)

/-- **A load tolerates the disk**: whatever the cache, it returns, it leaves the
cache when it returns `False`, and a valid policy where it looks is a hit. -/
def LoadTolerates : Prop :=
  ∀ c : PolicyCache, ∃ b, (c.loadFromDiskCompiling raises wire d stateDir).2 = .ok b ∧
    (b = false → (c.loadFromDiskCompiling raises wire d stateDir).1 = c) ∧
    ((ListsValid wire d stateDir ∨ ∃ p, HoldsValid wire d (legacyPath stateDir) p) → b = true)

/-! ## What the code needs of it -/

/-- A value that can be looked up in a map. -/
def Hashable : Json → Prop
  | .arr _ | .obj _ => False
  | _ => True

/-- The error of a damaged policy file is one the handler names, a valid policy
compiles. -/
structure FileTolerated (path : PurePath) : Prop where
  handled : ∀ e, readText d path >>= wire.parse = .error e → e.isValueError = true
  compiled : ∀ p, readText d path >>= wire.parse = .ok p → raises p = none

/-- A listed name: it is no longer than a file name can be, and its file is
neither absent nor damaged where that is logged. -/
structure NameTolerated (name : Json) : Prop where
  probed : ∃ found, pathExists d (policyPath stateDir name.toStr) = .ok found
  file : pathExists d (policyPath stateDir name.toStr) = .ok true →
    FileTolerated raises wire d (policyPath stateDir name.toStr)
  logged : PyRuntime.logsWarnings = true →
    ∃ p, HoldsValid wire d (policyPath stateDir name.toStr) p

structure ManifestTolerated : Prop where
  parsed : ∀ e, pathExists d (manifestPath stateDir) = .ok true →
    readText d (manifestPath stateDir) >>= wire.json.loads = .error e →
      e.isValueError = true ∨ e = .typeError
  object : ∀ manifest, ManifestIs wire d stateDir manifest → ∃ fields, manifest = .obj fields
  names : ∀ manifest name, ManifestIs wire d stateDir manifest → Lists manifest name →
    NameTolerated raises wire d stateDir name
  primary : ∀ manifest, ManifestIs wire d stateDir manifest → ListsValid wire d stateDir →
    Hashable ((manifest.field? "primary_name").getD .null)

/-- The contents that raise nothing. -/
structure Tolerated : Prop extends ManifestTolerated raises wire d stateDir where
  legacy : ¬ ListsValid wire d stateDir → pathExists d (legacyPath stateDir) = .ok true →
    FileTolerated raises wire d (legacyPath stateDir)

end Contents

/-! ## One file -/

section Files

variable [PyRuntime] {raises : CompileRaises} {wire : PolicyWire} {d : Disk} {stateDir : Path}

omit [PyRuntime] in
theorem readCompiled_of_valid {path : PurePath} {body : FileBody} {p : EdgePolicy}
    (hbody : fileAt d path = .ok body) (hp : readText d path >>= wire.parse = .ok p) :
    readCompiled raises wire d path = compiles raises p >>= fun _ =>
      .ok (some (p, body.mtime)) := by
  simp only [readCompiled, readPolicy, hp, mtime, hbody]
  rfl

omit [PyRuntime] in
theorem readCompiled_of_damaged {path : PurePath} {e : Exc}
    (he : readText d path >>= wire.parse = .error e) :
    readCompiled raises wire d path = if e.isValueError then .ok none else .error e := by
  simp only [readCompiled, readPolicy, he]
  cases e.isValueError <;> rfl

omit [PyRuntime] in
/-- **One file is read** when it is tolerated. -/
theorem readCompiled_ok_iff {path : PurePath} {body : FileBody}
    (hbody : fileAt d path = .ok body) :
    (∃ r, readCompiled raises wire d path = .ok r) ↔ FileTolerated raises wire d path := by
  cases hparse : readText d path >>= wire.parse with
  | ok p =>
    rw [readCompiled_of_valid hbody hparse]
    cases hr : raises p with
    | none =>
      simp only [compiles, hr, bind, Except.bind, Except.ok.injEq, exists_eq', true_iff]
      refine ⟨fun e he => ?_, fun q hq => ?_⟩
      · rw [hparse] at he
        cases he
      · rw [hparse] at hq
        rwa [← Except.ok.inj hq]
    | some e =>
      simp only [compiles, hr, bind, Except.bind, reduceCtorEq, exists_false, false_iff]
      intro h
      rw [h.compiled p hparse] at hr
      cases hr
  | error e =>
    rw [readCompiled_of_damaged hparse]
    cases hv : e.isValueError with
    | true =>
      simp only [if_true, Except.ok.injEq, exists_eq', true_iff]
      refine ⟨fun e' he => ?_, fun q hq => ?_⟩
      · rw [hparse] at he
        rwa [← Except.error.inj he]
      · rw [hparse] at hq
        cases hq
    | false =>
      simp only [Bool.false_eq_true, if_false, reduceCtorEq, exists_false, false_iff]
      intro h
      rw [h.handled e hparse] at hv
      cases hv

omit [PyRuntime] in
/-- What a file that is read was read as. -/
theorem isSome_of_readCompiled {path : PurePath} {body : FileBody}
    (hbody : fileAt d path = .ok body) {r : Option (EdgePolicy × Rat)}
    (h : readCompiled raises wire d path = .ok r) :
    r.isSome = true ↔ ∃ p, readText d path >>= wire.parse = .ok p := by
  cases hparse : readText d path >>= wire.parse with
  | ok p =>
    rw [readCompiled_of_valid hbody hparse] at h
    obtain ⟨_, -, h⟩ := bind_eq_ok.mp h
    cases h
    simp
  | error e =>
    rw [readCompiled_of_damaged hparse] at h
    split at h
    · cases h
      simp
    · cases h

end Files

/-! ## The loop over the names -/

section Names

variable [PyRuntime] {raises : CompileRaises} {wire : PolicyWire} {d : Disk} {stateDir : Path}

/-- **One listed name is got over** when it is tolerated. -/
theorem readListed_ok_iff {name : Json} (hr : IsReadable d (policyPath stateDir name.toStr)) :
    (∃ row, readListed d stateDir (readCompiled raises wire d) name = .ok row) ↔
      NameTolerated raises wire d stateDir name := by
  constructor
  · rintro ⟨row, hrow⟩
    cases row with
    | none =>
      obtain ⟨hquiet, hskip⟩ := readListed_none.mp hrow
      refine ⟨hskip.elim (fun h => ⟨_, h⟩) (fun h => ⟨_, h.1⟩), fun hfound => ?_, fun hlogs => ?_⟩
      · obtain ⟨body, hbody⟩ := hr hfound
        refine (readCompiled_ok_iff hbody).mp (hskip.elim (fun h => ?_) (fun h => ⟨_, h.2⟩))
        rw [hfound] at h
        cases h
      · rw [hquiet] at hlogs
        cases hlogs
    | some r =>
      obtain ⟨hfound, hread⟩ := readListed_some.mp hrow
      obtain ⟨body, hbody⟩ := hr hfound
      obtain ⟨p, hp⟩ := (isSome_of_readCompiled hbody hread).mp rfl
      exact ⟨⟨_, hfound⟩, fun _ => (readCompiled_ok_iff hbody).mp ⟨_, hread⟩,
        fun _ => ⟨p, hfound, hp⟩⟩
  · rintro ⟨⟨found, hfound⟩, hfile, hlogs⟩
    cases found with
    | false =>
      -- an absent file is no valid one, so nothing is logged
      refine ⟨none, readListed_none.mpr ⟨Bool.eq_false_iff.mpr fun hl => ?_, Or.inl hfound⟩⟩
      obtain ⟨p, htrue, -⟩ := hlogs hl
      rw [hfound] at htrue
      cases htrue
    | true =>
      obtain ⟨body, hbody⟩ := hr hfound
      obtain ⟨row, hrow⟩ := (readCompiled_ok_iff hbody).mpr (hfile hfound)
      cases row with
      | some r => exact ⟨some r, readListed_some.mpr ⟨hfound, hrow⟩⟩
      | none =>
        refine ⟨none, readListed_none.mpr
          ⟨Bool.eq_false_iff.mpr fun hl => ?_, Or.inr ⟨hfound, hrow⟩⟩⟩
        obtain ⟨p, hp⟩ := hlogs hl
        exact absurd ((isSome_of_readCompiled hbody hrow).mpr ⟨p, hp.2⟩) (by simp)

theorem isSome_of_readListed {name : Json} (hr : IsReadable d (policyPath stateDir name.toStr))
    {row : Option (EdgePolicy × Rat)}
    (h : readListed d stateDir (readCompiled raises wire d) name = .ok row) :
    row.isSome = true ↔ ∃ p, HoldsValid wire d (policyPath stateDir name.toStr) p := by
  cases row with
  | some r =>
    obtain ⟨hfound, hread⟩ := readListed_some.mp h
    obtain ⟨body, hbody⟩ := hr hfound
    obtain ⟨p, hp⟩ := (isSome_of_readCompiled hbody hread).mp rfl
    exact iff_of_true rfl ⟨p, hfound, hp⟩
  | none =>
    refine iff_of_false (by simp) fun ⟨p, hfound, hp⟩ => ?_
    obtain ⟨-, habs | ⟨-, hread⟩⟩ := readListed_none.mp h
    · rw [hfound] at habs
      cases habs
    · obtain ⟨body, hbody⟩ := hr hfound
      exact absurd ((isSome_of_readCompiled hbody hread).mpr ⟨p, hp⟩) (by simp)

/-- **The loop ends** when every name is got over. -/
theorem readPoliciesCompiling_ok_iff {names : List Json}
    (hr : ∀ name ∈ names, IsReadable d (policyPath stateDir name.toStr)) :
    (∃ rows, readPoliciesCompiling raises wire d stateDir names = .ok rows) ↔
      ∀ name ∈ names, NameTolerated raises wire d stateDir name := by
  induction names with
  | nil => exact iff_of_true ⟨[], rfl⟩ (by simp)
  | cons name names ih =>
    obtain ⟨hname, hnames⟩ := List.forall_mem_cons.mp hr
    rw [List.forall_mem_cons, ← ih hnames, ← readListed_ok_iff hname]
    constructor
    · rintro ⟨rows, h⟩
      obtain ⟨row, rest, hrow, hrest, -⟩ := readPoliciesCompiling_cons.mp h
      exact ⟨⟨row, hrow⟩, ⟨rest, hrest⟩⟩
    · rintro ⟨⟨row, hrow⟩, ⟨rest, hrest⟩⟩
      exact ⟨_, readPoliciesCompiling_cons.mpr ⟨row, rest, hrow, hrest, rfl⟩⟩

/-- It found a policy when one of the names has one. -/
theorem ne_nil_of_readPoliciesCompiling {names : List Json}
    (hr : ∀ name ∈ names, IsReadable d (policyPath stateDir name.toStr))
    {rows : List (EdgePolicy × Rat)}
    (h : readPoliciesCompiling raises wire d stateDir names = .ok rows) :
    rows ≠ [] ↔ ∃ name ∈ names, ∃ p, HoldsValid wire d (policyPath stateDir name.toStr) p := by
  induction names generalizing rows with
  | nil =>
    cases h
    simp
  | cons name names ih =>
    obtain ⟨hname, hnames⟩ := List.forall_mem_cons.mp hr
    obtain ⟨row, rest, hrow, hrest, rfl⟩ := readPoliciesCompiling_cons.mp h
    rw [List.exists_mem_cons_iff, ← ih hnames hrest, ← isSome_of_readListed hname hrow]
    cases row <;> simp

end Names
/-! ## The two layouts -/

section Layouts

variable {raises : CompileRaises} {wire : PolicyWire} {d : Disk} {stateDir : Path}

theorem listOf_error {v : Json} {e : Exc} (h : listOf v = .error e) : e = .typeError := by
  cases v <;> simp_all [listOf]

theorem loadedPrimary_ok_iff (snapshots : Dict CacheSnapshot) {v : Json} :
    (∃ primaryName, loadedPrimary snapshots v = .ok primaryName) ↔ Hashable v := by
  cases v <;> simp [loadedPrimary, Hashable]

section Rows

variable [PyRuntime]

/-- The cache of the rows: the primary name is looked up when there are any. -/
theorem loadedCache_ok_iff {rows : List (EdgePolicy × Rat)} {v : Json} :
    (∃ r, loadedCache rows v = .ok r) ↔ (rows ≠ [] → Hashable v) := by
  cases rows with
  | nil => exact iff_of_true ⟨none, rfl⟩ (fun h => absurd rfl h)
  | cons row rows =>
    simp only [ne_eq, reduceCtorEq, not_false_eq_true, true_imp_iff]
    rw [← loadedPrimary_ok_iff (((row :: rows).map (fun r => snapshotOf r.2 r.1)).foldl
      PolicyCache.addSnapshot ∅)]
    simp only [loadedCache, isEmpty_addRows (List.cons_ne_nil row rows), Bool.false_eq_true,
      if_false, bind_eq_ok]
    exact ⟨fun ⟨_, primaryName, hp, _⟩ => ⟨primaryName, hp⟩,
      fun ⟨primaryName, hp⟩ => ⟨_, primaryName, hp, rfl⟩⟩

theorem isSome_of_loadedCache {rows : List (EdgePolicy × Rat)} {v : Json} {r : Option PolicyCache}
    (h : loadedCache rows v = .ok r) : r.isSome = true ↔ rows ≠ [] := by
  cases rows with
  | nil =>
    cases h
    simp
  | cons row rows =>
    simp only [loadedCache, isEmpty_addRows (List.cons_ne_nil row rows), Bool.false_eq_true,
      if_false, bind_eq_ok] at h
    obtain ⟨primaryName, -, h⟩ := h
    cases h
    simp

end Rows

/-! ### The manifest -/

theorem manifest_unique {manifest manifest' : Json} (h : ManifestIs wire d stateDir manifest)
    (h' : ManifestIs wire d stateDir manifest') : manifest = manifest' :=
  Except.ok.inj (h.2.symm.trans h'.2)

theorem not_listsValid [PyRuntime] (h : ∀ manifest name, ManifestIs wire d stateDir manifest →
    ¬ Lists manifest name) : ¬ ListsValid wire d stateDir :=
  fun ⟨manifest, name, _, hm, hl, _⟩ => h manifest name hm hl

variable [PyRuntime]

theorem manifestTolerated_of_none
    (hparsed : ∀ e, pathExists d (manifestPath stateDir) = .ok true →
      readText d (manifestPath stateDir) >>= wire.json.loads = .error e →
        e.isValueError = true ∨ e = .typeError)
    (hnone : ∀ manifest, ¬ ManifestIs wire d stateDir manifest) :
    ManifestTolerated raises wire d stateDir where
  parsed := hparsed
  object := fun _ hm => absurd hm (hnone _)
  names := fun _ _ hm => absurd hm (hnone _)
  primary := fun _ hm => absurd hm (hnone _)

theorem manifest_absent (raises : CompileRaises)
    (h : pathExists d (manifestPath stateDir) = .ok false) :
    readManifestCompiling raises wire d stateDir = .ok none ∧
      ∀ manifest, ¬ ManifestIs wire d stateDir manifest := by
  refine ⟨?_, fun manifest hm => ?_⟩
  · rw [readManifestCompiling, h]
    rfl
  · rw [hm.1] at h
    cases h

theorem manifest_unparsed (raises : CompileRaises) {e : Exc}
    (h : pathExists d (manifestPath stateDir) = .ok true)
    (he : readText d (manifestPath stateDir) >>= wire.json.loads = .error e) :
    (readManifestCompiling raises wire d stateDir =
        if e.isValueError || e == .typeError then .ok none else .error e) ∧
      ∀ manifest, ¬ ManifestIs wire d stateDir manifest := by
  refine ⟨?_, fun manifest hm => ?_⟩
  · rw [readManifestCompiling, h, he]
    rfl
  · rw [hm.2] at he
    cases he

/-- A manifest that parses is taken apart before its names are gone through. -/
theorem manifest_parsed {manifest : Json} (h : ManifestIs wire d stateDir manifest) :
    readManifestCompiling raises wire d stateDir =
      match manifestEntries manifest with
      | .error e => if e.isValueError || e == .typeError then .ok none else .error e
      | .ok (names, primaryName) =>
          readPoliciesCompiling raises wire d stateDir names >>= fun rows =>
            loadedCache rows primaryName := by
  rw [readManifestCompiling, h.1, h.2]
  rfl

/-- An object whose names are no list is passed over. -/
theorem manifest_unlisted {fields : List (Str × Json)} {e : Exc}
    (h : ManifestIs wire d stateDir (.obj fields))
    (he : listOf (((Json.obj fields).field? "names").getD (.arr [])) = .error e) :
    readManifestCompiling raises wire d stateDir = .ok none := by
  rw [manifest_parsed h]
  obtain rfl := listOf_error he
  simp [manifestEntries, he, bind, Except.bind]

theorem manifest_listed {fields : List (Str × Json)} {names : List Json}
    (h : ManifestIs wire d stateDir (.obj fields))
    (hn : listOf (((Json.obj fields).field? "names").getD (.arr [])) = .ok names) :
    readManifestCompiling raises wire d stateDir =
      readPoliciesCompiling raises wire d stateDir names >>= fun rows =>
        loadedCache rows (((Json.obj fields).field? "primary_name").getD .null) := by
  rw [manifest_parsed h]
  simp only [manifestEntries, hn]
  rfl

omit [PyRuntime] in
theorem lists_iff {manifest name : Json} {names : List Json}
    (hn : listOf ((manifest.field? "names").getD (.arr [])) = .ok names) :
    Lists manifest name ↔ name ∈ names := by
  simp [Lists, hn]

theorem listsValid_iff {manifest : Json} {names : List Json}
    (h : ManifestIs wire d stateDir manifest)
    (hn : listOf ((manifest.field? "names").getD (.arr [])) = .ok names) :
    ListsValid wire d stateDir ↔
      ∃ name ∈ names, ∃ p, HoldsValid wire d (policyPath stateDir name.toStr) p := by
  constructor
  · rintro ⟨manifest', name, p, hm, hl, hp⟩
    obtain rfl := manifest_unique h hm
    exact ⟨name, (lists_iff hn).mp hl, p, hp⟩
  · rintro ⟨name, hname, p, hp⟩
    exact ⟨manifest, name, p, h, (lists_iff hn).mpr hname, hp⟩

/-- What is asked of a manifest that is an object. -/
theorem manifestTolerated_iff {fields : List (Str × Json)}
    (h : ManifestIs wire d stateDir (.obj fields)) :
    ManifestTolerated raises wire d stateDir ↔
      (∀ name, Lists (.obj fields) name → NameTolerated raises wire d stateDir name) ∧
        (ListsValid wire d stateDir →
          Hashable (((Json.obj fields).field? "primary_name").getD .null)) := by
  refine ⟨fun ht => ⟨fun name => ht.names _ name h, ht.primary _ h⟩, fun ht => ⟨?_, ?_, ?_, ?_⟩⟩
  · intro e _ he
    rw [h.2] at he
    cases he
  · intro manifest hm
    exact ⟨fields, manifest_unique hm h⟩
  · intro manifest name hm
    obtain rfl := manifest_unique h hm
    exact ht.1 name
  · intro manifest hm
    obtain rfl := manifest_unique h hm
    exact ht.2

/-- The names of a manifest that is an object, gone through. -/
theorem manifest_object (hr : FilesReadable wire d stateDir) {fields : List (Str × Json)}
    (h : ManifestIs wire d stateDir (.obj fields)) :
    ((∃ r, readManifestCompiling raises wire d stateDir = .ok r) ↔
        ManifestTolerated raises wire d stateDir) ∧
      ∀ r, readManifestCompiling raises wire d stateDir = .ok r →
        (r.isSome = true ↔ ListsValid wire d stateDir) := by
  rw [manifestTolerated_iff h]
  cases hn : listOf (((Json.obj fields).field? "names").getD (.arr [])) with
  | error e =>
    have hno : ∀ name, ¬ Lists (.obj fields) name := by
      rintro name ⟨names, hnames, -⟩
      rw [hn] at hnames
      cases hnames
    have hlists : ¬ ListsValid wire d stateDir := by
      refine not_listsValid fun manifest name hm => ?_
      obtain rfl := manifest_unique h hm
      exact hno name
    rw [manifest_unlisted h hn]
    refine ⟨iff_of_true ⟨_, rfl⟩ ⟨fun name hl => absurd hl (hno name), fun hl => absurd hl hlists⟩, ?_⟩
    intro r hnone
    obtain rfl := Except.ok.inj hnone
    simp [hlists]
  | ok names =>
    have hfiles : ∀ name ∈ names, IsReadable d (policyPath stateDir name.toStr) :=
      fun name hname => hr.listed _ name h ((lists_iff hn).mpr hname)
    rw [manifest_listed h hn, listsValid_iff h hn]
    constructor
    · simp only [lists_iff hn, bind_eq_ok]
      rw [← readPoliciesCompiling_ok_iff hfiles]
      constructor
      · rintro ⟨r, rows, hrows, hc⟩
        refine ⟨⟨rows, hrows⟩, fun hvalid => ?_⟩
        exact loadedCache_ok_iff.mp ⟨r, hc⟩ ((ne_nil_of_readPoliciesCompiling hfiles hrows).mpr hvalid)
      · rintro ⟨⟨rows, hrows⟩, hprimary⟩
        obtain ⟨r, hc⟩ := loadedCache_ok_iff.mpr fun hne =>
          hprimary ((ne_nil_of_readPoliciesCompiling hfiles hrows).mp hne)
        exact ⟨r, rows, hrows, hc⟩
    · intro r hread
      obtain ⟨rows, hrows, hc⟩ := bind_eq_ok.mp hread
      rw [isSome_of_loadedCache hc, ne_nil_of_readPoliciesCompiling hfiles hrows]

theorem manifest_notObject {manifest : Json} (h : ManifestIs wire d stateDir manifest)
    (hno : ∀ fields, manifest ≠ .obj fields) :
    readManifestCompiling raises wire d stateDir = .error .attributeError := by
  rw [manifest_parsed h]
  cases manifest with
  | obj fields => exact absurd rfl (hno fields)
  | _ => rfl

/-- **The manifest layout raises nothing** when it is tolerated, and then it is a
hit when it lists a valid policy. -/
theorem readManifestCompiling_ok_iff (raises : CompileRaises) (hr : FilesReadable wire d stateDir) :
    ((∃ r, readManifestCompiling raises wire d stateDir = .ok r) ↔
        ManifestTolerated raises wire d stateDir) ∧
      ∀ r, readManifestCompiling raises wire d stateDir = .ok r →
        (r.isSome = true ↔ ListsValid wire d stateDir) := by
  obtain ⟨found, hfound⟩ := hr.manifestProbed
  cases found with
  | false =>
    obtain ⟨hread, hnone⟩ := manifest_absent raises hfound
    have hlists := not_listsValid fun manifest _ hm => absurd hm (hnone manifest)
    refine ⟨iff_of_true ⟨_, hread⟩ (manifestTolerated_of_none (fun e h => ?_) hnone), fun r h => ?_⟩
    · rw [hfound] at h
      cases h
    · obtain rfl := Except.ok.inj (hread.symm.trans h)
      simp [hlists]
  | true =>
    cases hparse : readText d (manifestPath stateDir) >>= wire.json.loads with
    | error e =>
      obtain ⟨hread, hnone⟩ := manifest_unparsed raises hfound hparse
      have hlists := not_listsValid fun manifest _ hm => absurd hm (hnone manifest)
      rw [hread]
      by_cases he : e.isValueError = true ∨ e = .typeError
      · have hhandled : (e.isValueError || e == .typeError) = true := by simpa using he
        simp only [hhandled, if_true]
        refine ⟨iff_of_true ⟨_, rfl⟩ (manifestTolerated_of_none (fun e' _ he' => ?_) hnone), ?_⟩
        · rw [hparse] at he'
          rwa [← Except.error.inj he']
        · intro r h
          obtain rfl := Except.ok.inj h
          simp [hlists]
      · have hescapes : (e.isValueError || e == .typeError) = false := by simpa using he
        simp only [hescapes, Bool.false_eq_true, if_false]
        refine ⟨iff_of_false (by simp) fun h => he (h.parsed e hfound hparse), fun r h => ?_⟩
        cases h
    | ok manifest =>
      have hm : ManifestIs wire d stateDir manifest := ⟨hfound, hparse⟩
      by_cases hobj : ∃ fields, manifest = .obj fields
      · obtain ⟨fields, rfl⟩ := hobj
        exact manifest_object hr hm
      · rw [manifest_notObject hm (fun fields he => hobj ⟨fields, he⟩)]
        exact ⟨iff_of_false (by simp) fun h => hobj (h.object manifest hm), fun r h => by cases h⟩

/-! ### The legacy file, and both -/

/-- **The legacy layout raises nothing** when its file is tolerated. -/
theorem readLegacyCompiling_ok_iff (raises : CompileRaises) (hr : FilesReadable wire d stateDir) :
    ((∃ r, readLegacyCompiling raises wire d stateDir = .ok r) ↔
        (pathExists d (legacyPath stateDir) = .ok true →
          FileTolerated raises wire d (legacyPath stateDir))) ∧
      ∀ r, readLegacyCompiling raises wire d stateDir = .ok r →
        (r.isSome = true ↔ ∃ p, HoldsValid wire d (legacyPath stateDir) p) := by
  obtain ⟨found, hfound⟩ := hr.legacyProbed
  cases found with
  | false =>
    have hread : readLegacyCompiling raises wire d stateDir = .ok none := by
      rw [readLegacyCompiling, hfound]
      rfl
    rw [hread, hfound]
    refine ⟨iff_of_true ⟨_, rfl⟩ (by simp), fun r h => ?_⟩
    obtain rfl := Except.ok.inj h
    refine iff_of_false (by simp) fun ⟨p, hp, _⟩ => ?_
    rw [hfound] at hp
    cases hp
  | true =>
    obtain ⟨body, hbody⟩ := hr.legacy hfound
    have hread : readLegacyCompiling raises wire d stateDir =
        readCompiled raises wire d (legacyPath stateDir) >>= fun read =>
          .ok (read.map (fun r => PolicyCache.install r.2 r.1)) := by
      rw [readLegacyCompiling, hfound]
      rfl
    rw [hread]
    refine ⟨?_, fun r h => ?_⟩
    · rw [← readCompiled_ok_iff hbody]
      simp only [hfound, true_imp_iff, bind_eq_ok]
      exact ⟨fun ⟨_, read, h, _⟩ => ⟨read, h⟩, fun ⟨read, h⟩ => ⟨_, read, h, rfl⟩⟩
    · obtain ⟨read, hread, h⟩ := bind_eq_ok.mp h
      obtain rfl := Except.ok.inj h
      rw [Option.isSome_map, isSome_of_readCompiled hbody hread]
      exact ⟨fun ⟨p, hp⟩ => ⟨p, hfound, hp⟩, fun ⟨p, hp⟩ => ⟨p, hp.2⟩⟩

/-- **Both layouts** raise nothing when the contents are tolerated. -/
theorem readDiskCompiling_ok_iff (raises : CompileRaises) (hr : FilesReadable wire d stateDir) :
    ((∃ r, readDiskCompiling raises wire d stateDir = .ok r) ↔
        Tolerated raises wire d stateDir) ∧
      ∀ r, readDiskCompiling raises wire d stateDir = .ok r →
        (r.isSome = true ↔
          ListsValid wire d stateDir ∨ ∃ p, HoldsValid wire d (legacyPath stateDir) p) := by
  obtain ⟨hman, hmanSome⟩ := readManifestCompiling_ok_iff raises hr
  obtain ⟨hleg, hlegSome⟩ := readLegacyCompiling_ok_iff raises hr
  refine ⟨⟨?_, fun ht => ?_⟩, fun r h => ?_⟩
  · rintro ⟨r, h⟩
    obtain ⟨m, hm, h⟩ := bind_eq_ok.mp h
    refine ⟨hman.mp ⟨m, hm⟩, fun hno => ?_⟩
    cases m with
    | some c => exact absurd ((hmanSome _ hm).mp rfl) hno
    | none => exact hleg.mp ⟨r, h⟩
  · obtain ⟨m, hm⟩ := hman.mpr ht.toManifestTolerated
    cases m with
    | some c => exact ⟨some c, bind_eq_ok.mpr ⟨some c, hm, rfl⟩⟩
    | none =>
      have hno : ¬ ListsValid wire d stateDir := by
        rw [← hmanSome _ hm]
        simp
      obtain ⟨r, h⟩ := hleg.mpr (ht.legacy hno)
      exact ⟨r, bind_eq_ok.mpr ⟨none, hm, h⟩⟩
  · obtain ⟨m, hm, h⟩ := bind_eq_ok.mp h
    have hlists := hmanSome _ hm
    cases m with
    | some c =>
      obtain rfl := Except.ok.inj h
      exact iff_of_true rfl (Or.inl (hlists.mp rfl))
    | none =>
      have hno : ¬ ListsValid wire d stateDir := by
        rw [← hlists]
        simp
      rw [hlegSome r h, or_iff_right hno]

/-- **A load tolerates a disk** exactly where its contents are tolerated. -/
theorem load_tolerates_iff (raises : CompileRaises) (wire : PolicyWire) (d : Disk)
    (stateDir : Path) (hr : FilesReadable wire d stateDir) :
    LoadTolerates raises wire d stateDir ↔ Tolerated raises wire d stateDir := by
  obtain ⟨hdisk, hsome⟩ := readDiskCompiling_ok_iff raises hr
  rw [← hdisk]
  constructor
  · intro h
    obtain ⟨b, hb, -⟩ := h {}
    rw [PolicyCache.loadFromDiskCompiling] at hb
    cases hread : readDiskCompiling raises wire d stateDir with
    | ok r => exact ⟨r, rfl⟩
    | error e =>
      rw [hread] at hb
      cases hb
  · rintro ⟨r, hread⟩ c
    have hhit := hsome r hread
    rw [PolicyCache.loadFromDiskCompiling, hread]
    cases r with
    | some c' => exact ⟨true, rfl, by simp, fun _ => rfl⟩
    | none => exact ⟨false, rfl, fun _ => rfl, fun hvalid => absurd (hhit.mpr hvalid) (by simp)⟩

end Layouts

/-! A state directory with a manifest that is not JSON, with one that is no
object, and with one whose policy file is gone; a valid `policy.json` in each. -/

def emptyListText : Str := "[]"

def garbageText : Str := "\x7bnot valid json"

def loadWire : PolicyWire where
  json :=
    { loads := fun t => if t = emptyListText then .ok (.arr []) else demoWire.json.loads t
      dumps := demoWire.json.dumps }
  validate := demoWire.validate
  dump := demoWire.dump

/-- The disk with this text in `manifest.json`. -/
def diskWithManifest (text : Str) : Disk :=
  ((do
      makeDirs stateDir
      writeText (manifestPath stateDir) text
      writeText (legacyPath stateDir) (demoText "pol-b" "b") : DiskM Unit).run
    { disk := .empty, now := 5, faults := [] }).2.disk

/-- No exception of a compile. -/
def compilesAll : CompileRaises := fun _ => none

def manifestTexts : List Str := [garbageText, emptyListText, manifestText]

theorem diskWithManifest_reads : ∀ text ∈ manifestTexts,
    (readText (diskWithManifest text) (manifestPath stateDir)).toOption = some text ∧
      (readText (diskWithManifest text) (legacyPath stateDir)).toOption =
        some (demoText "pol-b" "b") ∧
      (pathExists (diskWithManifest text) (manifestPath stateDir)).toOption = some true ∧
      (pathExists (diskWithManifest text) (legacyPath stateDir)).toOption = some true := by
  decide +kernel

theorem isReadable_of_readText {d : Disk} {path : PurePath} {text : Str}
    (h : readText d path = .ok text) : IsReadable d path := by
  obtain ⟨body, hbody, -⟩ := bind_eq_ok.mp h
  exact fun _ => ⟨body, hbody⟩

theorem diskWithManifest_is {text : Str} (htext : text ∈ manifestTexts) {manifest : Json}
    (h : ManifestIs loadWire (diskWithManifest text) stateDir manifest) :
    loadWire.json.loads text = .ok manifest := by
  obtain ⟨hman, -⟩ := diskWithManifest_reads text htext
  have hloads := h.2
  rwa [toOption_eq_some.mp hman] at hloads

theorem diskWithManifest_readable {text : Str} (htext : text ∈ manifestTexts)
    (hlisted : ∀ manifest name, loadWire.json.loads text = .ok manifest → Lists manifest name →
      IsReadable (diskWithManifest text) (@policyPath stateDir (@Json.toStr asciiRuntime name))) :
    @FilesReadable asciiRuntime loadWire (diskWithManifest text) stateDir := by
  obtain ⟨hman, hleg, hmanExists, hlegExists⟩ := diskWithManifest_reads text htext
  refine @FilesReadable.mk asciiRuntime _ _ _ (isReadable_of_readText (toOption_eq_some.mp hman))
    ⟨_, toOption_eq_some.mp hmanExists⟩ (isReadable_of_readText (toOption_eq_some.mp hleg))
    ⟨_, toOption_eq_some.mp hlegExists⟩ fun manifest name hm hl => ?_
  exact hlisted manifest name (diskWithManifest_is htext hm) hl

theorem loads_garbage : loadWire.json.loads garbageText = .error .jsonDecodeError := by
  have h0 : garbageText ≠ emptyListText := by decide
  have h1 : garbageText ≠ manifestText := by decide +kernel
  have h2 : garbageText ≠ demoText "pol-a" "a" := by decide +kernel
  have h3 : garbageText ≠ demoText "pol-b" "b" := by decide +kernel
  simp only [loadWire, demoWire, if_neg h0, if_neg h1, if_neg h2, if_neg h3]

theorem loads_emptyList : loadWire.json.loads emptyListText = .ok (.arr []) := by
  simp only [loadWire, if_true]

theorem loads_manifest : loadWire.json.loads manifestText =
    .ok (manifestJson [policyA] (some "a")) := by
  have h0 : manifestText ≠ emptyListText := by decide +kernel
  simp only [loadWire, demoWire, if_neg h0, if_true]

theorem parse_legacy : loadWire.parse (demoText "pol-b" "b") = .ok policyB := by
  have h0 : demoText "pol-b" "b" ≠ emptyListText := by decide +kernel
  have hloads : loadWire.json.loads (demoText "pol-b" "b") = .ok (demoJsonOf "pol-b" "b") := by
    simp only [loadWire, if_neg h0]
    exact demo_loads_b
  rw [PolicyWire.parse, hloads]
  rfl

/-- A manifest that is not JSON is got over: the legacy file is loaded. -/
theorem load_tolerates_garbage :
    @LoadTolerates asciiRuntime compilesAll loadWire (diskWithManifest garbageText) stateDir := by
  have htext : garbageText ∈ manifestTexts := List.mem_cons_self
  have hnone : ∀ manifest, loadWire.json.loads garbageText ≠ .ok manifest := by
    simp [loads_garbage]
  have hno : ∀ manifest, ¬ ManifestIs loadWire (diskWithManifest garbageText) stateDir manifest :=
    fun manifest hm => hnone manifest (diskWithManifest_is htext hm)
  obtain ⟨hman, hleg, -⟩ := diskWithManifest_reads garbageText htext
  refine (@load_tolerates_iff asciiRuntime compilesAll loadWire _ stateDir
    (diskWithManifest_readable htext fun manifest _ hm => absurd hm (hnone manifest))).mpr
    (@Tolerated.mk asciiRuntime _ _ _ _ ?_ fun _ _ => ⟨fun e he => ?_, fun p _ => rfl⟩)
  · refine @manifestTolerated_of_none _ _ _ _ asciiRuntime (fun e _ he => ?_) hno
    rw [toOption_eq_some.mp hman] at he
    have hdecode : Except.error e = Except.error .jsonDecodeError := he.symm.trans loads_garbage
    rw [Except.error.inj hdecode]
    exact Or.inl rfl
  · rw [toOption_eq_some.mp hleg] at he
    simp [bind, Except.bind, parse_legacy] at he

theorem not_loadTolerates {d : Disk}
    (h : (@readDiskCompiling asciiRuntime compilesAll loadWire d stateDir).toBool = false) :
    ¬ @LoadTolerates asciiRuntime compilesAll loadWire d stateDir := by
  intro ht
  obtain ⟨b, hb, -⟩ := ht {}
  simp only [PolicyCache.loadFromDiskCompiling] at hb
  cases hread : @readDiskCompiling asciiRuntime compilesAll loadWire d stateDir with
  | ok r => simp [hread, Except.toBool] at h
  | error e => simp [hread] at hb

/-- A manifest that is a list, and one whose policy file is gone, abort the
load. -/
theorem load_raises :
    (@FilesReadable asciiRuntime loadWire (diskWithManifest emptyListText) stateDir ∧
        ¬ @LoadTolerates asciiRuntime compilesAll loadWire (diskWithManifest emptyListText)
          stateDir) ∧
      @FilesReadable asciiRuntime loadWire (diskWithManifest manifestText) stateDir ∧
        ¬ @LoadTolerates asciiRuntime compilesAll loadWire (diskWithManifest manifestText)
          stateDir := by
  refine ⟨⟨diskWithManifest_readable (by simp [manifestTexts]) fun manifest name hm hl => ?_,
      not_loadTolerates (by decide +kernel)⟩,
    diskWithManifest_readable (by simp [manifestTexts]) fun manifest name hm hl => ?_,
    not_loadTolerates (by decide +kernel)⟩
  · obtain rfl := Except.ok.inj (loads_emptyList.symm.trans hm)
    simp [Lists, Json.field?, listOf] at hl
  · obtain rfl := Except.ok.inj (loads_manifest.symm.trans hm)
    have hnames : listOf (((manifestJson [policyA] (some "a")).field? "names").getD (.arr [])) =
        .ok [.str "a"] := rfl
    obtain rfl : name = .str "a" := List.mem_singleton.mp ((lists_iff hnames).mp hl)
    intro hfound
    have habs : (pathExists (diskWithManifest manifestText) (policyPath stateDir "a")).toOption =
        some false := by decide +kernel
    cases hfound.symm.trans (toOption_eq_some.mp habs)

end TrustModelEdge.Policy
