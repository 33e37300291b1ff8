/-
TrustModelEdge.Policy.CacheTheorems — what a cache holds, in every state
that installs and loads can bring it to.

`CacheInv` is the representation invariant: keys are bundle names, every
compiled form is that of its own policy, the primary name is a key, and a
cache that holds a policy knows when it was last refreshed.
`reachable_snapshot` adds where a snapshot comes from: it is the last
policy of its name that the latest install put there.
-/
import TrustModelEdge.Lib.LastWins
import TrustModelEdge.Lib.Machine
import TrustModelEdge.Policy.Cache

namespace TrustModelEdge.Policy

open Py Engine Lib

/-! ## Maps of snapshots -/

theorem lookup_addSnapshots (snaps : List CacheSnapshot) (n : Str) :
    (snaps.foldl PolicyCache.addSnapshot ∅).lookup n =
      lastWith (fun s : CacheSnapshot => bundleName s.edgePolicy) n snaps := by
  have h := lookup_foldl_insert (fun s : CacheSnapshot => bundleName s.edgePolicy) n snaps ∅
  rw [AList.lookup_empty, Option.or_none] at h
  exact h

theorem mem_addSnapshots (snaps : List CacheSnapshot) (n : Str) :
    n ∈ snaps.foldl PolicyCache.addSnapshot ∅ ↔ ∃ s ∈ snaps, bundleName s.edgePolicy = n :=
  mem_foldl_insert (fun s : CacheSnapshot => bundleName s.edgePolicy) n snaps

/-- A map filled with a snapshot is not empty. -/
theorem isEmpty_addSnapshots (snaps : List CacheSnapshot) :
    (snaps.foldl PolicyCache.addSnapshot ∅).entries.isEmpty = snaps.isEmpty := by
  cases snaps with
  | nil => rfl
  | cons s snaps =>
    have hin : bundleName s.edgePolicy ∈ (s :: snaps).foldl PolicyCache.addSnapshot ∅ :=
      (mem_addSnapshots _ _).mpr ⟨s, List.mem_cons_self, rfl⟩
    by_contra he
    rw [List.isEmpty_cons, Bool.not_eq_false, List.isEmpty_iff] at he
    rw [AList.mem_keys, AList.keys, he] at hin
    simp at hin

theorem mem_of_keepPrimary {snapshots : Dict CacheSnapshot} {primaryName : Option Str} {n : Str}
    (h : PolicyCache.keepPrimary snapshots primaryName = some n) : n ∈ snapshots := by
  unfold PolicyCache.keepPrimary at h
  obtain ⟨-, hn⟩ := Option.filter_eq_some_iff.mp h
  simpa using hn

theorem loadedPrimary_mem {snapshots : Dict CacheSnapshot} {v : Json} {n : Str}
    (h : loadedPrimary snapshots v = .ok (some n)) : n ∈ snapshots := by
  cases v with
  | str s => exact mem_of_keepPrimary (Except.ok.inj h)
  | arr _ => simp [loadedPrimary] at h
  | obj _ => simp [loadedPrimary] at h
  | null => simp [loadedPrimary] at h
  | bool _ => simp [loadedPrimary] at h
  | int _ => simp [loadedPrimary] at h
  | float _ => simp [loadedPrimary] at h

variable [PyRuntime]

/-- `replace_all` serves the last policy of each name. -/
theorem lookup_installAll (now : Rat) (policies : List EdgePolicy) (primaryName : Option Str)
    (n : Str) : (PolicyCache.installAll now policies primaryName).snapshots.lookup n =
      (lastWith bundleName n policies).map (snapshotOf now) := by
  unfold PolicyCache.installAll
  simp only
  rw [lookup_addSnapshots, lastWith_map]
  rfl

theorem lookup_install (now : Rat) (p : EdgePolicy) (n : Str) :
    (PolicyCache.install now p).snapshots.lookup n =
      if bundleName p = n then some (snapshotOf now p) else none := by
  show ([snapshotOf now p].foldl PolicyCache.addSnapshot ∅).lookup n = _
  rw [lookup_addSnapshots, lastWith_cons]
  rfl

/-! ## The representation invariant -/

structure CacheInv (c : PolicyCache) : Prop where
  keyed : ∀ n s, c.snapshots.lookup n = some s →
    s.edgePolicy.bundle.name = n ∧ s.compiled = compile s.edgePolicy
  primary : ∀ n, c.primaryName = some n → n ∈ c.snapshots
  dated : c.isWarm = true → c.lastSuccessAt ≠ none

theorem keyed_addSnapshots (rows : List (EdgePolicy × Rat)) (n : Str) (s : CacheSnapshot)
    (h : ((rows.map (fun r => snapshotOf r.2 r.1)).foldl PolicyCache.addSnapshot ∅).lookup n =
      some s) : s.edgePolicy.bundle.name = n ∧ s.compiled = compile s.edgePolicy := by
  rw [lookup_addSnapshots] at h
  obtain ⟨hmem, hname⟩ := lastWith_eq_some h
  obtain ⟨r, -, rfl⟩ := List.mem_map.mp hmem
  exact ⟨hname, rfl⟩

theorem cacheInv_empty : CacheInv {} where
  keyed := by intro n s h; simp at h
  primary := by intro n h; simp at h
  dated := by intro h; simp [PolicyCache.isWarm] at h

theorem cacheInv_installAll (now : Rat) (policies : List EdgePolicy) (primaryName : Option Str) :
    CacheInv (.installAll now policies primaryName) where
  keyed := by
    intro n s h
    rw [lookup_installAll] at h
    obtain ⟨p, hp, rfl⟩ := Option.map_eq_some_iff.mp h
    exact ⟨(lastWith_eq_some hp).2, rfl⟩
  primary := fun n h => mem_of_keepPrimary h
  dated := fun _ => by simp [PolicyCache.installAll]

theorem cacheInv_install (now : Rat) (p : EdgePolicy) : CacheInv (.install now p) where
  keyed := by
    intro n s h
    rw [lookup_install] at h
    split at h
    · rename_i hn
      obtain rfl := Option.some.inj h
      exact ⟨hn, rfl⟩
    · simp at h
  primary := by
    intro n h
    obtain rfl : p.bundle.name = n := by simpa [PolicyCache.install] using h
    rw [← AList.lookup_isSome, lookup_install, if_pos rfl]
    rfl
  dated := fun _ => by simp [PolicyCache.install]

/-- What `loadedCache` returns is the map of the rows, with a time. -/
theorem loadedCache_some {rows : List (EdgePolicy × Rat)} {v : Json} {c : PolicyCache}
    (h : loadedCache rows v = .ok (some c)) :
    c.snapshots = (rows.map (fun r => snapshotOf r.2 r.1)).foldl PolicyCache.addSnapshot ∅ ∧
      loadedPrimary c.snapshots v = .ok c.primaryName ∧ c.lastSuccessAt ≠ none := by
  unfold loadedCache at h
  simp only at h
  split at h
  · simp at h
  · rename_i hne
    obtain ⟨primaryName, hp, h⟩ := bind_eq_ok.mp h
    cases h
    refine ⟨rfl, hp, ?_⟩
    simpa using hne

theorem loadedCache_date {rows : List (EdgePolicy × Rat)} {v : Json} {c : PolicyCache}
    (h : loadedCache rows v = .ok (some c)) :
    c.lastSuccessAt = (c.snapshots.entries.map (fun e => e.2.refreshedAt)).max? := by
  unfold loadedCache at h
  simp only at h
  split at h
  · simp at h
  · obtain ⟨primaryName, hp, h⟩ := bind_eq_ok.mp h
    cases h
    rfl

theorem cacheInv_loadedCache {rows : List (EdgePolicy × Rat)} {v : Json} {c : PolicyCache}
    (h : loadedCache rows v = .ok (some c)) : CacheInv c := by
  obtain ⟨hsnap, hprim, hdate⟩ := loadedCache_some h
  refine ⟨?_, ?_, fun _ => hdate⟩
  · intro n s hs
    rw [hsnap] at hs
    exact keyed_addSnapshots rows n s hs
  · intro n hn
    rw [hn] at hprim
    exact loadedPrimary_mem hprim

/-! ## Loads -/

section Loads

variable {wire : PolicyWire} {d : Disk} {stateDir : Path}

section Listed

@[simp] theorem skipWithWarning_some {α : Type} {o : Option α} {a : α} :
    skipWithWarning o = .ok (some a) ↔ o = some a := by
  cases o with
  | none => cases hl : PyRuntime.logsWarnings <;> simp [skipWithWarning, hl]
  | some b => simp [skipWithWarning]

@[simp] theorem skipWithWarning_none {α : Type} {o : Option α} :
    skipWithWarning o = .ok none ↔ PyRuntime.logsWarnings = false ∧ o = none := by
  cases o with
  | none => cases hl : PyRuntime.logsWarnings <;> simp [skipWithWarning, hl]
  | some b => simp [skipWithWarning]

variable {read : PurePath → Except Exc (Option (EdgePolicy × Rat))} {name : Json}

/-- A listed policy is read where its file is there. -/
theorem readListed_some {row : EdgePolicy × Rat} :
    readListed d stateDir read name = .ok (some row) ↔
      pathExists d (policyPath stateDir name.toStr) = .ok true ∧
        read (policyPath stateDir name.toStr) = .ok (some row) := by
  simp only [readListed]
  rcases pathExists d (policyPath stateDir name.toStr) with e | _ | _
  · simp [bind, Except.bind]
  · simp [bind, Except.bind]
  · rcases read (policyPath stateDir name.toStr) with e | r <;> simp [bind, Except.bind]

/-- A listed name is skipped where no warning is logged. -/
theorem readListed_none :
    readListed d stateDir read name = .ok none ↔
      PyRuntime.logsWarnings = false ∧
        (pathExists d (policyPath stateDir name.toStr) = .ok false ∨
          pathExists d (policyPath stateDir name.toStr) = .ok true ∧
            read (policyPath stateDir name.toStr) = .ok none) := by
  simp only [readListed]
  rcases pathExists d (policyPath stateDir name.toStr) with e | _ | _
  · simp [bind, Except.bind]
  · simp [bind, Except.bind]
  · rcases read (policyPath stateDir name.toStr) with e | r <;> simp [bind, Except.bind]

end Listed

omit [PyRuntime] in
/-- One turn of a loop that collects rows. -/
theorem collect_ok_iff {α : Type} {x : Except Exc (Option α)} {xs : Except Exc (List α)}
    {rows : List α} :
    (do
      let row ← x
      let rest ← xs
      return row.toList ++ rest) = .ok rows ↔
      ∃ row rest, x = .ok row ∧ xs = .ok rest ∧ rows = row.toList ++ rest := by
  simp only [bind_eq_ok, pure, Except.pure, Except.ok.injEq]
  constructor
  · rintro ⟨row, hrow, rest, hrest, he⟩
    exact ⟨row, rest, hrow, hrest, he.symm⟩
  · rintro ⟨row, rest, hrow, hrest, he⟩
    exact ⟨row, hrow, rest, hrest, he.symm⟩

theorem readPolicies_cons {name : Json} {names : List Json} {rows : List (EdgePolicy × Rat)} :
    readPolicies wire d stateDir (name :: names) = .ok rows ↔
      ∃ row rest, readListed d stateDir (readPolicy wire d) name = .ok row ∧
        readPolicies wire d stateDir names = .ok rest ∧ rows = row.toList ++ rest :=
  collect_ok_iff

theorem readManifest_some {c : PolicyCache}
    (h : readManifest wire d stateDir = .ok (some c)) :
    ∃ rows v, readManifestRows wire d stateDir = .ok (some (rows, v)) ∧
      loadedCache rows v = .ok (some c) := by
  obtain ⟨r, hr, h⟩ := bind_eq_ok.mp h
  cases r with
  | none => cases h
  | some r => exact ⟨r.1, r.2, hr, h⟩

theorem readLegacy_some {c : PolicyCache} (h : readLegacy wire d stateDir = .ok (some c)) :
    ∃ r, readPolicy wire d (legacyPath stateDir) = .ok (some r) ∧ c = .install r.2 r.1 := by
  obtain ⟨found, -, h⟩ := bind_eq_ok.mp h
  cases found with
  | false => cases h
  | true =>
    obtain ⟨r, hr, h⟩ := bind_eq_ok.mp h
    cases r with
    | none => cases h
    | some r =>
      cases h
      exact ⟨r, hr, rfl⟩

theorem readDisk_some {c : PolicyCache} (h : readDisk wire d stateDir = .ok (some c)) :
    readManifest wire d stateDir = .ok (some c) ∨
      (readManifest wire d stateDir = .ok none ∧ readLegacy wire d stateDir = .ok (some c)) := by
  obtain ⟨r, hm, h⟩ := bind_eq_ok.mp h
  cases r with
  | none => exact Or.inr ⟨hm, h⟩
  | some c' =>
    cases h
    exact Or.inl hm

theorem cacheInv_readDisk {c : PolicyCache} (h : readDisk wire d stateDir = .ok (some c)) :
    CacheInv c := by
  rcases readDisk_some h with hm | ⟨-, hl⟩
  · obtain ⟨rows, v, -, hc⟩ := readManifest_some hm
    exact cacheInv_loadedCache hc
  · obtain ⟨r, -, rfl⟩ := readLegacy_some hl
    exact cacheInv_install _ _

/-- The policies a load puts into the cache, in order: those the manifest
names, or the one of the legacy layout. -/
def loadedPolicies (wire : PolicyWire) (d : Disk) (stateDir : Path) : List EdgePolicy :=
  match readManifest wire d stateDir, readManifestRows wire d stateDir with
  | .ok (some _), .ok (some (rows, _)) => rows.map Prod.fst
  | _, _ =>
      match readPolicy wire d (legacyPath stateDir) with
      | .ok (some r) => [r.1]
      | _ => []

/-- A load serves the last policy it read of each name. -/
theorem lookup_readDisk {c : PolicyCache} (h : readDisk wire d stateDir = .ok (some c)) (n : Str) :
    (c.snapshots.lookup n).map (·.edgePolicy) =
      lastWith bundleName n (loadedPolicies wire d stateDir) := by
  unfold loadedPolicies
  rcases readDisk_some h with hm | ⟨hm, hl⟩
  · obtain ⟨rows, v, hr, hc⟩ := readManifest_some hm
    simp only [hm, hr]
    rw [(loadedCache_some hc).1, lookup_addSnapshots, lastWith_map, lastWith_map, Option.map_map]
    rfl
  · obtain ⟨r, hr, rfl⟩ := readLegacy_some hl
    simp only [hm, hr]
    rw [lookup_install, lastWith_cons]
    by_cases hn : bundleName r.1 = n
    · simp [hn, lastWith, snapshotOf]
    · simp [hn, lastWith]

end Loads

/-! ## The cache as a machine -/

/-- Everything that assigns to a cache. The disk half of a call, finished or
not, assigns nothing, so an installing call is its memory half. -/
inductive CacheOp where
  | replace (now : Rat) (p : EdgePolicy)
  | replaceAll (now : Rat) (policies : List EdgePolicy) (primaryName : Option Str)
  | loadFromDisk (d : Disk) (stateDir : Path)

/-- The policies an operation puts into the cache, in order; `none` for a load
that assigns nothing. -/
def CacheOp.installs (wire : PolicyWire) : CacheOp → Option (List EdgePolicy)
  | .replace _ p => some [p]
  | .replaceAll _ policies _ => some policies
  | .loadFromDisk d stateDir =>
      match readDisk wire d stateDir with
      | .ok (some _) => some (loadedPolicies wire d stateDir)
      | _ => none

/-- The cache after an operation, and what the operation installed. -/
def cacheStep (wire : PolicyWire) (c : PolicyCache) (op : CacheOp) :
    PolicyCache × Option (List EdgePolicy) :=
  (match op with
    | .replace now p => (PolicyCache.replace wire now p none).1
    | .replaceAll now policies primaryName =>
        (PolicyCache.replaceAll wire now policies primaryName none).1
    | .loadFromDisk d stateDir => (c.loadFromDisk wire d stateDir).1,
    op.installs wire)

/-- The latest of the installs so far. -/
def latestInstall (installs : List (Option (List EdgePolicy))) : List EdgePolicy :=
  ((installs.filterMap id).getLast?).getD []

omit [PyRuntime] in
theorem latestInstall_concat (os : List (Option (List EdgePolicy))) (o : Option (List EdgePolicy)) :
    latestInstall (os ++ [o]) = o.getD (latestInstall os) := by
  cases o <;> simp [latestInstall]

/-- What a cache is after a history of installs: the invariant holds, and each
name serves the last policy of that name in the latest install. -/
structure Installed (installs : List (Option (List EdgePolicy))) (c : PolicyCache) : Prop where
  inv : CacheInv c
  served : ∀ n, (c.snapshots.lookup n).map (·.edgePolicy) =
    lastWith bundleName n (latestInstall installs)

/-- What one policy serves. -/
theorem content_install (now : Rat) (p : EdgePolicy) (n : Str) :
    ((PolicyCache.install now p).snapshots.lookup n).map (·.edgePolicy) =
      lastWith bundleName n [p] := by
  rw [lookup_install, lastWith_cons]
  by_cases hn : bundleName p = n
  · simp [hn, lastWith, snapshotOf]
  · simp [hn, lastWith]

/-- What a list of policies serves. -/
theorem content_installAll (now : Rat) (policies : List EdgePolicy) (primaryName : Option Str)
    (n : Str) :
    ((PolicyCache.installAll now policies primaryName).snapshots.lookup n).map (·.edgePolicy) =
      lastWith bundleName n policies := by
  rw [lookup_installAll, Option.map_map]
  exact Option.map_id'

theorem installed_step (wire : PolicyWire) (os : List (Option (List EdgePolicy)))
    (c : PolicyCache) (op : CacheOp) (h : Installed os c) :
    Installed (os ++ [(cacheStep wire c op).2]) (cacheStep wire c op).1 := by
  cases op with
  | replace now p =>
    refine ⟨cacheInv_install now p, fun n => ?_⟩
    rw [latestInstall_concat]
    exact content_install now p n
  | replaceAll now policies primaryName =>
    refine ⟨cacheInv_installAll now policies primaryName, fun n => ?_⟩
    rw [latestInstall_concat]
    exact content_installAll now policies primaryName n
  | loadFromDisk d stateDir =>
    have hsame : Installed (os ++ [none]) c :=
      ⟨h.inv, fun n => by rw [latestInstall_concat]; exact h.served n⟩
    cases hd : readDisk wire d stateDir with
    | error e =>
      simp only [cacheStep, CacheOp.installs, PolicyCache.loadFromDisk, hd]
      exact hsame
    | ok r =>
      cases r with
      | none =>
        simp only [cacheStep, CacheOp.installs, PolicyCache.loadFromDisk, hd]
        exact hsame
      | some c' =>
        simp only [cacheStep, CacheOp.installs, PolicyCache.loadFromDisk, hd]
        refine ⟨cacheInv_readDisk hd, fun n => ?_⟩
        rw [latestInstall_concat]
        exact lookup_readDisk hd n

/-- **Every reachable cache** is installed by the history of its operations. -/
theorem installed_run (wire : PolicyWire) (ops : List CacheOp) :
    Installed (trace (cacheStep wire) {} ops) (final (cacheStep wire) {} ops) := by
  have hstep : ∀ os c op, Installed os c → True →
      Installed (os ++ [(cacheStep wire c op).2]) (cacheStep wire c op).1 :=
    fun os c op h _ => installed_step wire os c op h
  have hempty : Installed [] {} :=
    ⟨cacheInv_empty, fun n => by simp [latestInstall, lastWith]⟩
  exact trace_inv (cacheStep wire) hstep hempty (fun _ _ => trivial)

end TrustModelEdge.Policy
