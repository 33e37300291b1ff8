/-
TrustModelEdge.Policy.CallTheorems — the representation invariant through
every call, however it ends.

A call that raises before it assigns leaves the cache; one that raises in
its disk half has assigned already; a load assigns what it read, or
nothing. So each call that changes the cache installs, and `CacheInv` is
what an install establishes.
-/
import TrustModelEdge.Policy.Calls
import TrustModelEdge.Policy.CacheTheorems

namespace TrustModelEdge.Policy

open Py Engine Lib

section Loading

variable [PyRuntime] {raises : CompileRaises} {wire : PolicyWire} {d : Disk} {stateDir : Path}

omit [PyRuntime] in
/-- What is read with its compile is read. -/
theorem readCompiled_ok {path : PurePath} {r : Option (EdgePolicy × Rat)}
    (h : readCompiled raises wire d path = .ok r) : readPolicy wire d path = .ok r := by
  obtain ⟨read, hread, h⟩ := bind_eq_ok.mp h
  cases read with
  | none =>
    cases h
    exact hread
  | some row =>
    obtain ⟨_, -, h⟩ := bind_eq_ok.mp h
    cases h
    exact hread

/-- A name that is skipped or read with the compile is so without it. -/
theorem readListed_compiled {name : Json} {row : Option (EdgePolicy × Rat)}
    (h : readListed d stateDir (readCompiled raises wire d) name = .ok row) :
    readListed d stateDir (readPolicy wire d) name = .ok row := by
  cases row with
  | none =>
    obtain ⟨hlogs, hskip⟩ := readListed_none.mp h
    exact readListed_none.mpr ⟨hlogs, hskip.imp_right (And.imp_right readCompiled_ok)⟩
  | some row =>
    obtain ⟨hfound, hread⟩ := readListed_some.mp h
    exact readListed_some.mpr ⟨hfound, readCompiled_ok hread⟩

theorem readPoliciesCompiling_cons {name : Json} {names : List Json}
    {rows : List (EdgePolicy × Rat)} :
    readPoliciesCompiling raises wire d stateDir (name :: names) = .ok rows ↔
      ∃ row rest, readListed d stateDir (readCompiled raises wire d) name = .ok row ∧
        readPoliciesCompiling raises wire d stateDir names = .ok rest ∧
        rows = row.toList ++ rest :=
  collect_ok_iff

theorem readPoliciesCompiling_ok {names : List Json} {rows : List (EdgePolicy × Rat)}
    (h : readPoliciesCompiling raises wire d stateDir names = .ok rows) :
    readPolicies wire d stateDir names = .ok rows := by
  induction names generalizing rows with
  | nil => exact h
  | cons name names ih =>
    obtain ⟨row, rest, hrow, hrest, rfl⟩ := readPoliciesCompiling_cons.mp h
    exact readPolicies_cons.mpr ⟨row, rest, readListed_compiled hrow, ih hrest, rfl⟩

/-- A manifest load that made a cache made it of the rows. -/
theorem readManifestCompiling_some {c : PolicyCache}
    (h : readManifestCompiling raises wire d stateDir = .ok (some c)) :
    ∃ names primaryName rows,
      readText d (manifestPath stateDir) >>= wire.json.loads >>= manifestEntries =
        .ok (names, primaryName) ∧
      readPoliciesCompiling raises wire d stateDir names = .ok rows ∧
      loadedCache rows primaryName = .ok (some c) := by
  obtain ⟨found, -, h⟩ := bind_eq_ok.mp h
  cases found with
  | false => cases h
  | true =>
    simp only [if_true] at h
    split at h
    · split at h
      · cases h
      · cases h
    · rename_i names primaryName hentries
      obtain ⟨rows, hrows, h⟩ := bind_eq_ok.mp h
      exact ⟨names, primaryName, rows, hentries, hrows, h⟩

theorem readManifestCompiling_ok {r : Option PolicyCache}
    (h : readManifestCompiling raises wire d stateDir = .ok r) :
    readManifest wire d stateDir = .ok r := by
  obtain ⟨found, hfound, h⟩ := bind_eq_ok.mp h
  rw [readManifest, readManifestRows, hfound]
  cases found with
  | false => exact h
  | true =>
    simp only [if_true] at h
    cases hm : readText d (manifestPath stateDir) >>= wire.json.loads >>= manifestEntries with
    | error e =>
      rw [hm] at h
      simp only at h
      split at h
      · rename_i he
        cases h
        simp [bind, Except.bind, pure, Except.pure, he]
      · cases h
    | ok entries =>
      obtain ⟨names, primaryName⟩ := entries
      rw [hm] at h
      obtain ⟨rows, hrows, h⟩ := bind_eq_ok.mp h
      simp only [bind, Except.bind] at hm
      simpa [bind, Except.bind, pure, Except.pure, hm, readPoliciesCompiling_ok hrows] using h

theorem readLegacyCompiling_ok {r : Option PolicyCache}
    (h : readLegacyCompiling raises wire d stateDir = .ok r) :
    readLegacy wire d stateDir = .ok r := by
  obtain ⟨found, hfound, h⟩ := bind_eq_ok.mp h
  rw [readLegacy, hfound]
  cases found with
  | false => exact h
  | true =>
    obtain ⟨read, hread, h⟩ := bind_eq_ok.mp h
    show (readPolicy wire d (legacyPath stateDir) >>= fun read =>
      pure (read.map (fun r => PolicyCache.install r.2 r.1))) = _
    rw [readCompiled_ok hread]
    exact h

/-- **A load that returns** assigns what it would without a compile. -/
theorem readDiskCompiling_ok {r : Option PolicyCache}
    (h : readDiskCompiling raises wire d stateDir = .ok r) : readDisk wire d stateDir = .ok r := by
  obtain ⟨m, hm, h⟩ := bind_eq_ok.mp h
  rw [readDisk, readManifestCompiling_ok hm]
  cases m with
  | some c => exact h
  | none => exact readLegacyCompiling_ok h

end Loading

section Calls

variable [PyRuntime] (wire : PolicyWire)

/-- **One call**, however it ends, keeps the invariant. -/
theorem cacheInv_callStep {c : PolicyCache} (call : CacheCall) (h : CacheInv c) :
    CacheInv (callStep wire c call).1 := by
  cases call with
  | replace raises now p stateDir env =>
    simp only [callStep]
    cases compiles raises p with
    | error e => exact h
    | ok _ => exact cacheInv_install now p
  | replaceAll raises now policies primaryName stateDir env =>
    simp only [callStep]
    cases policies.forM (compiles raises) with
    | error e => exact h
    | ok _ => exact cacheInv_installAll now policies primaryName
  | loadFromDisk raises d stateDir =>
    simp only [callStep, PolicyCache.loadFromDiskCompiling]
    cases hr : readDiskCompiling raises wire d stateDir with
    | error e => exact h
    | ok r =>
      cases r with
      | none => exact h
      | some c' => exact cacheInv_readDisk (readDiskCompiling_ok hr)

/-- Every state that calls lead to. -/
theorem cacheInv_calls (calls : List CacheCall) : CacheInv (final (callStep wire) {} calls) := by
  have hstep : ∀ c call, CacheInv c → True → CacheInv (callStep wire c call).1 :=
    fun _ call h _ => cacheInv_callStep wire call h
  exact final_inv (callStep wire) hstep cacheInv_empty (fun _ _ => trivial)

end Calls

end TrustModelEdge.Policy
