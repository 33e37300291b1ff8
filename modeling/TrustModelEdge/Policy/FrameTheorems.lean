/-
TrustModelEdge.Policy.FrameTheorems — which files a write of the policies
can touch.

The path of a policy file is made of its bundle name, which nothing checks.
Everything else the write names lies in its own directories, so the matter
is decided by the temporary paths of the policies (`StaysInside`): a file
is renamed within the directory of its temporary one (`ownFile_target`).
-/
import TrustModelEdge.Policy.RepairTheorems
import TrustModelEdge.Py.FrameRules

namespace TrustModelEdge.Policy

open Py Py.DiskM Lib Lib.FileTree

/-! ## The files of the layout -/

/-- The temporary path of a policy. -/
def policyTmp (dir : Path) (name : Str) : PurePath := (policyPath dir name).withSuffix tmpSuffix

section Paths

/-- What is appended without a separator belongs to the last piece. -/
theorem split_append {sep : CodePoint} {t : Str} (ht : sep ∉ t) (s : Str) :
    ∃ init x, split sep (s ++ t) = init ++ [x ++ t] := by
  induction s with
  | nil =>
    refine ⟨[], [], List.splitOnP_eq_singleton fun c hc => ?_⟩
    simpa using fun he : c = sep => ht (he ▸ hc)
  | cons c s ih =>
    obtain ⟨init, x, h⟩ := ih
    have hcons : split sep (c :: (s ++ t)) = if c == sep then [] :: split sep (s ++ t)
        else (split sep (s ++ t)).modifyHead (List.cons c) :=
      @List.splitOnP_cons_eq_if_modifyHead _ (· == sep) c (s ++ t)
    rw [List.cons_append, hcons, h]
    split
    · exact ⟨[] :: init, x, rfl⟩
    · cases init with
      | nil => exact ⟨[], c :: x, rfl⟩
      | cons i init => exact ⟨(c :: i) :: init, x, rfl⟩

/-- The last component of a policy path is a `*.json` name. -/
theorem pathParts_json (name : Str) :
    ∃ init x, pathParts (fileName name) = init ++ [fileName x] := by
  obtain ⟨init, x, h⟩ := split_append
    (show CodePoint.ofChar '/' ∉ (".json" : Str) by decide) name
  refine ⟨init.filter (fun c => c ≠ [] ∧ c ≠ (".": Str)), x, ?_⟩
  have hkeep := And.intro (fileName_ne_nil x) (fileName_ne_dot x)
  rw [pathParts, fileName, h, List.filter_append]
  simpa [fileName] using hkeep

/-- The path of a policy and its temporary path differ in their last component. -/
theorem policyPath_parts (dir : Path) (name : Str) : ∃ root init x,
    policyPath dir name = { root := root, parts := init ++ [fileName x] } ∧
      policyTmp dir name =
        { root := root, parts := init ++ [tmpName (stem (fileName x))] } := by
  obtain ⟨init, x, h⟩ := pathParts_json name
  have hpath : ∃ root, policyPath dir name = { root := root, parts := init ++ [fileName x] } := by
    simp only [policyPath, PurePath.join, PurePath.ofDir]
    split
    · exact ⟨[], congrArg _ h⟩
    · exact ⟨policiesDir dir, congrArg _ h⟩
  obtain ⟨root, hroot⟩ := hpath
  refine ⟨root, init, x, hroot, ?_⟩
  rw [policyTmp, hroot]
  simp [PurePath.withSuffix, tmpName, tmpSuffix]

end Paths

/-! ## Nothing outside is touched -/

section Inside

variable {wire : PolicyWire} {dir : Path} {d : Disk}

theorem leads_child {f : Str} {q : Path} (hup : f ≠ (".." : Str))
    (h : Leads d (child dir f) q) : q = dir ++ [f] :=
  ((resolve_child hup).mp h.1).2.2

/-- What `persistManifest` does after its directories are there. -/
def persistFiles (wire : PolicyWire) (dir : Path) (policies : List EdgePolicy)
    (primaryName : Option Str) : DiskM Unit := do
  persistPolicies wire dir policies
  let disk ← DiskM.getDisk
  dropOrphans dir (policies.map (·.bundle.name)) (globJson disk (policiesDir dir))
  writeAside (manifestPath dir) (wire.json.dumps (manifestJson policies primaryName))

/-- A policy that can be written is, and the directories stay. -/
theorem finishes_writeAside {target : PurePath} {text : Str} {q q' : Path}
    (hbytes : text.any isSurrogate = false) (hq : Leads d (target.withSuffix tmpSuffix) q)
    (hq' : Leads d target q') :
    ∃ d', Finishes d (writeAside target text) () d' ∧ d.SameDirs d' := by
  obtain ⟨d₁, hfin₁, hwrite⟩ := Finishes.writeText_of_leads 0 hq hbytes
  have hdirs := sameDirs_write hwrite
  have hbody : d₁.lookup q = some (.file { text := some text, mtime := 0 }) := by
    rw [lookup_write hwrite, if_pos rfl]
  obtain ⟨d₂, hfin₂, hrename⟩ := Finishes.replaceFile_of_leads
    ((leads_congr hdirs).mpr hq).1 hbody ((leads_congr hdirs).mpr hq')
  exact ⟨d₂, hfin₁.bind hfin₂, hdirs.trans (sameDirs_rename hrename)⟩

end Inside

/-! ## The whole write -/

end TrustModelEdge.Policy
