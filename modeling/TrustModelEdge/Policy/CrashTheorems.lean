/-
TrustModelEdge.Policy.CrashTheorems — what a cut write of the policy
layouts leaves on disk.
-/
import TrustModelEdge.Policy.RestartTheorems
import TrustModelEdge.Policy.Sync
import TrustModelEdge.Py.CrashRules

namespace TrustModelEdge.Policy

open Py Py.DiskM Lib

/-! ## What every file is -/

section EveryFile

variable {wire : PolicyWire} {dir : Path} {F : FileBody → Prop}

theorem writeAside_keeps {target : PurePath} {text : Str}
    (htext : ∀ t, F { text := some text, mtime := t })
    (hempty : ∀ t, F { text := some [], mtime := t }) :
    Keeps (FileTree.EveryFile F) (writeAside target text) :=
  .bind (.writeText htext hempty) (fun _ => .replaceFile)

/-- The files written are texts of the policies. -/
theorem persistPolicies_keeps {policies : List EdgePolicy}
    (hdump : ∀ p ∈ policies, ∀ text, wire.dump p = .ok text →
      ∀ t, F { text := some text, mtime := t })
    (hempty : ∀ t, F { text := some [], mtime := t }) :
    Keeps (FileTree.EveryFile F) (persistPolicies wire dir policies) := by
  induction policies with
  | nil => exact .pure ()
  | cons p ps ih =>
    refine .lift_bind fun text htext => ?_
    refine .bind (writeAside_keeps (hdump p List.mem_cons_self text htext) hempty) fun _ => ?_
    exact ih (fun q hq => hdump q (List.mem_cons_of_mem _ hq))

theorem dropOrphans_keeps {names files : List Str} :
    Keeps (FileTree.EveryFile F) (dropOrphans dir names files) := by
  induction files with
  | nil => exact .pure ()
  | cons f fs ih =>
    refine .bind ?_ (fun _ => ih)
    unfold dropOrphan
    split
    · exact .pure ()
    · exact .unlink

/-- Every file a write of the manifest layout leaves was there before, or is
the text of a policy, of the manifest, or empty. -/
theorem persistManifest_keeps {policies : List EdgePolicy} {primaryName : Option Str}
    (hdump : ∀ p ∈ policies, ∀ text, wire.dump p = .ok text →
      ∀ t, F { text := some text, mtime := t })
    (hman : ∀ t, F { text := some (wire.json.dumps (manifestJson policies primaryName)), mtime := t })
    (hempty : ∀ t, F { text := some [], mtime := t }) :
    Keeps (FileTree.EveryFile F) (persistManifest wire dir policies primaryName) := by
  refine .bind .makeDirs fun _ => .bind .makeDirs fun _ => ?_
  refine .bind (persistPolicies_keeps hdump hempty) fun _ => ?_
  refine .getDisk_bind fun disk => .bind dropOrphans_keeps fun _ => ?_
  exact writeAside_keeps hman hempty

theorem persistLegacy_keeps {p : EdgePolicy}
    (hdump : ∀ text, wire.dump p = .ok text → ∀ t, F { text := some text, mtime := t })
    (hempty : ∀ t, F { text := some [], mtime := t }) :
    Keeps (FileTree.EveryFile F) (persistLegacy wire dir p) := by
  refine .bind .makeDirs fun _ => .lift_bind fun text htext => ?_
  exact writeAside_keeps (hdump text htext) hempty

end EveryFile

/-! ## Writes without faults -/

section Faultless

variable {wire : PolicyWire} {dir : Path}

theorem replays_writeAside (target : PurePath) (text : Str) : Replays (writeAside target text) :=
  .bind (.writeText _ _) (fun _ => .operation _ _)

theorem replays_persistPolicies (policies : List EdgePolicy) :
    Replays (persistPolicies wire dir policies) := by
  induction policies with
  | nil => exact .pure ()
  | cons p ps ih =>
    exact Replays.bind (.lift _) fun text =>
      Replays.bind (replays_writeAside _ text) fun _ => ih

theorem replays_dropOrphan (names : List Str) (file : Str) :
    Replays (dropOrphan dir names file) := by
  unfold dropOrphan
  split
  · exact .pure ()
  · exact .ignoreOsError_operation _ _

/-- The loop over the orphans creates no file. -/
theorem dropOrphans_absent {names files : List Str} {r : Path} {env env' : DiskEnv}
    (h : (dropOrphans dir names files).run env = (.ok (), env'))
    (hnone : env.disk.lookup r = none) : env'.disk.lookup r = none := by
  induction files generalizing env with
  | nil =>
    obtain ⟨-, rfl⟩ := DiskM.pure_ok h
    exact hnone
  | cons g gs ih =>
    obtain ⟨_, env₁, h₁, h₂⟩ := DiskM.bind_ok h
    refine ih h₂ ?_
    unfold dropOrphan at h₁
    split at h₁
    · obtain ⟨-, rfl⟩ := DiskM.pure_ok h₁
      exact hnone
    · obtain ⟨-, hdisk | ⟨q, -, hrem⟩⟩ := ignoreOsError_unlink_ok h₁
      · rw [hdisk, hnone]
      · rw [FileTree.lookup_remove hrem, hnone, ite_self]

/-- A removed orphan is gone, whatever else the loop drops. -/
theorem dropOrphans_removes {names files : List Str} {f : Str}
    (hu : Usable (policiesDir dir) f) (hstem : stem f ∉ names) (hup : ∀ g ∈ files, g ≠ (".." : Str))
    {env env' : DiskEnv} (hf : env.faults = [])
    (h : (dropOrphans dir names files).run env = (.ok (), env')) (hin : f ∈ files)
    {body : FileBody} (hbody : env.disk.lookup (policiesDir dir ++ [f]) = some (.file body)) :
    env'.disk.lookup (policiesDir dir ++ [f]) = none := by
  induction files generalizing env with
  | nil => cases hin
  | cons g gs ih =>
    obtain ⟨_, env₁, h₁, h₂⟩ := DiskM.bind_ok h
    obtain ⟨hf₁, -, -⟩ := replays_dropOrphan names g _ _ _ hf h₁
    unfold dropOrphan at h₁
    by_cases hgf : g = f
    · subst hgf
      rw [if_neg hstem] at h₁
      have hq := (resolve_child hu.notUp).mpr ⟨hu, FileTree.isDir_of_child _ hbody, rfl⟩
      refine dropOrphans_absent h₂ ?_
      rw [FileTree.lookup_remove (unlink_removes hf hq hbody h₁), if_pos rfl]
    · refine ih (fun k hk => hup k (List.mem_cons_of_mem _ hk)) hf₁ h₂
        ((List.mem_cons.mp hin).resolve_left (Ne.symm hgf)) ?_
      split at h₁
      · obtain ⟨-, rfl⟩ := DiskM.pure_ok h₁
        exact hbody
      · obtain ⟨-, hdisk | ⟨q, hq, hrem⟩⟩ := ignoreOsError_unlink_ok h₁
        · rw [hdisk, hbody]
        · obtain ⟨-, -, rfl⟩ := (resolve_child (hup g List.mem_cons_self)).mp hq
          rw [FileTree.lookup_remove hrem, if_neg (child_ne_child _ (Ne.symm hgf)), hbody]

end Faultless

end TrustModelEdge.Policy
