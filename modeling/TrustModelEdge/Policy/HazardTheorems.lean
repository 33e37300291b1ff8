/-
TrustModelEdge.Policy.HazardTheorems — when the disk half of a swap raises.

Both layouts are read as lists of hazards (`legacyHazards`, `manifestHazards`),
made of the policies and the tree before the first operation. The only thing
that the writes before it decide for the sweep is which names it finds, so the
list is made with the tree that has the files in place (`placed`).
-/
import TrustModelEdge.Policy.Cache
import TrustModelEdge.Py.FailRules

namespace TrustModelEdge.Policy

open Py Py.DiskM Lib Lib.FileTree

section Hazards

variable (wire : PolicyWire) (dir : Path) (d : Disk)

/-- A text written aside: its temporary file, and the move. -/
def asideHazards (target : PurePath) (text : Str) : List Hazard :=
  writeHazards d (target.withSuffix tmpSuffix) text ++ [.operation (refuses d target)]

/-- The tree with a file at the target, which was written aside. -/
def placed (d : Disk) (target : PurePath) : Disk :=
  moved (put d (target.withSuffix tmpSuffix)) (target.withSuffix tmpSuffix) target

def policyHazards (target : PurePath) (p : EdgePolicy) : List Hazard :=
  match wire.dump p with
  | .error _ => [.raises]
  | .ok text => asideHazards d target text

/-- The tree with the directories of a path made, if they can be. -/
def made (d : Disk) (path : Path) : Disk := (d.mkdirs [] path).getD d

/-- The names that the sweep tries to unlink. -/
def orphans (policies : List EdgePolicy) : List Str :=
  let full := policies.foldl (fun d p => placed d (policyPath dir p.bundle.name)) d
  (globJson full (policiesDir dir)).filter (fun f => decide (stem f ∉ policies.map bundleName))

def manifestHazards (policies : List EdgePolicy) (primaryName : Option Str) : List Hazard :=
  let ready := made (made d dir) (policiesDir dir)
  [.operation (d.mkdirs [] dir).isNone,
      .operation ((made d dir).mkdirs [] (policiesDir dir)).isNone] ++
    policies.flatMap (fun p => policyHazards wire ready (policyPath dir p.bundle.name) p) ++
    (orphans dir ready policies).map (fun f => .tolerated (unusable (child (policiesDir dir) f))) ++
    asideHazards ready (manifestPath dir) (wire.json.dumps (manifestJson policies primaryName))

end Hazards

section Meets

variable {wire : PolicyWire} {dir : Path} {d d₀ : Disk}

theorem sameDirs_placed {target : PurePath} : d.SameDirs (placed d target) :=
  sameDirs_put.trans sameDirs_moved

theorem writeHazards_congr (h : d₀.SameDirs d) (p : PurePath) (text : Str) :
    writeHazards d p text = writeHazards d₀ p text := by
  unfold writeHazards
  rw [refuses_congr h]

theorem meets_writeAside (h : d₀.SameDirs d) {target : PurePath} {text : Str} :
    Meets (Alike d) (writeAside target text) (asideHazards d₀ target text)
      (fun _ => Alike (placed d target)) := by
  unfold asideHazards
  rw [← writeHazards_congr h, ← refuses_congr h]
  exact .bind .writeText fun _ => .of_fact fun hr => .replaceFile hr

/-- A policy written aside. -/
theorem meets_policy (h : d₀.SameDirs d) {target : PurePath} {p : EdgePolicy} :
    Meets (Alike d) (DiskM.lift (wire.dump p) >>= writeAside target)
      (policyHazards wire d₀ target p) (fun _ => Alike (placed d target)) := by
  unfold policyHazards
  cases wire.dump p with
  | error e => exact .raise_bind
  | ok text => exact meets_writeAside h

theorem sameDirs_foldl_placed (policies : List EdgePolicy) {d : Disk} :
    d.SameDirs (policies.foldl (fun d p => placed d (policyPath dir p.bundle.name)) d) := by
  induction policies generalizing d with
  | nil => exact .refl d
  | cons p ps ih => exact sameDirs_placed.trans ih

/-- The loop over the policies. -/
theorem meets_persistPolicies {policies : List EdgePolicy} (h : d₀.SameDirs d) :
    Meets (Alike d) (persistPolicies wire dir policies)
      (policies.flatMap (fun p => policyHazards wire d₀ (policyPath dir p.bundle.name) p))
      (fun _ => Alike (policies.foldl (fun d p => placed d (policyPath dir p.bundle.name)) d)) := by
  induction policies generalizing d with
  | nil => exact .pure fun _ hd => hd
  | cons p ps ih =>
    have hloop : persistPolicies wire dir (p :: ps) =
        (DiskM.lift (wire.dump p) >>= writeAside (policyPath dir p.bundle.name)) >>= fun _ =>
          persistPolicies wire dir ps := (bind_assoc _ _ _).symm
    rw [hloop]
    exact .bind (meets_policy h) fun _ => ih (h.trans sameDirs_placed)

/-- The sweep. -/
theorem meets_dropOrphans {names files : List Str} :
    Meets d.SameDirs (dropOrphans dir names files)
      ((files.filter (fun f => decide (stem f ∉ names))).map
        (fun f => .tolerated (unusable (child (policiesDir dir) f))))
      (fun _ => d.SameDirs) := by
  induction files with
  | nil => exact .pure fun _ hd => hd
  | cons f fs ih =>
    unfold dropOrphans dropOrphan
    by_cases hstem : stem f ∈ names
    · rw [if_pos hstem, List.filter_cons_of_neg (by simpa using hstem)]
      exact .bind (.pure fun _ hd => hd) fun _ => ih
    · rw [if_neg hstem, List.filter_cons_of_pos (by simpa using hstem), List.map_cons]
      exact .bind .unlink fun _ => ih

theorem mkdirs_made {d' : Disk} {path : Path} (h : d.mkdirs [] path = some d') :
    d' = made d path := by
  rw [made, h]
  rfl

/-- The sweep and the manifest, over the tree with the files in place. -/
theorem meets_persistRest {policies : List EdgePolicy} {full : Disk} {text : Str}
    (h : d₀.SameDirs full) :
    Meets (Alike full)
      (DiskM.getDisk >>= fun disk => dropOrphans dir (policies.map bundleName)
        (globJson disk (policiesDir dir)) >>= fun _ => writeAside (manifestPath dir) text)
      (((globJson full (policiesDir dir)).filter
          (fun f => decide (stem f ∉ policies.map bundleName))).map
          (fun f => .tolerated (unusable (child (policiesDir dir) f))) ++
        asideHazards d₀ (manifestPath dir) text) (fun _ _ => True) := by
  refine .getDisk_bind fun disk hdisk => ?_
  have hglob : globJson disk (policiesDir dir) = globJson full (policiesDir dir) := by
    simp only [globJson, hdisk.children]
  rw [hglob]
  refine .bind (.imp meets_dropOrphans (fun _ hd => hd.dirs) fun _ _ hd => hd) fun _ => ?_
  refine .of_each fun d hd => .imp (meets_writeAside (h.trans hd)) ?_ fun _ _ _ => trivial
  rintro - rfl
  exact .refl _

theorem meets_persistManifest {policies : List EdgePolicy} {primaryName : Option Str} :
    Meets (· = d) (persistManifest wire dir policies primaryName)
      (manifestHazards wire dir d policies primaryName) (fun _ _ => True) := by
  unfold manifestHazards
  simp only [List.cons_append, List.nil_append, List.append_assoc]
  refine .bind .makeDirs fun _ => ?_
  refine .bind (.imp .makeDirs (fun _ hd => mkdirs_made hd) fun _ _ hd => hd) fun _ => ?_
  refine .bind (.imp (meets_persistPolicies (.refl _)) (fun d' hd => ?_) fun _ _ hd => hd) fun _ => ?_
  · rw [mkdirs_made hd]
    exact .refl _
  · exact meets_persistRest (sameDirs_foldl_placed policies)

end Meets

end TrustModelEdge.Policy
