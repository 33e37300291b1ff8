/-
TrustModelEdge.Policy.CrashSafetyTheorems — a `replace_all` that dies over the
files of an earlier one.

The write is a matter of three stages, the policies one by one, the sweep and
the switch of the manifest, and `CrashProof` says of each what a load of the
manifest that stands needs (`crash_safe_iff`).
-/
import TrustModelEdge.Policy.ManifestTheorems

namespace TrustModelEdge.Policy

open Py Py.DiskM Lib Lib.FileTree

/-! ## What the second call must keep -/

section Condition

variable [PyRuntime] (wire : PolicyWire) (dir : Path)

/-- The names that a load cannot do without: the primary and, where warnings are
logged, all of the manifest. -/
def Needed (call : PrimaryCall) (n : Str) : Prop :=
  n ∈ call.names ∧ (n = call.primary ∨ PyRuntime.logsWarnings = true)

/-- The loop over the policies writes this one. -/
def Reached (d : Disk) (policies : List EdgePolicy) (p : EdgePolicy) : Prop :=
  ∃ ps qs, policies = ps ++ p :: qs ∧ ∀ r ∈ ps ++ [p], Writable wire dir d r

/-- The list of a call can be loaded when these files of it are there: the policy left
in the file of the primary has its name, and no needed name lacks its file or leads
to the manifest. -/
structure Loadable (d : Disk) (call : PrimaryCall) (There : Path → Prop) : Prop where
  primary : ∃ q p, fileOf d dir call.primary = some q ∧
    leftIn d dir call.policies q = some p ∧ bundleName p = call.primary
  needed : ∀ n, Needed call n → ∀ q, fileOf d dir n = some q → q ≠ manifestFile dir ∧ There q

/-- **The old list can be loaded** up to the switch of the manifest, and the new list
from then on.

* No policy that is written lands in the manifest, nor in a file of the old list
  without being the old or the new policy of its name, nor under another name in
  the file of the old primary.
* The sweep, if it comes to that, takes no file that the old list needs. -/
structure CrashProof (old new : PrimaryCall) (d : Disk) : Prop where
  before : Loadable dir d old (fun q => d.file? q ≠ none)
  written : ∀ p, Reached wire dir d new.policies p → ∀ q, fileOf d dir (bundleName p) = some q →
    q ≠ manifestFile dir ∧ (∀ n ∈ old.names, fileOf d dir n = some q → Current old new p) ∧
      (fileOf d dir old.primary = some q → bundleName p = old.primary)
  swept : (∀ p ∈ new.policies, Writable wire dir d p) →
    ∀ n, Needed old n → ∀ q, fileOf d dir n = some q → ¬ Swept dir new.names q
  after : (∀ p ∈ new.policies, Writable wire dir d p) →
    (new.manifestText wire).any isSurrogate = false →
      Loadable dir d new (fun q => ¬ Swept dir new.names q)

end Condition

/-! ## The next call, cut anywhere -/

section Cuts

variable [PyRuntime] (wire : PolicyWire) (dir : Path) (old new : PrimaryCall) (d₀ : Disk)

/-- The file holds a policy that may be loaded from it. -/
structure Upholds (d : Disk) (q : Path) (p : EdgePolicy) : Prop where
  survives : wire.Survives p
  text : HoldsText wire d q p
  own : fileOf d₀ dir (bundleName p) = some q
  current : Current old new p
  primary : fileOf d₀ dir old.primary = some q → bundleName p = old.primary

/-- The old manifest stands, and each file of its names holds such a policy, or is
absent and not needed. -/
structure Upheld (d : Disk) : Prop where
  dirs : d₀.SameDirs d
  manifest : ∃ m, d.file? (manifestFile dir) =
    some { text := some (old.manifestText wire), mtime := m }
  files : ∀ n ∈ old.names, ∀ q, fileOf d₀ dir n = some q → q ≠ manifestFile dir →
    (∃ p, Upholds wire dir old new d₀ d q p) ∨
      d.file? q = none ∧ ∀ k, Needed old k → fileOf d₀ dir k ≠ some q

variable {wire dir old new d₀} {d d' : Disk}

omit [PyRuntime] in
theorem Upholds.of_file {q : Path} {p : EdgePolicy} (h : Upholds wire dir old new d₀ d q p)
    (hq : d'.file? q = d.file? q) : Upholds wire dir old new d₀ d' q p := by
  obtain ⟨text, m, hdump, hbody⟩ := h.text
  exact { h with text := ⟨text, m, hdump, by rw [hq, hbody]⟩ }

/-- Temporary files do not matter. -/
theorem Upheld.other (h : Upheld wire dir old new d₀ d) (hdirs : d.SameDirs d')
    (hkept : ∀ r, JsonFile r → d'.file? r = d.file? r) : Upheld wire dir old new d₀ d' where
  dirs := h.dirs.trans hdirs
  manifest := by
    rw [hkept _ (jsonFile_manifestFile dir)]
    exact h.manifest
  files := by
    intro n hn q hq hne
    have hsame := hkept q (jsonFile_of_fileOf hq)
    refine (h.files n hn q hq hne).imp ?_ fun ⟨hnone, hk⟩ => ⟨by rw [hsame, hnone], hk⟩
    rintro ⟨p, hp⟩
    exact ⟨p, hp.of_file hsame⟩

/-- The file of one policy moves into place. -/
theorem Upheld.replaced (h : Upheld wire dir old new d₀ d) {p : EdgePolicy} {q : Path}
    (hq : fileOf d₀ dir (bundleName p) = some q) (hne : q ≠ manifestFile dir)
    (hs : wire.Survives p) (hcurrent : ∀ n ∈ old.names, fileOf d₀ dir n = some q →
      Current old new p)
    (hprimary : fileOf d₀ dir old.primary = some q → bundleName p = old.primary)
    (hdirs : d.SameDirs d') (htext : HoldsText wire d' q p)
    (hkept : ∀ r, JsonFile r → r ≠ q → d'.file? r = d.file? r) :
    Upheld wire dir old new d₀ d' where
  dirs := h.dirs.trans hdirs
  manifest := by
    rw [hkept _ (jsonFile_manifestFile dir) hne.symm]
    exact h.manifest
  files := by
    intro n hn r hr hrne
    by_cases hrq : r = q
    · subst hrq
      exact Or.inl ⟨p, hs, htext, hq, hcurrent n hn hr, hprimary⟩
    · have hsame := hkept r (jsonFile_of_fileOf hr) hrq
      refine (h.files n hn r hr hrne).imp ?_ fun ⟨hnone, hk⟩ => ⟨by rw [hsame, hnone], hk⟩
      rintro ⟨p', hp'⟩
      exact ⟨p', hp'.of_file hsame⟩

/-- A file goes that is not needed. -/
theorem Upheld.removed (h : Upheld wire dir old new d₀ d) {q : Path}
    (hne : q ≠ manifestFile dir) (hfree : ∀ n, Needed old n → fileOf d₀ dir n ≠ some q)
    (hr : d.remove q = some d') : Upheld wire dir old new d₀ d' where
  dirs := h.dirs.trans (sameDirs_remove hr)
  manifest := by
    rw [file?_remove hr, if_neg hne.symm]
    exact h.manifest
  files := by
    intro n hn r hrn hrne
    by_cases hrq : r = q
    · subst hrq
      exact Or.inr ⟨by rw [file?_remove hr, if_pos rfl], hfree⟩
    · have hsame : d'.file? r = d.file? r := by rw [file?_remove hr, if_neg hrq]
      refine (h.files n hn r hrn hrne).imp ?_ fun ⟨hnone, hk⟩ => ⟨by rw [hsame, hnone], hk⟩
      rintro ⟨p, hp⟩
      exact ⟨p, hp.of_file hsame⟩

/-- Where the first call finished, the condition holds to begin with. -/
theorem upheld_start (hfirst : Finished wire dir old d₀) (hs : old.Survives wire)
    (h : Loadable dir d₀ old (fun q => d₀.file? q ≠ none)) : Upheld wire dir old new d₀ d₀ where
  dirs := SameDirs.refl d₀
  manifest := hfirst.manifest
  files := by
    intro n hn q hq hne
    obtain ⟨q', p, hq', hp⟩ := hfirst.exists_left hn
    obtain rfl := Option.some.inj (hq.symm.trans hq')
    obtain ⟨hmem, hown⟩ := lastWith_eq_some hp
    rcases hfirst.files q p hp hne with htext | ⟨-, hnone⟩
    · refine Or.inl ⟨p, hs.policies p hmem, htext, hown, Or.inl ?_, fun hprim => ?_⟩
      · exact lastWith_of_file hp
      · obtain ⟨q', p', hq', hp', hname⟩ := h.primary
        obtain rfl := Option.some.inj (hprim.symm.trans hq')
        obtain rfl := Option.some.inj (hp.symm.trans hp')
        exact hname
    · exact Or.inr ⟨hnone, fun k hk hkq => (h.needed k hk q hkq).2 hnone⟩

/-- **A load of the old manifest** finds what it needs. -/
theorem recovers_of_upheld (h : Upheld wire dir old new d₀ d) (hfirst : Finished wire dir old d₀)
    (hs : old.Survives wire) (hload : Loadable dir d₀ old (fun q => d₀.file? q ≠ none)) :
    Recovers wire dir old new d := by
  have hsame : fileOf d dir = fileOf d₀ dir := fileOf_congr h.dirs
  have hfiled : Filed wire dir old d := by
    refine ⟨(resolve_congr h.dirs).mpr hfirst.manifestLeads.1, h.manifest, fun n hn => ?_,
      fun n hn q hq hne => ?_⟩
    · obtain ⟨q, hq⟩ := hfirst.leads hn
      exact ⟨q, (leads_congr h.dirs).mpr hq⟩
    · rw [hsame] at hq
      rcases h.files n hn q hq hne with ⟨p, hp⟩ | ⟨hnone, -⟩
      · exact Or.inr ⟨p, hp.survives, hp.text, by rw [hsame]; exact hp.own⟩
      · exact Or.inl hnone
  -- a needed name has its policy
  have hneeded : ∀ n, Needed old n → ∃ q p, fileOf d₀ dir n = some q ∧
      Upholds wire dir old new d₀ d q p ∧ Shown wire dir d n p := by
    intro n hn
    obtain ⟨q, hq⟩ := hfirst.leads hn.1
    have hq := fileOf_of_leads hq
    obtain ⟨hne, -⟩ := hload.needed n hn q hq
    obtain ⟨p, hp⟩ := (h.files n hn.1 q hq hne).resolve_right fun hno => hno.2 n hn hq
    exact ⟨q, p, hq, hp, hp.survives, q, by rw [hsame]; exact hq, hne, hp.text⟩
  refine (recovers_iff hfiled hs (Or.inl rfl)).mpr ⟨fun hlogs n hn => ?_, fun n hn p hp => ?_, ?_⟩
  · obtain ⟨q, p, -, -, hp⟩ := hneeded n ⟨hn, Or.inr hlogs⟩
    exact ⟨p, hp⟩
  · obtain ⟨hsurv, q, hq, hne, htext⟩ := hp
    rw [hsame] at hq
    rcases h.files n hn q hq hne with ⟨p', hp'⟩ | ⟨hnone, -⟩
    · obtain rfl := HoldsText.unique hsurv hp'.survives htext hp'.text
      exact hp'.current
    · obtain ⟨text, m, -, hbody⟩ := htext
      rw [hnone] at hbody
      cases hbody
  · obtain ⟨q, p, hq, hp, hshown⟩ := hneeded old.primary ⟨old.listed, Or.inl rfl⟩
    exact ⟨old.primary, old.listed, p, hshown, hp.primary hq⟩

/-- The file of one policy, written aside. -/
theorem upheld_writePolicy {p : EdgePolicy} {text : Str} (hdump : wire.dump p = .ok text)
    (hs : wire.Survives p)
    (hwritten : Writable wire dir d₀ p → ∀ q, fileOf d₀ dir (bundleName p) = some q →
      q ≠ manifestFile dir ∧ (∀ n ∈ old.names, fileOf d₀ dir n = some q → Current old new p) ∧
        (fileOf d₀ dir old.primary = some q → bundleName p = old.primary)) :
    DiskM.Cuts (Upheld wire dir old new d₀) (writeAside (policyPath dir (bundleName p)) text)
      (fun _ d => Upheld wire dir old new d₀ d ∧ Writable wire dir d₀ p)
      (fun _ => Upheld wire dir old new d₀) := by
  have htmp : ∀ {t : Rat} {s : Str} {d d' : Disk} {q : Path}, Upheld wire dir old new d₀ d →
      resolve d (policyTmp dir (bundleName p)) = .ok q →
      d.write q { text := some s, mtime := t } = some d' →
      Leads d₀ (policyTmp dir (bundleName p)) q ∧ Upheld wire dir old new d₀ d' := by
    intro t s d d' q hd hq hw
    have hleads : Leads d (policyTmp dir (bundleName p)) q := ⟨hq, write_iff_place.mp ⟨d', hw⟩⟩
    refine ⟨(leads_congr hd.dirs).mp hleads, hd.other (sameDirs_write hw) fun r hr => ?_⟩
    exact file?_congr (by rw [lookup_write hw, if_neg (hr.ne_policyTmp hleads)])
  refine DiskM.Cuts.bind (B := fun _ d => Upheld wire dir old new d₀ d ∧
      text.any isSurrogate = false ∧ ∃ q m, Leads d₀ (policyTmp dir (bundleName p)) q ∧
        d.lookup q = some (.file { text := some text, mtime := m }))
    (cuts_writeText (fun _ _ h => h) (fun hbytes t d d' q hd hq hw => ?_)
      fun _ t d d' q hd hq hw => (htmp hd hq hw).2) fun _ => ?_
  · obtain ⟨hleads, hup⟩ := htmp hd hq hw
    exact ⟨hup, hbytes, q, t, hleads, by rw [lookup_write hw, if_pos rfl]⟩
  · refine cuts_replaceFile (fun _ _ h => h.1) ?_
    rintro d d' r q ⟨hd, hbytes, r', m, hleads, hbody⟩ hr hq hrename
    obtain rfl : r = r' := Except.ok.inj (((resolve_congr hd.dirs).mp hr).symm.trans hleads.1)
    have hplace : d.Place q := (rename_iff_place hbody).mp ⟨d', hrename⟩
    have hq₀ : Leads d₀ (policyPath dir (bundleName p)) q := (leads_congr hd.dirs).mp ⟨hq, hplace⟩
    have hwritable : Writable wire dir d₀ p := ⟨⟨text, hdump, hbytes⟩, ⟨r, hleads⟩, q, hq₀⟩
    have hfile := fileOf_of_leads hq₀
    obtain ⟨hne, hcurrent, hprimary⟩ := hwritten hwritable q hfile
    obtain ⟨body, hbody', hlook⟩ := lookup_rename hrename
    obtain rfl := Node.file.inj (Option.some.inj (hbody.symm.trans hbody'))
    refine ⟨hd.replaced hfile hne hs hcurrent hprimary (sameDirs_rename hrename)
      ⟨text, m, hdump, file?_of_lookup (by rw [hlook, if_pos rfl])⟩ fun x hx hxq => ?_, hwritable⟩
    exact file?_congr (by rw [hlook, if_neg hxq, if_neg (hx.ne_policyTmp hleads)])

/-- The loop over the policies, from any of them on. -/
theorem upheld_persistPolicies (hs : new.Survives wire) (h : CrashProof wire dir old new d₀)
    {ps qs : List EdgePolicy} (hsplit : new.policies = ps ++ qs)
    (hps : ∀ p ∈ ps, Writable wire dir d₀ p) :
    DiskM.Cuts (Upheld wire dir old new d₀) (persistPolicies wire dir qs)
      (fun _ d => Upheld wire dir old new d₀ d ∧ ∀ p ∈ new.policies, Writable wire dir d₀ p)
      (fun _ => Upheld wire dir old new d₀) := by
  induction qs generalizing ps with
  | nil =>
    rw [List.append_nil] at hsplit
    exact .pure fun d hd => ⟨hd, hsplit ▸ hps⟩
  | cons p qs ih =>
    have hsplit' : new.policies = (ps ++ [p]) ++ qs := by
      rw [hsplit, List.append_assoc]
      rfl
    refine DiskM.Cuts.bind (B := fun text d => Upheld wire dir old new d₀ d ∧ wire.dump p = .ok text)
      (.lift (fun text ht d hd => ⟨hd, ht⟩) fun _ _ d hd => hd) fun text => ?_
    refine DiskM.Cuts.of_fact fun hdump => ?_
    have hmem : p ∈ new.policies := by simp [hsplit]
    refine DiskM.Cuts.bind (upheld_writePolicy hdump (hs.policies p hmem) fun hp => ?_) fun _ => ?_
    · refine h.written p ⟨ps, qs, hsplit, fun r hr => ?_⟩
      rcases List.mem_append.mp hr with hr | hr
      · exact hps r hr
      · exact List.mem_singleton.mp hr ▸ hp
    · refine DiskM.Cuts.of_fact fun hp => ih hsplit' fun r hr => ?_
      rcases List.mem_append.mp hr with hr | hr
      · exact hps r hr
      · exact List.mem_singleton.mp hr ▸ hp

/-- The sweep. -/
theorem upheld_dropOrphans {names files : List Str} (hup : ∀ f ∈ files, f ≠ (".." : Str))
    (hswept : ∀ n, Needed old n → ∀ q, fileOf d₀ dir n = some q → ¬ Swept dir names q) :
    Keeps (Upheld wire dir old new d₀) (dropOrphans dir names files) := by
  induction files with
  | nil => exact .pure ()
  | cons f fs ih =>
    refine .bind ?_ (fun _ => ih fun g hg => hup g (List.mem_cons_of_mem _ hg))
    unfold dropOrphan
    split
    · exact .pure ()
    · rename_i hstem
      refine cuts_ignoreOsError_unlink (fun _ _ h => h) (fun _ h => h) ?_
      intro d d' q hd hq hr
      obtain ⟨-, -, rfl⟩ := (resolve_child (hup f List.mem_cons_self)).mp hq
      exact hd.removed (manifestFile_ne dir f).symm
        (fun n hn hfile => hswept n hn _ hfile ⟨f, rfl, hstem⟩) hr

theorem upheld_makeDirs {made : Path} (h : d₀.isDir made = true) :
    Keeps (Upheld wire dir old new d₀) (makeDirs made) := by
  refine cuts_makeDirs (fun _ _ h => h) fun d d' hd hm => ?_
  have hself : d.mkdirs [] made = some d := mkdirs_self ((hd.dirs made).trans h)
  obtain rfl := Option.some.inj (hself.symm.trans hm)
  exact hd

/-- **Up to the switch of the manifest** the old manifest stands. -/
theorem upheld_persistManifest (hs : new.Survives wire) (hfirst : Finished wire dir old d₀)
    (h : CrashProof wire dir old new d₀) :
    DiskM.Cuts (Upheld wire dir old new d₀)
      (persistManifest wire dir new.policies (some new.primary)) (fun _ _ => True)
      (fun _ => Upheld wire dir old new d₀) := by
  unfold persistManifest
  refine DiskM.Cuts.bind (upheld_makeDirs hfirst.isDir) fun _ => ?_
  refine DiskM.Cuts.bind (upheld_makeDirs hfirst.subdir) fun _ => ?_
  have hloop := upheld_persistPolicies hs h (List.nil_append new.policies).symm (by simp)
  refine DiskM.Cuts.bind hloop fun _ => ?_
  refine DiskM.Cuts.of_fact fun hall => ?_
  refine DiskM.Cuts.bind (B := fun _ => Upheld wire dir old new d₀)
    (DiskM.Cuts.getDisk fun _ h => h) fun disk => ?_
  refine DiskM.Cuts.bind (upheld_dropOrphans globJson_ne_up (h.swept hall)) fun _ => ?_
  have htmp : ∀ {t : Rat} {s : Str} {d d' : Disk} {q : Path}, Upheld wire dir old new d₀ d →
      resolve d ((manifestPath dir).withSuffix tmpSuffix) = .ok q →
      d.write q { text := some s, mtime := t } = some d' → Upheld wire dir old new d₀ d' := by
    intro t s d d' q hd hq hw
    obtain rfl := leads_manifestTmp ⟨hq, write_iff_place.mp ⟨d', hw⟩⟩
    refine hd.other (sameDirs_write hw) fun r hr => ?_
    exact file?_congr (by rw [lookup_write hw, if_neg (hr.ne_tmp dir _)])
  refine DiskM.Cuts.bind (B := fun _ => Upheld wire dir old new d₀)
    (cuts_writeText (fun _ _ h => h) (fun _ _ _ _ _ => htmp) fun _ _ _ _ _ => htmp) fun _ => ?_
  exact cuts_replaceFile (fun _ _ h => h) fun _ _ _ _ _ _ _ _ => trivial

/-- **A load of a finished call** finds what it needs. -/
theorem recovers_of_loadable (h : Finished wire dir new d) (hs : new.Survives wire)
    (hload : Loadable dir d new (fun q => ¬ Swept dir new.names q)) :
    Recovers wire dir old new d := by
  have hshown : ∀ n, Needed new n → ∀ q p, fileOf d dir n = some q →
      leftIn d dir new.policies q = some p → Shown wire dir d n p := by
    intro n hn q p hq hp
    obtain ⟨hne, hstays⟩ := hload.needed n hn q hq
    refine ⟨hs.policies p (lastWith_eq_some hp).1, q, hq, hne, ?_⟩
    exact (h.files q p hp hne).resolve_right fun hgone => hstays hgone.1
  refine (recovers_iff (h.filed hs) hs (Or.inr rfl)).mpr
    ⟨fun hlogs n hn => ?_, fun n hn p hp => ?_, ?_⟩
  · obtain ⟨q, p, hq, hp⟩ := h.exists_left hn
    exact ⟨p, hshown n ⟨hn, Or.inr hlogs⟩ q p hq hp⟩
  · obtain ⟨q, -, -, hleft, -⟩ := h.left_of_shown hs hn hp
    exact Or.inr (lastWith_of_file hleft)
  · obtain ⟨q, p, hq, hp, hname⟩ := hload.primary
    exact ⟨new.primary, new.listed, p, hshown _ ⟨new.listed, Or.inl rfl⟩ q p hq hp, hname⟩

theorem loadable_congr {call : PrimaryCall} {There : Path → Prop} (hdirs : d.SameDirs d')
    (h : Loadable dir d call There) : Loadable dir d' call There where
  primary := by
    rw [fileOf_congr hdirs, leftIn_congr hdirs]
    exact h.primary
  needed := by
    rw [fileOf_congr hdirs]
    exact h.needed

/-- **Under the condition every cut recovers.** -/
theorem recovers_of_crashProof (h : CrashProof wire dir old new d₀)
    (hfirst : Finished wire dir old d₀) (hsold : old.Survives wire) (hsnew : new.Survives wire)
    {env : DiskEnv} (hwhole : Whole env.faults) (hdisk : env.disk = d₀) :
    Recovers wire dir old new ((new.persist wire dir).run env).2.disk := by
  subst hdisk
  rw [persist_eq]
  obtain ⟨-, hend⟩ := upheld_persistManifest hsnew hfirst h env hwhole
    (upheld_start hfirst hsold h.before)
  rcases hr : (persistManifest wire dir new.policies (some new.primary)).run env with ⟨r, env'⟩
  rw [hr] at hend
  cases r with
  | error e => exact recovers_of_upheld hend hfirst hsold h.before
  | ok a =>
    -- the call finished: the new manifest stands
    obtain ⟨hnew, hdirs⟩ := finished_of_run hr
    have hdirs := hdirs hfirst.subdir
    have hload := h.after (fun p hp => (writable_congr hdirs).mp (hnew.writable p hp)) hnew.bytes
    exact recovers_of_loadable hnew hsnew (loadable_congr hdirs hload)

end Cuts

/-! ## The cuts that break it -/

section Breaks

variable {wire : PolicyWire} {dir : Path} {d d' : Disk}

theorem idle_writeAside (target : PurePath) (text : Str) : Idle (writeAside target text) :=
  .bind (.writeText _ _) fun _ => .operation _ _

theorem idle_persistPolicies (policies : List EdgePolicy) :
    Idle (persistPolicies wire dir policies) := by
  induction policies with
  | nil => exact .pure ()
  | cons p ps ih => exact .bind (.lift _) fun text => .bind (idle_writeAside _ text) fun _ => ih

theorem idle_dropOrphans (names files : List Str) : Idle (dropOrphans dir names files) := by
  induction files with
  | nil => exact .pure ()
  | cons f fs ih =>
    refine .bind ?_ fun _ => ih
    unfold dropOrphan
    split
    · exact .pure ()
    · exact .ignoreOsError (.operation _ _)

/-- What follows the loop over the policies. -/
def persistRest (wire : PolicyWire) (dir : Path) (policies : List EdgePolicy)
    (primaryName : Option Str) : DiskM Unit := do
  let disk ← DiskM.getDisk
  dropOrphans dir (policies.map (·.bundle.name)) (globJson disk (policiesDir dir))
  writeAside (manifestPath dir) (wire.json.dumps (manifestJson policies primaryName))

theorem idle_persistRest (policies : List EdgePolicy) (primaryName : Option Str) :
    Idle (persistRest wire dir policies primaryName) :=
  .bind .getDisk fun _ => .bind (idle_dropOrphans _ _) fun _ => idle_writeAside _ _

theorem persistPolicies_append (ps qs : List EdgePolicy) :
    persistPolicies wire dir (ps ++ qs) =
      persistPolicies wire dir ps >>= fun _ => persistPolicies wire dir qs := by
  induction ps with
  | nil => rfl
  | cons p ps ih =>
    simp only [List.cons_append, persistPolicies, bind_assoc, ih]

/-- Policies that can be written are. -/
theorem finishes_persistPolicies {policies : List EdgePolicy}
    (h : ∀ p ∈ policies, Writable wire dir d p) :
    ∃ d', Finishes d (persistPolicies wire dir policies) () d' := by
  induction policies generalizing d with
  | nil => exact ⟨d, .pure⟩
  | cons p ps ih =>
    obtain ⟨⟨text, hdump, hbytes⟩, ⟨q, hq⟩, q', hq'⟩ := h p List.mem_cons_self
    obtain ⟨d₁, hfin, hdirs⟩ := finishes_writeAside hbytes hq hq'
    obtain ⟨d₂, hrest⟩ := ih fun r hr =>
      (writable_congr hdirs).mpr (h r (List.mem_cons_of_mem _ hr))
    exact ⟨d₂, .bind (.lift hdump) (.bind hfin hrest)⟩

/-- The names in the policies directory are ones that a file system can hold. -/
def CleanNames (dir : Path) (d : Disk) : Prop :=
  ∀ f ∈ d.children (policiesDir dir), unusable (child (policiesDir dir) f) = false

/-- **The sweep takes what it can**, and finishes. -/
theorem finishes_dropOrphans {names files : List Str}
    (hclean : ∀ f ∈ files, unusable (child (policiesDir dir) f) = false) :
    ∃ d', Finishes d (dropOrphans dir names files) () d' ∧
      (∀ r, d.file? r = none → d'.file? r = none) ∧
      ∀ f ∈ files, stem f ∉ names → Usable (policiesDir dir) f →
        d'.file? (policiesDir dir ++ [f]) = none := by
  induction files generalizing d with
  | nil => exact ⟨d, .pure, fun _ h => h, by simp⟩
  | cons f fs ih =>
    obtain ⟨d₁, hfin₁, hnone₁, hgone₁⟩ : ∃ d₁, Finishes d (dropOrphan dir names f) () d₁ ∧
        (∀ r, d.file? r = none → d₁.file? r = none) ∧
        (stem f ∉ names → Usable (policiesDir dir) f →
          d₁.file? (policiesDir dir ++ [f]) = none) := by
      unfold dropOrphan
      split
      · rename_i hstem
        exact ⟨d, .pure, fun _ h => h, fun hno => absurd hstem hno⟩
      · rename_i hstem
        cases hact : removePath (child (policiesDir dir) f) d with
        | ok d₁ =>
          obtain ⟨q, hq, hremove⟩ := removePath_ok hact
          refine ⟨d₁, .ignoreOsError_operation (t := 0) hact, fun r hr => ?_, fun _ hu => ?_⟩
          · rw [file?_remove hremove, hr, ite_self]
          · obtain ⟨-, -, rfl⟩ := (resolve_child hu.notUp).mp hq
            rw [file?_remove hremove, if_pos rfl]
        | error e =>
          have hos : e.isOsError = true := by
            rw [removePath_error hact, hclean f List.mem_cons_self]
            rfl
          refine ⟨d, .ignored (t := 0) hact hos, fun _ h => h, fun _ hu => ?_⟩
          cases hbody : d.file? (policiesDir dir ++ [f]) with
          | none => rfl
          | some body =>
            -- a file there would have been removed
            have hlook := lookup_of_file? hbody
            obtain ⟨d₁, hremove⟩ := exists_remove hlook
            have hq := (resolve_child hu.notUp).mpr ⟨hu, isDir_of_child _ hlook, rfl⟩
            simp only [removePath, hq, hremove] at hact
            cases hact
    obtain ⟨d₂, hfin₂, hnone₂, hgone₂⟩ := ih fun g hg => hclean g (List.mem_cons_of_mem _ hg)
    refine ⟨d₂, .bind hfin₁ hfin₂, fun r hr => hnone₂ r (hnone₁ r hr), ?_⟩
    exact List.forall_mem_cons.mpr ⟨fun hs hu => hnone₂ _ (hgone₁ hs hu), hgone₂⟩

/-- A file that a name leads to can be named in its directory. -/
theorem usable_of_fileOf {n : Str} {par : Path} {f : Str} (h : fileOf d dir n = some (par ++ [f])) :
    Usable par f := by
  obtain ⟨root, init, x, hpath, -⟩ := policyPath_parts dir n
  have hq := fileOf_eq_some.mp h
  rw [hpath] at hq
  obtain ⟨par', -, hshort, he⟩ := resolve_concat (fileName_ne_up x) hq
  obtain ⟨rfl, hf⟩ := List.append_inj' he rfl
  obtain rfl : f = fileName x := by simpa using hf
  exact usable_of_resolve hq hshort (fileName_ne_up x)

/-- The loop over the policies brings no other names into their directory. -/
theorem clean_of_persistPolicies {policies : List EdgePolicy} {env env' : DiskEnv}
    (hclean : CleanNames dir env.disk)
    (h : (persistPolicies wire dir policies).run env = (.ok (), env')) :
    ∀ f ∈ globJson env'.disk (policiesDir dir), unusable (child (policiesDir dir) f) = false := by
  obtain ⟨hdirs, -, -, hkept⟩ := persistPolicies_files h
  intro f hf
  obtain ⟨hsuffix, node, hnode⟩ := mem_globJson.mp hf
  have hbefore : ∀ node', env.disk.lookup (policiesDir dir ++ [f]) = some node' →
      unusable (child (policiesDir dir) f) = false :=
    fun node' h => hclean f (mem_children h)
  cases node with
  | dir =>
    have hd := (hdirs _).symm.trans ((isDir_iff _).mpr hnode)
    exact hbefore _ ((isDir_iff _).mp hd)
  | file body =>
    have hjson : JsonFile (policiesDir dir ++ [f]) := by
      obtain ⟨x, rfl⟩ := List.isSuffixOf_iff_suffix.mp hsuffix
      exact ⟨policiesDir dir, x, rfl⟩
    cases hleft : leftIn env.disk dir policies (policiesDir dir ++ [f]) with
    | none =>
      have hbody := (hkept _ hjson hleft).symm.trans (file?_of_lookup hnode)
      exact hbefore _ (lookup_of_file? hbody)
    | some p =>
      exact not_unusable_of_clean (usable_of_fileOf (lastWith_eq_some hleft).2).clean

end Breaks

section Necessity

variable [PyRuntime] {wire : PolicyWire} {dir : Path} {old new : PrimaryCall} {d : Disk}

/-- A manifest that is the text of a policy names none. -/
theorem not_recovers_of_policy {d' : Disk} {p : EdgePolicy} (hs : new.Survives wire)
    (hp : p ∈ new.policies) (hq : resolve d' (manifestPath dir) = .ok (manifestFile dir))
    (htext : HoldsText wire d' (manifestFile dir) p) : ¬ Recovers wire dir old new d' := by
  rintro ⟨c, hc, -⟩
  obtain ⟨text, m, hdump, hbody⟩ := htext
  obtain ⟨fields, hloads, hnames⟩ := hs.nameless p hp text hdump
  have hexists : pathExists d' (manifestPath dir) = .ok true := by
    rw [pathExists_of_resolve hq, lookup_of_file? hbody]
    rfl
  have htext := readText_of_resolve hq hbody (hs.policies p hp text hdump).1
  simp only [readManifest, readManifestRows, hexists, htext, hloads, manifestEntries, hnames,
    Option.getD_none, listOf, readPolicies, bind, Except.bind, pure, Except.pure, if_true] at hc
  cases hc

/-- The disks that a cut of the call leaves, once the directories are there. -/
theorem recovers_of_leaves (hfirst : Finished wire dir old d) (hsafe : CrashSafe wire dir old new d)
    {m : Unit → DiskM Unit} (hrest : persistManifest wire dir new.policies (some new.primary) =
      makeDirs dir >>= fun _ => makeDirs (policiesDir dir) >>= m) {d' : Disk}
    (h : Leaves d (m ()) d') : Recovers wire dir old new d' := by
  have hdir : Finishes d (makeDirs dir) () d := .makeDirs (mkdirs_self (p := []) hfirst.isDir)
  have hsub : Finishes d (makeDirs (policiesDir dir)) () d :=
    .makeDirs (mkdirs_self (p := []) hfirst.subdir)
  obtain ⟨ops, hops, hrun⟩ := Leaves.bind_right (f := fun _ => makeDirs (policiesDir dir) >>= m)
    hdir (Leaves.bind_right hsub h)
  have hrec := hsafe ops hops
  rw [PrimaryCall.crashed, persist_eq, hrest, hrun] at hrec
  exact hrec

/-- A disk of a finished call that recovers has the files of the call. -/
theorem loadable_of_recovers {call : PrimaryCall} (hcall : call = old ∨ call = new)
    (hfin : Finished wire dir call d) (hs : call.Survives wire) (h : Recovers wire dir old new d) :
    Loadable dir d call (fun q => d.file? q ≠ none) := by
  obtain ⟨hall, -, n, hn, p, hp, hname⟩ := (recovers_iff (hfin.filed hs) hs hcall).mp h
  obtain ⟨q, -, hne, hleft, hthere⟩ := hfin.left_of_shown hs hn hp
  have hprimary : fileOf d dir call.primary = some q := hname ▸ (lastWith_eq_some hleft).2
  refine ⟨⟨q, p, hprimary, hleft, hname⟩, ?_⟩
  rintro k ⟨hk, rfl | hlogs⟩ r hr
  · obtain rfl := Option.some.inj (hprimary.symm.trans hr)
    exact ⟨hne, hthere⟩
  · obtain ⟨p', hp'⟩ := hall hlogs k hk
    obtain ⟨r', hr', hne', -, hthere'⟩ := hfin.left_of_shown hs hk hp'
    obtain rfl := Option.some.inj (hr'.symm.trans hr)
    exact ⟨hne', hthere'⟩

omit [PyRuntime] in
/-- The old manifest stands while policies are written elsewhere. -/
theorem filed_of_written (hfirst : Finished wire dir old d) (hsold : old.Survives wire)
    (hsnew : new.Survives wire) {ps : List EdgePolicy} (hsub : ∀ p ∈ ps, p ∈ new.policies)
    (hne : ∀ p ∈ ps, fileOf d dir (bundleName p) ≠ some (manifestFile dir)) {env env' : DiskEnv}
    (hdisk : env.disk = d) (h : (persistPolicies wire dir ps).run env = (.ok (), env')) :
    Filed wire dir old env'.disk := by
  subst hdisk
  obtain ⟨hdirs, -, hheld, hkept⟩ := persistPolicies_files h
  have hfiled := hfirst.filed hsold
  refine ⟨(resolve_congr hdirs).mpr hfiled.resolves, ?_, fun n hn => ?_, fun n hn q hq hqne => ?_⟩
  · rw [hkept _ (jsonFile_manifestFile dir) (lastWith_eq_none.mpr hne)]
    exact hfiled.manifest
  · obtain ⟨q, hq⟩ := hfiled.leads n hn
    exact ⟨q, (leads_congr hdirs).mpr hq⟩
  · rw [fileOf_congr hdirs] at hq ⊢
    cases hleft : leftIn env.disk dir ps q with
    | some p =>
      obtain ⟨hmem, hown⟩ := lastWith_eq_some hleft
      exact Or.inr ⟨p, hsnew.policies p (hsub p hmem), hheld q p hleft, hown⟩
    | none =>
      have hsame := hkept q (jsonFile_of_fileOf hq) hleft
      refine (hfiled.files n hn q hq hqne).imp (fun hnone => by rw [hsame, hnone]) ?_
      rintro ⟨p, hs, ⟨text, m, hdump, hbody⟩, hown⟩
      exact ⟨p, hs, ⟨text, m, hdump, by rw [hsame, hbody]⟩, hown⟩

/-- The process dies when a reached policy is in place. -/
theorem recovers_after_written (hfirst : Finished wire dir old d)
    (hsafe : CrashSafe wire dir old new d) {p : EdgePolicy}
    (hp : Reached wire dir d new.policies p) :
    ∃ ps env env', env.disk = d ∧
      (persistPolicies wire dir (ps ++ [p])).run env = (.ok (), env') ∧
      (∀ r ∈ ps ++ [p], r ∈ new.policies ∧ Reached wire dir d new.policies r) ∧
      Recovers wire dir old new env'.disk := by
  obtain ⟨ps, qs, hsplit, hw⟩ := hp
  have hsplit' : new.policies = (ps ++ [p]) ++ qs := by
    rw [hsplit, List.append_assoc]
    rfl
  obtain ⟨d₁, hfin⟩ := finishes_persistPolicies hw
  obtain ⟨env, env', hdisk, rfl, hrun⟩ := hfin.exists_run
  refine ⟨ps, env, env', hdisk, hrun, fun r hr => ⟨hsplit' ▸ List.mem_append_left _ hr, ?_⟩, ?_⟩
  · obtain ⟨xs, ys, he⟩ := List.append_of_mem hr
    refine ⟨xs, ys ++ qs, by rw [hsplit', he, List.append_assoc]; rfl, fun y hy => hw y ?_⟩
    rw [he]
    rcases List.mem_append.mp hy with hy | hy
    · exact List.mem_append_left _ hy
    · exact List.mem_append_right _ (List.mem_singleton.mp hy ▸ List.mem_cons_self)
  · have hrest : persistManifest wire dir new.policies (some new.primary) =
        makeDirs dir >>= fun _ => makeDirs (policiesDir dir) >>= fun _ =>
          (persistPolicies wire dir (ps ++ [p]) >>= fun _ =>
            (persistPolicies wire dir qs >>= fun _ =>
              persistRest wire dir new.policies (some new.primary))) := by
      rw [← bind_assoc (persistPolicies wire dir (ps ++ [p])), ← persistPolicies_append, ← hsplit']
      rfl
    refine recovers_of_leaves hfirst hsafe hrest (.bind_right hfin ?_)
    exact (Idle.bind (idle_persistPolicies _) fun _ => idle_persistRest _ _).leaves

omit [PyRuntime] in
theorem leftIn_concat {ps : List EdgePolicy} {p : EdgePolicy} {q : Path}
    (h : fileOf d dir (bundleName p) = some q) : leftIn d dir (ps ++ [p]) q = some p := by
  unfold leftIn
  rw [← h]
  exact lastWith_getLast? _ (by simp)

/-- **The manifest is no file of a policy.** -/
theorem manifest_not_written (hfirst : Finished wire dir old d) (hsnew : new.Survives wire)
    (hsafe : CrashSafe wire dir old new d) {p : EdgePolicy}
    (hp : Reached wire dir d new.policies p) :
    fileOf d dir (bundleName p) ≠ some (manifestFile dir) := by
  intro hfile
  obtain ⟨ps, env, env', rfl, hrun, hmem, hrec⟩ := recovers_after_written hfirst hsafe hp
  obtain ⟨hdirs, -, hheld, -⟩ := persistPolicies_files hrun
  refine not_recovers_of_policy hsnew (hmem p (by simp)).1 ?_ (hheld _ p (leftIn_concat hfile)) hrec
  exact (resolve_congr hdirs).mpr hfirst.manifestLeads.1

/-- **A policy that is written** may be all that a load finds in its file. -/
theorem written_of_crashSafe (hfirst : Finished wire dir old d) (hsold : old.Survives wire)
    (hsnew : new.Survives wire) (hsafe : CrashSafe wire dir old new d) {p : EdgePolicy}
    (hp : Reached wire dir d new.policies p) {q : Path}
    (hq : fileOf d dir (bundleName p) = some q) :
    q ≠ manifestFile dir ∧ (∀ n ∈ old.names, fileOf d dir n = some q → Current old new p) ∧
      (fileOf d dir old.primary = some q → bundleName p = old.primary) := by
  have hne : q ≠ manifestFile dir := fun he =>
    manifest_not_written hfirst hsnew hsafe hp (he ▸ hq)
  obtain ⟨ps, env, env', rfl, hrun, hmem, hrec⟩ := recovers_after_written hfirst hsafe hp
  obtain ⟨hdirs, -, hheld, -⟩ := persistPolicies_files hrun
  have hsame : fileOf env'.disk dir = fileOf env.disk dir := fileOf_congr hdirs
  have hfiled := filed_of_written hfirst hsold hsnew (fun r hr => (hmem r hr).1)
    (fun r hr => manifest_not_written hfirst hsnew hsafe (hmem r hr).2) rfl hrun
  have hsurv := hsnew.policies p (hmem p (by simp)).1
  have htext := hheld q p (leftIn_concat hq)
  obtain ⟨-, hcurrent, n, hn, r, hr, hname⟩ := (recovers_iff hfiled hsold (Or.inl rfl)).mp hrec
  have hshown : ∀ n, fileOf env.disk dir n = some q → Shown wire dir env'.disk n p :=
    fun n hn => ⟨hsurv, q, by rw [hsame]; exact hn, hne, htext⟩
  refine ⟨hne, fun n hn hfile => hcurrent n hn p (hshown n hfile), fun hfile => ?_⟩
  -- the policy loaded as the primary lies in the file of its name
  obtain ⟨q', hown, htext'⟩ := hfiled.own_file hn hr
  rw [hname, hsame, hfile] at hown
  obtain rfl := Option.some.inj hown
  rw [HoldsText.unique hsurv hr.1 htext htext', hname]

omit [PyRuntime] in
/-- Where all policies can be written, they are, and the sweep takes its files. -/
theorem exists_swept (hclean : CleanNames dir d)
    (hall : ∀ p ∈ new.policies, Writable wire dir d p) :
    ∃ d₁ d₂, Finishes d (persistPolicies wire dir new.policies) () d₁ ∧
      Finishes d₁ (dropOrphans dir new.names (globJson d₁ (policiesDir dir))) () d₂ ∧
      d.SameDirs d₂ ∧
      ∀ n q, fileOf d dir n = some q → Swept dir new.names q → d₂.file? q = none := by
  obtain ⟨d₁, hfin₁⟩ := finishes_persistPolicies hall
  obtain ⟨env, env₁, rfl, rfl, hrun⟩ := hfin₁.exists_run
  obtain ⟨d₂, hfin₂, hnone, hgone⟩ :=
    @finishes_dropOrphans dir env₁.disk new.names _ (clean_of_persistPolicies hclean hrun)
  have hdirs : env.disk.SameDirs d₂ := by
    obtain ⟨env', env₂, he, rfl, hrun₂⟩ := hfin₂.exists_run
    have hswept := (dropOrphans_files globJson_ne_up hrun₂).1
    rw [he] at hswept
    exact (persistPolicies_files hrun).1.trans hswept
  refine ⟨_, d₂, hfin₁, hfin₂, hdirs, ?_⟩
  rintro n q hq ⟨f, rfl, hstem⟩
  cases hbody : env₁.disk.file? (policiesDir dir ++ [f]) with
  | none => exact hnone _ hbody
  | some body =>
    obtain ⟨par, x, he⟩ := jsonFile_of_fileOf hq
    obtain ⟨-, hf⟩ := List.append_inj' he rfl
    obtain rfl : f = fileName x := by simpa using hf
    have hglob : fileName x ∈ globJson env₁.disk (policiesDir dir) :=
      mem_globJson.mpr ⟨fileName_suffix x, _, lookup_of_file? hbody⟩
    exact hgone _ hglob hstem (usable_of_fileOf hq)

omit [PyRuntime] in
/-- The old manifest stands after the sweep. -/
theorem Filed.swept {d' : Disk} {names files : List Str} (h : Filed wire dir old d)
    (hup : ∀ f ∈ files, f ≠ (".." : Str))
    (hfin : Finishes d (dropOrphans dir names files) () d') : Filed wire dir old d' := by
  obtain ⟨env, env', rfl, rfl, hrun⟩ := hfin.exists_run
  obtain ⟨hdirs, hfile⟩ := dropOrphans_files hup hrun
  refine ⟨(resolve_congr hdirs).mpr h.resolves, ?_, fun n hn => ?_, fun n hn q hq hne => ?_⟩
  · rcases hfile (manifestFile dir) with hsame | ⟨⟨f, hf, -⟩, -⟩
    · rw [hsame]
      exact h.manifest
    · exact absurd hf (manifestFile_ne dir f)
  · obtain ⟨q, hq⟩ := h.leads n hn
    exact ⟨q, (leads_congr hdirs).mpr hq⟩
  · rw [fileOf_congr hdirs] at hq ⊢
    rcases hfile q with hsame | ⟨-, hnone⟩
    · refine (h.files n hn q hq hne).imp (fun hnone => by rw [hsame, hnone]) ?_
      rintro ⟨p, hs, ⟨text, m, hdump, hbody⟩, hown⟩
      exact ⟨p, hs, ⟨text, m, hdump, by rw [hsame, hbody]⟩, hown⟩
    · exact Or.inl hnone

/-- **A needed file that is swept is lost** before the new manifest stands. -/
theorem not_swept_of_crashSafe (hfirst : Finished wire dir old d) (hclean : CleanNames dir d)
    (hsold : old.Survives wire) (hsnew : new.Survives wire) (hsafe : CrashSafe wire dir old new d)
    (hall : ∀ p ∈ new.policies, Writable wire dir d p) {n : Str} (hn : Needed old n) {q : Path}
    (hq : fileOf d dir n = some q) : ¬ Swept dir new.names q := by
  intro hswept
  obtain ⟨d₁, d₂, hfin₁, hfin₂, hdirs, hgone⟩ := exists_swept hclean hall
  have hnone := hgone n q hq hswept
  have hrest : persistManifest wire dir new.policies (some new.primary) =
      makeDirs dir >>= fun _ => makeDirs (policiesDir dir) >>= fun _ =>
        (persistPolicies wire dir new.policies >>= fun _ => DiskM.getDisk >>= fun disk =>
          (dropOrphans dir new.names (globJson disk (policiesDir dir)) >>= fun _ =>
            writeAside (manifestPath dir) (new.manifestText wire))) := rfl
  have hrec := recovers_of_leaves hfirst hsafe hrest
    (.bind_right hfin₁ (.bind_right .getDisk (.bind_right hfin₂ (idle_writeAside _ _).leaves)))
  obtain ⟨env, env₁, rfl, rfl, hrun⟩ := hfin₁.exists_run
  have hreached : ∀ p ∈ new.policies, Reached wire dir env.disk new.policies p := by
    intro p hp
    obtain ⟨ps, qs, hsplit⟩ := List.append_of_mem hp
    refine ⟨ps, qs, hsplit, fun r hr => hall r ?_⟩
    rw [hsplit]
    rcases List.mem_append.mp hr with hr | hr
    · exact List.mem_append_left _ hr
    · exact List.mem_append_right _ (List.mem_singleton.mp hr ▸ List.mem_cons_self)
  have hfiled : Filed wire dir old d₂ :=
    (filed_of_written hfirst hsold hsnew (fun _ hp => hp)
      (fun p hp => manifest_not_written hfirst hsnew hsafe (hreached p hp)) rfl hrun).swept
        globJson_ne_up hfin₂
  -- nothing is loaded from the file
  have hlost : ∀ p, ¬ HoldsText wire d₂ q p := by
    rintro p ⟨text, m, -, hbody⟩
    rw [hnone] at hbody
    cases hbody
  obtain ⟨hallShown, -, k, hk, p, hp, hname⟩ :=
    (recovers_iff hfiled hsold (Or.inl rfl)).mp hrec
  rw [← fileOf_congr hdirs] at hq
  rcases hn.2 with rfl | hlogs
  · obtain ⟨q', hq', htext⟩ := hfiled.own_file hk hp
    rw [hname, hq] at hq'
    obtain rfl := Option.some.inj hq'
    exact hlost p htext
  · obtain ⟨r, -, q', hq', -, htext⟩ := hallShown hlogs n hn.1
    obtain rfl := Option.some.inj (hq.symm.trans hq')
    exact hlost r htext

/-- **The new list loads** when its manifest stands. -/
theorem loadable_of_crashSafe (hfirst : Finished wire dir old d) (hclean : CleanNames dir d)
    (hsnew : new.Survives wire) (hsafe : CrashSafe wire dir old new d)
    (hall : ∀ p ∈ new.policies, Writable wire dir d p)
    (hbytes : (new.manifestText wire).any isSurrogate = false) :
    Loadable dir d new (fun q => ¬ Swept dir new.names q) := by
  obtain ⟨d₁, d₂, hfin₁, hfin₂, hdirs, hgone⟩ := exists_swept hclean hall
  obtain ⟨q, htmp⟩ := hfirst.manifestTmp
  obtain ⟨d₃, hfin₃, hdirs₃⟩ := finishes_writeAside hbytes ((leads_congr hdirs).mpr htmp)
    ((leads_congr hdirs).mpr hfirst.manifestLeads)
  have hfiles : Finishes d (persistFiles wire dir new.policies (some new.primary)) () d₃ :=
    .bind hfin₁ (.bind .getDisk (.bind hfin₂ hfin₃))
  have hwhole : Finishes d (persistManifest wire dir new.policies (some new.primary)) () d₃ :=
    .bind (.makeDirs (mkdirs_self (p := []) hfirst.isDir))
      (.bind (.makeDirs (mkdirs_self (p := []) hfirst.subdir)) hfiles)
  have hdirs' := hdirs.trans hdirs₃
  have hnew : Finished wire dir new d₃ := by
    obtain ⟨env, env', -, rfl, hrun⟩ := hwhole.exists_run
    exact (finished_of_run hrun).1
  have hload := loadable_of_recovers (Or.inr rfl) hnew hsnew
    (recovers_of_leaves hfirst hsafe (m := fun _ => persistFiles wire dir new.policies
      (some new.primary)) rfl hfiles.leaves)
  -- the manifest is written elsewhere than the files of the names
  have hkept : ∀ r, JsonFile r → r ≠ manifestFile dir → d₃.file? r = d₂.file? r := by
    obtain ⟨env, env', rfl, rfl, hrun⟩ := hfin₃.exists_run
    obtain ⟨-, -, q, q', m, hq, hq', hlook⟩ := writeAside_files hrun
    obtain rfl := leads_manifest hq'
    obtain rfl := leads_manifestTmp hq
    intro r hr hne
    rw [hlook r (hr.ne_tmp dir _), if_neg hne]
  refine loadable_congr (fun r => (hdirs' r).symm) ⟨hload.primary, fun n hn r hr => ?_⟩
  obtain ⟨hne, hthere⟩ := hload.needed n hn r hr
  refine ⟨hne, fun hswept => hthere ?_⟩
  rw [hkept r (jsonFile_of_fileOf hr) hne]
  rw [fileOf_congr hdirs'] at hr
  exact hgone n r hr hswept

end Necessity

/-! ## Names without separators -/

section Plain

variable {wire : PolicyWire} {dir : Path} {old new : PrimaryCall} {d : Disk} {n : Str}

/-- The bundle names are single path components. -/
def PrimaryCall.Named (call : PrimaryCall) : Prop := ∀ n ∈ call.names, Plain n

theorem fileOf_plain (hn : Plain n) {q : Path} (h : fileOf d dir n = some q) :
    q = policiesDir dir ++ [fileName n] := by
  have hq := fileOf_eq_some.mp h
  rw [policyPath_eq hn] at hq
  exact ((resolve_child (fileName_ne_up n)).mp hq).2.2

/-- Such a name has a file of its own. -/
theorem name_of_file {m : Str} (hn : Plain n) (hm : Plain m) {q : Path}
    (h : fileOf d dir n = some q) (h' : fileOf d dir m = some q) : n = m := by
  have he := (fileOf_plain hn h).symm.trans (fileOf_plain hm h')
  exact fileName_inj.mp (by simpa using he)

theorem not_swept_plain (hn : Plain n) {q : Path} (h : fileOf d dir n = some q)
    {names : List Str} (hmem : n ∈ names) : ¬ Swept dir names q := by
  rintro ⟨f, hf, hstem⟩
  obtain rfl : fileName n = f := by simpa [fileOf_plain hn h] using hf
  exact hstem (by rwa [stem_fileName hn.1])

variable [PyRuntime]

theorem loadable_plain {call : PrimaryCall} (hnamed : call.Named)
    (hleads : ∀ n ∈ call.names, ∃ q, fileOf d dir n = some q) {There : Path → Prop}
    (hthere : ∀ n ∈ call.names, ∀ q, fileOf d dir n = some q → There q) :
    Loadable dir d call There where
  primary := by
    obtain ⟨q, hq⟩ := hleads call.primary call.listed
    obtain ⟨r, hr, hname⟩ := List.mem_map.mp call.listed
    obtain ⟨p, hp⟩ := exists_lastWith (fun p => fileOf d dir (bundleName p)) hr
    rw [hname, hq] at hp
    obtain ⟨hmem, hfile⟩ := lastWith_eq_some hp
    exact ⟨q, p, hq, hp, name_of_file (hnamed _ (List.mem_map.mpr ⟨p, hmem, rfl⟩))
      (hnamed _ call.listed) hfile hq⟩
  needed := by
    intro n hn q hq
    refine ⟨?_, hthere n hn.1 q hq⟩
    rw [fileOf_plain (hnamed n hn.1) hq]
    exact (manifestFile_ne dir _).symm

/-- **For names that are single path components** the condition is one on the two
lists: the names that a load of the old manifest needs are names of new policies,
and no policy is written only to be overwritten by the next of its name. -/
theorem crashProof_of_names (hfirst : Finished wire dir old d) (hold : old.Named)
    (hnew : new.Named) (hneeded : ∀ n, Needed old n → n ∈ new.names)
    (hdup : ∀ p ∈ new.policies, bundleName p ∈ old.names → Current old new p) :
    CrashProof wire dir old new d where
  before := by
    refine loadable_plain hold (fun n hn => ?_) fun n hn q hq => ?_
    · obtain ⟨q, hq⟩ := hfirst.leads hn
      exact ⟨q, fileOf_of_leads hq⟩
    · obtain ⟨q', p, hq', hp⟩ := hfirst.exists_left hn
      obtain rfl := Option.some.inj (hq.symm.trans hq')
      have hne : q ≠ manifestFile dir := by
        rw [fileOf_plain (hold n hn) hq]
        exact (manifestFile_ne dir _).symm
      obtain ⟨text, m, -, hbody⟩ := (hfirst.files q p hp hne).resolve_right fun hgone =>
        not_swept_plain (hold n hn) hq hn hgone.1
      rw [hbody]
      simp
  written := by
    rintro p ⟨ps, qs, hsplit, -⟩ q hq
    have hp : p ∈ new.policies := by simp [hsplit]
    have hplain := hnew _ (List.mem_map.mpr ⟨p, hp, rfl⟩)
    refine ⟨?_, fun n hn hfile => hdup p hp ?_, fun hfile => ?_⟩
    · rw [fileOf_plain hplain hq]
      exact (manifestFile_ne dir _).symm
    · rwa [name_of_file hplain (hold n hn) hq hfile]
    · exact name_of_file hplain (hold _ old.listed) hq hfile
  swept := fun _ n hn _ hq => not_swept_plain (hold n hn.1) hq (hneeded n hn)
  after := by
    intro hall _
    refine loadable_plain hnew (fun n hn => ?_) fun n hn q hq => not_swept_plain (hnew n hn) hq hn
    obtain ⟨p, hp, rfl⟩ := List.mem_map.mp hn
    obtain ⟨q, hq⟩ := (hall p hp).file
    exact ⟨q, fileOf_of_leads hq⟩

end Plain

/-- **A second call that dies is crash-safe exactly under the condition**, whatever the
bundle names are and however far it would get; that the condition is needed supposes
names in the policies directory which a file system can hold. Where all bundle names
are single path components it is enough that the names which a load of the old manifest
needs are names of new policies, and that no policy is written only to be overwritten by
the next of its name. -/
theorem crash_safe_iff [PyRuntime] (wire : PolicyWire) (dir : Path) (old new : PrimaryCall)
    (hsold : old.Survives wire) (hsnew : new.Survives wire) {before after : DiskEnv}
    (hfirst : (old.persist wire dir).run before = (.ok (), after)) :
    (CrashProof wire dir old new after.disk → CrashSafe wire dir old new after.disk) ∧
      (CleanNames dir after.disk → CrashSafe wire dir old new after.disk →
        CrashProof wire dir old new after.disk) ∧
      (old.Named → new.Named → (∀ n, Needed old n → n ∈ new.names) →
        (∀ p ∈ new.policies, bundleName p ∈ old.names → Current old new p) →
        CrashSafe wire dir old new after.disk) := by
  rw [persist_eq] at hfirst
  have hfin : Finished wire dir old after.disk := (finished_of_run hfirst).1
  have hsafe : CrashProof wire dir old new after.disk → CrashSafe wire dir old new after.disk :=
    fun hproof ops hops => recovers_of_crashProof hproof hfin hsold hsnew (whole_crash hops) rfl
  refine ⟨hsafe, fun hclean hsafe => ?_, fun hold hnew hneeded hdup =>
    hsafe (crashProof_of_names hfin hold hnew hneeded hdup)⟩
  have hstart : Recovers wire dir old new after.disk := by
    refine recovers_of_leaves hfin hsafe (m := fun _ => persistFiles wire dir new.policies
      (some new.primary)) rfl (Idle.leaves ?_)
    exact .bind (idle_persistPolicies _) fun _ => idle_persistRest _ _
  exact
    { before := loadable_of_recovers (Or.inl rfl) hfin hsold hstart
      written := fun p hp q hq => written_of_crashSafe hfin hsold hsnew hsafe hp hq
      swept := fun hall n hn q hq =>
        not_swept_of_crashSafe hfin hclean hsold hsnew hsafe hall hn hq
      after := fun hall hbytes => loadable_of_crashSafe hfin hclean hsnew hsafe hall hbytes }

/-! Policies `a` and `b`, and one named `../x`, whose file lies outside the policies
directory, in four lists. -/

def policyX : EdgePolicy := demoPolicy "pol-x" "../x"

def bothText : Str := "\x7b\"primary_name\": \"a\", \"names\": [\"a\", \"b\"]\x7d"

def onlyBText : Str := "\x7b\"primary_name\": \"b\", \"names\": [\"b\"]\x7d"

def outsideText : Str := "\x7b\"primary_name\": \"a\", \"names\": [\"../x\", \"a\"]\x7d"

def allText : Str := "\x7b\"primary_name\": \"a\", \"names\": [\"../x\", \"a\", \"b\"]\x7d"

/-- The texts of the runs below, as the libraries print and parse them. -/
def crashWire : PolicyWire where
  json :=
    { loads := fun t =>
        if t = bothText then .ok (manifestJson [policyA, policyB] (some "a"))
        else if t = onlyBText then .ok (manifestJson [policyB] (some "b"))
        else if t = outsideText then .ok (manifestJson [policyA, policyX] (some "a"))
        else if t = allText then .ok (manifestJson [policyA, policyB, policyX] (some "a"))
        else if t = demoText "pol-x" "../x" then .ok (demoJsonOf "pol-x" "../x")
        else demoWire.json.loads t
      dumps := fun v =>
        match v.field? "names" with
        | some (.arr [_]) => onlyBText
        | some (.arr [.str s, _]) => if s = "a" then bothText else outsideText
        | some (.arr _) => allText
        | _ => [] }
  validate := demoWire.validate
  dump := demoWire.dump

def both : PrimaryCall where
  now := 10
  policies := [policyA, policyB]
  primary := "a"
  listed := by decide

def onlyB : PrimaryCall where
  now := 20
  policies := [policyB]
  primary := "b"
  listed := by decide

def outside : PrimaryCall where
  now := 5
  policies := [policyA, policyX]
  primary := "a"
  listed := by decide

def allThree : PrimaryCall where
  now := 10
  policies := [policyA, policyB, policyX]
  primary := "a"
  listed := by decide

theorem crash_texts : ∀ t, t = demoText "pol-a" "a" ∨ t = demoText "pol-b" "b" →
    crashWire.json.loads t = demoWire.json.loads t := by
  rintro t (rfl | rfl)
  · have h1 : demoText "pol-a" "a" ≠ bothText := by decide +kernel
    have h2 : demoText "pol-a" "a" ≠ onlyBText := by decide +kernel
    have h3 : demoText "pol-a" "a" ≠ outsideText := by decide +kernel
    have h4 : demoText "pol-a" "a" ≠ allText := by decide +kernel
    have h5 : demoText "pol-a" "a" ≠ demoText "pol-x" "../x" := by decide +kernel
    simp only [crashWire, if_neg h1, if_neg h2, if_neg h3, if_neg h4, if_neg h5]
  · have h1 : demoText "pol-b" "b" ≠ bothText := by decide +kernel
    have h2 : demoText "pol-b" "b" ≠ onlyBText := by decide +kernel
    have h3 : demoText "pol-b" "b" ≠ outsideText := by decide +kernel
    have h4 : demoText "pol-b" "b" ≠ allText := by decide +kernel
    have h5 : demoText "pol-b" "b" ≠ demoText "pol-x" "../x" := by decide +kernel
    simp only [crashWire, if_neg h1, if_neg h2, if_neg h3, if_neg h4, if_neg h5]

theorem crash_texts_x : crashWire.json.loads (demoText "pol-x" "../x") =
    .ok (demoJsonOf "pol-x" "../x") := by
  have h1 : demoText "pol-x" "../x" ≠ bothText := by decide +kernel
  have h2 : demoText "pol-x" "../x" ≠ onlyBText := by decide +kernel
  have h3 : demoText "pol-x" "../x" ≠ outsideText := by decide +kernel
  have h4 : demoText "pol-x" "../x" ≠ allText := by decide +kernel
  simp only [crashWire, if_neg h1, if_neg h2, if_neg h3, if_neg h4, if_true]

/-- The texts of the policies, as they are printed and parsed. -/
theorem crash_policies {p : EdgePolicy} (hp : p = policyA ∨ p = policyB ∨ p = policyX) :
    crashWire.json.loads (demoText p.id p.bundle.name) = .ok (demoJsonOf p.id p.bundle.name) ∧
      CodePoint.cr ∉ demoText p.id p.bundle.name := by
  rcases hp with rfl | rfl | rfl
  · exact ⟨(crash_texts _ (Or.inl rfl)).trans demo_loads_a, by decide +kernel⟩
  · exact ⟨(crash_texts _ (Or.inr rfl)).trans demo_loads_b, by decide +kernel⟩
  · exact ⟨crash_texts_x, by decide +kernel⟩

/-- The libraries keep the texts of such a list apart, if they do so with its manifest. -/
theorem crash_survives {call : PrimaryCall}
    (hpolicies : ∀ p ∈ call.policies, p = policyA ∨ p = policyB ∨ p = policyX)
    (hcr : CodePoint.cr ∉ call.manifestText crashWire)
    (hloads : crashWire.json.loads (call.manifestText crashWire) =
      .ok (manifestJson call.policies (some call.primary))) : call.Survives crashWire where
  manifest := ⟨hcr, hloads⟩
  noPolicy := by
    refine ⟨.validationError, ?_, rfl⟩
    rw [PolicyWire.parse, hloads]
    rfl
  policies := by
    intro p hp text ht
    obtain ⟨hload, hcr⟩ := crash_policies (hpolicies p hp)
    obtain rfl : demoText p.id p.bundle.name = text := Except.ok.inj ht
    refine ⟨hcr, ?_⟩
    rw [PolicyWire.parse, hload]
    rcases hpolicies p hp with rfl | rfl | rfl <;> rfl
  nameless := by
    intro p hp text ht
    obtain rfl : demoText p.id p.bundle.name = text := Except.ok.inj ht
    exact ⟨_, (crash_policies (hpolicies p hp)).1, rfl⟩

theorem both_survives : both.Survives crashWire := by
  have htext : both.manifestText crashWire = bothText := by decide +kernel
  refine crash_survives (fun p hp => ?_) (by rw [htext]; decide +kernel) ?_
  · have hmem : p = policyA ∨ p = policyB := by simpa [both] using hp
    exact hmem.imp_right Or.inl
  · rw [htext]
    simp only [crashWire, if_true]
    rfl

theorem onlyB_survives : onlyB.Survives crashWire := by
  have htext : onlyB.manifestText crashWire = onlyBText := by decide +kernel
  have h1 : onlyBText ≠ bothText := by decide +kernel
  refine crash_survives (fun p hp => ?_) (by rw [htext]; decide +kernel) ?_
  · exact Or.inr (Or.inl (List.mem_singleton.mp hp))
  · rw [htext]
    simp only [crashWire, if_neg h1, if_true]
    rfl

theorem outside_survives : outside.Survives crashWire := by
  have htext : outside.manifestText crashWire = outsideText := by decide +kernel
  have h1 : outsideText ≠ bothText := by decide +kernel
  have h2 : outsideText ≠ onlyBText := by decide +kernel
  refine crash_survives (fun p hp => ?_) (by rw [htext]; decide +kernel) ?_
  · have hmem : p = policyA ∨ p = policyX := by simpa [outside] using hp
    exact hmem.imp_right Or.inr
  · rw [htext]
    simp only [crashWire, if_neg h1, if_neg h2, if_true]
    rfl

theorem allThree_survives : allThree.Survives crashWire := by
  have htext : allThree.manifestText crashWire = allText := by decide +kernel
  have h1 : allText ≠ bothText := by decide +kernel
  have h2 : allText ≠ onlyBText := by decide +kernel
  have h3 : allText ≠ outsideText := by decide +kernel
  refine crash_survives (fun p hp => ?_) (by rw [htext]; decide +kernel) ?_
  · simpa [allThree] using hp
  · rw [htext]
    simp only [crashWire, if_neg h1, if_neg h2, if_neg h3, if_true]
    rfl

/-- The environment after a first call, on an empty disk. -/
def firstDisk (call : PrimaryCall) : Except Stop Unit × DiskEnv :=
  (@PrimaryCall.persist asciiRuntime call crashWire stateDir).run
    { disk := .empty, now := call.now, faults := [] }

def fileA : Path := policiesDir stateDir ++ [fileName "a"]

def fileB : Path := policiesDir stateDir ++ [fileName "b"]

def fileX : Path := stateDir ++ [fileName "x"]

/-- The disk of `outside`: `../x` leads out of the policies directory. -/
theorem outside_files :
    fileOf (firstDisk outside).2.disk stateDir "a" = some fileA ∧
      fileOf (firstDisk outside).2.disk stateDir "b" = some fileB ∧
      fileOf (firstDisk outside).2.disk stateDir "../x" = some fileX ∧
      (firstDisk outside).2.disk.file? fileA ≠ none ∧
      (firstDisk outside).2.disk.file? fileX ≠ none ∧
      (firstDisk outside).2.disk.children (policiesDir stateDir) = [fileName "a"] := by
  have hthere : ∀ q, ((firstDisk outside).2.disk.file? q).isSome = true →
      (firstDisk outside).2.disk.file? q ≠ none := by
    intro q h hn
    rw [hn] at h
    cases h
  refine ⟨?_, ?_, ?_, hthere _ ?_, hthere _ ?_, ?_⟩ <;> decide +kernel

/-- What the lists leave in the file of the primary. -/
theorem left_in_fileA {d : Disk} (ha : fileOf d stateDir "a" = some fileA)
    (hb : fileOf d stateDir "b" = some fileB) (hx : fileOf d stateDir "../x" = some fileX) :
    leftIn d stateDir outside.policies fileA = some policyA ∧
      leftIn d stateDir allThree.policies fileA = some policyA := by
  have hA : fileOf d stateDir (bundleName policyA) = some fileA := ha
  have hB : ¬ fileOf d stateDir (bundleName policyB) = some fileA := by
    intro h
    exact absurd (Option.some.inj (hb.symm.trans h)) (by decide)
  have hX : ¬ fileOf d stateDir (bundleName policyX) = some fileA := by
    intro h
    exact absurd (Option.some.inj (hx.symm.trans h)) (by decide)
  constructor <;>
    simp [leftIn, outside, allThree, lastWith, hA, hB, hX]

theorem outside_swept {n : Str} (hn : n = "a" ∨ n = "../x") {q : Path}
    (hq : fileOf (firstDisk outside).2.disk stateDir n = some q) :
    (q = fileA ∨ q = fileX) ∧ ¬ Swept stateDir allThree.names q := by
  obtain ⟨ha, -, hx, -⟩ := outside_files
  rcases hn with rfl | rfl
  · obtain rfl := Option.some.inj (ha.symm.trans hq)
    refine ⟨Or.inl rfl, ?_⟩
    rintro ⟨f, hf, hstem⟩
    obtain rfl : fileName "a" = f := by simpa [fileA] using hf
    exact hstem (by decide)
  · obtain rfl := Option.some.inj (hx.symm.trans hq)
    refine ⟨Or.inr rfl, ?_⟩
    rintro ⟨f, hf, -⟩
    have hlen : 2 = [f].length + 2 := congrArg List.length hf
    simp at hlen

theorem outside_before : @Loadable asciiRuntime stateDir (firstDisk outside).2.disk outside
    (fun q => (firstDisk outside).2.disk.file? q ≠ none) := by
  obtain ⟨ha, hb, hx, hthereA, hthereX, -⟩ := outside_files
  refine @Loadable.mk asciiRuntime _ _ _ _ ⟨fileA, policyA, ha, (left_in_fileA ha hb hx).1, rfl⟩ ?_
  rintro n ⟨hn, -⟩ q hq
  have hmem : n = bundleName policyA ∨ n = bundleName policyX := by
    simpa [PrimaryCall.names, outside] using hn
  rcases (outside_swept hmem hq).1 with rfl | rfl
  · exact ⟨by decide, hthereA⟩
  · exact ⟨by decide, hthereX⟩

theorem allThree_after : @Loadable asciiRuntime stateDir (firstDisk outside).2.disk allThree
    (fun q => ¬ Swept stateDir allThree.names q) := by
  obtain ⟨ha, hb, hx, -⟩ := outside_files
  refine @Loadable.mk asciiRuntime _ _ _ _ ⟨fileA, policyA, ha, (left_in_fileA ha hb hx).2, rfl⟩ ?_
  rintro n ⟨hn, -⟩ q hq
  have hmem : n = bundleName policyA ∨ n = bundleName policyB ∨ n = bundleName policyX := by
    simpa [PrimaryCall.names, allThree] using hn
  rcases or_left_comm.mp hmem with rfl | hax
  · obtain rfl := Option.some.inj (hb.symm.trans hq)
    refine ⟨by decide, ?_⟩
    rintro ⟨f, hf, hstem⟩
    obtain rfl : fileName "b" = f := by simpa [fileB] using hf
    exact hstem (by decide)
  · obtain ⟨rfl | rfl, hswept⟩ := outside_swept hax hq
    · exact ⟨by decide, hswept⟩
    · exact ⟨by decide, hswept⟩

theorem allThree_written {p : EdgePolicy} (hp : p ∈ allThree.policies) {q : Path}
    (hq : fileOf (firstDisk outside).2.disk stateDir (bundleName p) = some q) :
    q ≠ manifestFile stateDir ∧ Current outside allThree p ∧
      (fileOf (firstDisk outside).2.disk stateDir outside.primary = some q →
        bundleName p = outside.primary) := by
  obtain ⟨ha, hb, hx, -⟩ := outside_files
  have hmem : p = policyA ∨ p = policyB ∨ p = policyX := by simpa [allThree] using hp
  rcases hmem with rfl | rfl | rfl
  · obtain rfl := Option.some.inj (ha.symm.trans hq)
    exact ⟨by decide, Or.inl rfl, fun _ => rfl⟩
  · obtain rfl := Option.some.inj (hb.symm.trans hq)
    refine ⟨by decide, Or.inr rfl, fun h => ?_⟩
    exact absurd (Option.some.inj (ha.symm.trans h)) (by decide)
  · obtain rfl := Option.some.inj (hx.symm.trans hq)
    refine ⟨by decide, Or.inl rfl, fun h => ?_⟩
    exact absurd (Option.some.inj (ha.symm.trans h)) (by decide)

/-- The condition holds of the next list, whose `../x` stays where it was. -/
theorem outside_crashProof :
    @CrashProof asciiRuntime crashWire stateDir outside allThree (firstDisk outside).2.disk := by
  refine @CrashProof.mk asciiRuntime _ _ _ _ _ outside_before ?_ ?_ fun _ _ => allThree_after
  · rintro p ⟨ps, qs, hsplit, -⟩ q hq
    obtain ⟨hne, hcurrent, hprimary⟩ := allThree_written (by simp [hsplit]) hq
    exact ⟨hne, fun _ _ _ => hcurrent, hprimary⟩
  · rintro - n ⟨hn, -⟩ q hq
    have hmem : n = bundleName policyA ∨ n = bundleName policyX := by
      simpa [PrimaryCall.names, outside] using hn
    exact (outside_swept hmem hq).2

/-- Adding a policy is crash-safe, also beside one whose file lies outside, and the
condition is one that crash safety asks for. -/
theorem crash_safe_added :
    (firstDisk outside = (.ok (), (firstDisk outside).2) ∧
      @CrashSafe asciiRuntime crashWire stateDir outside allThree (firstDisk outside).2.disk ∧
      @CrashProof asciiRuntime crashWire stateDir outside allThree (firstDisk outside).2.disk) ∧
    firstDisk onlyB = (.ok (), (firstDisk onlyB).2) ∧
      @CrashSafe asciiRuntime crashWire stateDir onlyB both (firstDisk onlyB).2.disk := by
  have hrun : firstDisk outside = (.ok (), (firstDisk outside).2) :=
    finished_of_toBool (by decide +kernel)
  have hrunB : firstDisk onlyB = (.ok (), (firstDisk onlyB).2) :=
    finished_of_toBool (by decide +kernel)
  have hclean : CleanNames stateDir (firstDisk outside).2.disk := by
    intro f hf
    rw [outside_files.2.2.2.2.2, List.mem_singleton] at hf
    rw [hf]
    exact not_unusable_of_clean (usable_of_fileOf outside_files.1).clean
  obtain ⟨hsafe, hproof, -⟩ := @crash_safe_iff asciiRuntime crashWire stateDir outside allThree
    outside_survives allThree_survives _ _ hrun
  obtain ⟨-, -, hnamed⟩ := @crash_safe_iff asciiRuntime crashWire stateDir onlyB both
    onlyB_survives both_survives _ _ hrunB
  have hthere := hsafe outside_crashProof
  refine ⟨⟨hrun, hthere, hproof hclean hthere⟩, hrunB, hnamed ?_ ?_ ?_ fun p hp _ => Or.inr ?_⟩
  · intro n hn
    obtain rfl : n = bundleName policyB := List.mem_singleton.mp hn
    exact ⟨by decide, by decide⟩
  · intro n hn
    have hmem : n = bundleName policyA ∨ n = bundleName policyB := by
      simpa [PrimaryCall.names, both] using hn
    rcases hmem with rfl | rfl <;> exact ⟨by decide, by decide⟩
  · rintro n ⟨hn, -⟩
    obtain rfl : n = bundleName policyB := List.mem_singleton.mp hn
    decide
  · have hmem : p = policyA ∨ p = policyB := by simpa [both] using hp
    rcases hmem with rfl | rfl <;> rfl

/-- A new primary under a new name: when the process dies between the unlinking
of `a.json` and the new manifest, a cold start has no primary: the load raises,
for it warns of `a.json`. -/
theorem primary_lost_in_crash :
    (both.Survives crashWire ∧ onlyB.Survives crashWire) ∧
      ∃ after, firstDisk both = (.ok (), after) ∧
        ¬ @CrashSafe asciiRuntime crashWire stateDir both onlyB after.disk := by
  refine ⟨⟨both_survives, onlyB_survives⟩, ?_⟩
  have hlost : (@readManifest asciiRuntime crashWire
      (@PrimaryCall.crashed asciiRuntime crashWire stateDir onlyB (firstDisk both).2.disk
        (List.replicate 5 .none))
        stateDir).toBool = false := by
    decide +kernel
  obtain ⟨after, hrun⟩ : ∃ after, firstDisk both = (.ok (), after) :=
    ⟨_, finished_of_toBool (by decide +kernel)⟩
  refine ⟨after, hrun, fun hsafe => ?_⟩
  obtain ⟨c, hread, -⟩ := hsafe (List.replicate 5 .none) (by decide)
  rw [hrun, hread] at hlost
  cases hlost

end TrustModelEdge.Policy
