/-
TrustModelEdge.EnrollTheorems — when an enrolled pod stays enrolled.

The first boot writes four texts; every later boot is a function of what
the loader makes of them, and of the clock. `boot_reuses_iff` is the one
fact about a boot that the runs need: it reuses credentials exactly when
they load and their expiry compares as later than now. The files stay, so
the run theorem is that fact at each boot (`token_spent_once_iff`).
-/
import TrustModelEdge.Enroll
import TrustModelEdge.HeartbeatTheorems

namespace TrustModelEdge

open Py Py.DiskM Lib

/-! ## What an enrollment writes -/

/-- The text of each file that holds these credentials. -/
def LoadedCredentials.texts (lib : HeartbeatLib) (l : LoadedCredentials) : CredentialFile → Str
  | .cert => l.certPem
  | .key => l.keyPem
  | .ca => l.caChainPem
  | .meta_ => lib.json.dumps (loadedMetaJson lib.isoformat l l.certValidTo)

section Writes

variable {lib : HeartbeatLib} {dir : Path} {files : List CredentialFile}
  {texts : CredentialFile → Str} {f : CredentialFile} {env env' : DiskEnv}

theorem HoldsTexts.writeText {s : Str} (h : HoldsTexts files texts dir env.disk)
    (hrun : (writeText (credentialPath dir f.name) s).run env = (.ok (), env')) :
    HoldsTexts (f :: files) (Function.update texts f s) dir env'.disk := by
  obtain ⟨-, q, hq, hw⟩ := writeText_ok hrun
  rw [credentialPath_eq] at hq
  obtain ⟨hu, hd, rfl⟩ := (resolve_child f.name_ne_up).mp hq
  exact h.write hu hd hw

/-- Only a text is written. -/
theorem writeValue_ok {v : Json} {s : Str}
    (hrun : (writeValue (credentialPath dir f.name) v).run env = (.ok s, env')) :
    v = .str s ∧ (writeText (credentialPath dir f.name) s).run env = (.ok (), env') := by
  cases v with
  | str s' =>
    obtain ⟨_, env₁, hw, hret⟩ := DiskM.bind_ok hrun
    cases hret
    exact ⟨rfl, hw⟩
  | null | bool | int | float | arr | obj => cases hrun

/-- Credentials that were written have the texts of the bundle, and the four
files hold them. -/
theorem persistRotated_ok {creds l : LoadedCredentials} {rotated : RotateBundle}
    (hrun : (persistRotated lib dir creds rotated).run env = (.ok l, env')) :
    rotated.certPem = .str l.certPem ∧ rotated.keyPem = .str l.keyPem ∧
      rotated.caChainPem = .str l.caChainPem ∧
      l = { creds with
        certPem := l.certPem, keyPem := l.keyPem, caChainPem := l.caChainPem
        certValidTo := rotated.certValidTo } ∧
      HoldsTexts lastFirst (l.texts lib) dir env'.disk := by
  obtain ⟨_, e₀, hdirs, hrun⟩ := DiskM.bind_ok hrun
  obtain ⟨certPem, e₁, hcert, hrun⟩ := DiskM.bind_ok hrun
  obtain ⟨keyPem, e₂, hkey, hrun⟩ := DiskM.bind_ok hrun
  obtain ⟨_, e₃, hmode, hrun⟩ := DiskM.bind_ok hrun
  obtain ⟨caChainPem, e₄, hca, hrun⟩ := DiskM.bind_ok hrun
  obtain ⟨_, e₅, hmeta, hrun⟩ := DiskM.bind_ok hrun
  cases hrun
  obtain ⟨hcertText, hcert⟩ := writeValue_ok (f := .cert) hcert
  obtain ⟨hkeyText, hkey⟩ := writeValue_ok (f := .key) hkey
  obtain ⟨hcaText, hca⟩ := writeValue_ok (f := .ca) hca
  have hdisk : e₃.disk = e₂.disk := (Except.ok.inj (DiskM.operation_ok hmode).1).symm
  refine ⟨hcertText, hkeyText, hcaText, rfl, ?_⟩
  have h₀ : HoldsTexts [] (fun _ => []) dir e₀.disk := fun f hf => by simp at hf
  have h₂ := (h₀.writeText hcert).writeText hkey
  rw [← hdisk] at h₂
  have h₄ := (h₂.writeText hca).writeText (f := .meta_) hmeta
  intro f hf
  obtain ⟨hd, hu, m, hl⟩ := h₄ f hf
  refine ⟨hd, hu, m, ?_⟩
  rw [hl]
  cases f <;> rfl

end Writes

/-! ## One boot -/

/-- The instant of a time; one without an offset counts as UTC. -/
def DateTime.utc (t : DateTime) : Rat := t.wall - t.offset.getD 0

theorem gt_now_iff {t : DateTime} {now : Rat} :
    t.gt { wall := now, offset := some 0 } = .ok true ↔ t.offset ≠ none ∧ now < t.utc := by
  unfold DateTime.gt DateTime.utc
  cases t.offset with
  | none => simp
  | some o => simp

section OneBoot

variable {lib : HeartbeatLib} {b : Boot} {d : Disk} {creds : LoadedCredentials}

/-- The boot returned these credentials without a call of the enroll endpoint. -/
def BootOutcome.Reuses (o : BootOutcome) (creds : LoadedCredentials) : Prop :=
  o.posted = none ∧ o.ended = .returned creds

theorem enrolledTo_posted (request : EnrollRequest) (bundle : EnrollBundle) :
    (enrolledTo lib b d request bundle).posted = some request := by
  unfold enrolledTo
  split <;> rfl

theorem enrollWith_posted (token : Str) :
    (enrollWith lib b d token).posted = some (enrollRequest b.cfg token) := by
  unfold enrollWith
  split
  · rfl
  · rfl
  · exact enrolledTo_posted _ _

/-- What a boot does: it reuses what it loaded, it stops before any call, or it
spends a token. -/
theorem boot_cases (lib : HeartbeatLib) (b : Boot) (d : Disk) :
    (∃ creds, loadCredentials lib.json lib.fromisoformat d b.cfg.stateDir = .ok (some creds) ∧
        stillValid (some creds) b.now = .ok true ∧
        bootstrapIfNeeded lib b d = { disk := d, ended := .returned creds }) ∨
      ((bootstrapIfNeeded lib b d).posted = none ∧
        ∀ creds, (bootstrapIfNeeded lib b d).ended ≠ .returned creds) ∨
      ∃ token, bootstrapIfNeeded lib b d = enrollWith lib b d token := by
  unfold bootstrapIfNeeded
  split
  · exact Or.inr (Or.inl ⟨rfl, fun _ h => by cases h⟩)
  · rename_i existing hload
    split
    · exact Or.inr (Or.inl ⟨rfl, fun _ h => by cases h⟩)
    · rename_i creds hvalid
      exact Or.inl ⟨creds, hload, hvalid, rfl⟩
    · split
      · exact Or.inr (Or.inl ⟨rfl, fun _ h => by cases h⟩)
      · exact Or.inr (Or.inl ⟨rfl, fun _ h => by cases h⟩)
      · exact Or.inr (Or.inr ⟨_, rfl⟩)

/-- **When a boot reuses**: the credentials load, and their expiry has an offset
and is later than now. -/
theorem boot_reuses_iff :
    (bootstrapIfNeeded lib b d).Reuses creds ↔
      loadCredentials lib.json lib.fromisoformat d b.cfg.stateDir = .ok (some creds) ∧
        creds.certValidTo.offset ≠ none ∧ b.now < creds.certValidTo.utc := by
  rw [← gt_now_iff]
  constructor
  · rintro ⟨hposted, hended⟩
    rcases boot_cases lib b d with ⟨creds', hload, hvalid, hboot⟩ | ⟨-, hnot⟩ | ⟨token, hboot⟩
    · rw [hboot] at hended
      obtain rfl := BootEnd.returned.inj hended
      exact ⟨hload, hvalid⟩
    · exact absurd hended (hnot creds)
    · rw [hboot, enrollWith_posted] at hposted
      cases hposted
  · rintro ⟨hload, hvalid⟩
    have hboot : bootstrapIfNeeded lib b d = { disk := d, ended := .returned creds } := by
      have hstill : stillValid (some creds) b.now = .ok true := hvalid
      unfold bootstrapIfNeeded
      simp only [hload, hstill]
    rw [hboot]
    exact ⟨rfl, rfl⟩

/-- Loaded credentials whose expiry has no offset stop every boot: the token is
spent, and the comparison raises. -/
theorem boot_of_naive
    (hload : loadCredentials lib.json lib.fromisoformat d b.cfg.stateDir = .ok (some creds))
    (hnaive : creds.certValidTo.offset = none) :
    bootstrapIfNeeded lib b d = { disk := d, ended := .raised (.raised .typeError) } := by
  have hstill : stillValid (some creds) b.now = .error .typeError := by
    simp only [stillValid, DateTime.gt, hnaive]
  unfold bootstrapIfNeeded
  simp only [hload, hstill]

/-- A boot that reuses leaves the disk. -/
theorem boot_disk_of_reuses (h : (bootstrapIfNeeded lib b d).Reuses creds) :
    (bootstrapIfNeeded lib b d).disk = d := by
  rcases boot_cases lib b d with ⟨creds', -, -, hboot⟩ | ⟨-, hnot⟩ | ⟨token, hboot⟩
  · rw [hboot]
  · exact absurd h.2 (hnot creds)
  · have hposted := h.1
    rw [hboot, enrollWith_posted] at hposted
    cases hposted

/-- The boot spent its token: the response gave this bundle, and the credentials
made of it were written and returned. -/
structure Enrolled (lib : HeartbeatLib) (b : Boot) (d : Disk) (bundle : EnrollBundle)
    (creds : LoadedCredentials) : Prop where
  answered : enroll lib.fromisoformat b.answer = .ok bundle
  posted : (bootstrapIfNeeded lib b d).posted.isSome
  returned : (bootstrapIfNeeded lib b d).ended = .returned creds

/-- The credentials of an enrollment are those of the bundle, and the files hold
them. -/
theorem enrolled_ok {bundle : EnrollBundle} (h : Enrolled lib b d bundle creds) :
    bundle.certPem = .str creds.certPem ∧ bundle.keyPem = .str creds.keyPem ∧
      bundle.caChainPem = .str creds.caChainPem ∧
      creds = { bundle.identity with
        certPem := creds.certPem, keyPem := creds.keyPem, caChainPem := creds.caChainPem } ∧
      HoldsTexts lastFirst (creds.texts lib) b.cfg.stateDir (bootstrapIfNeeded lib b d).disk := by
  obtain ⟨hanswered, hposted, hreturned⟩ := h
  rcases boot_cases lib b d with ⟨creds', -, -, hboot⟩ | ⟨-, hnot⟩ | ⟨token, hboot⟩
  · rw [hboot] at hposted
    cases hposted
  · exact absurd hreturned (hnot creds)
  · rw [hboot] at hreturned ⊢
    unfold enrollWith at hreturned ⊢
    simp only [hanswered] at hreturned ⊢
    unfold enrolledTo at hreturned ⊢
    split at hreturned
    · rename_i creds' env' hrun
      obtain rfl := BootEnd.returned.inj hreturned
      exact persistRotated_ok hrun
    · cases hreturned
    · cases hreturned

/-- The boot returned credentials. -/
def BootOutcome.finished (o : BootOutcome) : Bool :=
  match o.ended with
  | .returned _ => true
  | _ => false

theorem enrolled_of_finished {bundle : EnrollBundle}
    (hanswered : enroll lib.fromisoformat b.answer = .ok bundle)
    (hposted : (bootstrapIfNeeded lib b d).posted.isSome)
    (hfinished : (bootstrapIfNeeded lib b d).finished = true) :
    ∃ creds, Enrolled lib b d bundle creds := by
  unfold BootOutcome.finished at hfinished
  split at hfinished
  · rename_i creds hreturned
    exact ⟨creds, hanswered, hposted, hreturned⟩
  · cases hfinished

end OneBoot

/-! ## The boots that follow -/

section Following

variable (lib : HeartbeatLib) (dir : Path)

/-- The rest of the program leaves the four files as they are. -/
def KeepsCredentials (d d' : Disk) : Prop :=
  ∀ f : CredentialFile, d'.lookup (dir ++ [f.name]) = d.lookup (dir ++ [f.name])

/-- A boot on this state directory before the expiry, or a change elsewhere. -/
def BeforeExpiry (expiry : DateTime) (d : Disk) : PodInput → Prop
  | .boot b => b.cfg.stateDir = dir ∧ b.now < expiry.utc
  | .others d' => KeepsCredentials dir d d'

/-- **The token is not needed again**: whatever follows on this disk, every boot
before the expiry returns these credentials and calls no endpoint. -/
def SpentOnce (creds : LoadedCredentials) (d : Disk) : Prop :=
  ∀ inputs, (∀ v ∈ visits (podStep lib) d inputs, BeforeExpiry dir creds.certValidTo v.1 v.2) →
    ∀ out ∈ trace (podStep lib) d inputs, ∀ o ∈ out, o.Reuses creds

/-- The bundle survives its four files and the comparison with the clock. -/
structure Reusable (bundle : EnrollBundle) : Prop where
  /-- The expiry has an offset from UTC. -/
  aware : bundle.certValidTo.offset ≠ none
  /-- No certificate, key or chain has a carriage return. -/
  plain : ∀ v ∈ [bundle.certPem, bundle.keyPem, bundle.caChainPem], ∀ s, v = .str s →
    CodePoint.cr ∉ s
  /-- The libraries read the printed `meta.json` back. -/
  printed : MetaReads lib.json lib.fromisoformat
    (lib.json.dumps (loadedMetaJson lib.isoformat bundle.identity bundle.certValidTo))
    bundle.identity

/-- The libraries are inverse on what the bundle has them print, and `json.dumps`
escapes carriage returns. -/
structure Inverse (bundle : EnrollBundle) : Prop where
  loads : lib.json.loads (lib.json.dumps
      (loadedMetaJson lib.isoformat bundle.identity bundle.certValidTo)) =
    .ok (loadedMetaJson lib.isoformat bundle.identity bundle.certValidTo)
  plain : CodePoint.cr ∉
    lib.json.dumps (loadedMetaJson lib.isoformat bundle.identity bundle.certValidTo)
  iso : lib.fromisoformat (lib.isoformat bundle.certValidTo) = .ok bundle.certValidTo

variable {lib dir} {creds : LoadedCredentials} {d : Disk}

theorem HoldsTexts.keeps {texts : CredentialFile → Str} {d' : Disk}
    (h : HoldsTexts lastFirst texts dir d) (hd : KeepsCredentials dir d d') :
    HoldsTexts lastFirst texts dir d' := by
  intro f hf
  obtain ⟨-, hu, m, hl⟩ := h f hf
  rw [← hd f] at hl
  exact ⟨FileTree.isDir_of_child d' hl, hu, m, hl⟩

/-- One step of the run: the files stay, and a boot reuses. -/
theorem podStep_reuses (haware : creds.certValidTo.offset ≠ none)
    (hreads : Reads lib.json lib.fromisoformat (creds.texts lib) creds)
    (h : HoldsTexts lastFirst (creds.texts lib) dir d) {i : PodInput}
    (hi : BeforeExpiry dir creds.certValidTo d i) :
    HoldsTexts lastFirst (creds.texts lib) dir (podStep lib d i).1 ∧
      ∀ o ∈ (podStep lib d i).2, o.Reuses creds := by
  cases i with
  | others d' =>
    exact ⟨h.keeps hi, fun o ho => by cases ho⟩
  | boot b =>
    obtain ⟨hdir, hnow⟩ := hi
    have hreuses : (bootstrapIfNeeded lib b d).Reuses creds := by
      rw [boot_reuses_iff, hdir]
      exact ⟨(load_of_holds h mem_lastFirst).mpr hreads, haware, hnow⟩
    refine ⟨?_, fun o ho => by cases ho; exact hreuses⟩
    show HoldsTexts lastFirst (creds.texts lib) dir (bootstrapIfNeeded lib b d).disk
    rwa [boot_disk_of_reuses hreuses]

/-- Of a disk that holds the texts, the runs reuse exactly when the expiry has an
offset and the texts read back. -/
theorem spentOnce_iff_reads (h : HoldsTexts lastFirst (creds.texts lib) dir d) {b : Boot}
    (hb : b.cfg.stateDir = dir) :
    SpentOnce lib dir creds d ↔
      creds.certValidTo.offset ≠ none ∧
        Reads lib.json lib.fromisoformat (creds.texts lib) creds := by
  constructor
  · intro hspent
    -- one boot just before the expiry
    have hreuses := hspent [.boot { b with now := creds.certValidTo.utc - 1 }]
      (fun v hv => by
        obtain rfl : v = (d, .boot { b with now := creds.certValidTo.utc - 1 }) := by
          simpa using hv
        exact ⟨hb, by simp⟩)
      _ List.mem_cons_self _ rfl
    obtain ⟨hload, haware, -⟩ := boot_reuses_iff.mp hreuses
    rw [hb] at hload
    exact ⟨haware, (load_of_holds h mem_lastFirst).mp hload⟩
  · rintro ⟨haware, hreads⟩ inputs hinputs
    have hrun := guarded_inv (podStep lib)
      (R := fun outs d => HoldsTexts lastFirst (creds.texts lib) dir d ∧
        ∀ out ∈ outs, ∀ o ∈ out, o.Reuses creds)
      (G := fun d i => BeforeExpiry dir creds.certValidTo d i)
      (fun outs d i ⟨hholds, houts⟩ hi => by
        obtain ⟨hholds', hout⟩ := podStep_reuses haware hreads hholds hi
        refine ⟨hholds', fun out hmem => ?_⟩
        rcases List.mem_append.mp hmem with hold | hnew
        · exact houts out hold
        · obtain rfl := List.mem_singleton.mp hnew
          exact hout)
      ⟨h, fun out hout => by simp at hout⟩ hinputs
    exact hrun.2

/-- What was written of a bundle reads back exactly when the bundle's texts and
its `meta.json` do. -/
theorem reads_iff {bundle : EnrollBundle} (hcert : bundle.certPem = .str creds.certPem)
    (hkey : bundle.keyPem = .str creds.keyPem) (hca : bundle.caChainPem = .str creds.caChainPem)
    (hcreds : creds = { bundle.identity with
      certPem := creds.certPem, keyPem := creds.keyPem, caChainPem := creds.caChainPem }) :
    Reads lib.json lib.fromisoformat (creds.texts lib) creds ↔
      (∀ v ∈ [bundle.certPem, bundle.keyPem, bundle.caChainPem], ∀ s, v = .str s →
        CodePoint.cr ∉ s) ∧
      MetaReads lib.json lib.fromisoformat
        (lib.json.dumps (loadedMetaJson lib.isoformat bundle.identity bundle.certValidTo))
        bundle.identity := by
  have hmeta : MetaReads lib.json lib.fromisoformat (creds.texts lib .meta_) creds ↔
      MetaReads lib.json lib.fromisoformat
        (lib.json.dumps (loadedMetaJson lib.isoformat bundle.identity bundle.certValidTo))
        bundle.identity := by
    rw [hcreds]
    rfl
  have htexts : (∀ v ∈ [bundle.certPem, bundle.keyPem, bundle.caChainPem], ∀ s, v = .str s →
      CodePoint.cr ∉ s) ↔
      CodePoint.cr ∉ creds.certPem ∧ CodePoint.cr ∉ creds.keyPem ∧
        CodePoint.cr ∉ creds.caChainPem := by
    simp [hcert, hkey, hca]
  rw [← hmeta, htexts, ← universalNewlines_eq_self_iff, ← universalNewlines_eq_self_iff,
    ← universalNewlines_eq_self_iff]
  constructor
  · rintro ⟨hc, hk, ha, hm⟩
    exact ⟨⟨hc, hk, ha⟩, hm⟩
  · rintro ⟨⟨hc, hk, ha⟩, hm⟩
    exact ⟨hc, hk, ha, hm⟩

theorem metaReads_of_inverse {bundle : EnrollBundle} (h : Inverse lib bundle) :
    MetaReads lib.json lib.fromisoformat
      (lib.json.dumps (loadedMetaJson lib.isoformat bundle.identity bundle.certValidTo))
      bundle.identity := by
  refine ⟨loadedMetaJson lib.isoformat bundle.identity bundle.certValidTo, ?_, rfl, rfl, h.iso, rfl,
    rfl⟩
  rw [universalNewlines_of_no_cr h.plain]
  exact h.loads

/-- There, the offset and the carriage returns are the whole condition. -/
theorem reusable_iff {bundle : EnrollBundle} (hinv : Inverse lib bundle) :
    Reusable lib bundle ↔
      bundle.certValidTo.offset ≠ none ∧
        ∀ v ∈ [bundle.certPem, bundle.keyPem, bundle.caChainPem], ∀ s, v = .str s →
          CodePoint.cr ∉ s :=
  ⟨fun h => ⟨h.aware, h.plain⟩,
    fun h => ⟨h.1, h.2, metaReads_of_inverse hinv⟩⟩

end Following

/-- **The token is spent once** exactly when the expiry of the response has an
offset, its texts have no carriage return, and `meta.json` reads back. -/
theorem token_spent_once_iff (lib : HeartbeatLib) (b : Boot) (d : Disk) (bundle : EnrollBundle)
    (creds : LoadedCredentials) (h : Enrolled lib b d bundle creds) :
    SpentOnce lib b.cfg.stateDir creds (bootstrapIfNeeded lib b d).disk ↔
      Reusable lib bundle := by
  obtain ⟨hcert, hkey, hca, hcreds, hholds⟩ := enrolled_ok h
  have hto : creds.certValidTo = bundle.certValidTo := by
    rw [hcreds]
    rfl
  rw [spentOnce_iff_reads hholds rfl, reads_iff hcert hkey hca hcreds, hto]
  exact ⟨fun ⟨haware, hplain, hprinted⟩ => ⟨haware, hplain, hprinted⟩,
    fun h => ⟨h.aware, h.plain, h.printed⟩⟩

/-! An enrollment whose certificate expires at the start of 2031, with the
offset of the expiry written out or left away. -/

/-- The start of 2031, in UTC or without an offset. -/
def expiry2031 (aware : Bool) : DateTime where
  wall := startOf2031
  offset := if aware then some 0 else none

def enrollIsoformat (t : DateTime) : Str :=
  if t.offset = none then "2031-01-01T00:00:00" else demoIsoformat t

def enrollFromisoformat (text : Str) : Except Exc DateTime :=
  if text = "2031-01-01T00:00:00" then .ok (expiry2031 false) else demoFromisoformat text

/-- The credentials of the response. -/
def enrolledCreds (aware : Bool) : LoadedCredentials :=
  { enrolled.loaded with certValidTo := expiry2031 aware }

def enrolledMeta (aware : Bool) : Json :=
  loadedMetaJson enrollIsoformat (enrolledCreds aware) (expiry2031 aware)

def demoEnrollLib : HeartbeatLib where
  jwt := demoHeartbeatLib.jwt
  json :=
    { dumps := demoDumps
      loads := fun text =>
        if text = demoDumps (enrolledMeta true) then .ok (enrolledMeta true)
        else if text = demoDumps (enrolledMeta false) then .ok (enrolledMeta false)
        else .error .jsonDecodeError }
  isoformat := enrollIsoformat
  fromisoformat := enrollFromisoformat

def enrollBody (certValidTo : Str) : Json :=
  .obj
    [("edge_id", .str enrolled.edgeId), ("tenant_id", .str enrolled.tenantId),
     ("client_cert", .str enrolled.certPem), ("client_key", .str enrolled.keyPem),
     ("ca_chain", .str enrolled.caChainPem), ("cert_valid_from", .str "2030-01-01T00:00:00Z"),
     ("cert_valid_to", .str certValidTo), ("agp_endpoint", .str enrolled.agpEndpoint),
     ("telemetry_endpoint", .str enrolled.telemetryEndpoint)]

def enrolledBundle (aware : Bool) : EnrollBundle where
  edgeId := .str enrolled.edgeId
  tenantId := .str enrolled.tenantId
  certPem := .str enrolled.certPem
  keyPem := .str enrolled.keyPem
  caChainPem := .str enrolled.caChainPem
  certValidFrom := { wall := startOf2030, offset := some 0 }
  certValidTo := expiry2031 aware
  agpEndpoint := .str enrolled.agpEndpoint
  telemetryEndpoint := .str enrolled.telemetryEndpoint

/-- The first boot, on an empty disk, with the token in the environment. -/
def firstBoot (certValidTo : Str) : Boot where
  cfg := { demoHeartbeatSettings with bootstrapToken := "tm-bs-x" }
  now := startOf2030
  answer := .response 201 (.ok "") (.ok (enrollBody certValidTo))
  writtenAt := startOf2030
  faults := []

theorem enrolledCreds_of_finished {lib : HeartbeatLib} {aware : Bool} {certValidTo : Str}
    (hanswered : enroll lib.fromisoformat (firstBoot certValidTo).answer =
      .ok (enrolledBundle aware))
    (hposted : (bootstrapIfNeeded lib (firstBoot certValidTo) .empty).posted.isSome)
    (hfinished :
      (bootstrapIfNeeded lib (firstBoot certValidTo) .empty).finished = true) :
    Enrolled lib (firstBoot certValidTo) .empty (enrolledBundle aware)
      (enrolledCreds aware) := by
  obtain ⟨creds, h⟩ := enrolled_of_finished hanswered hposted hfinished
  obtain ⟨hcert, hkey, hca, hcreds, -⟩ := enrolled_ok h
  have hsame : creds = enrolledCreds aware := by
    rw [hcreds, ← Json.str.inj hcert, ← Json.str.inj hkey, ← Json.str.inj hca]
    rfl
  rwa [hsame] at h

theorem first_aware : Enrolled demoEnrollLib (firstBoot "2031-01-01T00:00:00Z") .empty
    (enrolledBundle true) (enrolledCreds true) :=
  enrolledCreds_of_finished rfl (by decide +kernel) (by decide +kernel)

theorem first_plain : Enrolled demoEnrollLib (firstBoot "2031-01-01T00:00:00") .empty
    (enrolledBundle false) (enrolledCreds false) :=
  enrolledCreds_of_finished rfl (by decide +kernel) (by decide +kernel)

theorem enrolledMeta_loads (aware : Bool) :
    demoEnrollLib.json.loads (demoDumps (enrolledMeta aware)) = .ok (enrolledMeta aware) := by
  have hne : demoDumps (enrolledMeta false) ≠ demoDumps (enrolledMeta true) := by
    decide +kernel
  cases aware with
  | true => simp only [demoEnrollLib, if_true]
  | false => simp only [demoEnrollLib, if_neg hne, if_true]

theorem enrolled_inverse (aware : Bool) : Inverse demoEnrollLib (enrolledBundle aware) where
  loads := enrolledMeta_loads aware
  plain := by cases aware <;> decide +kernel
  iso := by cases aware <;> rfl

theorem enrolledBundle_plain (aware : Bool) :
    ∀ v ∈ [(enrolledBundle aware).certPem, (enrolledBundle aware).keyPem,
      (enrolledBundle aware).caChainPem], ∀ s, v = .str s → CodePoint.cr ∉ s := by
  intro v hv s hs
  subst hs
  simp only [enrolledBundle, List.mem_cons, List.not_mem_nil, Json.str.injEq, or_false] at hv
  rcases hv with rfl | rfl | rfl <;> decide

/-- With the offset in the response the pod restarts on what it has. -/
theorem token_spent_once_iff_aware :
    SpentOnce demoEnrollLib ["state"] (enrolledCreds true)
      (bootstrapIfNeeded demoEnrollLib (firstBoot "2031-01-01T00:00:00Z") .empty).disk := by
  refine (token_spent_once_iff demoEnrollLib (firstBoot "2031-01-01T00:00:00Z") .empty
    (enrolledBundle true) (enrolledCreds true) first_aware).mpr ?_
  exact (reusable_iff (enrolled_inverse true)).mpr ⟨by decide, enrolledBundle_plain true⟩

/-- A restart of the pod, an hour after the first boot. -/
def restart (certValidTo : Str) : Boot :=
  { firstBoot certValidTo with now := startOf2030 + 3600 }

/-- Without the offset the first boot returns credentials, and the restart raises
`TypeError`. -/
theorem expiry_without_offset_stops_restart :
    Enrolled demoEnrollLib (firstBoot "2031-01-01T00:00:00") .empty (enrolledBundle false)
        (enrolledCreds false) ∧
      (bootstrapIfNeeded demoEnrollLib (restart "2031-01-01T00:00:00")
        (bootstrapIfNeeded demoEnrollLib (firstBoot "2031-01-01T00:00:00") .empty).disk).ended =
        .raised (.raised .typeError) ∧
      ¬ SpentOnce demoEnrollLib ["state"] (enrolledCreds false)
        (bootstrapIfNeeded demoEnrollLib (firstBoot "2031-01-01T00:00:00") .empty).disk := by
  obtain ⟨hcert, hkey, hca, hcreds, hholds⟩ := enrolled_ok first_plain
  have hload := (load_of_holds hholds mem_lastFirst).mpr ((reads_iff hcert hkey hca hcreds).mpr
    ⟨enrolledBundle_plain false, metaReads_of_inverse (enrolled_inverse false)⟩)
  have hraised := boot_of_naive (b := restart "2031-01-01T00:00:00") hload rfl
  refine ⟨first_plain, by rw [hraised], fun h => ?_⟩
  have hreuses := h [.boot (restart "2031-01-01T00:00:00")]
    (fun v hv => by
      obtain rfl := List.mem_singleton.mp hv
      exact ⟨rfl, by decide +kernel⟩)
    _ List.mem_cons_self _ rfl
  rw [BootOutcome.Reuses, hraised] at hreuses
  cases hreuses.2

end TrustModelEdge
