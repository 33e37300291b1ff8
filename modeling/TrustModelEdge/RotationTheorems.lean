/-
TrustModelEdge.RotationTheorems — the two places an edge signs from.

`sign_edge_jwt` signs from memory, `mint_cert_jwt` from the disk. A rotation
writes the files before it swaps the memory, so between two ticks the files
hold the texts of the credentials in memory: exactly, or with the line
endings that a restart read back. `InStep` is that, with the bundle the
credentials came from, and it holds wherever the loop has not been stopped
by an exception (`rotation_keeps_in_step`).
-/
import TrustModelEdge.EnrollTheorems
import TrustModelEdge.Policy.SyncTheorems
import TrustModelEdge.Routes.Health

namespace TrustModelEdge

open Py OAuth Lib

/-! ## Credentials and their bundles -/

/-- The identifiers and endpoints agree. -/
structure SameIdentity (l l' : LoadedCredentials) : Prop where
  edgeId : l.edgeId = l'.edgeId
  tenantId : l.tenantId = l'.tenantId
  agpEndpoint : l.agpEndpoint = l'.agpEndpoint
  telemetryEndpoint : l.telemetryEndpoint = l'.telemetryEndpoint

/-- The text of a bundle, or what its file reads as. -/
def Carries (v : Json) (s : Str) : Prop :=
  ∃ text, v = .str text ∧ (s = text ∨ s = universalNewlines text)

/-- Certificate, key, chain and expiry are those of the bundle. -/
structure FromBundle (bundle : RotateBundle) (l : LoadedCredentials) : Prop where
  cert : Carries bundle.certPem l.certPem
  key : Carries bundle.keyPem l.keyPem
  ca : Carries bundle.caChainPem l.caChainPem
  expiry : l.certValidTo = bundle.certValidTo

/-- The last write of the four files was completed: it wrote these credentials, made
of this bundle. -/
def LastWritten (lib : HeartbeatLib) (dir : Path) (bundle : RotateBundle)
    (written : LoadedCredentials) (d : Disk) : Prop :=
  ∃ creds env env', (persistRotated lib dir creds bundle).run env = (.ok written, env') ∧
    KeepsCredentials dir env'.disk d

/-- A completed bootstrap: the bundle it rests on, what was written of it, and the
credentials it returned. -/
inductive Bootstrapped (lib : HeartbeatLib) (b : Boot) (d : Disk) :
    RotateBundle → LoadedCredentials → LoadedCredentials → Prop where
  | enrolled (bundle : EnrollBundle) (creds : LoadedCredentials)
      (h : Enrolled lib b d bundle creds) : Bootstrapped lib b d bundle.issued creds creds
  | reused (bundle : RotateBundle) (written creds : LoadedCredentials)
      (hfiles : LastWritten lib b.cfg.stateDir bundle written d)
      (h : (bootstrapIfNeeded lib b d).Reuses creds) : Bootstrapped lib b d bundle written creds

/-- The libraries read back what they print of `meta.json`, whatever the expiry, and
of the date these credentials have. -/
structure ReadsBack (lib : HeartbeatLib) (written : LoadedCredentials) : Prop where
  loads : ∀ expiry, lib.json.loads
      (lib.json.dumps (loadedMetaJson lib.isoformat written expiry)) =
    .ok (loadedMetaJson lib.isoformat written expiry)
  /-- `json.dumps` escapes carriage returns. -/
  plain : ∀ expiry, CodePoint.cr ∉ lib.json.dumps (loadedMetaJson lib.isoformat written expiry)
  /-- It prints braces around an object. -/
  trimmed : ∀ expiry, strip (lib.json.dumps (loadedMetaJson lib.isoformat written expiry)) =
    lib.json.dumps (loadedMetaJson lib.isoformat written expiry)
  iso : lib.fromisoformat (lib.isoformat written.certValidTo) = .ok written.certValidTo

section Credentials

theorem SameIdentity.refl (l : LoadedCredentials) : SameIdentity l l := ⟨rfl, rfl, rfl, rfl⟩

theorem SameIdentity.trans {l l' l'' : LoadedCredentials} (h : SameIdentity l l')
    (h' : SameIdentity l' l'') : SameIdentity l l'' where
  edgeId := h.edgeId.trans h'.edgeId
  tenantId := h.tenantId.trans h'.tenantId
  agpEndpoint := h.agpEndpoint.trans h'.agpEndpoint
  telemetryEndpoint := h.telemetryEndpoint.trans h'.telemetryEndpoint

theorem SameIdentity.symm {l l' : LoadedCredentials} (h : SameIdentity l l') :
    SameIdentity l' l :=
  ⟨h.edgeId.symm, h.tenantId.symm, h.agpEndpoint.symm, h.telemetryEndpoint.symm⟩

/-- `meta.json` shows no more than the identity and the expiry. -/
theorem SameIdentity.metaJson {l l' : LoadedCredentials} (h : SameIdentity l l')
    (isoformat : DateTime → Str) (expiry : DateTime) :
    loadedMetaJson isoformat l expiry = loadedMetaJson isoformat l' expiry := by
  unfold loadedMetaJson
  rw [h.edgeId, h.tenantId, h.agpEndpoint, h.telemetryEndpoint]

theorem ReadsBack.metaText {lib : HeartbeatLib} {written l : LoadedCredentials}
    (h : ReadsBack lib written) (hid : SameIdentity l written) :
    lib.json.loads (strip (universalNewlines (l.texts lib .meta_))) =
      .ok (loadedMetaJson lib.isoformat l l.certValidTo) := by
  show lib.json.loads (strip (universalNewlines (lib.json.dumps
    (loadedMetaJson lib.isoformat l l.certValidTo)))) = _
  rw [hid.metaJson, universalNewlines_of_no_cr (h.plain _), h.trimmed, h.loads]

theorem universalNewlines_idem (s : Str) :
    universalNewlines (universalNewlines s) = universalNewlines s :=
  universalNewlines_of_no_cr (cr_not_mem_universalNewlines s)

theorem fromBundle_of_persisted {lib : HeartbeatLib} {dir : Path} {creds l : LoadedCredentials}
    {bundle : RotateBundle} {env env' : DiskEnv}
    (hrun : (persistRotated lib dir creds bundle).run env = (.ok l, env')) :
    FromBundle bundle l ∧ SameIdentity l creds ∧
      HoldsTexts lastFirst (l.texts lib) dir env'.disk := by
  obtain ⟨hcert, hkey, hca, hl, hholds⟩ := persistRotated_ok hrun
  refine ⟨⟨⟨_, hcert, Or.inl rfl⟩, ⟨_, hkey, Or.inl rfl⟩, ⟨_, hca, Or.inl rfl⟩, ?_⟩, ?_, hholds⟩
  · rw [hl]
  · rw [hl]
    exact ⟨rfl, rfl, rfl, rfl⟩

end Credentials

/-! ## The start -/

section Start

variable {lib : HeartbeatLib} {b : Boot} {d : Disk} {bundle : RotateBundle}
  {written creds : LoadedCredentials}

/-- Credentials that a restart reads back. -/
theorem reused_ok (hreads : ReadsBack lib written)
    (h : Reads lib.json lib.fromisoformat (written.texts lib) creds)
    (hbundle : FromBundle bundle written) :
    FromBundle bundle creds ∧ SameIdentity creds written := by
  obtain ⟨hcert, hkey, hca, meta_, hmeta, hedge, htenant, hto, hagp, htel⟩ := h
  have hmeta' : lib.json.loads (universalNewlines (written.texts lib .meta_)) =
      .ok (loadedMetaJson lib.isoformat written written.certValidTo) := by
    show lib.json.loads (universalNewlines (lib.json.dumps _)) = _
    rw [universalNewlines_of_no_cr (hreads.plain _), hreads.loads]
  obtain rfl := Except.ok.inj (hmeta.symm.trans hmeta')
  have hexpiry : lib.fromisoformat (lib.isoformat written.certValidTo) = .ok creds.certValidTo :=
    hto
  have hcarries : ∀ {v : Json} {s s' : Str}, Carries v s → universalNewlines s = s' →
      Carries v s' := by
    rintro v s s' ⟨text, hv, rfl | rfl⟩ rfl
    · exact ⟨_, hv, Or.inr rfl⟩
    · exact ⟨_, hv, Or.inr (universalNewlines_idem text)⟩
  refine ⟨⟨hcarries hbundle.cert hcert, hcarries hbundle.key hkey, hcarries hbundle.ca hca, ?_⟩,
    (Except.ok.inj hedge).symm, (Except.ok.inj htenant).symm, (Except.ok.inj hagp).symm,
    (Except.ok.inj htel).symm⟩
  rw [hreads.iso] at hexpiry
  rw [← Except.ok.inj hexpiry, hbundle.expiry]

/-- What a completed bootstrap leaves in memory and on the disk. -/
theorem bootstrapped_ok (h : Bootstrapped lib b d bundle written creds)
    (hreads : ReadsBack lib written) :
    FromBundle bundle creds ∧ SameIdentity creds written ∧
      universalNewlines written.keyPem = universalNewlines creds.keyPem ∧
      HoldsTexts lastFirst (written.texts lib) b.cfg.stateDir (bootstrapIfNeeded lib b d).disk := by
  cases h with
  | enrolled bundle creds h =>
    obtain ⟨hcert, hkey, hca, hcreds, hholds⟩ := enrolled_ok h
    refine ⟨⟨⟨_, hcert, Or.inl rfl⟩, ⟨_, hkey, Or.inl rfl⟩, ⟨_, hca, Or.inl rfl⟩, ?_⟩,
      .refl _, rfl, hholds⟩
    rw [hcreds]
    rfl
  | reused bundle written creds hfiles h =>
    obtain ⟨creds₀, env, env', hrun, hkeeps⟩ := hfiles
    obtain ⟨hbundle, -, hholds⟩ := fromBundle_of_persisted hrun
    have hheld := hholds.keeps hkeeps
    have hread := (load_of_holds hheld mem_lastFirst).mp (boot_reuses_iff.mp h).1
    obtain ⟨hfrom, hid⟩ := reused_ok hreads hread hbundle
    rw [boot_disk_of_reuses h]
    refine ⟨hfrom, hid, ?_, hheld⟩
    rw [← hread.key]
    exact (universalNewlines_idem _).symm

end Start

/-! ## What the disk signs with -/

/-- The files hold the key of these credentials, up to line endings, and their
identity. -/
def OnDisk (lib : HeartbeatLib) (dir : Path) (l : LoadedCredentials) (d : Disk) : Prop :=
  ∃ written, HoldsTexts lastFirst (written.texts lib) dir d ∧
    universalNewlines written.keyPem = universalNewlines l.keyPem ∧ SameIdentity written l

section Disk

variable {lib : HeartbeatLib} {dir : Path} {d d' : Disk} {l written : LoadedCredentials}

theorem OnDisk.keeps (h : OnDisk lib dir l d) (hd : KeepsCredentials dir d d') :
    OnDisk lib dir l d' := by
  obtain ⟨written, hholds, hkey, hid⟩ := h
  exact ⟨written, hholds.keeps hd, hkey, hid⟩

theorem HoldsTexts.readOrRaise {texts : CredentialFile → Str}
    (h : HoldsTexts lastFirst texts dir d) (f : CredentialFile) (label : Str) :
    readOrRaise d (credentialPath dir f.name) label =
      .ok (strip (universalNewlines (texts f))) := by
  rw [Policy.readOrRaise_ok_iff]
  refine ⟨?_, _, h.readText (mem_lastFirst f), rfl⟩
  obtain ⟨hd, hu, m, hl⟩ := h f (mem_lastFirst f)
  rw [credentialPath_eq, pathExists_child hu hd, hl]
  rfl

/-- `mint_cert_jwt` reads the key and the `edge_id` of these credentials. -/
theorem OnDisk.certKeyAndSubject (h : OnDisk lib dir l d) (hreads : ReadsBack lib written)
    (hid : SameIdentity l written) (decodeError : Str → Str) :
    certKeyAndSubject lib.json decodeError d dir none =
      .ok (strip (universalNewlines l.keyPem), l.edgeId) := by
  obtain ⟨held, hholds, hkey, hheld⟩ := h
  have hkeyFile := hholds.readOrRaise .key "enrollment private key"
  have hmetaFile := hholds.readOrRaise .meta_ "enrollment metadata"
  have hedge : metaEdgeId lib.json decodeError (credentialPath dir metaFile)
      (strip (universalNewlines (held.texts lib .meta_))) = .ok l.edgeId := by
    rw [Policy.metaEdgeId_ok_iff]
    exact ⟨_, hreads.metaText (hheld.trans hid), by rw [← hheld.edgeId]; rfl⟩
  unfold OAuth.certKeyAndSubject
  simp only [CredentialFile.name] at hkeyFile hmetaFile
  simp only [hkeyFile, hmetaFile, hedge, bind, Except.bind, pure, Except.pure]
  show Except.ok (strip (universalNewlines held.keyPem), l.edgeId) = _
  rw [hkey]

end Disk

/-! ## One tick -/

/-- The answer to the rotation of this tick is a body with this bundle. -/
def HeartbeatTick.Rotates (lib : HeartbeatLib) (t : HeartbeatTick) (bundle : RotateBundle) :
    Prop :=
  ∃ text body, t.rotate = .response 200 text (.ok body) ∧
    rotateBundle lib.fromisoformat body = .ok bundle

section Tick

variable [PyRuntime] {lib : HeartbeatLib} {cfg : Settings} {t : HeartbeatTick}
  {s : HeartbeatState}

omit [PyRuntime] in
theorem callFailed_keeps (s : HeartbeatState) (env : DiskEnv) (e : ControlPlaneError) :
    (callFailed s env e).state.credentials = s.credentials ∧ (callFailed s env e).env = env := by
  cases e <;> exact ⟨rfl, rfl⟩

theorem rotates_of_rotate {bundle : RotateBundle}
    (h : rotate lib.jwt t.rotateAt s.credentials t.rotate lib.fromisoformat = .ok bundle) :
    t.Rotates lib bundle := by
  obtain ⟨text, body, hbody, hparse⟩ := call_ok h
  refine ⟨text, body, hbody, ?_⟩
  cases hb : rotateBundle lib.fromisoformat body with
  | error e => rw [hb] at hparse; cases hparse
  | ok bundle' => rw [hb] at hparse; cases hparse; rfl

/-- What a tick does to the credentials and the disk: it leaves both, it puts a
rotated bundle in the place of both, or it stops half way with the memory as it
was. -/
theorem oneTick_credentials (lib : HeartbeatLib) (cfg : Settings) (t : HeartbeatTick)
    (s : HeartbeatState) :
    (∃ bundle creds env, t.Rotates lib bundle ∧
        (persistRotated lib cfg.stateDir s.credentials bundle).run t.env = (.ok creds, env) ∧
        (oneTick lib cfg t s).state.credentials = creds ∧ (oneTick lib cfg t s).env = env) ∨
      (oneTick lib cfg t s).state.credentials = s.credentials ∧
        ((oneTick lib cfg t s).env = t.env ∨
          (∃ e, (oneTick lib cfg t s).ended = .raised e) ∨
          (oneTick lib cfg t s).ended = .crashed) := by
  rcases oneTick_cases lib cfg t s with
    ⟨e, -, h⟩ | ⟨resp, -, ⟨-, h⟩ | ⟨-, ⟨e, -, h⟩ | ⟨bundle, hr, h⟩⟩⟩
  · obtain ⟨hcreds, henv⟩ := callFailed_keeps s t.env e
    rw [h]
    exact Or.inr ⟨hcreds, Or.inl henv⟩
  · rw [h]
    exact Or.inr ⟨rfl, Or.inl rfl⟩
  · obtain ⟨hcreds, henv⟩ := callFailed_keeps (s.ticked t) t.env e
    rw [h]
    exact Or.inr ⟨hcreds, Or.inl henv⟩
  · rw [h]
    unfold rotatedTo
    have hs : (s.ticked t).credentials = s.credentials := rfl
    rw [hs]
    rcases hrun : (persistRotated lib cfg.stateDir s.credentials bundle).run t.env with ⟨r, env⟩
    cases r with
    | ok creds => exact Or.inl ⟨bundle, creds, env, rotates_of_rotate hr, hrun, rfl, rfl⟩
    | error stop =>
      cases stop with
      | raised e => exact Or.inr ⟨rfl, Or.inr (Or.inl ⟨e, rfl⟩)⟩
      | crashed => exact Or.inr ⟨rfl, Or.inr (Or.inr rfl)⟩

end Tick

/-! ## Every run -/

/-- No exception and no death of the process has stopped the loop. -/
def HeartbeatLoop.Intact (l : HeartbeatLoop) : Prop :=
  (∀ e, l.ended ≠ some (.raised e)) ∧ l.ended ≠ some .died

/-- A turn of the loop, or a change of other files. -/
def Undisturbed (dir : Path) (p : RotatingPod) : RotatingInput → Prop
  | .heartbeat _ => True
  | .others d => KeepsCredentials dir p.disk d

/-- The gateway answered a rotation of this run with the bundle. -/
def Issued (lib : HeartbeatLib) (inputs : List RotatingInput) (bundle : RotateBundle) : Prop :=
  ∃ t, .heartbeat (.tick t) ∈ inputs ∧ t.Rotates lib bundle

/-- The pod's memory and disk, since it had the credentials `creds`; `issued` are the
bundles it may have its credentials from. -/
structure Rotating (lib : HeartbeatLib) (dir : Path) (issued : RotateBundle → Prop)
    (creds : LoadedCredentials) (p : RotatingPod) : Prop where
  identity : SameIdentity p.loop.state.credentials creds
  oneBundle : ∃ bundle, issued bundle ∧ FromBundle bundle p.loop.state.credentials
  files : p.loop.Intact → OnDisk lib dir p.loop.state.credentials p.disk

section Runs

variable [PyRuntime] {lib : HeartbeatLib} {cfg : Settings} {issued : RotateBundle → Prop}
  {creds : LoadedCredentials} {p : RotatingPod}

/-- What a step does: another task's change, nothing, the cancellation, or a tick of
the running loop. -/
theorem rotatingStep_cases (lib : HeartbeatLib) (cfg : Settings) (p : RotatingPod)
    (i : RotatingInput) :
    (∃ d, i = .others d ∧ (rotatingStep lib cfg p i).1 = { p with disk := d }) ∨
      (rotatingStep lib cfg p i).1 = p ∨
      p.loop.ended = none ∧ (rotatingStep lib cfg p i).1 =
        { p with loop := { p.loop with ended := some .cancelled } } ∨
      ∃ t, i = .heartbeat (.tick t) ∧ p.loop.ended = none ∧ (rotatingStep lib cfg p i).1 =
        let o := oneTick lib cfg (t.on p.disk) p.loop.state
        { loop := { state := o.state, ended := o.ended.loopEnd }, disk := o.env.disk } := by
  cases i with
  | others d => exact Or.inl ⟨d, rfl, rfl⟩
  | heartbeat i =>
    refine Or.inr ?_
    cases hl : p.loop.ended with
    | some x =>
      refine Or.inl ?_
      cases i with
      | cancel => simp only [rotatingStep, heartbeatStep_ended hl]
      | tick t => simp only [rotatingStep, heartbeatStep_ended hl, hl]
    | none =>
      refine Or.inr ?_
      cases i with
      | cancel => exact Or.inl ⟨rfl, by simp only [rotatingStep, heartbeatStep, hl]⟩
      | tick t => exact Or.inr ⟨t, rfl, rfl, by simp only [rotatingStep, heartbeatStep, hl]⟩

theorem Rotating.tick (h : Rotating lib cfg.stateDir issued creds p) (hl : p.loop.ended = none)
    {t : HeartbeatTick} (ht : ∀ bundle, t.Rotates lib bundle → issued bundle) :
    let o := oneTick lib cfg (t.on p.disk) p.loop.state
    Rotating lib cfg.stateDir issued creds
      { loop := { state := o.state, ended := o.ended.loopEnd }, disk := o.env.disk } := by
  intro o
  have hintact : p.loop.Intact := ⟨by simp [hl], by simp [hl]⟩
  have htick := oneTick_credentials lib cfg (t.on p.disk) p.loop.state
  rcases htick with ⟨bundle, creds', env, hrotates, hrun, rfl, rfl⟩ | ⟨hcreds, henv⟩
  · obtain ⟨hbundle, hid, hholds⟩ := fromBundle_of_persisted hrun
    exact {
      identity := hid.trans h.identity
      oneBundle := ⟨bundle, ht bundle hrotates, hbundle⟩
      files := fun _ => ⟨o.state.credentials, hholds, rfl, .refl _⟩ }
  · refine ⟨?_, ?_, fun hnext => ?_⟩
    · show SameIdentity o.state.credentials creds
      rw [hcreds]
      exact h.identity
    · show ∃ bundle, issued bundle ∧ FromBundle bundle o.state.credentials
      rw [hcreds]
      exact h.oneBundle
    · show OnDisk lib cfg.stateDir o.state.credentials o.env.disk
      rcases henv with henv | ⟨e, he⟩ | he
      · rw [hcreds, henv]
        exact h.files hintact
      · exact absurd (congrArg TickEnd.loopEnd he) (hnext.1 e)
      · exact absurd (congrArg TickEnd.loopEnd he) hnext.2

theorem Rotating.step (h : Rotating lib cfg.stateDir issued creds p) {i : RotatingInput}
    (hi : Undisturbed cfg.stateDir p i)
    (ht : ∀ t bundle, i = .heartbeat (.tick t) → t.Rotates lib bundle → issued bundle) :
    Rotating lib cfg.stateDir issued creds (rotatingStep lib cfg p i).1 := by
  rcases rotatingStep_cases lib cfg p i with
    ⟨d, rfl, hstep⟩ | hstep | ⟨hl, hstep⟩ | ⟨t, rfl, hl, hstep⟩
  · rw [hstep]
    exact ⟨h.identity, h.oneBundle, fun hintact => (h.files hintact).keeps hi⟩
  · rwa [hstep]
  · rw [hstep]
    exact ⟨h.identity, h.oneBundle, fun _ => h.files ⟨by simp [hl], by simp [hl]⟩⟩
  · rw [hstep]
    exact h.tick hl (fun bundle => ht t bundle rfl)

/-- The flag stays set. -/
theorem rotatingStep_revoked (h : p.loop.state.revoked = true) (i : RotatingInput) :
    (rotatingStep lib cfg p i).1.loop.state.revoked = true := by
  rcases rotatingStep_cases lib cfg p i with
    ⟨d, -, hstep⟩ | hstep | ⟨-, hstep⟩ | ⟨t, -, -, hstep⟩ <;> rw [hstep]
  · exact h
  · exact h
  · exact h
  · exact (oneTick_revoked lib cfg (t.on p.disk) p.loop.state).mpr (Or.inl h)

end Runs

/-- Of a revoked edge the probe never answers 200. -/
theorem healthReady_revoked {probe : Routes.ProbeLib} {s : Routes.ProbedState}
    {h : HeartbeatState} (hs : s.heartbeat = some h) (hrevoked : h.revoked = true)
    {r : Routes.JsonResponse} (hr : Routes.healthReady probe s = .ok r) : r.statusCode ≠ 200 := by
  have hflag : s.revoked = true := by
    rw [Routes.ProbedState.revoked, hs]
    exact hrevoked
  unfold Routes.healthReady Routes.jsonResponse at hr
  simp only [hflag, Bool.or_true, Bool.true_or, if_true] at hr
  cases hrender : probe.render (.obj (Routes.probedFields probe s ++
      [(("status" : Str), .str ("not_ready" : Str)),
        (("reason" : Str), .str (join ("; " : Str) s.unready))])) with
  | error e => rw [hrender] at hr; cases hr
  | ok body =>
    rw [hrender] at hr
    cases hr
    show (503 : Nat) ≠ 200
    decide

/-- What a run of heartbeats keeps, from the credentials `creds` on: the two ways of
signing read one key and one `edge_id`, the credentials in memory come from one
bundle, and the identity stays. -/
structure InStep (lib : HeartbeatLib) (dir : Path) (issued : RotateBundle → Prop)
    (creds : LoadedCredentials) (p : RotatingPod) : Prop where
  signing : p.loop.Intact → ∀ decodeError,
    certKeyAndSubject lib.json decodeError p.disk dir none =
      .ok (strip (universalNewlines p.loop.state.credentials.keyPem),
        p.loop.state.credentials.edgeId)
  oneBundle : ∃ bundle, issued bundle ∧ FromBundle bundle p.loop.state.credentials
  identity : SameIdentity p.loop.state.credentials creds

/-- The pod after a bootstrap on the disk `d` that returned `creds`. -/
def RotatingPod.booted (lib : HeartbeatLib) (b : Boot) (d : Disk) (creds : LoadedCredentials) :
    RotatingPod where
  loop := { state := { credentials := creds } }
  disk := (bootstrapIfNeeded lib b d).disk

/-- **Rotation keeps both signing paths in step**, and a revoked edge is not ready
again. -/
theorem rotation_keeps_in_step [PyRuntime] (lib : HeartbeatLib) (b : Boot) (d : Disk)
    (bundle : RotateBundle) (written creds : LoadedCredentials)
    (hboot : Bootstrapped lib b d bundle written creds) (hreads : ReadsBack lib written)
    (inputs : List RotatingInput)
    (hinputs : ∀ v ∈ visits (rotatingStep lib b.cfg) (.booted lib b d creds) inputs,
      Undisturbed b.cfg.stateDir v.1 v.2) :
    let p := final (rotatingStep lib b.cfg) (.booted lib b d creds) inputs
    InStep lib b.cfg.stateDir (fun b' => b' = bundle ∨ Issued lib inputs b') creds p ∧
      (p.loop.state.revoked = true → ∀ more,
        let q := final (rotatingStep lib b.cfg) p more
        q.loop.state.revoked = true ∧
          ∀ probe (s : Routes.ProbedState), s.heartbeat = some q.loop.state →
            ∀ r, Routes.healthReady probe s = .ok r → r.statusCode ≠ 200) := by
  intro p
  obtain ⟨hbundle, hid, hkey, hholds⟩ := bootstrapped_ok hboot hreads
  have hstart : Rotating lib b.cfg.stateDir (fun b' => b' = bundle ∨ Issued lib inputs b') creds
      (.booted lib b d creds) :=
    ⟨.refl creds, ⟨bundle, Or.inl rfl, hbundle⟩, fun _ => ⟨written, hholds, hkey, hid.symm⟩⟩
  have hrun : Rotating lib b.cfg.stateDir (fun b' => b' = bundle ∨ Issued lib inputs b') creds p :=
    guarded_inv (rotatingStep lib b.cfg) (R := fun _ p => Rotating lib b.cfg.stateDir
        (fun b' => b' = bundle ∨ Issued lib inputs b') creds p)
      (G := fun p i => Undisturbed b.cfg.stateDir p i ∧ i ∈ inputs)
      (fun _ p i h hi => h.step hi.1 (fun t b' heq ht => Or.inr ⟨t, heq ▸ hi.2, ht⟩))
      hstart (fun v hv => ⟨hinputs v hv, mem_visits _ hv⟩)
  refine ⟨⟨fun hintact decodeError => ?_, hrun.oneBundle, hrun.identity⟩, fun hrevoked more => ?_⟩
  · exact (hrun.files hintact).certKeyAndSubject hreads (hrun.identity.trans hid) decodeError
  · have hstays : (final (rotatingStep lib b.cfg) p more).loop.state.revoked = true :=
      guarded_inv (rotatingStep lib b.cfg) (R := fun _ p => p.loop.state.revoked = true)
        (G := fun _ _ => True) (fun _ _ i h _ => rotatingStep_revoked h i) hrevoked
        (fun _ _ => trivial)
    exact ⟨hstays, fun probe s hs r hr => healthReady_revoked hs hstays hr⟩

/-! An edge that enrolls, rotates and is revoked. -/

def enrollBoot : Boot := firstBoot "2031-01-01T00:00:00Z"

theorem enrollBoot_bootstrapped :
    Bootstrapped demoHeartbeatLib enrollBoot .empty (enrolledBundle true).issued
      (enrolledCreds true) (enrolledCreds true) :=
  .enrolled (enrolledBundle true) (enrolledCreds true)
    (enrolledCreds_of_finished rfl (by decide +kernel) (by decide +kernel))

/-- Of the two dates that these libraries print. -/
theorem enrolledCreds_meta (expiry : DateTime) :
    ∃ t, (t = startOf2030 ∨ t = startOf2031) ∧
      loadedMetaJson demoHeartbeatLib.isoformat (enrolledCreds true) expiry = demoMeta t := by
  show ∃ t, _ ∧ loadedMetaJson demoIsoformat (enrolledCreds true) expiry = demoMeta t
  unfold loadedMetaJson demoIsoformat
  split
  · exact ⟨startOf2030, Or.inl rfl, rfl⟩
  · exact ⟨startOf2031, Or.inr rfl, rfl⟩

theorem enrolledCreds_readsBack : ReadsBack demoHeartbeatLib (enrolledCreds true) where
  loads expiry := by
    obtain ⟨t, ht, hmeta⟩ := enrolledCreds_meta expiry
    have hascii : demoHeartbeatLib.json.dumps (demoMeta t) = demoDumps (demoMeta t) := by
      rcases ht with rfl | rfl <;> decide +kernel
    rw [hmeta, hascii]
    exact demoMeta_loads ht
  plain expiry := by
    obtain ⟨t, ht, hmeta⟩ := enrolledCreds_meta expiry
    rw [hmeta]
    rcases ht with rfl | rfl <;> decide +kernel
  trimmed expiry := by
    obtain ⟨t, ht, hmeta⟩ := enrolledCreds_meta expiry
    rw [hmeta]
    rcases ht with rfl | rfl <;> decide +kernel
  iso := rfl

/-- The pod after these ticks. -/
def rotatedPod (ticks : List HeartbeatTick) : RotatingPod :=
  final (@rotatingStep asciiRuntime demoHeartbeatLib enrollBoot.cfg)
    (.booted demoHeartbeatLib enrollBoot .empty (enrolledCreds true))
    (ticks.map (fun t => .heartbeat (.tick t)))

/-- The ticks went on, or ended in a revocation. -/
def endedWell (l : HeartbeatLoop) : Bool :=
  match l.ended with
  | none | some .returned => true
  | _ => false

theorem intact_of_endedWell {l : HeartbeatLoop} (h : endedWell l = true) : l.Intact := by
  unfold endedWell at h
  refine ⟨fun e he => ?_, fun he => ?_⟩ <;> simp [he] at h

/-- After the revocation both sign with what the rotation issued. -/
theorem rotation_keeps_in_step_revoked :
    (rotatedPod rotationTicks).loop.state.credentials.keyPem = rotated.keyPem ∧
      certKeyAndSubject demoHeartbeatLib.json id (rotatedPod rotationTicks).disk
        enrollBoot.cfg.stateDir none = .ok (rotated.keyPem, .str enrolled.edgeId) := by
  have hrun : InStep demoHeartbeatLib enrollBoot.cfg.stateDir
      (fun b' => b' = (enrolledBundle true).issued ∨
        Issued demoHeartbeatLib (rotationTicks.map (fun t => .heartbeat (.tick t))) b')
      (enrolledCreds true) (rotatedPod rotationTicks) :=
    (@rotation_keeps_in_step asciiRuntime demoHeartbeatLib enrollBoot .empty
      (enrolledBundle true).issued (enrolledCreds true) (enrolledCreds true)
      enrollBoot_bootstrapped enrolledCreds_readsBack
      (rotationTicks.map (fun t => .heartbeat (.tick t))) (fun v hv => by
        obtain ⟨t, -, ht⟩ := List.mem_map.mp (mem_visits _ hv)
        rw [← ht]
        trivial)).1
  obtain ⟨hkey, hended⟩ : (rotatedPod rotationTicks).loop.state.credentials.keyPem =
      rotated.keyPem ∧ endedWell (rotatedPod rotationTicks).loop = true := by decide +kernel
  have hedge : (rotatedPod rotationTicks).loop.state.credentials.edgeId = .str enrolled.edgeId :=
    hrun.identity.edgeId
  have hplain : strip (universalNewlines rotated.keyPem) = rotated.keyPem := by decide +kernel
  have hsigning := hrun.signing (intact_of_endedWell hended) id
  rw [hkey, hedge, hplain] at hsigning
  exact ⟨hkey, hsigning⟩

/-- A rotation whose key has a carriage return. -/
def returnKeyTick : HeartbeatTick :=
  tickOf (.response 200 (.ok "") (.ok dueBody))
    (.response 200 (.ok "") (.ok (.obj
      [("client_cert", .str "cert-2"), ("client_key", .str "key-2\r\nend"),
       ("ca_chain", .str "ca"), ("cert_valid_from", .str "2030-01-01T00:00:00Z"),
       ("cert_valid_to", .str "2031-01-01T00:00:00Z")])))

/-- The tick returns, and the key that is read from the disk is not the one in memory. -/
theorem carriage_return_splits_keys :
    Bootstrapped demoHeartbeatLib enrollBoot .empty (enrolledBundle true).issued
        (enrolledCreds true) (enrolledCreds true) ∧
      (rotatedPod [returnKeyTick]).loop.ended.isNone = true ∧
      strip (rotatedPod [returnKeyTick]).loop.state.credentials.keyPem = "key-2\r\nend" ∧
      (certKeyAndSubject demoHeartbeatLib.json id (rotatedPod [returnKeyTick]).disk
        enrollBoot.cfg.stateDir none).toOption.map (·.1) = some ("key-2\nend" : Str) ∧
      ("key-2\nend" : Str) ≠ ("key-2\r\nend" : Str) :=
  ⟨enrollBoot_bootstrapped, by decide +kernel⟩

end TrustModelEdge
