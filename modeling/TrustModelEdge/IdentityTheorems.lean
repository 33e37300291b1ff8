/-
TrustModelEdge.IdentityTheorems — what a cut `persist_credentials` leaves to
`load_credentials`.

The four files are the four parts of a credential set. `persist_cuts` says
which parts are new after any cut, and which file a text without bytes has
emptied; what the loader makes of a directory is a function of the four
texts (`load_of_holds`). A replacement is atomic exactly when no cut can
fall between two parts that differ (`credentials_replaced_atomically_iff`).
-/
import TrustModelEdge.Identity
import TrustModelEdge.Py.Crypto
import TrustModelEdge.Py.FrameRules

namespace TrustModelEdge

open Py Py.DiskM Lib

/-! ## The four files -/

/-- The keys of `CREDENTIAL_FILES`. -/
inductive CredentialFile where
  | cert
  | key
  | ca
  | meta_
deriving DecidableEq

def CredentialFile.name : CredentialFile → Str
  | .cert => certFile
  | .key => keyFile
  | .ca => caFile
  | .meta_ => metaFile

/-- The order of the writes, the last one first. -/
def lastFirst : List CredentialFile := [.meta_, .ca, .key, .cert]

theorem mem_lastFirst (f : CredentialFile) : f ∈ lastFirst := by
  cases f <;> decide

theorem CredentialFile.name_inj {f g : CredentialFile} (h : f.name = g.name) : f = g := by
  cases f <;> cases g <;> first | rfl | exact absurd h (by decide)

theorem CredentialFile.name_ne_up (f : CredentialFile) : f.name ≠ (".." : Str) := by
  cases f <;> decide

theorem credentialPath_eq (dir : Path) (f : CredentialFile) :
    credentialPath dir f.name = child dir f.name := by
  apply join_ofDir
  · cases f <;> decide
  · cases f <;> decide
  · cases f <;> decide

/-- The files of `files` are in the directory, with these texts. -/
def HoldsTexts (files : List CredentialFile) (texts : CredentialFile → Str) (dir : Path)
    (d : Disk) : Prop :=
  ∀ f ∈ files, d.isDir dir = true ∧ Usable dir f.name ∧
    ∃ m, d.lookup (dir ++ [f.name]) = some (.file { text := some (texts f), mtime := m })

section Files

variable {files : List CredentialFile} {texts : CredentialFile → Str} {dir : Path} {d d' : Disk}

/-- One more file written. -/
theorem HoldsTexts.write (h : HoldsTexts files texts dir d) {f : CredentialFile} {text : Str}
    {now : Rat} (hu : Usable dir f.name) (hd : d.isDir dir = true)
    (hw : d.write (dir ++ [f.name]) { text := some text, mtime := now } = some d') :
    HoldsTexts (f :: files) (Function.update texts f text) dir d' := by
  have hdir : d'.isDir dir = true :=
    isDir_of_lookup hd (by rw [FileTree.lookup_write hw, if_neg (ne_child dir f.name)])
  intro g hg
  by_cases hgf : g = f
  · subst hgf
    refine ⟨hdir, hu, now, ?_⟩
    rw [FileTree.lookup_write hw, if_pos rfl, Function.update_self]
  · obtain ⟨-, hug, m, hm⟩ := h g ((List.mem_cons.mp hg).resolve_left hgf)
    have hne : dir ++ [g.name] ≠ dir ++ [f.name] :=
      child_ne_child dir (fun he => hgf (CredentialFile.name_inj he))
    refine ⟨hdir, hug, m, ?_⟩
    rw [FileTree.lookup_write hw, if_neg hne, Function.update_of_ne hgf]
    exact hm

theorem HoldsTexts.mkdirs (h : HoldsTexts files texts dir d) (hm : d.mkdirs [] dir = some d') :
    HoldsTexts files texts dir d' := by
  intro f hf
  obtain ⟨-, hu, m, hl⟩ := h f hf
  refine ⟨FileTree.isDir_mkdirs (p := []) (FileTree.isDir_root d) hm, hu, m, ?_⟩
  rw [FileTree.lookup_mkdirs hm _ (not_prefix_of_length (by simp)), hl]

end Files

/-! ## What the loader makes of four texts -/

/-- The text of `meta.json` has these five values. -/
def MetaReads (json : JsonText) (fromisoformat : Str → Except Exc DateTime) (text : Str)
    (l : LoadedCredentials) : Prop :=
  ∃ meta_, json.loads (universalNewlines text) = .ok meta_ ∧
    metaField meta_ "edge_id" = .ok l.edgeId ∧ metaField meta_ "tenant_id" = .ok l.tenantId ∧
    metaField meta_ "cert_valid_to" >>= isoDateTime fromisoformat = .ok l.certValidTo ∧
    metaField meta_ "agp_endpoint" = .ok l.agpEndpoint ∧
    metaField meta_ "telemetry_endpoint" = .ok l.telemetryEndpoint

/-- The four texts read as the credentials `l`. -/
structure Reads (json : JsonText) (fromisoformat : Str → Except Exc DateTime)
    (texts : CredentialFile → Str) (l : LoadedCredentials) : Prop where
  cert : universalNewlines (texts .cert) = l.certPem
  key : universalNewlines (texts .key) = l.keyPem
  ca : universalNewlines (texts .ca) = l.caChainPem
  meta_ : MetaReads json fromisoformat (texts .meta_) l

section Loading

variable {json : JsonText} {fromisoformat : Str → Except Exc DateTime} {dir : Path} {d d' : Disk}
  {files : List CredentialFile} {texts : CredentialFile → Str} {l : LoadedCredentials}

theorem buildCredentials_ok_iff {meta_ : Json} {certPem keyPem caPem : Str} :
    buildCredentials fromisoformat meta_ certPem keyPem caPem = .ok l ↔
      certPem = l.certPem ∧ keyPem = l.keyPem ∧ caPem = l.caChainPem ∧
        metaField meta_ "edge_id" = .ok l.edgeId ∧ metaField meta_ "tenant_id" = .ok l.tenantId ∧
        metaField meta_ "cert_valid_to" >>= isoDateTime fromisoformat = .ok l.certValidTo ∧
        metaField meta_ "agp_endpoint" = .ok l.agpEndpoint ∧
        metaField meta_ "telemetry_endpoint" = .ok l.telemetryEndpoint := by
  constructor
  · intro h
    obtain ⟨edgeId, hedge, h⟩ := bind_eq_ok.mp h
    obtain ⟨tenantId, htenant, h⟩ := bind_eq_ok.mp h
    obtain ⟨certValidTo, hto, h⟩ := bind_eq_ok.mp h
    obtain ⟨agpEndpoint, hagp, h⟩ := bind_eq_ok.mp h
    obtain ⟨telemetryEndpoint, htel, h⟩ := bind_eq_ok.mp h
    cases h
    exact ⟨rfl, rfl, rfl, hedge, htenant, hto, hagp, htel⟩
  · rintro ⟨rfl, rfl, rfl, hedge, htenant, hto, hagp, htel⟩
    rw [buildCredentials, hedge, htenant, hto, hagp, htel]
    rfl

theorem HoldsTexts.readText (h : HoldsTexts files texts dir d) {f : CredentialFile}
    (hf : f ∈ files) :
    readText d (credentialPath dir f.name) = .ok (universalNewlines (texts f)) := by
  obtain ⟨hd, hu, m, hl⟩ := h f hf
  rw [credentialPath_eq, Py.readText, fileAt_child hu hd hl]
  rfl

/-- Of a directory with all four files the loader sees the texts only. -/
theorem load_of_holds (h : HoldsTexts files texts dir d) (hall : ∀ f, f ∈ files) :
    loadCredentials json fromisoformat d dir = .ok (some l) ↔
      Reads json fromisoformat texts l := by
  have hexists : pathExists d (credentialPath dir metaFile) = .ok true := by
    obtain ⟨hd, hu, m, hl⟩ := h .meta_ (hall .meta_)
    rw [show metaFile = CredentialFile.meta_.name from rfl, credentialPath_eq,
      pathExists_child hu hd, hl]
    rfl
  have hmeta := h.readText (hall .meta_)
  have hcert := h.readText (hall .cert)
  have hkey := h.readText (hall .key)
  have hca := h.readText (hall .ca)
  unfold loadCredentials readCredentialFiles
  simp only [CredentialFile.name] at hmeta hcert hkey hca
  simp only [hexists, hmeta, hcert, hkey, hca, bind, Except.bind, pure, Except.pure, if_true]
  constructor
  · intro hload
    cases hj : json.loads (universalNewlines (texts .meta_)) with
    | error e =>
      simp only [hj] at hload
      split at hload <;> cases hload
    | ok meta_ =>
      simp only [hj] at hload
      cases hb : buildCredentials fromisoformat meta_ (universalNewlines (texts .cert))
        (universalNewlines (texts .key)) (universalNewlines (texts .ca)) with
      | error e => rw [hb] at hload; cases hload
      | ok creds =>
        rw [hb] at hload
        obtain rfl : creds = l := by simpa using hload
        obtain ⟨hc, hk, ha, hrest⟩ := buildCredentials_ok_iff.mp hb
        exact ⟨hc, hk, ha, meta_, hj, hrest⟩
  · rintro ⟨hc, hk, ha, meta_, hj, hrest⟩
    simp only [hj, buildCredentials_ok_iff.mpr ⟨hc, hk, ha, hrest⟩]

theorem load_of_absent (h : pathExists d (credentialPath dir metaFile) = .ok false) :
    loadCredentials json fromisoformat d dir = .ok none := by
  unfold loadCredentials
  rw [h]
  rfl

end Loading

/-! ## The writes of `persist_credentials` -/

section Writes

variable (json : JsonText) (isoformat : DateTime → Str) (dir : Path)

/-- The text each file gets. -/
def EdgeCredentials.contents (creds : EdgeCredentials) : CredentialFile → Str
  | .cert => creds.certPem
  | .key => creds.keyPem
  | .ca => creds.caChainPem
  | .meta_ => json.dumps (metaJson isoformat creds)

/-- What one write of the routine does. -/
structure Written (creds : EdgeCredentials) (now : Rat) (f : CredentialFile) (d d' : Disk) :
    Prop where
  usable : Usable dir f.name
  isDir : d.isDir dir = true
  write : d.write (dir ++ [f.name])
      { text := some (creds.contents json isoformat f), mtime := now } =
    some d'

variable {json isoformat dir} {creds : EdgeCredentials}

theorem written_of_resolve {f : CredentialFile} {now : Rat} {d d' : Disk} {q : Path}
    (hq : resolve d (credentialPath dir f.name) = .ok q)
    (hw : d.write q { text := some (creds.contents json isoformat f), mtime := now } = some d') :
    Written json isoformat dir creds now f d d' := by
  rw [credentialPath_eq] at hq
  obtain ⟨hu, hd, rfl⟩ := (resolve_child f.name_ne_up).mp hq
  exact ⟨hu, hd, hw⟩

theorem written_of_finished {f : CredentialFile} {env env' : DiskEnv}
    (h : (writeText (credentialPath dir f.name) (creds.contents json isoformat f)).run env =
      (.ok (), env')) :
    Encodes (creds.contents json isoformat f) ∧
      ∃ at_, Written json isoformat dir creds at_ f env.disk env'.disk := by
  obtain ⟨-, q, hq, hw⟩ := writeText_ok h
  exact ⟨bytes_of_written h, _, written_of_resolve hq hw⟩

/-- A finished run made the directory and wrote the four files. -/
theorem persist_ok {env env' : DiskEnv}
    (h : (persistCredentials json isoformat dir creds).run env = (.ok (), env')) :
    (∀ f, Encodes (creds.contents json isoformat f)) ∧
      ∃ d₀ d₁ d₂ d₃, ∃ t₁ t₂ t₃ t₄ : Rat, env.disk.mkdirs [] dir = some d₀ ∧
        Written json isoformat dir creds t₁ .cert d₀ d₁ ∧
        Written json isoformat dir creds t₂ .key d₁ d₂ ∧
        Written json isoformat dir creds t₃ .ca d₂ d₃ ∧
        Written json isoformat dir creds t₄ .meta_ d₃ env'.disk := by
  obtain ⟨_, e₀, hdirs, h⟩ := DiskM.bind_ok h
  obtain ⟨_, e₁, hcert, h⟩ := DiskM.bind_ok h
  obtain ⟨_, e₂, hkey, h⟩ := DiskM.bind_ok h
  obtain ⟨_, e₃, hmode, h⟩ := DiskM.bind_ok h
  obtain ⟨_, e₄, hca, hmeta⟩ := DiskM.bind_ok h
  obtain ⟨-, hmk⟩ := makeDirs_ok hdirs
  obtain ⟨he₁, t₁, hw₁⟩ := written_of_finished (f := .cert) hcert
  obtain ⟨he₂, t₂, hw₂⟩ := written_of_finished (f := .key) hkey
  obtain ⟨hsame, -⟩ := DiskM.operation_ok hmode
  obtain ⟨he₃, t₃, hw₃⟩ := written_of_finished (f := .ca) hca
  obtain ⟨he₄, t₄, hw₄⟩ := written_of_finished (f := .meta_) hmeta
  have hdisk : e₃.disk = e₂.disk := (Except.ok.inj hsame).symm
  rw [hdisk] at hw₃
  refine ⟨fun f => ?_, _, _, _, _, t₁, t₂, t₃, t₄, hmk, hw₁, hw₂, hw₃, hw₄⟩
  cases f <;> assumption

/-- The directory can be made, and a text put into each of the four files. -/
def TakesFiles (dir : Path) (d : Disk) : Prop :=
  ∃ d₀, d.mkdirs [] dir = some d₀ ∧
    ∀ f : CredentialFile, Leads d₀ (credentialPath dir f.name) (dir ++ [f.name])

/-- A file that was written could be. -/
theorem Written.leads {f : CredentialFile} {now : Rat} {d d' : Disk}
    (h : Written json isoformat dir creds now f d d') :
    Leads d (credentialPath dir f.name) (dir ++ [f.name]) := by
  refine ⟨?_, FileTree.write_iff_place.mp ⟨d', h.write⟩⟩
  rw [credentialPath_eq]
  exact (resolve_child f.name_ne_up).mpr ⟨h.usable, h.isDir, rfl⟩

theorem takesFiles_of_finished {env env' : DiskEnv}
    (h : (persistCredentials json isoformat dir creds).run env = (.ok (), env')) :
    TakesFiles dir env.disk := by
  obtain ⟨-, d₀, d₁, d₂, d₃, t₁, t₂, t₃, t₄, hmk, hw₁, hw₂, hw₃, hw₄⟩ := persist_ok h
  have h₁ := FileTree.sameDirs_write hw₁.write
  have h₂ := h₁.trans (FileTree.sameDirs_write hw₂.write)
  have h₃ := h₂.trans (FileTree.sameDirs_write hw₃.write)
  refine ⟨d₀, hmk, fun f => ?_⟩
  cases f with
  | cert => exact hw₁.leads
  | key => exact (leads_congr h₁).mp hw₂.leads
  | ca => exact (leads_congr h₂).mp hw₃.leads
  | meta_ => exact (leads_congr h₃).mp hw₄.leads

/-- A directory with all four files takes them again. -/
theorem takesFiles_of_holds {files : List CredentialFile} {texts : CredentialFile → Str} {d : Disk}
    (h : HoldsTexts files texts dir d) (hall : ∀ f, f ∈ files) : TakesFiles dir d := by
  refine ⟨d, FileTree.mkdirs_self (h .cert (hall .cert)).1, fun f => ?_⟩
  obtain ⟨hd, hu, m, hl⟩ := h f (hall f)
  refine ⟨?_, FileTree.place_of_lookup hl⟩
  rw [credentialPath_eq]
  exact (resolve_child f.name_ne_up).mpr ⟨hu, hd, rfl⟩

end Writes

/-! ## The property and its condition -/

/-- Of `old` and `new`, the parts in `done` from `new`. -/
def EdgeCredentials.mix (done : List CredentialFile) (new old : EdgeCredentials) :
    EdgeCredentials where
  edgeId := if .meta_ ∈ done then new.edgeId else old.edgeId
  tenantId := if .meta_ ∈ done then new.tenantId else old.tenantId
  certPem := if .cert ∈ done then new.certPem else old.certPem
  keyPem := if .key ∈ done then new.keyPem else old.keyPem
  caChainPem := if .ca ∈ done then new.caChainPem else old.caChainPem
  certValidTo := if .meta_ ∈ done then new.certValidTo else old.certValidTo
  agpEndpoint := if .meta_ ∈ done then new.agpEndpoint else old.agpEndpoint
  telemetryEndpoint := if .meta_ ∈ done then new.telemetryEndpoint else old.telemetryEndpoint

/-- The sets have the same values in this file. -/
def SamePart (a b : EdgeCredentials) : CredentialFile → Prop
  | .cert => a.certPem = b.certPem
  | .key => a.keyPem = b.keyPem
  | .ca => a.caChainPem = b.caChainPem
  | .meta_ => a.edgeId = b.edgeId ∧ a.tenantId = b.tenantId ∧ a.certValidTo = b.certValidTo ∧
      a.agpEndpoint = b.agpEndpoint ∧ a.telemetryEndpoint = b.telemetryEndpoint

section Property

variable (json : JsonText) (isoformat : DateTime → Str)
  (fromisoformat : Str → Except Exc DateTime) (dir : Path) (old : Option EdgeCredentials)
  (new : EdgeCredentials)

/-- The directory holds what a finished `persist_credentials` left, and loads
as that set; without an old set it has no `meta.json`, the file written
last. -/
def Persisted (d : Disk) : Prop :=
  match old with
  | none => pathExists d (credentialPath dir metaFile) = .ok false
  | some o =>
      (∃ env env', (persistCredentials json isoformat dir o).run env = (.ok (), env') ∧
        env'.disk = d) ∧
      loadCredentials json fromisoformat d dir = .ok (some o.loaded)

/-- `load_credentials` returns the old set, the new set or nothing. -/
def LoadsWhole (d : Disk) : Prop :=
  loadCredentials json fromisoformat d dir = .ok none ∨
    loadCredentials json fromisoformat d dir = .ok (some new.loaded) ∨
    ∃ o ∈ old, loadCredentials json fromisoformat d dir = .ok (some o.loaded)

/-- Wherever `persist_credentials` stops, the loader sees one whole set; after
all its operations, the new one. -/
def ReplacedAtomically (d : Disk) : Prop :=
  ∀ env, env.disk = d → Whole env.faults →
    match (persistCredentials json isoformat dir new).run env with
    | (.ok (), env') => loadCredentials json fromisoformat env'.disk dir = .ok (some new.loaded)
    | (.error _, env') => LoadsWhole json fromisoformat dir old new env'.disk

/-- The texts of the two sets for this file read the same. -/
def SameText (a b : EdgeCredentials) (f : CredentialFile) : Prop :=
  universalNewlines (a.contents json isoformat f) = universalNewlines (b.contents json isoformat f)

/-- When the new texts have bytes, they read back as the new set where they can
be written, and the two sets differ in one file at most. A text without bytes
empties its file: the old one was empty (or is `meta.json`, which does not load
then), and the files written before it read as before. -/
structure Replaceable (d : Disk) : Prop where
  readsBack : TakesFiles dir d → (∀ f, Encodes (new.contents json isoformat f)) →
    Reads json fromisoformat (new.contents json isoformat) new.loaded
  nearby : (∀ f, Encodes (new.contents json isoformat f)) →
    ∀ o ∈ old, ∀ f g, f ≠ g → SamePart o new f ∨ SamePart o new g
  emptied : ∀ o ∈ old, ∀ f done, f :: done <:+ lastFirst →
    (∀ g ∈ done, Encodes (new.contents json isoformat g)) →
    ¬ Encodes (new.contents json isoformat f) →
      (∀ g ∈ done, SameText json isoformat o new g) ∧
        (f = .meta_ ∨ o.contents json isoformat f = [])

/-- The texts when the files in `done` got the new ones. -/
def stageTexts (done : List CredentialFile) (f : CredentialFile) : Str :=
  if f ∈ done then new.contents json isoformat f else (old.getD new).contents json isoformat f

/-- The directory has these texts in the files written and in those of the old
set; without an old set it has no `meta.json` before that is written. -/
structure HoldsStage (done : List CredentialFile) (texts : CredentialFile → Str) (d : Disk) :
    Prop where
  texts : HoldsTexts (done ++ if old.isSome then lastFirst else []) texts dir d
  absent : old = none → .meta_ ∉ done → pathExists d (credentialPath dir metaFile) = .ok false

/-- The directory after the files in `done` got their new texts. -/
def Stage (done : List CredentialFile) (d : Disk) : Prop :=
  HoldsStage dir old done (stageTexts json isoformat old new done) d

/-- After these `f` was emptied. -/
def Emptied (f : CredentialFile) (done : List CredentialFile) (d : Disk) : Prop :=
  HoldsStage dir old (f :: done)
    (Function.update (stageTexts json isoformat old new done) f []) d

/-- What a cut leaves: some files written, and the next one perhaps emptied. -/
def Stopped (d : Disk) : Prop :=
  ∃ done, (∀ g ∈ done, Encodes (new.contents json isoformat g)) ∧
    ((done <:+ [.ca, .key, .cert] ∧ Stage json isoformat dir old new done d) ∨
      ∃ f, f :: done <:+ lastFirst ∧ ¬ Encodes (new.contents json isoformat f) ∧
        Emptied json isoformat dir old new f done d)

end Property

section Stages

variable {json : JsonText} {isoformat : DateTime → Str}
  {fromisoformat : Str → Except Exc DateTime} {dir : Path} {old : Option EdgeCredentials}
  {new o : EdgeCredentials} {done : List CredentialFile} {d d' : Disk}

theorem HoldsStage.mkdirs {texts : CredentialFile → Str} (h : HoldsStage dir old done texts d)
    (hm : d.mkdirs [] dir = some d') : HoldsStage dir old done texts d' := by
  refine ⟨h.1.mkdirs hm, fun hold hdone => ?_⟩
  have habs := h.2 hold hdone
  rw [show metaFile = CredentialFile.meta_.name from rfl, credentialPath_eq] at habs ⊢
  refine pathExists_child_absent (by decide) (by decide) habs ?_
  exact FileTree.lookup_mkdirs hm _ (not_prefix_of_length (by simp))

/-- One write moves its file to the text written. -/
theorem HoldsStage.write {texts : CredentialFile → Str} (h : HoldsStage dir old done texts d)
    {f : CredentialFile} {text : Str} {at_ : Rat} (hu : Usable dir f.name)
    (hd : d.isDir dir = true)
    (hw : d.write (dir ++ [f.name]) { text := some text, mtime := at_ } = some d') :
    HoldsStage dir old (f :: done) (Function.update texts f text) d' := by
  refine ⟨h.1.write hu hd hw, fun hold hdone => ?_⟩
  obtain ⟨hf, hrest⟩ := not_or.mp (fun h => hdone (List.mem_cons.mpr h))
  have habs := h.2 hold hrest
  rw [show metaFile = CredentialFile.meta_.name from rfl, credentialPath_eq] at habs ⊢
  refine pathExists_child_absent (by decide) (by decide) habs ?_
  rw [FileTree.lookup_write hw, if_neg]
  exact child_ne_child dir (fun he => hf (CredentialFile.name_inj he))

theorem stageTexts_cons (f : CredentialFile) :
    Function.update (stageTexts json isoformat old new done) f (new.contents json isoformat f) =
      stageTexts json isoformat old new (f :: done) := by
  funext g
  by_cases hgf : g = f
  · subst hgf
    simp [stageTexts]
  · simp [stageTexts, hgf]

theorem Stage.written (h : Stage json isoformat dir old new done d) {f : CredentialFile}
    {at_ : Rat} (hw : Written json isoformat dir new at_ f d d') :
    Stage json isoformat dir old new (f :: done) d' := by
  have hheld := HoldsStage.write h hw.usable hw.isDir hw.write
  rw [stageTexts_cons] at hheld
  exact hheld

theorem Stage.emptied (h : Stage json isoformat dir old new done d) {f : CredentialFile}
    {q : Path} {at_ : Rat} (hq : resolve d (credentialPath dir f.name) = .ok q)
    (hw : d.write q { text := some [], mtime := at_ } = some d') :
    Emptied json isoformat dir old new f done d' := by
  rw [credentialPath_eq] at hq
  obtain ⟨hu, hd, rfl⟩ := (resolve_child f.name_ne_up).mp hq
  exact HoldsStage.write h hu hd hw

/-- One write, cut or not. -/
theorem cuts_written {S : Stop → Disk → Prop} (f : CredentialFile)
    (hcut : ∀ e d, (∀ g ∈ done, Encodes (new.contents json isoformat g)) →
      Stage json isoformat dir old new done d → S e d)
    (hempty : (∀ g ∈ done, Encodes (new.contents json isoformat g)) →
      ¬ Encodes (new.contents json isoformat f) → ∀ d,
      Emptied json isoformat dir old new f done d → S (.raised .unicodeEncodeError) d) :
    Cuts (fun d => (∀ g ∈ done, Encodes (new.contents json isoformat g)) ∧
        Stage json isoformat dir old new done d)
      (writeText (credentialPath dir f.name) (new.contents json isoformat f))
      (fun _ d => (∀ g ∈ f :: done, Encodes (new.contents json isoformat g)) ∧
        Stage json isoformat dir old new (f :: done) d) S := by
  refine cuts_writeText (fun e d h => hcut e d h.1 h.2) ?_ ?_
  · intro henc t d d' q h hq hw
    exact ⟨List.forall_mem_cons.mpr ⟨henc, h.1⟩, h.2.written (written_of_resolve hq hw)⟩
  · intro hs t d d' q h hq hw
    refine hempty h.1 (fun henc => ?_) d' (h.2.emptied hq hw)
    rw [Encodes, hs] at henc
    cases henc

/-- Wherever the routine is cut, the files written so far are the first ones. -/
theorem persist_cuts :
    Cuts (Stage json isoformat dir old new []) (persistCredentials json isoformat dir new)
      (fun _ d => (∀ f, Encodes (new.contents json isoformat f)) ∧
        Stage json isoformat dir old new lastFirst d)
      (fun _ => Stopped json isoformat dir old new) := by
  -- a cut before the write of `f`, and a write of `f` that empties it
  have hcut : ∀ {done : List CredentialFile}, done <:+ [.ca, .key, .cert] → ∀ (e : Stop) d,
      (∀ g ∈ done, Encodes (new.contents json isoformat g)) →
      Stage json isoformat dir old new done d → Stopped json isoformat dir old new d :=
    fun hdone _ _ henc h => ⟨_, henc, Or.inl ⟨hdone, h⟩⟩
  have hempty : ∀ {done : List CredentialFile} {f : CredentialFile}, f :: done <:+ lastFirst →
      (∀ g ∈ done, Encodes (new.contents json isoformat g)) →
      ¬ Encodes (new.contents json isoformat f) → ∀ d,
      Emptied json isoformat dir old new f done d → Stopped json isoformat dir old new d :=
    fun hf henc hnot _ h => ⟨_, henc, Or.inr ⟨_, hf, hnot, h⟩⟩
  unfold persistCredentials
  refine .bind (B := fun _ d => (∀ g ∈ [], Encodes (new.contents json isoformat g)) ∧
      Stage json isoformat dir old new [] d)
    (cuts_makeDirs (fun e d h => hcut (by decide) e d (by simp) h)
      (fun d d' h hm => ⟨by simp, HoldsStage.mkdirs h hm⟩)) fun _ => ?_
  refine .bind (cuts_written .cert (hcut (by decide)) (hempty (by decide))) fun _ => ?_
  refine .bind (cuts_written .key (hcut (by decide)) (hempty (by decide))) fun _ => ?_
  refine .bind (B := fun _ d =>
      (∀ g ∈ [.key, .cert], Encodes (new.contents json isoformat g)) ∧
        Stage json isoformat dir old new [.key, .cert] d)
    (Cuts.operation (fun e d h => hcut (by decide) e d h.1 h.2) ?_) fun _ => ?_
  · intro t d d' h hact
    obtain rfl := Except.ok.inj hact
    exact h
  refine .bind (cuts_written .ca (hcut (by decide)) (hempty (by decide))) fun _ => ?_
  exact (cuts_written .meta_ (hcut (by decide)) (hempty (by decide))).imp
    fun _ _ h => ⟨fun f => h.1 f (mem_lastFirst f), h.2⟩

/-- What a finished run leaves: the four texts. -/
theorem holdsTexts_of_finished {env env' : DiskEnv}
    (h : (persistCredentials json isoformat dir o).run env = (.ok (), env')) :
    HoldsTexts lastFirst (o.contents json isoformat) dir env'.disk := by
  obtain ⟨-, d₀, d₁, d₂, d₃, t₁, t₂, t₃, t₄, hmk, hw₁, hw₂, hw₃, hw₄⟩ := persist_ok h
  have hnone : HoldsTexts [] (o.contents json isoformat) dir d₀ := fun f hf => by simp at hf
  have h₁ := hnone.write hw₁.usable hw₁.isDir hw₁.write
  have h₂ := h₁.write hw₂.usable hw₂.isDir hw₂.write
  have h₃ := h₂.write hw₃.usable hw₃.isDir hw₃.write
  have h₄ := h₃.write hw₄.usable hw₄.isDir hw₄.write
  simp only [Function.update_eq_self] at h₄
  exact h₄

/-- The start of a replacement. -/
theorem stage_of_persisted (h : Persisted json isoformat fromisoformat dir old d) :
    Stage json isoformat dir old new [] d := by
  cases old with
  | none => exact ⟨fun f hf => by simp at hf, fun _ _ => h⟩
  | some o =>
    obtain ⟨⟨env, env', hrun, rfl⟩, -⟩ := h
    exact ⟨holdsTexts_of_finished hrun, fun h => by simp at h⟩

theorem reads_of_persisted (h : Persisted json isoformat fromisoformat dir (some o) d) :
    Reads json fromisoformat (o.contents json isoformat) o.loaded := by
  obtain ⟨⟨env, env', hrun, rfl⟩, hload⟩ := h
  exact (load_of_holds (holdsTexts_of_finished hrun) mem_lastFirst).mp hload

theorem encodes_of_persisted (h : Persisted json isoformat fromisoformat dir (some o) d)
    (f : CredentialFile) : Encodes (o.contents json isoformat f) := by
  obtain ⟨⟨env, env', hrun, -⟩, -⟩ := h
  exact (persist_ok hrun).1 f

theorem takesFiles_of_persisted (h : Persisted json isoformat fromisoformat dir (some o) d) :
    TakesFiles dir d := by
  obtain ⟨⟨env, env', hrun, rfl⟩, -⟩ := h
  exact takesFiles_of_holds (holdsTexts_of_finished hrun) mem_lastFirst

theorem loaded_inj {a b : EdgeCredentials} : a.loaded = b.loaded ↔ ∀ f, SamePart a b f := by
  constructor
  · intro h f
    simp only [EdgeCredentials.loaded, LoadedCredentials.mk.injEq, Json.str.injEq] at h
    cases f <;> simp [SamePart, h]
  · intro h
    obtain ⟨h1, h2, h3, h4, h5⟩ := h .meta_
    simp only [EdgeCredentials.loaded, LoadedCredentials.mk.injEq, Json.str.injEq]
    exact ⟨h1, h2, h .cert, h .key, h .ca, h3, h4, h5⟩

theorem samePart_mix_new {f : CredentialFile} :
    SamePart (new.mix done o) new f ↔ (f ∈ done ∨ SamePart o new f) := by
  by_cases hf : f ∈ done <;> cases f <;> simp [SamePart, EdgeCredentials.mix, hf]

theorem samePart_mix_old {f : CredentialFile} :
    SamePart (new.mix done o) o f ↔ (f ∉ done ∨ SamePart o new f) := by
  by_cases hf : f ∈ done <;> cases f <;>
    simp [SamePart, EdgeCredentials.mix, hf, eq_comm]

/-- The four texts of a stage read as the mixture. -/
theorem reads_mix (hnew : Reads json fromisoformat (new.contents json isoformat) new.loaded)
    (hold : Reads json fromisoformat (o.contents json isoformat) o.loaded) :
    Reads json fromisoformat (stageTexts json isoformat (some o) new done)
      (new.mix done o).loaded := by
  obtain ⟨hc, hk, ha, hm⟩ := hnew
  obtain ⟨hc', hk', ha', hm'⟩ := hold
  refine ⟨?_, ?_, ?_, ?_⟩
  · by_cases h : .cert ∈ done
    · simpa [stageTexts, h, EdgeCredentials.loaded, EdgeCredentials.mix] using hc
    · simpa [stageTexts, h, EdgeCredentials.loaded, EdgeCredentials.mix] using hc'
  · by_cases h : .key ∈ done
    · simpa [stageTexts, h, EdgeCredentials.loaded, EdgeCredentials.mix] using hk
    · simpa [stageTexts, h, EdgeCredentials.loaded, EdgeCredentials.mix] using hk'
  · by_cases h : .ca ∈ done
    · simpa [stageTexts, h, EdgeCredentials.loaded, EdgeCredentials.mix] using ha
    · simpa [stageTexts, h, EdgeCredentials.loaded, EdgeCredentials.mix] using ha'
  · by_cases h : .meta_ ∈ done
    · simpa [stageTexts, h, EdgeCredentials.loaded, EdgeCredentials.mix, MetaReads] using hm
    · simpa [stageTexts, h, EdgeCredentials.loaded, EdgeCredentials.mix, MetaReads] using hm'

/-- After all four writes only the new set matters. -/
theorem load_lastFirst_iff {l : LoadedCredentials}
    (h : Stage json isoformat dir old new lastFirst d) :
    loadCredentials json fromisoformat d dir = .ok (some l) ↔
      Reads json fromisoformat (new.contents json isoformat) l := by
  have htexts : stageTexts json isoformat old new lastFirst = new.contents json isoformat := by
    funext f
    rw [stageTexts, if_pos (mem_lastFirst f)]
  have hh := h.texts
  rw [htexts] at hh
  exact load_of_holds hh (fun f => List.mem_append_left _ (mem_lastFirst f))

theorem load_mix (hnew : Reads json fromisoformat (new.contents json isoformat) new.loaded)
    (hold : Reads json fromisoformat (o.contents json isoformat) o.loaded)
    (h : Stage json isoformat dir (some o) new done d) :
    loadCredentials json fromisoformat d dir = .ok (some (new.mix done o).loaded) :=
  (load_of_holds h.texts (fun f => List.mem_append_right _ (mem_lastFirst f))).mpr
    (reads_mix hnew hold)

/-- With the old `meta.json` the three texts are what the loader sees. -/
theorem load_oldMeta {texts : CredentialFile → Str} {files : List CredentialFile}
    (hold : Reads json fromisoformat (o.contents json isoformat) o.loaded)
    (h : HoldsTexts files texts dir d) (hall : ∀ f, f ∈ files)
    (hmeta : texts .meta_ = o.contents json isoformat .meta_) :
    loadCredentials json fromisoformat d dir = .ok (some
      { o.loaded with
        certPem := universalNewlines (texts .cert)
        keyPem := universalNewlines (texts .key)
        caChainPem := universalNewlines (texts .ca) }) := by
  refine (load_of_holds h hall).mpr ⟨rfl, rfl, rfl, ?_⟩
  rw [hmeta]
  exact hold.meta_

/-- Texts that read as the old ones load as the old set. -/
theorem load_old {texts : CredentialFile → Str} {files : List CredentialFile}
    (hold : Reads json fromisoformat (o.contents json isoformat) o.loaded)
    (h : HoldsTexts files texts dir d) (hall : ∀ f, f ∈ files)
    (hmeta : texts .meta_ = o.contents json isoformat .meta_)
    (hsame : ∀ f, universalNewlines (texts f) = universalNewlines (o.contents json isoformat f)) :
    loadCredentials json fromisoformat d dir = .ok (some o.loaded) := by
  rw [load_oldMeta hold h hall hmeta, hsame, hsame, hsame, hold.cert, hold.key, hold.ca]

/-- An empty `meta.json` is no JSON, and does not load. -/
theorem load_of_emptyMeta {texts : CredentialFile → Str} {files : List CredentialFile}
    (hempty : json.loads [] = .error .jsonDecodeError) (h : HoldsTexts files texts dir d)
    (hall : ∀ f, f ∈ files) (hmeta : texts .meta_ = []) :
    loadCredentials json fromisoformat d dir = .ok none := by
  have hexists : pathExists d (credentialPath dir metaFile) = .ok true := by
    obtain ⟨hd, hu, m, hl⟩ := h .meta_ (hall .meta_)
    rw [show metaFile = CredentialFile.meta_.name from rfl, credentialPath_eq,
      pathExists_child hu hd, hl]
    rfl
  have hread := h.readText (hall .meta_)
  rw [hmeta] at hread
  have hnl : universalNewlines [] = [] := rfl
  simp only [CredentialFile.name, hnl] at hread
  simp only [loadCredentials, readCredentialFiles, hexists, hread, hempty, bind, Except.bind, pure,
    Except.pure, if_true, or_true]

/-- Two sets that differ in one file at most have no third mixture. -/
theorem mix_whole (h : ∀ f g, f ≠ g → SamePart o new f ∨ SamePart o new g) :
    (new.mix done o).loaded = new.loaded ∨ (new.mix done o).loaded = o.loaded := by
  simp only [loaded_inj, samePart_mix_new, samePart_mix_old]
  by_cases hin : ∀ f, f ∈ done ∨ SamePart o new f
  · exact Or.inl hin
  · obtain ⟨f, hf⟩ := not_forall.mp hin
    obtain ⟨hdone, hdiff⟩ := not_or.mp hf
    refine Or.inr fun g => ?_
    by_cases hgf : g = f
    · exact Or.inl (hgf ▸ hdone)
    · exact Or.inr ((h g f hgf).resolve_right hdiff)

/-- Where no mixture of the first writes is a third set, the sets differ in one
file at most. -/
theorem nearby_of_mixes
    (h₁ : (new.mix [.cert] o).loaded = new.loaded ∨ (new.mix [.cert] o).loaded = o.loaded)
    (h₂ : (new.mix [.key, .cert] o).loaded = new.loaded ∨
      (new.mix [.key, .cert] o).loaded = o.loaded)
    (h₃ : (new.mix [.ca, .key, .cert] o).loaded = new.loaded ∨
      (new.mix [.ca, .key, .cert] o).loaded = o.loaded) :
    ∀ f g, f ≠ g → SamePart o new f ∨ SamePart o new g := by
  have hsplit : ∀ P : CredentialFile → Prop,
      (∀ f, P f) ↔ P .cert ∧ P .key ∧ P .ca ∧ P .meta_ := by
    refine fun P => ⟨fun h => ⟨h _, h _, h _, h _⟩, ?_⟩
    rintro ⟨hc, hk, ha, hm⟩ f
    cases f <;> assumption
  simp only [loaded_inj, samePart_mix_new, samePart_mix_old, hsplit, List.mem_cons,
    List.not_mem_nil, reduceCtorEq, or_false, false_or, true_or, or_true, not_true_eq_false,
    not_false_eq_true, true_and, and_true] at h₁ h₂ h₃
  intro f g hfg
  cases f <;> cases g <;> first | exact absurd rfl hfg | tauto

/-! ## The condition suffices -/

/-- The first text without bytes. -/
theorem first_unencodable (h : ¬ ∀ f, Encodes (new.contents json isoformat f)) :
    ∃ f before, f :: before <:+ lastFirst ∧
      (∀ g ∈ before, Encodes (new.contents json isoformat g)) ∧
      ¬ Encodes (new.contents json isoformat f) := by
  by_cases hc : Encodes (new.contents json isoformat .cert)
  · by_cases hk : Encodes (new.contents json isoformat .key)
    · by_cases ha : Encodes (new.contents json isoformat .ca)
      · refine ⟨.meta_, [.ca, .key, .cert], by decide, by simp [hc, hk, ha], fun hm => h fun f => ?_⟩
        cases f <;> assumption
      · exact ⟨.ca, [.key, .cert], by decide, by simp [hc, hk], ha⟩
    · exact ⟨.key, [.cert], by decide, by simp [hc], hk⟩
  · exact ⟨.cert, [], by decide, by simp, hc⟩

/-- What was written came before the first text without bytes. -/
theorem written_before {f : CredentialFile} {before : List CredentialFile}
    (hf : f :: before <:+ lastFirst) (hnot : ¬ Encodes (new.contents json isoformat f))
    (hdone : done <:+ lastFirst) (henc : ∀ g ∈ done, Encodes (new.contents json isoformat g)) :
    done <:+ before := by
  rcases List.suffix_or_suffix_of_suffix hdone hf with hs | hs
  · rcases List.suffix_cons_iff.mp hs with rfl | hs
    · exact absurd (henc f List.mem_cons_self) hnot
    · exact hs
  · exact absurd (henc f (hs.subset List.mem_cons_self)) hnot

/-- Every cut of a replacement that meets the condition loads as a whole set. -/
theorem loadsWhole_of_stopped (hempty : json.loads [] = .error .jsonDecodeError)
    (hold : Persisted json isoformat fromisoformat dir old d)
    (hrep : Replaceable json isoformat fromisoformat dir old new d)
    (h : Stopped json isoformat dir old new d') :
    LoadsWhole json fromisoformat dir old new d' := by
  obtain ⟨done, henc, ⟨hdone, hstage⟩ | ⟨f, hf, hnot, hstage⟩⟩ := h
  · have hmeta : .meta_ ∉ done := fun hm => absurd (hdone.subset hm) (by decide)
    cases old with
    | none => exact Or.inl (load_of_absent (hstage.absent rfl hmeta))
    | some o =>
      have hread := reads_of_persisted hold
      by_cases hall : ∀ f, Encodes (new.contents json isoformat f)
      · have hload := load_mix (hrep.readsBack (takesFiles_of_persisted hold) hall) hread hstage
        rcases mix_whole (hrep.nearby hall o rfl) with hmix | hmix
        · exact Or.inr (Or.inl (hmix ▸ hload))
        · exact Or.inr (Or.inr ⟨o, rfl, hmix ▸ hload⟩)
      · obtain ⟨f, before, hf, hbefore, hnot⟩ := first_unencodable hall
        have hsub := written_before hf hnot (hdone.trans (by decide)) henc
        obtain ⟨hsame, -⟩ := hrep.emptied o rfl f before hf hbefore hnot
        refine Or.inr (Or.inr ⟨o, rfl, load_old hread hstage.texts
          (fun f => List.mem_append_right _ (mem_lastFirst f)) (if_neg hmeta) fun g => ?_⟩)
        by_cases hg : g ∈ done
        · rw [stageTexts, if_pos hg]
          exact (hsame g (hsub.subset hg)).symm
        · rw [stageTexts, if_neg hg]
          rfl
  · by_cases hm : f = .meta_
    · subst hm
      have hlast : done = [.ca, .key, .cert] := by
        rcases List.suffix_cons_iff.mp hf with he | hs
        · exact (List.cons.inj he).2
        · exact absurd (hs.subset List.mem_cons_self) (by decide)
      subst hlast
      exact Or.inl (load_of_emptyMeta hempty hstage.texts
        (fun g => List.mem_append_left _ (mem_lastFirst g)) (Function.update_self _ _ _))
    · have hmeta : .meta_ ∉ f :: done := by
        intro hin
        rcases List.suffix_cons_iff.mp hf with he | hs
        · exact hm (List.cons.inj he).1
        · exact absurd (hs.subset hin) (by decide)
      cases old with
      | none => exact Or.inl (load_of_absent (hstage.absent rfl hmeta))
      | some o =>
        obtain ⟨hsame, hnone⟩ := hrep.emptied o rfl f done hf henc hnot
        have hne : (.meta_ : CredentialFile) ≠ f := fun he => hm he.symm
        have hmeta' : (.meta_ : CredentialFile) ∉ done := fun h => hmeta (List.mem_cons_of_mem _ h)
        refine Or.inr (Or.inr ⟨o, rfl, load_old (reads_of_persisted hold) hstage.texts
          (fun f => List.mem_append_right _ (mem_lastFirst f)) ?_ fun g => ?_⟩)
        · rw [Function.update_of_ne hne, stageTexts, if_neg hmeta']
          rfl
        · by_cases hgf : g = f
          · subst hgf
            rw [Function.update_self, hnone.resolve_left hm]
          · rw [Function.update_of_ne hgf]
            by_cases hg : g ∈ done
            · rw [stageTexts, if_pos hg]
              exact (hsame g hg).symm
            · rw [stageTexts, if_neg hg]
              rfl

/-! ## The cuts that break it -/

/-- A directory in the middle of a replacement, where the rest can be written. -/
structure Ongoing (json : JsonText) (isoformat : DateTime → Str) (dir : Path)
    (old : Option EdgeCredentials) (new : EdgeCredentials) (done : List CredentialFile) (d : Disk) :
    Prop where
  stage : Stage json isoformat dir old new done d
  leads : ∀ f : CredentialFile, Leads d (credentialPath dir f.name) (dir ++ [f.name])

theorem Ongoing.write (h : Ongoing json isoformat dir old new done d) (f : CredentialFile)
    (henc : Encodes (new.contents json isoformat f)) :
    ∃ d', Finishes d (writeText (credentialPath dir f.name) (new.contents json isoformat f)) () d' ∧
      Ongoing json isoformat dir old new (f :: done) d' := by
  obtain ⟨d', hfin, hw⟩ := Finishes.writeText_of_leads 0 (h.leads f) henc
  exact ⟨d', hfin, h.stage.written (written_of_resolve (h.leads f).1 hw),
    fun g => (leads_congr (FileTree.sameDirs_write hw)).mpr (h.leads g)⟩

theorem Ongoing.empty (h : Ongoing json isoformat dir old new done d) (f : CredentialFile)
    (hnot : ¬ Encodes (new.contents json isoformat f)) :
    ∃ d', RaisesTo d (writeText (credentialPath dir f.name) (new.contents json isoformat f))
        .unicodeEncodeError d' ∧ Emptied json isoformat dir old new f done d' := by
  obtain ⟨d', hraise, hw⟩ := RaisesTo.writeText_of_leads 0 (h.leads f)
    ((Bool.not_eq_false _).mp hnot)
  exact ⟨d', hraise, h.stage.emptied (h.leads f).1 hw⟩

/-- Where the directory takes the files, the routine comes to the write of each
file before which all texts have bytes. -/
theorem reaches (htakes : TakesFiles dir d) (h : Stage json isoformat dir old new [] d)
    {f : CredentialFile} (hf : f :: done <:+ lastFirst)
    (henc : ∀ g ∈ done, Encodes (new.contents json isoformat g)) :
    (∃ d', CrashesTo d (persistCredentials json isoformat dir new) d' ∧
        Stage json isoformat dir old new done d') ∧
      (¬ Encodes (new.contents json isoformat f) →
        ∃ d', RaisesTo d (persistCredentials json isoformat dir new) .unicodeEncodeError d' ∧
          Emptied json isoformat dir old new f done d') ∧
      (f = .meta_ → Encodes (new.contents json isoformat f) →
        ∃ d', Finishes d (persistCredentials json isoformat dir new) () d' ∧
          Stage json isoformat dir old new lastFirst d') := by
  obtain ⟨d₀, hmk, hleads⟩ := htakes
  have hdirs := Finishes.makeDirs hmk
  have h₀ : Ongoing json isoformat dir old new [] d₀ := ⟨HoldsStage.mkdirs h hmk, hleads⟩
  have hchmod : ∀ d : Disk,
      Finishes d (DiskM.operation (fun _ d => .ok d) (fun _ _ d => d)) () d :=
    fun d => .operation (t := 0) rfl
  rcases List.suffix_cons_iff.mp hf with he | hf
  · obtain ⟨rfl, rfl⟩ := List.cons.inj he
    obtain ⟨d₁, hf₁, h₁⟩ := h₀.write .cert (henc _ (by decide))
    obtain ⟨d₂, hf₂, h₂⟩ := h₁.write .key (henc _ (by decide))
    obtain ⟨d₃, hf₃, h₃⟩ := h₂.write .ca (henc _ (by decide))
    refine ⟨⟨d₃, ?_, h₃.stage⟩, fun hnot => ?_, fun _ hmeta => ?_⟩
    · exact .bind_right hdirs (.bind_right hf₁ (.bind_right hf₂ (.bind_right (hchmod d₂)
        (.bind_right hf₃ (.writeText _ _)))))
    · obtain ⟨d₄, hr, h₄⟩ := h₃.empty .meta_ hnot
      exact ⟨d₄, .bind_right hdirs (.bind_right hf₁ (.bind_right hf₂ (.bind_right (hchmod d₂)
        (.bind_right hf₃ hr)))), h₄⟩
    · obtain ⟨d₄, hf₄, h₄⟩ := h₃.write .meta_ hmeta
      exact ⟨d₄, hdirs.bind (hf₁.bind (hf₂.bind ((hchmod d₂).bind (hf₃.bind hf₄)))), h₄.stage⟩
  rcases List.suffix_cons_iff.mp hf with he | hf
  · obtain ⟨rfl, rfl⟩ := List.cons.inj he
    obtain ⟨d₁, hf₁, h₁⟩ := h₀.write .cert (henc _ (by decide))
    obtain ⟨d₂, hf₂, h₂⟩ := h₁.write .key (henc _ (by decide))
    refine ⟨⟨d₂, ?_, h₂.stage⟩, fun hnot => ?_, fun he => by cases he⟩
    · exact .bind_right hdirs (.bind_right hf₁ (.bind_right hf₂ (.bind_left (.operation _ _))))
    · obtain ⟨d₃, hr, h₃⟩ := h₂.empty .ca hnot
      exact ⟨d₃, .bind_right hdirs (.bind_right hf₁ (.bind_right hf₂ (.bind_right (hchmod d₂)
        (.bind_left hr)))), h₃⟩
  rcases List.suffix_cons_iff.mp hf with he | hf
  · obtain ⟨rfl, rfl⟩ := List.cons.inj he
    obtain ⟨d₁, hf₁, h₁⟩ := h₀.write .cert (henc _ (by decide))
    refine ⟨⟨d₁, ?_, h₁.stage⟩, fun hnot => ?_, fun he => by cases he⟩
    · exact .bind_right hdirs (.bind_right hf₁ (.bind_left (.writeText _ _)))
    · obtain ⟨d₂, hr, h₂⟩ := h₁.empty .key hnot
      exact ⟨d₂, .bind_right hdirs (.bind_right hf₁ (.bind_left hr)), h₂⟩
  rcases List.suffix_cons_iff.mp hf with he | hf
  · obtain ⟨rfl, rfl⟩ := List.cons.inj he
    refine ⟨⟨d₀, ?_, h₀.stage⟩, fun hnot => ?_, fun he => by cases he⟩
    · exact .bind_right hdirs (.bind_left (.writeText _ _))
    · obtain ⟨d₁, hr, h₁⟩ := h₀.empty .cert hnot
      exact ⟨d₁, .bind_right hdirs (.bind_left hr), h₁⟩
  · simp at hf

/-- What atomicity says of a death of the process. -/
theorem loadsWhole_of_crash (h : ReplacedAtomically json isoformat fromisoformat dir old new d)
    (hcrash : CrashesTo d (persistCredentials json isoformat dir new) d') :
    LoadsWhole json fromisoformat dir old new d' := by
  obtain ⟨ops, hops, hk⟩ := hcrash
  have hend := h { disk := d, now := 0, faults := ops ++ [.crash none] } rfl (whole_crash hops)
  rwa [hk 0 []] at hend

/-- What atomicity says of an exception. -/
theorem loadsWhole_of_raise {e : Exc}
    (h : ReplacedAtomically json isoformat fromisoformat dir old new d)
    (hraise : RaisesTo d (persistCredentials json isoformat dir new) e d') :
    LoadsWhole json fromisoformat dir old new d' := by
  obtain ⟨ops, hops, hk⟩ := hraise
  have hend := h { disk := d, now := 0, faults := ops ++ [] } rfl
    (fun f hf => left_of_happens (hops f (by simpa using hf)))
  rwa [hk 0 []] at hend

/-- A stage that loads as a whole set is no mixture. -/
theorem mix_of_loadsWhole
    (hnew : Reads json fromisoformat (new.contents json isoformat) new.loaded)
    (hold : Reads json fromisoformat (o.contents json isoformat) o.loaded)
    (h : Stage json isoformat dir (some o) new done d)
    (hwhole : LoadsWhole json fromisoformat dir (some o) new d) :
    (new.mix done o).loaded = new.loaded ∨ (new.mix done o).loaded = o.loaded := by
  unfold LoadsWhole at hwhole
  rw [load_mix hnew hold h] at hwhole
  rcases hwhole with hw | hw | ⟨o', ho', hw⟩
  · simp at hw
  · exact Or.inl (by simpa using hw)
  · obtain rfl := Option.some.inj ho'
    exact Or.inr (by simpa using hw)

/-- With the old `meta.json` and a part that the new set does not have, a whole
set is the old one. -/
theorem sameTexts_of_loadsWhole {texts : CredentialFile → Str} {files : List CredentialFile}
    (hold : Reads json fromisoformat (o.contents json isoformat) o.loaded)
    (h : HoldsTexts files texts dir d) (hall : ∀ f, f ∈ files)
    (hmeta : texts .meta_ = o.contents json isoformat .meta_)
    (hother : { o.loaded with
        certPem := universalNewlines (texts .cert)
        keyPem := universalNewlines (texts .key)
        caChainPem := universalNewlines (texts .ca) } ≠ new.loaded)
    (hwhole : LoadsWhole json fromisoformat dir (some o) new d) (f : CredentialFile) :
    universalNewlines (texts f) = universalNewlines (o.contents json isoformat f) := by
  have hload := load_oldMeta hold h hall hmeta
  unfold LoadsWhole at hwhole
  rw [hload] at hwhole
  rcases hwhole with hw | hw | ⟨o', ho', hw⟩
  · cases hw
  · exact absurd (Option.some.inj (Except.ok.inj hw)) hother
  · obtain rfl := Option.some.inj ho'
    have he := Option.some.inj (Except.ok.inj hw)
    simp only [EdgeCredentials.loaded, LoadedCredentials.mk.injEq, true_and, and_true] at he
    obtain ⟨hc, hk, ha⟩ := he
    cases f with
    | cert => exact hc.trans hold.cert.symm
    | key => exact hk.trans hold.key.symm
    | ca => exact ha.trans hold.ca.symm
    | meta_ => rw [hmeta]

/-- The value of a part is its text. -/
theorem not_loaded_of_part {texts : CredentialFile → Str} {f : CredentialFile} (hf : f ≠ .meta_)
    (htext : universalNewlines (texts f) ≠ new.contents json isoformat f) :
    { o.loaded with
        certPem := universalNewlines (texts .cert)
        keyPem := universalNewlines (texts .key)
        caChainPem := universalNewlines (texts .ca) } ≠ new.loaded := by
  intro he
  simp only [EdgeCredentials.loaded, LoadedCredentials.mk.injEq] at he
  obtain ⟨-, -, hc, hk, ha, -⟩ := he
  cases f with
  | cert => exact htext hc
  | key => exact htext hk
  | ca => exact htext ha
  | meta_ => exact hf rfl

/-- Sets with the same identifiers, expiry and endpoints have one `meta.json`. -/
theorem meta_of_loaded {certPem keyPem caChainPem : Str}
    (h : { o.loaded with certPem := certPem, keyPem := keyPem, caChainPem := caChainPem } =
      new.loaded) : o.contents json isoformat .meta_ = new.contents json isoformat .meta_ := by
  simp only [EdgeCredentials.loaded, LoadedCredentials.mk.injEq, Json.str.injEq] at h
  obtain ⟨h1, h2, -, -, -, h3, h4, h5⟩ := h
  simp only [EdgeCredentials.contents, metaJson, h1, h2, h3, h4, h5]

theorem universalNewlines_eq_nil {s : Str} (h : universalNewlines s = []) : s = [] := by
  cases s with
  | nil => rfl
  | cons c cs =>
    simp only [universalNewlines, universalNewlines.go] at h
    split at h
    · cases h
    · split at h
      · rename_i hc
        cases hc.2
      · cases h

/-- **Atomicity needs the condition.** -/
theorem replaceable_of_atomic (hold : Persisted json isoformat fromisoformat dir old d)
    (h : ReplacedAtomically json isoformat fromisoformat dir old new d) :
    Replaceable json isoformat fromisoformat dir old new d := by
  have hstart : Stage json isoformat dir old new [] d := stage_of_persisted hold
  have hback : TakesFiles dir d → (∀ f, Encodes (new.contents json isoformat f)) →
      Reads json fromisoformat (new.contents json isoformat) new.loaded := by
    intro htakes henc
    have hlast : CredentialFile.meta_ :: [.ca, .key, .cert] <:+ lastFirst := List.suffix_rfl
    obtain ⟨-, -, hfinish⟩ := reaches htakes hstart hlast (fun g _ => henc g)
    obtain ⟨d', ⟨ops, hops, hrun⟩, hstage⟩ := hfinish rfl (henc _)
    have hend := h { disk := d, now := 0, faults := ops ++ [] } rfl
      (fun f hf => left_of_happens (hops f (by simpa using hf)))
    rw [hrun 0 []] at hend
    exact (load_lastFirst_iff hstage).mp hend
  refine ⟨hback, ?_, ?_⟩
  · rintro henc o rfl
    have htakes := takesFiles_of_persisted hold
    have hread := reads_of_persisted hold
    have hmix : ∀ f done, f :: done <:+ lastFirst →
        (new.mix done o).loaded = new.loaded ∨ (new.mix done o).loaded = o.loaded := by
      intro f done hf
      obtain ⟨⟨d', hcrash, hstage⟩, -⟩ := reaches htakes hstart hf (fun g _ => henc g)
      exact mix_of_loadsWhole (hback htakes henc) hread hstage (loadsWhole_of_crash h hcrash)
    exact nearby_of_mixes (hmix .key _ (by decide)) (hmix .ca _ (by decide))
      (hmix .meta_ _ (by decide))
  · rintro o rfl f done hf henc hnot
    have htakes := takesFiles_of_persisted hold
    have hread := reads_of_persisted hold
    obtain ⟨⟨d₁, hcrash, hstage⟩, hempty, -⟩ := reaches htakes hstart hf henc
    have hall : ∀ {files : List CredentialFile} (g : CredentialFile),
        g ∈ files ++ if (some o).isSome then lastFirst else [] :=
      fun g => List.mem_append_right _ (mem_lastFirst g)
    by_cases hm : f = .meta_
    · subst hm
      have hmeta : .meta_ ∉ done := by
        intro hin
        rcases List.suffix_cons_iff.mp hf with he | hs
        · rw [(List.cons.inj he).2] at hin
          exact absurd hin (by decide)
        · exact absurd (hs.subset List.mem_cons_self) (by decide)
      have htexts : stageTexts json isoformat (some o) new done .meta_ =
          o.contents json isoformat .meta_ := if_neg hmeta
      have hother : ∀ certPem keyPem caChainPem,
          { o.loaded with certPem := certPem, keyPem := keyPem, caChainPem := caChainPem } ≠
            new.loaded :=
        fun _ _ _ he => hnot (meta_of_loaded he ▸ encodes_of_persisted hold .meta_)
      have hsame := sameTexts_of_loadsWhole hread hstage.texts hall htexts (hother _ _ _)
        (loadsWhole_of_crash h hcrash)
      refine ⟨fun g hg => ?_, Or.inl rfl⟩
      have hg' := hsame g
      rw [stageTexts, if_pos hg] at hg'
      exact hg'.symm
    · obtain ⟨d₂, hraise, hstage₂⟩ := hempty hnot
      have hne : (.meta_ : CredentialFile) ≠ f := fun he => hm he.symm
      have hmeta : .meta_ ∉ done := by
        intro hin
        rcases List.suffix_cons_iff.mp hf with he | hs
        · exact hm (List.cons.inj he).1
        · exact absurd (hs.subset (List.mem_cons_of_mem _ hin)) (by decide)
      have hfdone : f ∉ done := by
        intro hin
        exact hnot (henc f hin)
      have htexts : Function.update (stageTexts json isoformat (some o) new done) f [] .meta_ =
          o.contents json isoformat .meta_ := by
        rw [Function.update_of_ne hne, stageTexts, if_neg hmeta]
        rfl
      have hnone : universalNewlines
          (Function.update (stageTexts json isoformat (some o) new done) f [] f) ≠
            new.contents json isoformat f := by
        rw [Function.update_self]
        intro he
        have hbytes : Encodes (universalNewlines []) := rfl
        exact hnot (he ▸ hbytes)
      have hsame := sameTexts_of_loadsWhole hread hstage₂.texts hall htexts
        (not_loaded_of_part hm hnone) (loadsWhole_of_raise h hraise)
      refine ⟨fun g hg => ?_, Or.inr ?_⟩
      · have hg' := hsame g
        have hgf : g ≠ f := fun he => hfdone (he ▸ hg)
        rw [Function.update_of_ne hgf, stageTexts, if_pos hg] at hg'
        exact hg'.symm
      · have hf' := hsame f
        rw [Function.update_self] at hf'
        exact universalNewlines_eq_nil hf'.symm

theorem persisted_of_finished {env env' : DiskEnv}
    (h : (persistCredentials json isoformat dir o).run env = (.ok (), env'))
    (hread : Reads json fromisoformat (o.contents json isoformat) o.loaded) :
    Persisted json isoformat fromisoformat dir (some o) env'.disk :=
  ⟨⟨env, env', h, rfl⟩, (load_of_holds (holdsTexts_of_finished h) mem_lastFirst).mpr hread⟩

end Stages

/-- **When `persist_credentials` is atomic**, first enrolment included: exactly
when the new set reads back where it can be written, differs from the old one
in one file at most, and empties no file on the way that the loader would see. -/
theorem credentials_replaced_atomically_iff (json : JsonText) (isoformat : DateTime → Str)
    (fromisoformat : Str → Except Exc DateTime) (dir : Path) (old : Option EdgeCredentials)
    (new : EdgeCredentials) (d : Disk) (hempty : json.loads [] = .error .jsonDecodeError)
    (hold : Persisted json isoformat fromisoformat dir old d) :
    ReplacedAtomically json isoformat fromisoformat dir old new d ↔
      Replaceable json isoformat fromisoformat dir old new d := by
  refine ⟨replaceable_of_atomic hold, fun hrep env henv hwhole => ?_⟩
  subst henv
  obtain ⟨-, hend⟩ := persist_cuts env hwhole (stage_of_persisted hold)
  rcases hr : (persistCredentials json isoformat dir new).run env with ⟨r, env'⟩
  rw [hr] at hend
  cases r with
  | ok a =>
    exact (load_lastFirst_iff hend.2).mpr (hrep.readsBack (takesFiles_of_finished hr) hend.1)
  | error e => exact loadsWhole_of_stopped hempty hold hrep hend

/-! ## A rotation -/

/-- Credentials that expire at the start of 2030 or of 2031. -/
def demoCredentials (certPem keyPem : Str) (certValidTo : Rat) : EdgeCredentials where
  edgeId := "abc"
  tenantId := "acme"
  certPem := certPem
  keyPem := keyPem
  caChainPem := "ca"
  certValidTo := { wall := certValidTo, offset := some 0 }
  agpEndpoint := "https://api.trustmodel.ai"
  telemetryEndpoint := "https://api.trustmodel.ai/api/v1/edge/telemetry"

def startOf2030 : Rat := 1893456000

def startOf2031 : Rat := 1924992000

def enrolled : EdgeCredentials := demoCredentials "cert-1" "key-1" startOf2030

/-- The same certificate with a later expiry in `meta.json`. -/
def extended : EdgeCredentials := demoCredentials "cert-1" "key-1" startOf2031

def rotated : EdgeCredentials := demoCredentials "cert-2" "key-2" startOf2031

/-- `isoformat` and `fromisoformat` of the two dates. -/
def demoIsoformat (t : DateTime) : Str :=
  if t.wall = startOf2030 then "2030-01-01T00:00:00+00:00" else "2031-01-01T00:00:00+00:00"

def demoFromisoformat (text : Str) : Except Exc DateTime :=
  if text = "2030-01-01T00:00:00+00:00" then .ok { wall := startOf2030, offset := some 0 }
  else if text = "2031-01-01T00:00:00+00:00" then .ok { wall := startOf2031, offset := some 0 }
  else .error .valueError

/-- `json.dumps` of an object of plain texts. -/
def demoDumps : Json → Str
  | .obj fields =>
      let member : Str × Json → Str := fun
        | (k, .str v) => ("\"" : Str) ++ k ++ ("\": \"" : Str) ++ v ++ ("\"" : Str)
        | _ => []
      ("\x7b" : Str) ++ join (", " : Str) (fields.map member) ++ ("\x7d" : Str)
  | _ => []

/-- `meta.json` with one of the two dates. -/
def demoMeta (certValidTo : Rat) : Json :=
  metaJson demoIsoformat (demoCredentials [] [] certValidTo)

def demoMetaJson : JsonText where
  dumps := demoDumps
  loads text :=
    if text = demoDumps (demoMeta startOf2030) then .ok (demoMeta startOf2030)
    else if text = demoDumps (demoMeta startOf2031) then .ok (demoMeta startOf2031)
    else .error .jsonDecodeError

theorem demoMeta_loads {t : Rat} (ht : t = startOf2030 ∨ t = startOf2031) :
    demoMetaJson.loads (demoDumps (demoMeta t)) = .ok (demoMeta t) := by
  have hne : demoDumps (demoMeta startOf2031) ≠ demoDumps (demoMeta startOf2030) := by
    decide +kernel
  rcases ht with rfl | rfl
  · simp only [demoMetaJson, if_true]
  · simp only [demoMetaJson, if_neg hne, if_true]

theorem demo_metaReads {certPem keyPem : Str} {t : Rat} (ht : t = startOf2030 ∨ t = startOf2031) :
    MetaReads demoMetaJson demoFromisoformat
      ((demoCredentials certPem keyPem t).contents demoMetaJson demoIsoformat .meta_)
      (demoCredentials certPem keyPem t).loaded := by
  refine ⟨demoMeta t, ?_, rfl, rfl, ?_, rfl, rfl⟩
  · show demoMetaJson.loads (universalNewlines (demoDumps (demoMeta t))) = _
    have hcr : CodePoint.cr ∉ demoDumps (demoMeta t) := by
      rcases ht with rfl | rfl <;> decide +kernel
    rw [universalNewlines_of_no_cr hcr, demoMeta_loads ht]
  · show demoFromisoformat (demoIsoformat { wall := t, offset := some 0 }) = _
    rcases ht with rfl | rfl <;> rfl

theorem demo_reads {certPem keyPem : Str} {t : Rat} (hcert : CodePoint.cr ∉ certPem)
    (hkey : CodePoint.cr ∉ keyPem) (ht : t = startOf2030 ∨ t = startOf2031) :
    Reads demoMetaJson demoFromisoformat
      ((demoCredentials certPem keyPem t).contents demoMetaJson demoIsoformat)
      (demoCredentials certPem keyPem t).loaded :=
  ⟨universalNewlines_of_no_cr hcert, universalNewlines_of_no_cr hkey,
    universalNewlines_of_no_cr (show CodePoint.cr ∉ ("ca" : Str) by decide), demo_metaReads ht⟩

/-- The run of the first enrollment. -/
def enrolledRun : Except Stop Unit × DiskEnv :=
  (persistCredentials demoMetaJson demoIsoformat ["state"] enrolled).run
    { disk := .empty, now := 0, faults := [] }

theorem enrolledRun_finished : enrolledRun = (.ok (), enrolledRun.2) :=
  finished_of_toBool (by decide +kernel)

theorem demo_persisted : Persisted demoMetaJson demoIsoformat demoFromisoformat ["state"]
    (some enrolled) enrolledRun.2.disk :=
  persisted_of_finished enrolledRun_finished (demo_reads (by decide) (by decide) (Or.inl rfl))

theorem demoMeta_empty : demoMetaJson.loads [] = .error .jsonDecodeError := rfl

theorem extended_encodes (f : CredentialFile) :
    Encodes (extended.contents demoMetaJson demoIsoformat f) := by
  have hmeta : (demoDumps (demoMeta startOf2031)).any isSurrogate = false := by decide +kernel
  cases f with
  | meta_ => exact hmeta
  | cert | key | ca => rfl

/-- A later expiry alone is replaced atomically. -/
theorem credentials_replaced_atomically_iff_extended :
    ReplacedAtomically demoMetaJson demoIsoformat demoFromisoformat ["state"] (some enrolled)
      extended enrolledRun.2.disk := by
  refine (credentials_replaced_atomically_iff demoMetaJson demoIsoformat demoFromisoformat
    ["state"] (some enrolled) extended enrolledRun.2.disk demoMeta_empty demo_persisted).2
    ⟨fun _ _ => ?_, ?_, ?_⟩
  · exact demo_reads (by decide) (by decide) (Or.inr rfl)
  · rintro - o ho f g hfg
    obtain rfl := Option.some.inj ho
    have hsame : ∀ f, f ≠ .meta_ → SamePart enrolled extended f := by
      intro f hf
      cases f with
      | meta_ => exact absurd rfl hf
      | cert | key | ca => rfl
    by_cases hf : f = .meta_
    · exact Or.inr (hsame g (fun hg => hfg (hf.trans hg.symm)))
    · exact Or.inl (hsame f hf)
  · intro o ho f done hf henc hnot
    exact absurd (extended_encodes f) hnot

/-- A rotation that dies before its third operation, the write of the key. -/
def rotatedRun (d : Disk) : Except Stop Unit × DiskEnv :=
  (persistCredentials demoMetaJson demoIsoformat ["state"] rotated).run
    { disk := d, now := 1, faults := [.none, .none, .crash none] }

def died : Except Stop Unit → Bool
  | .error .crashed => true
  | _ => false

/-- The certificate and the key of loaded credentials. -/
def loadedPair (r : Except Exc (Option LoadedCredentials)) : Option (Str × Str) :=
  match r with
  | .ok (some l) => some (l.certPem, l.keyPem)
  | _ => none

theorem not_atomic_of_pair {d : Disk} (hdied : died (rotatedRun d).1 = true)
    (hpair : loadedPair (loadCredentials demoMetaJson demoFromisoformat (rotatedRun d).2.disk
      ["state"]) = some (rotated.certPem, enrolled.keyPem)) :
    ¬ ReplacedAtomically demoMetaJson demoIsoformat demoFromisoformat ["state"] (some enrolled)
      rotated d := by
  intro h
  have hend := h { disk := d, now := 1, faults := [.none, .none, .crash none] } rfl
    (whole_crash_after 2)
  unfold rotatedRun at hdied hpair
  generalize (persistCredentials demoMetaJson demoIsoformat ["state"] rotated).run
    { disk := d, now := 1, faults := [.none, .none, .crash none] } = r at hdied hpair hend
  rcases r with ⟨r, env⟩
  match r, hdied with
  | .error .crashed, _ =>
    rcases hend with hload | hload | ⟨o, ho, hload⟩
    · rw [hload] at hpair
      cases hpair
    · rw [hload] at hpair
      exact absurd hpair (by decide)
    · obtain rfl := Option.some.inj ho
      rw [hload] at hpair
      exact absurd hpair (by decide)

/-- The new certificate is loaded with the old key. -/
theorem rotation_mixes_certificate_and_key :
    Persisted demoMetaJson demoIsoformat demoFromisoformat ["state"] (some enrolled)
        enrolledRun.2.disk ∧
      loadedPair (loadCredentials demoMetaJson demoFromisoformat
        (rotatedRun enrolledRun.2.disk).2.disk ["state"]) =
        some (rotated.certPem, enrolled.keyPem) ∧
      ¬ ReplacedAtomically demoMetaJson demoIsoformat demoFromisoformat ["state"] (some enrolled)
        rotated enrolledRun.2.disk := by
  have hpair : loadedPair (loadCredentials demoMetaJson demoFromisoformat
      (rotatedRun enrolledRun.2.disk).2.disk ["state"]) =
      some (rotated.certPem, enrolled.keyPem) := by decide +kernel
  exact ⟨demo_persisted, hpair, not_atomic_of_pair (by decide +kernel) hpair⟩

end TrustModelEdge
