/-
TrustModelEdge.HeartbeatTheorems — when the heartbeat loop ends.

A tick sorts what its two calls meet into the two declared exceptions, but
a body with status 200 is read as it comes. `HeartbeatTick.Handled` says of
the answers when nothing else is raised, and the loop is never silenced
exactly when that holds of every tick it runs
(`heartbeat_never_silent_iff`).
-/
import TrustModelEdge.Heartbeat
import TrustModelEdge.IdentityTheorems

namespace TrustModelEdge

open Py Py.DiskM OAuth Lib

/-! ## Writing the files -/

/-- The directory is there, and no file of the credentials is one. -/
def Open (dir : Path) (d : Disk) : Prop :=
  d.isDir dir = true ∧ ∀ f : CredentialFile, d.isDir (dir ++ [f.name]) = false

/-- Every operation on the state directory succeeds: it can be made, its files
can be opened for writing, and nothing fails on the way. -/
structure WritesSucceed (dir : Path) (env : DiskEnv) : Prop where
  faults : env.faults = []
  dirs : ∃ d, env.disk.mkdirs [] dir = some d
  usable : ∀ f : CredentialFile, Usable dir f.name
  files : ∀ f : CredentialFile, env.disk.isDir (dir ++ [f.name]) = false

/-- A value that a file can hold. -/
def IsText (v : Json) : Prop := ∃ s, v = .str s ∧ Encodes s

/-- The three texts of a bundle. -/
def RotatedTexts (rotated : RotateBundle) : Prop :=
  IsText rotated.certPem ∧ IsText rotated.keyPem ∧ IsText rotated.caChainPem

/-- `json.dumps` escapes what is not ASCII. -/
def DumpsAscii (json : JsonText) : Prop := ∀ v, Encodes (json.dumps v)

section Persisting

variable {dir : Path}

theorem Open.write {d d' : Disk} (h : Open dir d) {f : CredentialFile} {body : FileBody}
    (hw : d.write (dir ++ [f.name]) body = some d') : Open dir d' := by
  refine ⟨isDir_of_lookup h.1 (by rw [FileTree.lookup_write hw, if_neg (ne_child dir _)]),
    fun g => ?_⟩
  have hg := h.2 g
  rw [← Bool.not_eq_true, FileTree.isDir_iff] at hg ⊢
  rw [FileTree.lookup_write hw]
  split
  · simp
  · exact hg

/-- The file of a text is put in place. -/
theorem putText_run (env : DiskEnv) (hf : env.faults = []) (hd : Open dir env.disk)
    (hu : ∀ f : CredentialFile, Usable dir f.name) (f : CredentialFile) (s : Str)
    (torn : Rat → Str → Disk → Disk) :
    ∃ env', (DiskM.operation (fun now d => putText (credentialPath dir f.name) now s d) torn).run
        env = (.ok (), env') ∧ env'.faults = [] ∧ Open dir env'.disk := by
  obtain ⟨d', hw⟩ := FileTree.exists_write (c := ({ text := some s, mtime := env.now } : FileBody))
    hd.1 (hd.2 f)
  have hput : putText (credentialPath dir f.name) env.now s env.disk = .ok d' := by
    unfold putText
    rw [credentialPath_eq, (resolve_child f.name_ne_up).mpr ⟨hu f, hd.1, rfl⟩]
    simp only [hw]
  refine ⟨{ env with disk := d', faults := [] }, ?_, rfl, hd.write hw⟩
  simp only [DiskM.operation, DiskEnv.time_nil hf, hf, hput]
  rfl

/-- A text with bytes reaches its file. -/
theorem writeText_run (env : DiskEnv) (hf : env.faults = []) (hd : Open dir env.disk)
    (hu : ∀ f : CredentialFile, Usable dir f.name) (f : CredentialFile) {s : Str}
    (hs : Encodes s) :
    ∃ env', (writeText (credentialPath dir f.name) s).run env = (.ok (), env') ∧
      env'.faults = [] ∧ Open dir env'.disk := by
  unfold writeText
  rw [if_neg (by rw [hs]; simp)]
  exact putText_run env hf hd hu f s _

/-- A value reaches its file exactly when it is a text with bytes. -/
theorem writeValue_run (env : DiskEnv) (hf : env.faults = []) (hd : Open dir env.disk)
    (hu : ∀ f : CredentialFile, Usable dir f.name) (f : CredentialFile) (v : Json) :
    (IsText v ∧ ∃ s env', (writeValue (credentialPath dir f.name) v).run env = (.ok s, env') ∧
        env'.faults = [] ∧ Open dir env'.disk) ∨
      (¬ IsText v ∧ ∃ e env',
        (writeValue (credentialPath dir f.name) v).run env = (.error (.raised e), env')) := by
  cases v with
  | str s =>
    by_cases hs : Encodes s
    · obtain ⟨env', hw, hf', hd'⟩ := writeText_run env hf hd hu f hs
      exact Or.inl ⟨⟨s, rfl, hs⟩, s, env', bind_of_ok hw, hf', hd'⟩
    · -- the file is emptied before the text is encoded
      obtain ⟨env', hw, -, -⟩ := putText_run env hf hd hu f [] fun now s d =>
        (putText (credentialPath dir f.name) now s d).toOption.getD d
      refine Or.inr ⟨?_, .unicodeEncodeError, env', bind_of_error ?_⟩
      · rintro ⟨s', he, hs'⟩
        obtain rfl := Json.str.inj he
        exact hs hs'
      · rw [Encodes, Bool.not_eq_false] at hs
        unfold writeText
        rw [if_pos hs]
        exact bind_of_ok hw
  | null | bool | int | float | arr | obj =>
    refine Or.inr ⟨?_, .typeError, env, rfl⟩
    rintro ⟨s, he, -⟩
    cases he

/-- A rotation is persisted exactly when its three texts are texts; otherwise
the first that is none raises. -/
theorem persistRotated_run {lib : HeartbeatLib} {env : DiskEnv} (hjson : DumpsAscii lib.json)
    (h : WritesSucceed dir env) (creds : LoadedCredentials) (rotated : RotateBundle) :
    (RotatedTexts rotated ∧
        ∃ creds' env', (persistRotated lib dir creds rotated).run env = (.ok creds', env')) ∨
      (¬ RotatedTexts rotated ∧
        ∃ e env', (persistRotated lib dir creds rotated).run env = (.error (.raised e), env')) := by
  obtain ⟨hf, ⟨d₁, hmk⟩, hu, hfiles⟩ := h
  have hrun₁ : (makeDirs dir).run env = (.ok (), { env with disk := d₁, faults := [] }) := by
    simp only [makeDirs, DiskM.operation, hf, hmk]
    rfl
  have hopen₁ : Open dir d₁ := by
    refine ⟨FileTree.isDir_mkdirs (p := []) (FileTree.isDir_root _) hmk, fun f => ?_⟩
    have hfree := hfiles f
    rw [← Bool.not_eq_true, FileTree.isDir_iff] at hfree ⊢
    rwa [FileTree.lookup_mkdirs hmk _ (not_prefix_of_length (by simp))]
  -- from here on the files go by their keys
  have hcertName : certFile = CredentialFile.cert.name := rfl
  have hkeyName : keyFile = CredentialFile.key.name := rfl
  have hcaName : caFile = CredentialFile.ca.name := rfl
  have hmetaName : metaFile = CredentialFile.meta_.name := rfl
  unfold persistRotated
  rw [bind_of_ok hrun₁, hcertName, hkeyName, hcaName, hmetaName]
  rcases writeValue_run { env with disk := d₁, faults := [] } rfl hopen₁ hu .cert rotated.certPem
    with ⟨hcert, certPem, env₂, hrun₂, hf₂, hopen₂⟩ | ⟨hcert, e, env', hrun⟩
  swap
  · exact Or.inr ⟨fun ht => hcert ht.1, e, env', bind_of_error hrun⟩
  rw [bind_of_ok hrun₂]
  rcases writeValue_run env₂ hf₂ hopen₂ hu .key rotated.keyPem with
    ⟨hkey, keyPem, env₃, hrun₃, hf₃, hopen₃⟩ | ⟨hkey, e, env', hrun⟩
  swap
  · exact Or.inr ⟨fun ht => hkey ht.2.1, e, env', bind_of_error hrun⟩
  have hchmod : (DiskM.operation (fun _ d => .ok d) (fun _ _ d => d)).run env₃ =
      (.ok (), { env₃ with faults := [] }) := by
    simp only [DiskM.operation, hf₃]
    rfl
  rw [bind_of_ok hrun₃, bind_of_ok hchmod]
  rcases writeValue_run { env₃ with faults := [] } rfl hopen₃ hu .ca rotated.caChainPem with
    ⟨hca, caChainPem, env₄, hrun₄, hf₄, hopen₄⟩ | ⟨hca, e, env', hrun⟩
  swap
  · exact Or.inr ⟨fun ht => hca ht.2.2, e, env', bind_of_error hrun⟩
  obtain ⟨env₅, hrun₅, -, -⟩ := writeText_run env₄ hf₄ hopen₄ hu .meta_
    (hjson (loadedMetaJson lib.isoformat creds rotated.certValidTo))
  rw [bind_of_ok hrun₄, bind_of_ok hrun₅]
  exact Or.inl ⟨⟨hcert, hkey, hca⟩, _, env₅, rfl⟩

/-- The bundle that would issue these credentials. -/
def EdgeCredentials.bundle (creds : EdgeCredentials) (certValidFrom : DateTime) : RotateBundle where
  certPem := .str creds.certPem
  keyPem := .str creds.keyPem
  caChainPem := .str creds.caChainPem
  certValidFrom := certValidFrom
  certValidTo := creds.certValidTo

/-- Where the bundle has texts, this is `persist_credentials`, whatever the bundle
takes the place of. -/
theorem persistRotated_bundle (lib : HeartbeatLib) (dir : Path) (creds : EdgeCredentials)
    (certPem keyPem caChainPem : Str) (certValidFrom certValidTo : DateTime) :
    persistRotated lib dir
        { creds.loaded with
          certPem := certPem, keyPem := keyPem, caChainPem := caChainPem
          certValidTo := certValidTo }
        (creds.bundle certValidFrom) =
      (do
        persistCredentials lib.json lib.isoformat dir creds
        return creds.loaded) := by
  simp only [persistRotated, persistCredentials, EdgeCredentials.bundle, writeValue, bind_assoc,
    pure_bind]
  rfl

end Persisting

/-! ## What the calls raise -/

/-- The key in memory signs a token at the time `at_`. -/
def Signs [PyRuntime] (jwt : JwtLib) (at_ : Rat) (creds : LoadedCredentials) : Prop :=
  ∃ token, authHeader jwt at_ creds = .ok token

/-- The request raises nothing but `HTTPError`s. Of an answer with status 200 the body
parses and is as `check` says; of one whose status is shown in an error the text
decodes. -/
def AnswerHandled (a : Answer) (check : Json → Prop) : Prop :=
  match a with
  | .networkError => True
  | .otherError _ => False
  | .response statusCode text json =>
      if statusCode = 401 ∨ statusCode = 403 then True
      else if statusCode = 200 then ∃ b, json = .ok b ∧ check b
      else ∃ s, text = .ok s

theorem answerHandled_body {text : Except Exc Str} {json : Except Exc Json}
    {check : Json → Prop} :
    AnswerHandled (.response 200 text json) check ↔ ∃ b, json = .ok b ∧ check b := by
  simp [AnswerHandled]

/-- Only the body that the call reads is looked at. -/
theorem AnswerHandled.imp {a : Answer} {check check' : Json → Prop} (h : AnswerHandled a check)
    (himp : ∀ text b, a = .response 200 text (.ok b) → check b → check' b) :
    AnswerHandled a check' := by
  cases a with
  | networkError => trivial
  | otherError e => exact h
  | response statusCode text json =>
    by_cases hbody : statusCode = 200
    · subst hbody
      obtain ⟨b, rfl, hb⟩ := answerHandled_body.mp h
      exact answerHandled_body.mpr ⟨b, rfl, himp text b rfl hb⟩
    · simpa [AnswerHandled, hbody] using h

/-- An object that says revoked, or whose interval is a number to `int`. -/
def HeartbeatBody [PyRuntime] (b : Json) : Prop :=
  (∃ fields, b = .obj fields) ∧
    (((b.field? "revoked").getD .null).truthy = true ∨
      ∃ n, jsonInt ((b.field? "sync_interval_s").getD (.int 60)) = .ok n)

def TextField (b : Json) (key : Str) : Prop := ∃ s, b.field? key = some (.str s) ∧ Encodes s

def DateField (fromisoformat : Str → Except Exc DateTime) (b : Json) (key : Str) : Prop :=
  ∃ s at_, b.field? key = some (.str s) ∧ fromisoformat (replaceZ s) = .ok at_

/-- An object with the three texts and the two dates. -/
def RotateBody (fromisoformat : Str → Except Exc DateTime) (b : Json) : Prop :=
  TextField b "client_cert" ∧ TextField b "client_key" ∧ TextField b "ca_chain" ∧
    DateField fromisoformat b "cert_valid_from" ∧ DateField fromisoformat b "cert_valid_to"

/-- The call lets an exception through. -/
def Leaks {α : Type} (r : Except ControlPlaneError α) : Prop := ∃ e, r = .error (.raised e)

theorem not_leaks_unhandled {α : Type} (x : Except Exc α) :
    ¬ Leaks (unhandled x) ↔ ∃ a, x = .ok a := by
  cases x <;> simp [Leaks, unhandled]

/-- A call that signs, looks at the answer and reads its body lets nothing
through exactly when it can sign and the body is handled. -/
theorem not_leaks_call {α β : Type} (header : Except Exc α) (a : Answer)
    {parse : Json → Except ControlPlaneError β} {check : Json → Prop}
    (hparse : ∀ b, ¬ Leaks (parse b) ↔ check b) :
    ¬ Leaks (do
        let _header ← unhandled header
        let b ← bodyOf a
        parse b) ↔
      (∃ token, header = .ok token) ∧ AnswerHandled a check := by
  cases header with
  | error e => simp [Leaks, unhandled, bind, Except.bind]
  | ok token =>
    have hcall : (do
        let _header ← unhandled (.ok token : Except Exc α)
        let b ← bodyOf a
        parse b) = bodyOf a >>= parse := rfl
    rw [hcall]
    cases a with
    | networkError => simp [Leaks, bodyOf, AnswerHandled, bind, Except.bind]
    | otherError e => simp [Leaks, bodyOf, AnswerHandled, bind, Except.bind]
    | response statusCode text json =>
      by_cases hrevoked : statusCode = 401 ∨ statusCode = 403
      · simp [Leaks, bodyOf, AnswerHandled, hrevoked, bind, Except.bind]
      · by_cases hne : statusCode ≠ 200
        · cases text <;>
            simp [Leaks, bodyOf, statusError, AnswerHandled, hrevoked, hne, bind, Except.bind]
        · obtain rfl : statusCode = 200 := not_not.mp hne
          cases json with
          | error e => simp [Leaks, bodyOf, AnswerHandled, unhandled, bind, Except.bind]
          | ok b =>
            have hbody : bodyOf (.response 200 text (.ok b)) >>= parse = parse b := rfl
            rw [hbody, hparse, answerHandled_body]
            simp

/-- The call on a body. -/
theorem call_of_body {α β : Type} {header : Except Exc α} {token : α} (h : header = .ok token)
    (text : Except Exc Str) (b : Json) (parse : Json → Except ControlPlaneError β) :
    (do
      let _header ← unhandled header
      let b ← bodyOf (.response 200 text (.ok b))
      parse b) = parse b := by
  rw [h]
  rfl

/-- A call that succeeds has read a body. -/
theorem call_ok {α β : Type} {header : Except Exc α} {a : Answer}
    {parse : Json → Except ControlPlaneError β} {r : β}
    (h : (do
      let _header ← unhandled header
      let b ← bodyOf a
      parse b) = .ok r) : ∃ text b, a = .response 200 text (.ok b) ∧ parse b = .ok r := by
  cases header with
  | error e => cases h
  | ok token =>
    have hcall : bodyOf a >>= parse = .ok r := h
    cases a with
    | networkError => cases hcall
    | otherError e => cases hcall
    | response statusCode text json =>
      by_cases hrevoked : statusCode = 401 ∨ statusCode = 403
      · simp [bodyOf, hrevoked, bind, Except.bind] at hcall
      · by_cases hne : statusCode ≠ 200
        · simp [bodyOf, hrevoked, hne, bind, Except.bind] at hcall
        · obtain rfl : statusCode = 200 := not_not.mp hne
          cases json with
          | error e => cases hcall
          | ok b => exact ⟨text, b, rfl, hcall⟩

theorem metaField_ok_iff {b v : Json} {key : Str} :
    metaField b key = .ok v ↔ b.field? key = some v := by
  unfold metaField Json.field?
  split
  · split <;> rename_i h <;> simp [h]
  · simp

theorem bodyDate_ok_iff {fromisoformat : Str → Except Exc DateTime} {b : Json} {key : Str} :
    (∃ at_, metaField b key >>= bodyDate fromisoformat = .ok at_) ↔
      DateField fromisoformat b key := by
  unfold DateField
  simp only [← metaField_ok_iff]
  cases metaField b key with
  | error e => simp [bind, Except.bind]
  | ok v => cases v <;> simp [bind, Except.bind, bodyDate]

theorem rotateBundle_ok_iff {fromisoformat : Str → Except Exc DateTime} {b : Json}
    {r : RotateBundle} :
    rotateBundle fromisoformat b = .ok r ↔
      metaField b "client_cert" = .ok r.certPem ∧ metaField b "client_key" = .ok r.keyPem ∧
        metaField b "ca_chain" = .ok r.caChainPem ∧
        metaField b "cert_valid_from" >>= bodyDate fromisoformat = .ok r.certValidFrom ∧
        metaField b "cert_valid_to" >>= bodyDate fromisoformat = .ok r.certValidTo := by
  constructor
  · intro h
    obtain ⟨certPem, hcert, h⟩ := bind_eq_ok.mp h
    obtain ⟨keyPem, hkey, h⟩ := bind_eq_ok.mp h
    obtain ⟨caChainPem, hca, h⟩ := bind_eq_ok.mp h
    obtain ⟨certValidFrom, hfrom, h⟩ := bind_eq_ok.mp h
    obtain ⟨certValidTo, hto, h⟩ := bind_eq_ok.mp h
    cases h
    exact ⟨hcert, hkey, hca, hfrom, hto⟩
  · rintro ⟨hcert, hkey, hca, hfrom, hto⟩
    rw [rotateBundle, hcert, hkey, hca, hfrom, hto]
    rfl

/-- The bundle can be built and its texts written exactly when the body has all
five. -/
theorem rotateBody_iff {fromisoformat : Str → Except Exc DateTime} {b : Json} :
    RotateBody fromisoformat b ↔
      ∃ r, rotateBundle fromisoformat b = .ok r ∧ RotatedTexts r := by
  have htext : ∀ {key : Str} {v : Json}, metaField b key = .ok v →
      (TextField b key ↔ IsText v) := by
    intro key v hv
    have hfield := metaField_ok_iff.mp hv
    simp [TextField, IsText, hfield]
  constructor
  · rintro ⟨⟨cert, hcert, hec⟩, ⟨key, hkey, hek⟩, ⟨ca, hca, hea⟩, hfrom, hto⟩
    obtain ⟨certValidFrom, hfrom⟩ := bodyDate_ok_iff.mpr hfrom
    obtain ⟨certValidTo, hto⟩ := bodyDate_ok_iff.mpr hto
    refine ⟨⟨.str cert, .str key, .str ca, certValidFrom, certValidTo⟩, rotateBundle_ok_iff.mpr
      ⟨metaField_ok_iff.mpr hcert, metaField_ok_iff.mpr hkey, metaField_ok_iff.mpr hca, hfrom,
        hto⟩, ⟨cert, rfl, hec⟩, ⟨key, rfl, hek⟩, ⟨ca, rfl, hea⟩⟩
  · rintro ⟨r, hr, ht⟩
    obtain ⟨hcert, hkey, hca, hfrom, hto⟩ := rotateBundle_ok_iff.mp hr
    exact ⟨(htext hcert).mpr ht.1, (htext hkey).mpr ht.2.1, (htext hca).mpr ht.2.2,
      bodyDate_ok_iff.mp ⟨_, hfrom⟩, bodyDate_ok_iff.mp ⟨_, hto⟩⟩

section Calls

variable [PyRuntime] {jwt : JwtLib} {at_ : Rat} {creds : LoadedCredentials} {a : Answer}

theorem not_leaks_heartbeatResponse (b : Json) :
    ¬ Leaks (heartbeatResponse b) ↔ HeartbeatBody b := by
  unfold heartbeatResponse HeartbeatBody
  cases b with
  | obj fields =>
    simp only
    by_cases hr : ((Json.field? (.obj fields) "revoked").getD .null).truthy = true
    · simp [Leaks, hr]
    · rw [if_neg hr]
      cases jsonInt ((Json.field? (.obj fields) "sync_interval_s").getD (.int 60)) with
      | error e => simp [Leaks, unhandled, hr, bind, Except.bind]
      | ok n => simp [Leaks, unhandled, bind, Except.bind, pure, Except.pure]
  | null | bool | int | float | str | arr => simp [Leaks]

theorem heartbeatResponse_ok {b : Json} {resp : HeartbeatResponse}
    (h : heartbeatResponse b = .ok resp) :
    ((b.field? "revoked").getD .null).truthy = false ∧
      resp.rotationDue = ((b.field? "rotation_due").getD (.bool false)).truthy := by
  unfold heartbeatResponse at h
  split at h
  · rename_i fields
    by_cases hr : ((Json.field? (.obj fields) "revoked").getD .null).truthy = true
    · rw [if_pos hr] at h
      cases h
    · rw [if_neg hr] at h
      refine ⟨Bool.not_eq_true _ ▸ hr, ?_⟩
      cases hn : jsonInt ((Json.field? (.obj fields) "sync_interval_s").getD (.int 60)) with
      | error e =>
        rw [hn] at h
        cases h
      | ok n =>
        rw [hn] at h
        rw [← Except.ok.inj h]
  · cases h

theorem not_leaks_heartbeat :
    ¬ Leaks (heartbeat jwt at_ creds a) ↔ Signs jwt at_ creds ∧ AnswerHandled a HeartbeatBody :=
  not_leaks_call _ a not_leaks_heartbeatResponse

theorem not_leaks_rotate {fromisoformat : Str → Except Exc DateTime} :
    ¬ Leaks (rotate jwt at_ creds a fromisoformat) ↔
      Signs jwt at_ creds ∧ AnswerHandled a (fun b => ∃ r, rotateBundle fromisoformat b = .ok r) :=
  not_leaks_call _ a (fun b => not_leaks_unhandled (rotateBundle fromisoformat b))

/-- A body that asks for a rotation. -/
def RotationDue (a : Answer) : Prop :=
  ∃ text b, a = .response 200 text (.ok b) ∧ ((b.field? "revoked").getD .null).truthy = false ∧
    ((b.field? "rotation_due").getD (.bool false)).truthy = true

/-- How a heartbeat ends, by what the gateway answers. -/
theorem heartbeat_cases (jwt : JwtLib) (at_ : Rat) (creds : LoadedCredentials) (a : Answer) :
    (Leaks (heartbeat jwt at_ creds a) ∧
        ¬ (Signs jwt at_ creds ∧ AnswerHandled a HeartbeatBody)) ∨
      ((heartbeat jwt at_ creds a = .error .edgeRevoked ∨
          heartbeat jwt at_ creds a = .error .edgeControlPlaneError) ∧
        (Signs jwt at_ creds ∧ AnswerHandled a HeartbeatBody) ∧ ¬ RotationDue a) ∨
      ∃ resp, heartbeat jwt at_ creds a = .ok resp ∧
        (Signs jwt at_ creds ∧ AnswerHandled a HeartbeatBody) ∧
        (resp.rotationDue = true ↔ RotationDue a) := by
  by_cases hleaks : Leaks (heartbeat jwt at_ creds a)
  · exact Or.inl ⟨hleaks, fun h => not_leaks_heartbeat.mpr h hleaks⟩
  · right
    have hhandled := not_leaks_heartbeat.mp hleaks
    have ⟨⟨token, htoken⟩, hbodies⟩ := hhandled
    -- the answer that asks for a rotation is the body the call reads
    have hdue : RotationDue a → ∃ resp, heartbeat jwt at_ creds a = .ok resp ∧
        resp.rotationDue = true := by
      rintro ⟨text, b, rfl, hnot, hdue⟩
      obtain ⟨b', hb', ⟨fields, hfields⟩, hor⟩ := answerHandled_body.mp hbodies
      obtain rfl := Except.ok.inj hb'
      obtain rfl := hfields
      obtain ⟨n, hn⟩ := hor.resolve_left (by simp [hnot])
      refine ⟨⟨false, n, true⟩, (call_of_body htoken _ _ heartbeatResponse).trans ?_, rfl⟩
      simp only [heartbeatResponse, hnot, Bool.false_eq_true, if_false, hn, hdue]
      rfl
    cases hh : heartbeat jwt at_ creds a with
    | error e =>
      left
      refine ⟨?_, hhandled, fun h => ?_⟩
      · cases e with
        | edgeRevoked => exact Or.inl rfl
        | edgeControlPlaneError => exact Or.inr rfl
        | raised e => exact absurd ⟨e, hh⟩ hleaks
      · obtain ⟨resp, hresp, -⟩ := hdue h
        rw [hh] at hresp
        cases hresp
    | ok resp =>
      right
      refine ⟨resp, rfl, hhandled, fun h => ?_, fun h => ?_⟩
      · obtain ⟨text, b, rfl, hparse⟩ := call_ok hh
        obtain ⟨hnot, hrd⟩ := heartbeatResponse_ok hparse
        exact ⟨text, b, rfl, hnot, hrd ▸ h⟩
      · obtain ⟨resp', hresp, hrd⟩ := hdue h
        rw [hh] at hresp
        obtain rfl := Except.ok.inj hresp
        exact hrd

/-- The bundle of a rotation has texts exactly when the body of its answer does. -/
theorem rotatedTexts_iff {jwt : JwtLib} {at_ : Rat} {creds : LoadedCredentials} {a : Answer}
    {fromisoformat : Str → Except Exc DateTime} {r : RotateBundle}
    (h : rotate jwt at_ creds a fromisoformat = .ok r) :
    RotatedTexts r ↔ AnswerHandled a (RotateBody fromisoformat) := by
  obtain ⟨text, b, rfl, hparse⟩ := call_ok h
  rw [answerHandled_body]
  obtain ⟨r', hr'⟩ := (not_leaks_unhandled (rotateBundle fromisoformat b)).mp (by
    rw [hparse]
    simp [Leaks])
  have hb : rotateBundle fromisoformat b = .ok r := by
    rw [hr'] at hparse ⊢
    cases hparse
    rfl
  constructor
  · intro ht
    exact ⟨b, rfl, rotateBody_iff.mpr ⟨r, hb, ht⟩⟩
  · rintro ⟨b', hb', hrot⟩
    obtain rfl := Except.ok.inj hb'
    obtain ⟨r', hr', ht⟩ := rotateBody_iff.mp hrot
    rw [hb] at hr'
    obtain rfl := Except.ok.inj hr'
    exact ht

/-- How a rotation ends, by what the gateway answers. -/
theorem rotate_cases (jwt : JwtLib) (at_ : Rat) (creds : LoadedCredentials) (a : Answer)
    (fromisoformat : Str → Except Exc DateTime) :
    (Leaks (rotate jwt at_ creds a fromisoformat) ∧
        ¬ (Signs jwt at_ creds ∧ AnswerHandled a (RotateBody fromisoformat))) ∨
      ((rotate jwt at_ creds a fromisoformat = .error .edgeRevoked ∨
          rotate jwt at_ creds a fromisoformat = .error .edgeControlPlaneError) ∧
        Signs jwt at_ creds ∧ AnswerHandled a (RotateBody fromisoformat)) ∨
      ∃ r, rotate jwt at_ creds a fromisoformat = .ok r ∧
        (RotatedTexts r ↔ Signs jwt at_ creds ∧ AnswerHandled a (RotateBody fromisoformat)) := by
  by_cases hleaks : Leaks (rotate jwt at_ creds a fromisoformat)
  · refine Or.inl ⟨hleaks, fun ⟨hsigns, hbody⟩ => ?_⟩
    refine not_leaks_rotate.mpr ⟨hsigns, hbody.imp fun _ b _ hrot => ?_⟩ hleaks
    obtain ⟨r, hr, -⟩ := rotateBody_iff.mp hrot
    exact ⟨r, hr⟩
  · right
    obtain ⟨hsigns, hbodies⟩ := not_leaks_rotate.mp hleaks
    have ⟨token, htoken⟩ := hsigns
    cases hr : rotate jwt at_ creds a fromisoformat with
    | error e =>
      left
      refine ⟨?_, hsigns, hbodies.imp fun text b hbody ⟨r, hparse⟩ => ?_⟩
      · cases e with
        | edgeRevoked => exact Or.inl rfl
        | edgeControlPlaneError => exact Or.inr rfl
        | raised e => exact absurd ⟨e, hr⟩ hleaks
      · -- a body that parses would have been the result
        have hok : rotate jwt at_ creds a fromisoformat = .ok r := by
          rw [hbody]
          refine (call_of_body htoken text b
            (fun b => unhandled (rotateBundle fromisoformat b))).trans ?_
          rw [hparse]
          rfl
        rw [hr] at hok
        cases hok
    | ok r => exact Or.inr ⟨r, rfl, (rotatedTexts_iff hr).trans (and_iff_right hsigns).symm⟩

end Calls

/-! ## One tick -/

/-- Both calls can sign, and what they are answered is handled: bodies with status 200
are as the client reads them, texts that are shown decode; the second call is made
only for a rotation that is due. -/
structure HeartbeatTick.Handled [PyRuntime] (lib : HeartbeatLib) (t : HeartbeatTick)
    (creds : LoadedCredentials) : Prop where
  heartbeat : Signs lib.jwt t.heartbeatAt creds ∧ AnswerHandled t.heartbeat HeartbeatBody
  rotate : RotationDue t.heartbeat →
    Signs lib.jwt t.rotateAt creds ∧ AnswerHandled t.rotate (RotateBody lib.fromisoformat)

/-- The heartbeat, the rotation or the writing of its files fails, other than by
a revocation. -/
def TickFails [PyRuntime] (lib : HeartbeatLib) (cfg : Settings) (t : HeartbeatTick)
    (creds : LoadedCredentials) : Prop :=
  (∃ e, heartbeat lib.jwt t.heartbeatAt creds t.heartbeat = .error e ∧ e ≠ .edgeRevoked) ∨
    ∃ resp, heartbeat lib.jwt t.heartbeatAt creds t.heartbeat = .ok resp ∧
      resp.rotationDue = true ∧
      ((∃ e, rotate lib.jwt t.rotateAt creds t.rotate lib.fromisoformat = .error e ∧
          e ≠ .edgeRevoked) ∨
        ∃ rotated, rotate lib.jwt t.rotateAt creds t.rotate lib.fromisoformat = .ok rotated ∧
          ∃ stop env, (persistRotated lib cfg.stateDir creds rotated).run t.env =
            (.error stop, env))

/-- A tick whose heartbeat came back. -/
def HeartbeatState.ticked (t : HeartbeatTick) (s : HeartbeatState) : HeartbeatState :=
  { s with lastTickOkAt := some t.monotonic }

section Tick

variable {lib : HeartbeatLib} {cfg : Settings} {t : HeartbeatTick} {s : HeartbeatState}

/-- How the persisting of a rotation ends. -/
theorem rotatedTo_cases (lib : HeartbeatLib) (cfg : Settings) (t : HeartbeatTick)
    (s : HeartbeatState) (rotated : RotateBundle) :
    (∃ creds env, (persistRotated lib cfg.stateDir s.credentials rotated).run t.env =
        (.ok creds, env) ∧ (rotatedTo lib cfg t s rotated).ended = .returned ∧
        (rotatedTo lib cfg t s rotated).state = { s with credentials := creds }) ∨
      ∃ stop env, (persistRotated lib cfg.stateDir s.credentials rotated).run t.env =
        (.error stop, env) ∧ (rotatedTo lib cfg t s rotated).state = s ∧
        (∀ e, stop = .raised e → (rotatedTo lib cfg t s rotated).ended = .raised e) ∧
        (rotatedTo lib cfg t s rotated).ended ≠ .edgeRevoked := by
  unfold rotatedTo
  rcases (persistRotated lib cfg.stateDir s.credentials rotated).run t.env with ⟨r, env⟩
  cases r with
  | ok creds => exact Or.inl ⟨creds, env, rfl, rfl, rfl⟩
  | error stop => cases stop <;> simp

variable [PyRuntime]

theorem oneTick_of_error {e : ControlPlaneError}
    (h : heartbeat lib.jwt t.heartbeatAt s.credentials t.heartbeat = .error e) :
    oneTick lib cfg t s = callFailed s t.env e := by
  unfold oneTick
  rw [h]

section Response

variable {resp : HeartbeatResponse}
  (h : heartbeat lib.jwt t.heartbeatAt s.credentials t.heartbeat = .ok resp)
include h

theorem oneTick_of_response (hdue : resp.rotationDue = false) :
    oneTick lib cfg t s = { state := s.ticked t, env := t.env, ended := .returned } := by
  unfold oneTick
  rw [h]
  simp only [hdue, Bool.false_eq_true, if_false]
  rfl

theorem oneTick_of_rotateError (hdue : resp.rotationDue = true) {e : ControlPlaneError}
    (hr : rotate lib.jwt t.rotateAt s.credentials t.rotate lib.fromisoformat = .error e) :
    oneTick lib cfg t s = callFailed (s.ticked t) t.env e := by
  unfold oneTick
  rw [h]
  simp only [hdue, if_true, hr]
  rfl

theorem oneTick_of_rotated (hdue : resp.rotationDue = true) {rotated : RotateBundle}
    (hr : rotate lib.jwt t.rotateAt s.credentials t.rotate lib.fromisoformat = .ok rotated) :
    oneTick lib cfg t s = rotatedTo lib cfg t (s.ticked t) rotated := by
  unfold oneTick
  rw [h]
  simp only [hdue, if_true, hr]
  rfl

end Response

/-- What a tick can do. -/
theorem oneTick_cases (lib : HeartbeatLib) (cfg : Settings) (t : HeartbeatTick)
    (s : HeartbeatState) :
    (∃ e, heartbeat lib.jwt t.heartbeatAt s.credentials t.heartbeat = .error e ∧
        oneTick lib cfg t s = callFailed s t.env e) ∨
      ∃ resp, heartbeat lib.jwt t.heartbeatAt s.credentials t.heartbeat = .ok resp ∧
        (resp.rotationDue = false ∧
            oneTick lib cfg t s = { state := s.ticked t, env := t.env, ended := .returned } ∨
          resp.rotationDue = true ∧
            ((∃ e, rotate lib.jwt t.rotateAt s.credentials t.rotate lib.fromisoformat = .error e ∧
                oneTick lib cfg t s = callFailed (s.ticked t) t.env e) ∨
              ∃ rotated,
                rotate lib.jwt t.rotateAt s.credentials t.rotate lib.fromisoformat = .ok rotated ∧
                oneTick lib cfg t s = rotatedTo lib cfg t (s.ticked t) rotated)) := by
  cases hh : heartbeat lib.jwt t.heartbeatAt s.credentials t.heartbeat with
  | error e => exact Or.inl ⟨e, rfl, oneTick_of_error hh⟩
  | ok resp =>
    refine Or.inr ⟨resp, rfl, ?_⟩
    cases hdue : resp.rotationDue with
    | false => exact Or.inl ⟨rfl, oneTick_of_response hh hdue⟩
    | true =>
      refine Or.inr ⟨rfl, ?_⟩
      cases hr : rotate lib.jwt t.rotateAt s.credentials t.rotate lib.fromisoformat with
      | error e => exact Or.inl ⟨e, rfl, oneTick_of_rotateError hh hdue hr⟩
      | ok rotated => exact Or.inr ⟨rotated, rfl, oneTick_of_rotated hh hdue hr⟩

/-- **A tick raises nothing** but a revocation exactly when its answers are
handled. -/
theorem oneTick_ended (hjson : DumpsAscii lib.json) (hw : WritesSucceed cfg.stateDir t.env)
    (s : HeartbeatState) :
    (t.Handled lib s.credentials ∧ ((oneTick lib cfg t s).ended = .returned ∨
        (oneTick lib cfg t s).ended = .edgeRevoked)) ∨
      (¬ t.Handled lib s.credentials ∧ ∃ e, (oneTick lib cfg t s).ended = .raised e) := by
  rcases heartbeat_cases lib.jwt t.heartbeatAt s.credentials t.heartbeat with
    ⟨⟨e, he⟩, hnot⟩ | ⟨he | he, hh, hdue⟩ | ⟨resp, hresp, hh, hdue⟩
  · rw [oneTick_of_error he]
    exact Or.inr ⟨fun h => hnot h.heartbeat, e, rfl⟩
  · rw [oneTick_of_error he]
    exact Or.inl ⟨⟨hh, fun h => absurd h hdue⟩, Or.inr rfl⟩
  · rw [oneTick_of_error he]
    exact Or.inl ⟨⟨hh, fun h => absurd h hdue⟩, Or.inl rfl⟩
  · cases hrd : resp.rotationDue with
    | false =>
      rw [oneTick_of_response hresp hrd]
      refine Or.inl ⟨⟨hh, fun h => ?_⟩, Or.inl rfl⟩
      rw [hdue.mpr h] at hrd
      cases hrd
    | true =>
      -- the heartbeat is handled, so the rotation decides
      have hrotate : t.Handled lib s.credentials ↔
          Signs lib.jwt t.rotateAt s.credentials ∧
            AnswerHandled t.rotate (RotateBody lib.fromisoformat) :=
        ⟨fun h => h.rotate (hdue.mp hrd), fun h => ⟨hh, fun _ => h⟩⟩
      rw [hrotate]
      rcases rotate_cases lib.jwt t.rotateAt s.credentials t.rotate lib.fromisoformat with
        ⟨⟨e, he⟩, hnot⟩ | ⟨he | he, hok⟩ | ⟨rotated, hr, htexts⟩
      · rw [oneTick_of_rotateError hresp hrd he]
        exact Or.inr ⟨hnot, e, rfl⟩
      · rw [oneTick_of_rotateError hresp hrd he]
        exact Or.inl ⟨hok, Or.inr rfl⟩
      · rw [oneTick_of_rotateError hresp hrd he]
        exact Or.inl ⟨hok, Or.inl rfl⟩
      · rw [oneTick_of_rotated hresp hrd hr, ← htexts]
        rcases persistRotated_run hjson hw (s.ticked t).credentials rotated with
          ⟨ht, creds', env', hrun⟩ | ⟨ht, e, env', hrun⟩ <;>
        rcases rotatedTo_cases lib cfg t (s.ticked t) rotated with
          ⟨creds, env, hrun₁, hended, -⟩ | ⟨stop, env, hrun₁, -, hraised, -⟩ <;>
        rw [hrun] at hrun₁ <;> cases hrun₁
        · exact Or.inl ⟨ht, Or.inl hended⟩
        · exact Or.inr ⟨ht, e, hraised e rfl⟩

/-- Only a revocation sets the flag. -/
theorem oneTick_revoked (lib : HeartbeatLib) (cfg : Settings) (t : HeartbeatTick)
    (s : HeartbeatState) : (oneTick lib cfg t s).state.revoked = true ↔
      s.revoked = true ∨ (oneTick lib cfg t s).ended = .edgeRevoked := by
  rcases oneTick_cases lib cfg t s with
    ⟨e, -, h⟩ | ⟨resp, -, ⟨-, h⟩ | ⟨-, ⟨e, -, h⟩ | ⟨rotated, -, h⟩⟩⟩
  · rw [h]
    cases e <;> simp [callFailed]
  · rw [h]
    simp [HeartbeatState.ticked]
  · rw [h]
    cases e <;> simp [callFailed, HeartbeatState.ticked]
  · rw [h]
    rcases rotatedTo_cases lib cfg t (s.ticked t) rotated with
      ⟨creds, env, -, hended, hstate⟩ | ⟨stop, env, -, hstate, -, hended⟩
    · rw [hended, hstate]
      simp [HeartbeatState.ticked]
    · rw [hstate]
      simp only [hended, or_false]
      rfl

/-- Where a tick fails, it is no revocation, and the credentials stay. -/
theorem oneTick_of_fails (h : TickFails lib cfg t s.credentials) :
    (oneTick lib cfg t s).ended ≠ .edgeRevoked ∧
      (oneTick lib cfg t s).state.credentials = s.credentials := by
  rcases h with ⟨e, he, hne⟩ | ⟨resp, hresp, hdue, ⟨e, he, hne⟩ | ⟨rotated, hr, stop, env, hrun⟩⟩
  · rw [oneTick_of_error he]
    cases e <;> simp_all [callFailed]
  · rw [oneTick_of_rotateError hresp hdue he]
    cases e <;> simp_all [callFailed, HeartbeatState.ticked]
  · rw [oneTick_of_rotated hresp hdue hr]
    rcases rotatedTo_cases lib cfg t (s.ticked t) rotated with
      ⟨creds, env₁, hrun₁, -, -⟩ | ⟨stop₁, env₁, -, hstate, -, hended⟩
    · have hrun₂ := hrun.symm.trans hrun₁
      cases hrun₂
    · rw [hstate]
      exact ⟨hended, rfl⟩

/-- What is raised is a failure. -/
theorem fails_of_raised {e : Exc} (h : (oneTick lib cfg t s).ended = .raised e) :
    TickFails lib cfg t s.credentials := by
  rcases oneTick_cases lib cfg t s with
    ⟨x, hx, htick⟩ | ⟨resp, hresp, ⟨-, htick⟩ | ⟨hdue, ⟨x, hx, htick⟩ | ⟨rotated, hr, htick⟩⟩⟩
  · refine Or.inl ⟨x, hx, ?_⟩
    rintro rfl
    rw [htick] at h
    cases h
  · rw [htick] at h
    cases h
  · refine Or.inr ⟨resp, hresp, hdue, Or.inl ⟨x, hx, ?_⟩⟩
    rintro rfl
    rw [htick] at h
    cases h
  · refine Or.inr ⟨resp, hresp, hdue, Or.inr ⟨rotated, hr, ?_⟩⟩
    rw [htick] at h
    rcases rotatedTo_cases lib cfg t (s.ticked t) rotated with
      ⟨creds, env, -, hended, -⟩ | ⟨stop, env, hrun, -⟩
    · rw [hended] at h
      cases h
    · exact ⟨stop, env, hrun⟩

end Tick

/-! ## The loop -/

/-- The loop returned or raised, and nobody was told of a revocation. -/
def HeartbeatLoop.Silent (l : HeartbeatLoop) : Prop :=
  l.state.revoked = false ∧ (l.ended = some .returned ∨ ∃ e, l.ended = some (.raised e))

/-- The file operations of the tick succeed. -/
def HeartbeatInput.WritesSucceed (cfg : Settings) : HeartbeatInput → Prop
  | .tick t => TrustModelEdge.WritesSucceed cfg.stateDir t.env
  | .cancel => True

section Loop

variable [PyRuntime] (lib : HeartbeatLib) (cfg : Settings)

/-- A tick that fails, other than by a revocation, leaves the flag and the
credentials, and the loop goes on. -/
def Transient (l : HeartbeatLoop) (i : HeartbeatInput) : Prop :=
  l.ended = none → ∀ t, i = .tick t → TickFails lib cfg t l.state.credentials →
    (heartbeatStep lib cfg l i).1.state.revoked = false ∧
      (heartbeatStep lib cfg l i).1.state.credentials = l.state.credentials ∧
      (heartbeatStep lib cfg l i).1.ended = none

/-- **Heartbeats do not stop silently** on this run. -/
def NeverSilent (creds : LoadedCredentials) (inputs : List HeartbeatInput) : Prop :=
  ¬ (final (heartbeatStep lib cfg) { state := { credentials := creds } } inputs).Silent ∧
    ∀ v ∈ visits (heartbeatStep lib cfg) { state := { credentials := creds } } inputs,
      Transient lib cfg v.1 v.2

/-- The answers of a tick that runs are handled. -/
def AnswersHandled (l : HeartbeatLoop) (i : HeartbeatInput) : Prop :=
  l.ended = none → ∀ t, i = .tick t → t.Handled lib l.state.credentials

/-- The flag is set by the tick that ends the loop. -/
def FlagInv (l : HeartbeatLoop) : Prop :=
  (l.ended = none → l.state.revoked = false) ∧ (l.ended = some .returned → l.state.revoked = true)

variable {lib cfg} {l : HeartbeatLoop}

theorem heartbeatStep_ended {x : HeartbeatEnd} (h : l.ended = some x) (i : HeartbeatInput) :
    (heartbeatStep lib cfg l i).1 = l := by
  unfold heartbeatStep
  rw [h]

theorem heartbeatStep_tick (h : l.ended = none) (t : HeartbeatTick) :
    (heartbeatStep lib cfg l (.tick t)).1 =
      { state := (oneTick lib cfg t l.state).state
        ended := (oneTick lib cfg t l.state).ended.loopEnd } := by
  unfold heartbeatStep
  rw [h]

theorem heartbeatStep_cancel (h : l.ended = none) :
    (heartbeatStep lib cfg l .cancel).1 = { l with ended := some .cancelled } := by
  unfold heartbeatStep
  rw [h]

omit [PyRuntime] in
theorem loopEnd_eq_none {e : TickEnd} : e.loopEnd = none ↔ e = .returned := by
  cases e <;> simp [TickEnd.loopEnd]

omit [PyRuntime] in
theorem loopEnd_eq_returned {e : TickEnd} : e.loopEnd = some .returned ↔ e = .edgeRevoked := by
  cases e <;> simp [TickEnd.loopEnd]

theorem flagInv_step (l : HeartbeatLoop) (i : HeartbeatInput) (h : FlagInv l) :
    FlagInv (heartbeatStep lib cfg l i).1 := by
  cases hl : l.ended with
  | some x => rwa [heartbeatStep_ended hl]
  | none =>
    cases i with
    | cancel =>
      rw [heartbeatStep_cancel hl]
      exact ⟨fun he => by simp at he, fun he => by simp at he⟩
    | tick t =>
      rw [heartbeatStep_tick hl]
      have hflag := oneTick_revoked lib cfg t l.state
      have hl₀ := h.1 hl
      constructor
      · intro hend
        have hreturned := loopEnd_eq_none.mp hend
        rw [← Bool.not_eq_true, hflag]
        simp [hl₀, hreturned]
      · intro hend
        exact hflag.mpr (Or.inr (loopEnd_eq_returned.mp hend))

/-- A tick is transient in its failures exactly when its answers are handled. -/
theorem transient_iff (hjson : DumpsAscii lib.json) (hflag : FlagInv l) {i : HeartbeatInput}
    (hw : i.WritesSucceed cfg) : Transient lib cfg l i ↔ AnswersHandled lib l i := by
  constructor
  · intro h hl t ht
    subst ht
    rcases oneTick_ended hjson hw l.state with ⟨hhandled, -⟩ | ⟨-, e, he⟩
    · exact hhandled
    · -- an exception that goes through would end the loop
      obtain ⟨-, -, hend⟩ := h hl t rfl (fails_of_raised he)
      rw [heartbeatStep_tick hl, he] at hend
      cases hend
  · intro h hl t ht hfails
    subst ht
    obtain ⟨hnot, hcreds⟩ := oneTick_of_fails hfails
    rw [heartbeatStep_tick hl]
    refine ⟨?_, hcreds, ?_⟩
    · rw [← Bool.not_eq_true, oneTick_revoked]
      simp [hflag.1 hl, hnot]
    · rcases oneTick_ended hjson hw l.state with ⟨-, hend | hend⟩ | ⟨hunhandled, -⟩
      · rw [hend]
        rfl
      · exact absurd hend hnot
      · exact absurd (h hl t rfl) hunhandled

/-- A step whose answers are handled does not end the loop by an exception. -/
theorem heartbeatStep_not_raised (hjson : DumpsAscii lib.json) {i : HeartbeatInput}
    (hw : i.WritesSucceed cfg) (hhandled : AnswersHandled lib l i)
    (h : ∀ e, l.ended ≠ some (.raised e)) :
    ∀ e, (heartbeatStep lib cfg l i).1.ended ≠ some (.raised e) := by
  cases hl : l.ended with
  | some x => rwa [heartbeatStep_ended hl]
  | none =>
    cases i with
    | cancel =>
      intro e
      rw [heartbeatStep_cancel hl]
      simp
    | tick t =>
      rw [heartbeatStep_tick hl]
      intro e
      rcases oneTick_ended hjson hw l.state with ⟨-, hend | hend⟩ | ⟨hunhandled, -⟩
      · simp [hend, TickEnd.loopEnd]
      · simp [hend, TickEnd.loopEnd]
      · exact absurd (hhandled hl t rfl) hunhandled

end Loop

/-- **Heartbeats never stop silently** exactly when each tick that runs can sign
its calls and gets, with status 200, only bodies of the expected shape. -/
theorem heartbeat_never_silent_iff [PyRuntime] (lib : HeartbeatLib) (cfg : Settings)
    (hjson : DumpsAscii lib.json) (creds : LoadedCredentials) (inputs : List HeartbeatInput)
    (hw : ∀ i ∈ inputs, i.WritesSucceed cfg) :
    NeverSilent lib cfg creds inputs ↔
      ∀ v ∈ visits (heartbeatStep lib cfg) { state := { credentials := creds } } inputs,
        AnswersHandled lib v.1 v.2 := by
  have hstart : FlagInv { state := { credentials := creds } } :=
    ⟨fun _ => rfl, fun h => by simp at h⟩
  have hflags : ∀ v ∈ visits (heartbeatStep lib cfg) { state := { credentials := creds } } inputs,
      FlagInv v.1 :=
    visits_state_inv (heartbeatStep lib cfg) (fun l i h (_ : True) => flagInv_step l i h) hstart
      (fun _ _ => trivial)
  have hiff : ∀ v ∈ visits (heartbeatStep lib cfg) { state := { credentials := creds } } inputs,
      (Transient lib cfg v.1 v.2 ↔ AnswersHandled lib v.1 v.2) :=
    fun v hv => transient_iff hjson (hflags v hv) (hw v.2 (mem_visits _ hv))
  constructor
  · rintro ⟨-, h⟩ v hv
    exact (hiff v hv).mp (h v hv)
  · intro h
    refine ⟨?_, fun v hv => (hiff v hv).mpr (h v hv)⟩
    rintro ⟨hrevoked, hended⟩
    have hflag : FlagInv (final (heartbeatStep lib cfg) { state := { credentials := creds } }
        inputs) :=
      final_inv (heartbeatStep lib cfg) (fun l i h (_ : True) => flagInv_step l i h) hstart
        (fun _ _ => trivial)
    have hraised : ∀ e, (final (heartbeatStep lib cfg) { state := { credentials := creds } }
        inputs).ended ≠ some (.raised e) :=
      guarded_inv (heartbeatStep lib cfg) (R := fun _ l => ∀ e, l.ended ≠ some (.raised e))
        (G := fun l i => i.WritesSucceed cfg ∧ AnswersHandled lib l i)
        (fun _ l i hl hg => heartbeatStep_not_raised hjson hg.1 hg.2 hl) (fun e => by simp)
        (fun v hv => ⟨hw v.2 (mem_visits _ hv), h v hv⟩)
    rcases hended with hret | ⟨e, he⟩
    · rw [hflag.2 hret] at hrevoked
      cases hrevoked
    · exact hraised e he

/-! An edge that is enrolled, and whose state directory can be written. -/

def demoHeartbeatLib : HeartbeatLib where
  jwt :=
    { encode := fun _ key =>
        if key = enrolled.keyPem ∨ key = rotated.keyPem then .ok "token" else .error .valueError
      decode := fun _ _ _ => .error (.other .valueError)
      publicPem := fun _ => .error .valueError }
  json :=
    { dumps := fun v => (demoDumps v).filter (fun c => c.val < 128)
      loads := demoMetaJson.loads }
  isoformat := demoIsoformat
  fromisoformat := demoFromisoformat

def demoHeartbeatSettings : Settings where
  tenantId := "acme"
  stateDir := ["state"]
  policyStaleThresholdSeconds := 5400
  oauthTokenTtlSeconds := 1200

def emptyEnv : DiskEnv where
  disk := .empty
  now := 1000
  faults := []

/-- A tick with these two answers. -/
def tickOf (heartbeat rotate : Answer) : HeartbeatTick where
  heartbeatAt := 1000
  rotateAt := 1000
  monotonic := 50
  env := emptyEnv
  heartbeat := heartbeat
  rotate := rotate

theorem emptyEnv_writesSucceed : WritesSucceed ["state"] emptyEnv where
  faults := rfl
  dirs := Option.isSome_iff_exists.mp (by decide +kernel)
  usable := fun f => by
    cases f <;> exact ⟨by rw [problem_eq_none]; decide +kernel, by decide +kernel, by decide⟩
  files := fun f => by
    cases f <;> decide +kernel

theorem demo_dumpsAscii : DumpsAscii demoHeartbeatLib.json := by
  intro v
  show ((demoDumps v).filter (fun c => c.val < 128)).any isSurrogate = false
  rw [List.any_eq_false]
  intro c hc
  have hlt : c.val < 128 := by simpa using (List.mem_filter.mp hc).2
  simp only [isSurrogate, Bool.and_eq_true, decide_eq_true_eq, not_and]
  omega

/-- The body of a heartbeat that asks for a rotation. -/
def dueBody : Json := .obj [("revoked", .bool false), ("rotation_due", .bool true)]

/-- The body of the rotation. -/
def rotatedBody : Json :=
  .obj
    [("client_cert", .str rotated.certPem), ("client_key", .str rotated.keyPem),
     ("ca_chain", .str rotated.caChainPem), ("cert_valid_from", .str "2030-01-01T00:00:00Z"),
     ("cert_valid_to", .str "2031-01-01T00:00:00Z")]

/-- No network, a rotation, a server error, a revocation. -/
def rotationTicks : List HeartbeatTick :=
  [tickOf .networkError .networkError,
   tickOf (.response 200 (.ok "") (.ok dueBody)) (.response 200 (.ok "") (.ok rotatedBody)),
   tickOf (.response 503 (.ok "") (.error .jsonDecodeError)) .networkError,
   tickOf (.response 401 (.ok "") (.error .jsonDecodeError)) .networkError]

theorem rotatedBody_ok : RotateBody demoHeartbeatLib.fromisoformat rotatedBody :=
  ⟨⟨rotated.certPem, rfl, rfl⟩, ⟨rotated.keyPem, rfl, rfl⟩,
    ⟨rotated.caChainPem, rfl, rfl⟩, ⟨"2030-01-01T00:00:00Z", _, rfl, rfl⟩,
    ⟨"2031-01-01T00:00:00Z", _, rfl, rfl⟩⟩

/-- Whichever key is in memory, these ticks are handled. -/
theorem rotationTicks_handled {t : HeartbeatTick} (ht : t ∈ rotationTicks)
    {creds : LoadedCredentials}
    (hkey : creds.keyPem = enrolled.keyPem ∨ creds.keyPem = rotated.keyPem) :
    @HeartbeatTick.Handled asciiRuntime demoHeartbeatLib t creds := by
  have hsigns : ∀ at_, @Signs asciiRuntime demoHeartbeatLib.jwt at_ creds := by
    intro at_
    exact ⟨"token", if_pos hkey⟩
  have hheartbeat : AnswerHandled t.heartbeat (@HeartbeatBody asciiRuntime) := by
    simp only [rotationTicks, List.mem_cons, List.not_mem_nil, or_false] at ht
    rcases ht with rfl | rfl | rfl | rfl
    · trivial
    · exact answerHandled_body.mpr ⟨dueBody, rfl, ⟨_, rfl⟩, Or.inr ⟨60, rfl⟩⟩
    · exact ⟨"", rfl⟩
    · trivial
  have hrotate : AnswerHandled t.rotate (RotateBody demoHeartbeatLib.fromisoformat) := by
    simp only [rotationTicks, List.mem_cons, List.not_mem_nil, or_false] at ht
    rcases ht with rfl | rfl | rfl | rfl
    · trivial
    · exact answerHandled_body.mpr ⟨rotatedBody, rfl, rotatedBody_ok⟩
    · trivial
    · trivial
  exact @HeartbeatTick.Handled.mk asciiRuntime demoHeartbeatLib t creds ⟨hsigns _, hheartbeat⟩
    (fun _ => ⟨hsigns _, hrotate⟩)

/-- A run with a rotation, ended by a revocation. -/
theorem heartbeat_never_silent_rotation :
    @NeverSilent asciiRuntime demoHeartbeatLib demoHeartbeatSettings enrolled.loaded
      (rotationTicks.map .tick) := by
  have hkeys : (visits (@heartbeatStep asciiRuntime demoHeartbeatLib demoHeartbeatSettings)
      { state := { credentials := enrolled.loaded } } (rotationTicks.map .tick)).all
      (fun v => v.1.state.credentials.keyPem = enrolled.keyPem ∨
        v.1.state.credentials.keyPem = rotated.keyPem) = true := by decide +kernel
  refine (@heartbeat_never_silent_iff asciiRuntime demoHeartbeatLib demoHeartbeatSettings
    demo_dumpsAscii enrolled.loaded (rotationTicks.map .tick) ?_).mpr ?_
  · intro i hi
    obtain ⟨t, ht, rfl⟩ := List.mem_map.mp hi
    simp only [rotationTicks, List.mem_cons, List.not_mem_nil, or_false] at ht
    rcases ht with rfl | rfl | rfl | rfl <;> exact emptyEnv_writesSucceed
  · intro v hv hl t ht
    have hmem : v.2 ∈ rotationTicks.map .tick := mem_visits _ hv
    rw [ht] at hmem
    obtain ⟨t', ht', he⟩ := List.mem_map.mp hmem
    obtain rfl := HeartbeatInput.tick.inj he
    exact rotationTicks_handled ht' (of_decide_eq_true (List.all_eq_true.mp hkeys v hv))

/-- A heartbeat with a body that is no JSON. -/
def malformedTick : HeartbeatTick :=
  tickOf (.response 200 (.ok "") (.error .jsonDecodeError)) .networkError

/-- The loop ends, and nobody is told. -/
theorem malformed_body_silences_heartbeats :
    (DumpsAscii demoHeartbeatLib.json ∧
      (HeartbeatInput.tick malformedTick).WritesSucceed demoHeartbeatSettings ∧
      @Signs asciiRuntime demoHeartbeatLib.jwt malformedTick.heartbeatAt enrolled.loaded) ∧
    ¬ @NeverSilent asciiRuntime demoHeartbeatLib demoHeartbeatSettings enrolled.loaded
      [.tick malformedTick] := by
  refine ⟨⟨demo_dumpsAscii, emptyEnv_writesSucceed, "token", rfl⟩, fun h => h.1 ⟨rfl, ?_⟩⟩
  exact Or.inr ⟨.jsonDecodeError, rfl⟩

end TrustModelEdge
