/-
TrustModelEdge.Policy.SyncTheorems — what a failed sync leaves, and which
failures end the refresh loop.

A sync is a fetch, then a swap of memory, then the disk half. `plannedSwap`
is what the first part comes to; the rest is that swap or nothing
(`syncOnceCompiling_planned`, `unplanned`). So a sync that returns `False`
has changed the cache exactly when the disk half raised after the swap, which
the hazards of the layout decide, and a sync raises exactly when the fetch
lets an exception through.
-/
import TrustModelEdge.Policy.HazardTheorems
import TrustModelEdge.Policy.RestartTheorems
import TrustModelEdge.Policy.SyncLoop

namespace TrustModelEdge.Policy

open Py OAuth Lib

/-! ## A failed sync and the cache -/

/-- Both caches answer alike. -/
structure PolicyCache.Same (c c' : PolicyCache) : Prop where
  snapshots : ∀ n, c.snapshots.lookup n = c'.snapshots.lookup n
  primaryName : c.primaryName = c'.primaryName
  lastSuccessAt : c.lastSuccessAt = c'.lastSuccessAt

theorem PolicyCache.Same.refl (c : PolicyCache) : c.Same c := ⟨fun _ => rfl, rfl, rfl⟩

/-- The cache holds these policies, received at this time, and this primary. -/
structure PolicyCache.Holds [PyRuntime] (c : PolicyCache) (at_ : Rat) (policies : List EdgePolicy)
    (primaryName : Option Str) : Prop where
  snapshots : ∀ n, c.snapshots.lookup n = (lastWith bundleName n policies).map (snapshotOf at_)
  primaryName : c.primaryName = keptName policies primaryName
  lastSuccessAt : c.lastSuccessAt = some at_

section Holds

variable [PyRuntime] {c : PolicyCache} {now : Rat}

end Holds

section Swap

variable [PyRuntime] (compileFails : EdgePolicy → Bool) (wire : BodyWire) (g : Gateway)
  (now : Rat) (stateDir : Path) (env : DiskEnv) (c : PolicyCache) (multiPolicyEnabled : Bool)

/-- The swap of a sync whose fetch and compile succeed: the new cache and the
disk half. -/
def plannedSwap : Option (PolicyCache × DiskM Unit) :=
  if multiPolicyEnabled then
    match fetchAll wire g with
    | .error _ => none
    | .ok (policies, primaryName, _) =>
        if policies.any compileFails then none
        else some (PolicyCache.replaceAll wire.toPolicyWire now policies primaryName (some stateDir))
  else
    match fetch wire g with
    | .error _ => none
    | .ok p =>
        if compileFails p then none
        else some (PolicyCache.replace wire.toPolicyWire now p (some stateDir))

variable {compileFails wire g now stateDir env c multiPolicyEnabled}

/-- What a sync swaps in: the policies of a plural body, or the policy of a
singular one. -/
theorem plannedSwap_some {swap : PolicyCache × DiskM Unit}
    (h : plannedSwap compileFails wire g now stateDir multiPolicyEnabled = some swap) :
    (multiPolicyEnabled = true ∧ ∃ policies primaryName clients,
        fetchAll wire g = .ok (policies, primaryName, clients) ∧
        policies.any compileFails = false ∧
        swap = PolicyCache.replaceAll wire.toPolicyWire now policies primaryName
          (some stateDir)) ∨
      (multiPolicyEnabled = false ∧ ∃ p, fetch wire g = .ok p ∧ compileFails p = false ∧
        swap = PolicyCache.replace wire.toPolicyWire now p (some stateDir)) := by
  unfold plannedSwap at h
  cases multiPolicyEnabled with
  | true =>
    simp only [if_true] at h
    split at h
    · cases h
    · rename_i policies primaryName clients hf
      split at h
      · cases h
      · rename_i hc
        exact Or.inl ⟨rfl, policies, primaryName, clients, hf, by simpa using hc,
          (Option.some.inj h).symm⟩
  | false =>
    simp only [Bool.false_eq_true, if_false] at h
    split at h
    · cases h
    · rename_i p hf
      split at h
      · cases h
      · rename_i hc
        exact Or.inr ⟨rfl, p, hf, by simpa using hc, (Option.some.inj h).symm⟩

/-- A sync that has nothing to swap in leaves the cache and the disk, and is no
success. -/
theorem unplanned
    (h : plannedSwap compileFails wire g now stateDir multiPolicyEnabled = none) :
    (syncOnceCompiling compileFails wire g now stateDir env c multiPolicyEnabled).cache = c ∧
      (syncOnceCompiling compileFails wire g now stateDir env c multiPolicyEnabled).env = env ∧
      (syncOnceCompiling compileFails wire g now stateDir env c multiPolicyEnabled).ended ≠
        .returned true := by
  unfold plannedSwap at h
  unfold syncOnceCompiling
  cases multiPolicyEnabled with
  | true =>
    simp only [if_true] at h ⊢
    unfold syncOnceMultiCompiling
    cases hf : fetchAll wire g with
    | error e =>
      exact ⟨fetchFailed_cache c env e, fetchFailed_env c env e, fetchFailed_ended c env e⟩
    | ok r =>
      obtain ⟨policies, primaryName, clients⟩ := r
      simp only [hf] at h ⊢
      by_cases hc : policies.any compileFails = true
      · simp [swappedCompiling, hc]
      · simp [hc] at h
  | false =>
    simp only [Bool.false_eq_true, if_false] at h ⊢
    unfold syncOnceSingularCompiling
    cases hf : fetch wire g with
    | error e =>
      exact ⟨fetchFailed_cache c env e, fetchFailed_env c env e, fetchFailed_ended c env e⟩
    | ok p =>
      simp only [hf] at h ⊢
      by_cases hc : compileFails p = true
      · simp [swappedCompiling, hc]
      · simp [hc] at h

/-- A sync that has something to swap in swaps it in. -/
theorem syncOnceCompiling_planned {swap : PolicyCache × DiskM Unit}
    (h : plannedSwap compileFails wire g now stateDir multiPolicyEnabled = some swap) :
    syncOnceCompiling compileFails wire g now stateDir env c multiPolicyEnabled =
      swapped swap env := by
  unfold syncOnceCompiling
  rcases plannedSwap_some h with
    ⟨hmulti, policies, primaryName, clients, hf, hc, rfl⟩ | ⟨hmulti, p, hf, hc, rfl⟩
  · simp only [hmulti, if_true, syncOnceMultiCompiling, hf, swappedCompiling, hc,
      Bool.false_eq_true, if_false]
  · have hc' : [p].any compileFails = false := by simpa using hc
    simp only [hmulti, Bool.false_eq_true, if_false, syncOnceSingularCompiling, hf,
      swappedCompiling, hc']

end Swap

/-- The two texts of policies above, and no clients. -/
def demoBodyWire : BodyWire where
  toPolicyWire := demoWire
  validateClient := fun _ => .error .validationError

/-- A gateway that serves the policy `b` on both paths. -/
def gatewayB : Gateway where
  singular := .response 200 (.ok []) (.ok (demoJsonOf "pol-b" "b"))
  plural := .response 200 (.ok []) (.ok (.obj [("policies", .arr [demoJsonOf "pol-b" "b"])]))

/-- `except (ValueError, TypeError)` takes it. -/
def Caught (e : Exc) : Prop := e.isValueError = true ∨ e = .typeError

/-- A cert-JWT can be minted at the time `at_`: both files are there and can be
read, the metadata is an object with an `edge_id`, and the key signs. -/
def CanMint (lib : SyncLib) (d : Disk) (stateDir : Path) (at_ : Rat) : Prop :=
  ∃ keyText metaText fields id token,
    pathExists d (credentialPath stateDir keyFile) = .ok true ∧
    readText d (credentialPath stateDir keyFile) = .ok keyText ∧
    pathExists d (credentialPath stateDir metaFile) = .ok true ∧
    readText d (credentialPath stateDir metaFile) = .ok metaText ∧
    lib.wire.json.loads (strip metaText) = .ok (.obj fields) ∧
    fields.lookup ("edge_id" : Str) = some id ∧
    lib.jwt.encode (certPayload id (truncate at_) (truncate at_ + defaultTtlSeconds))
      (strip keyText) = .ok token

theorem readOrRaise_ok_iff {d : Disk} {path : PurePath} {label s : Str} :
    readOrRaise d path label = .ok s ↔
      pathExists d path = .ok true ∧ ∃ text, readText d path = .ok text ∧ strip text = s := by
  unfold readOrRaise
  cases pathExists d path with
  | error e => simp [raising, bind, Except.bind]
  | ok found =>
    cases found with
    | false => simp [raising, bind, Except.bind]
    | true => cases readText d path <;> simp [raising, bind, Except.bind, pure, Except.pure]

theorem metaEdgeId_ok_iff {json : JsonText} {decodeError : Str → Str} {path : PurePath}
    {metaRaw : Str} {id : Json} :
    metaEdgeId json decodeError path metaRaw = .ok id ↔
      ∃ fields, json.loads metaRaw = .ok (.obj fields) ∧
        fields.lookup ("edge_id" : Str) = some id := by
  unfold metaEdgeId
  cases json.loads metaRaw with
  | error e => cases e <;> simp
  | ok v =>
    cases v with
    | obj fields => cases hf : fields.lookup ("edge_id" : Str) <;> simp [hf]
    | _ => simp

/-- The mint succeeds exactly on such files. -/
theorem minted_ok_iff {lib : SyncLib} {stateDir : Path} {t : SyncTick} {at_ : Rat} :
    (∃ token, t.minted lib stateDir at_ = .ok token) ↔
      CanMint lib t.env.disk stateDir at_ := by
  unfold SyncTick.minted mintCertJwt certKeyAndSubject CanMint
  constructor
  · rintro ⟨token, h⟩
    obtain ⟨⟨keyPem, id⟩, hread, h⟩ := bind_eq_ok.mp h
    obtain ⟨_, hk, hread⟩ := bind_eq_ok.mp hread
    obtain ⟨metaRaw, hm, hread⟩ := bind_eq_ok.mp hread
    obtain ⟨_, hid, hread⟩ := bind_eq_ok.mp hread
    cases hread
    obtain ⟨hkey, keyText, hkeyText, rfl⟩ := readOrRaise_ok_iff.mp hk
    obtain ⟨hmeta, metaText, hmetaText, rfl⟩ := readOrRaise_ok_iff.mp hm
    obtain ⟨fields, hloads, hlookup⟩ := metaEdgeId_ok_iff.mp hid
    refine ⟨keyText, metaText, fields, id, token, hkey, hkeyText, hmeta, hmetaText, hloads,
      hlookup, ?_⟩
    cases he : lib.jwt.encode
        (certPayload id (truncate at_) (truncate at_ + defaultTtlSeconds))
        (strip keyText) with
    | error e => simp [he, raising] at h
    | ok token' => simpa [he, raising] using h
  · rintro ⟨keyText, metaText, fields, id, token, hkey, hkeyText, hmeta, hmetaText, hloads,
      hlookup, hencode⟩
    refine ⟨token, ?_⟩
    rw [readOrRaise_ok_iff.mpr ⟨hkey, keyText, hkeyText, rfl⟩]
    simp only [bind, Except.bind, readOrRaise_ok_iff.mpr ⟨hmeta, metaText, hmetaText, rfl⟩,
      metaEdgeId_ok_iff.mpr ⟨fields, hloads, hlookup⟩, pure, Except.pure, hencode, raising]

/-- The response is a success, with this body. -/
def Transport.body : Transport → Option (Except Exc Json)
  | .transportError | .otherError _ => none
  | .response statusCode _ json => if 200 ≤ statusCode ∧ statusCode < 300 then some json else none

/-- The gateway has no such path. -/
def Transport.notFound : Transport → Bool
  | .transportError | .otherError _ => false
  | .response statusCode _ _ => statusCode == 404

/-- The request raises nothing but `HTTPError`s, and the text of a response that is
no success decodes. -/
def Transport.Declared : Transport → Prop
  | .transportError => True
  | .otherError _ => False
  | .response statusCode text _ => (200 ≤ statusCode ∧ statusCode < 300) ∨ ∃ s, text = .ok s

/-- A body that does not parse fails with a `ValueError`, and one that does passes
`check`. -/
def BodyHandled (t : Transport) (check : Json → Prop) : Prop :=
  ∀ json, t.body = some json →
    match json with
    | .error e => e.isValueError = true
    | .ok payload => check payload

/-- Validation of a singular body fails with a `ValueError` or a `TypeError`. -/
def PolicyHandled (wire : BodyWire) (payload : Json) : Prop :=
  ∀ e, wire.validate payload = .error e → Caught e

/-- So does that of a plural body: first of the policies, then of the clients. -/
def PluralHandled (wire : BodyWire) (payload : Json) : Prop :=
  ∀ raw, payload.field? "policies" = some raw →
    match validateAll wire.validate raw,
      validateAll wire.validateClient ((payload.field? "authorized_clients").getD (.arr [])) with
    | .error e, _ => Caught e
    | .ok _, .error e => Caught e
    | .ok _, .ok _ => True

/-- The fetch of the singular path raises nothing undeclared. -/
def SingularHandled (lib : SyncLib) (stateDir : Path) (t : SyncTick) : Prop :=
  CanMint lib t.env.disk stateDir t.singularAt ∧ t.singular.Declared ∧
    BodyHandled t.singular (PolicyHandled lib.wire)

/-- The same of `fetch_all`, which falls back to the singular path on a 404. -/
def FetchAllHandled (lib : SyncLib) (stateDir : Path) (t : SyncTick) : Prop :=
  CanMint lib t.env.disk stateDir t.pluralAt ∧ t.plural.Declared ∧
    BodyHandled t.plural (PluralHandled lib.wire) ∧
    (t.plural.notFound = true → SingularHandled lib stateDir t)

def TickHandled (lib : SyncLib) (cfg : Settings) (t : SyncTick) : Prop :=
  if cfg.multiPolicyEnabled then FetchAllHandled lib cfg.stateDir t
  else SingularHandled lib cfg.stateDir t

/-- An exception that is none of the two the client declares. -/
def Undeclared {α : Type} (r : Except FetchError α) : Prop := ∃ e, r = .error (.raised e)

theorem undeclared_invalidBody {α : Type} {e : Exc} :
    Undeclared (.error (invalidBody e) : Except FetchError α) ↔ ¬ Caught e := by
  unfold Undeclared invalidBody Caught
  by_cases h : (e.isValueError || e == .typeError) = true
  · have hc : e.isValueError = true ∨ e = .typeError := by simpa using h
    simp [h, hc]
  · have hc : ¬ (e.isValueError = true ∨ e = .typeError) := by simpa using h
    simp only [h, Bool.false_eq_true, if_false, hc, not_false_eq_true, iff_true]
    exact ⟨_, rfl⟩

theorem httpGet_mintFailed {t : Transport} (e : OAuthError) :
    httpGet (httpResult (.error e) t) = .error (.raised e) := rfl

/-- What `_http_get` comes to once the token is minted. -/
theorem httpGet_minted (t : Transport) (token : Str) :
    (¬ t.Declared ∧ t.body = none ∧
        ∃ e, httpGet (httpResult (.ok token) t) = .error (.raised (.other e))) ∨
      (t.Declared ∧ t.notFound = true ∧ t.body = none ∧
        ∃ detail, httpGet (httpResult (.ok token) t) = .error (.policyNotFound detail)) ∨
      (t.Declared ∧ t.notFound = false ∧ t.body = none ∧
        httpGet (httpResult (.ok token) t) = .error .policyFetchError) ∨
      (t.Declared ∧ t.notFound = false ∧ ∃ json, t.body = some json ∧
        httpGet (httpResult (.ok token) t) =
          match json with
          | .ok payload => .ok payload
          | .error e =>
              if e.isValueError then .error .policyFetchError else .error (.raised (.other e))) := by
  cases t with
  | transportError => exact Or.inr (Or.inr (Or.inl ⟨trivial, rfl, rfl, rfl⟩))
  | otherError e => exact Or.inl ⟨id, rfl, e, rfl⟩
  | response statusCode text json =>
    by_cases hrange : statusCode < 200 ∨ 300 ≤ statusCode
    · have hbody : (Transport.response statusCode text json).body = none := by
        simp only [Transport.body]
        rw [if_neg (by omega)]
      cases text with
      | error e =>
        -- both errors show the text
        refine Or.inl ⟨?_, hbody, e, ?_⟩
        · rintro (h | ⟨s, hs⟩)
          · omega
          · cases hs
        · by_cases h404 : statusCode = 404 <;>
            simp [httpResult, Transport.result, httpGet, withText, h404, hrange]
      | ok s =>
        have hdeclared : (Transport.response statusCode (.ok s) json).Declared := Or.inr ⟨s, rfl⟩
        by_cases h404 : statusCode = 404
        · subst h404
          exact Or.inr (Or.inl ⟨hdeclared, rfl, hbody, s.take 200, rfl⟩)
        · refine Or.inr (Or.inr (Or.inl ⟨hdeclared, ?_, hbody, ?_⟩))
          · simpa [Transport.notFound] using h404
          · simp [httpResult, Transport.result, httpGet, withText, h404, hrange]
    · have h404 : statusCode ≠ 404 := by omega
      refine Or.inr (Or.inr (Or.inr ⟨Or.inl (by omega), ?_, json, ?_, ?_⟩))
      · simpa [Transport.notFound] using h404
      · simp only [Transport.body]
        rw [if_pos (by omega)]
      · cases json <;> simp [httpResult, Transport.result, httpGet, h404, hrange]

/-- A GET with a token, then a parse of its body: undeclared exactly when the
request or its body is not handled, provided that the parse is so exactly on `check`. -/
theorem undeclared_get (t : Transport) (token : Str) {α : Type}
    {parse : Json → Except FetchError α} {check : Json → Prop}
    (hparse : ∀ payload, ¬ Undeclared (parse payload) ↔ check payload) :
    ¬ Undeclared (httpGet (httpResult (.ok token) t) >>= parse) ↔
      t.Declared ∧ BodyHandled t check := by
  unfold BodyHandled
  rcases httpGet_minted t token with ⟨hd, hbody, e, hget⟩ | ⟨hd, -, hbody, detail, hget⟩ |
    ⟨hd, -, hbody, hget⟩ | ⟨hd, -, json, hbody, hget⟩
  · rw [hget]
    simp [Undeclared, bind, Except.bind, hd]
  · rw [hget, hbody]
    simp [Undeclared, bind, Except.bind, hd]
  · rw [hget, hbody]
    simp [Undeclared, bind, Except.bind, hd]
  · rw [hget, hbody, and_iff_right hd]
    cases json with
    | ok payload =>
      rw [show ((.ok payload : Except FetchError Json) >>= parse) = parse payload from rfl, hparse]
      simp
    | error e =>
      cases hv : e.isValueError <;> simp [hv, Undeclared, bind, Except.bind]

theorem undeclared_validate (wire : BodyWire) (payload : Json) :
    ¬ Undeclared (match wire.validate payload with
      | .ok p => (pure p : Except FetchError EdgePolicy)
      | .error e => .error (invalidBody e)) ↔ PolicyHandled wire payload := by
  unfold PolicyHandled
  cases wire.validate payload with
  | ok p => simp [Undeclared, pure, Except.pure]
  | error e => simp [undeclared_invalidBody]

theorem undeclared_parsePlural (wire : BodyWire) (payload : Json) :
    ¬ Undeclared (parsePlural wire payload) ↔ PluralHandled wire payload := by
  unfold parsePlural PluralHandled
  cases payload.field? "policies" with
  | none => simp [Undeclared]
  | some raw =>
    simp only [Option.some.injEq, forall_eq']
    cases validateAll wire.validate raw with
    | error e => simp [undeclared_invalidBody]
    | ok policies =>
      cases validateAll wire.validateClient
          ((payload.field? "authorized_clients").getD (.arr [])) with
      | error e => simp [undeclared_invalidBody]
      | ok clients => simp [Undeclared]

section Fetches

variable {lib : SyncLib} {stateDir : Path} {t : SyncTick}

theorem undeclared_fetch :
    ¬ Undeclared (fetch lib.wire (t.gateway lib stateDir)) ↔ SingularHandled lib stateDir t := by
  unfold SingularHandled
  rw [← minted_ok_iff]
  show ¬ Undeclared (httpGet (httpResult (t.minted lib stateDir t.singularAt) t.singular) >>= _) ↔ _
  cases hm : t.minted lib stateDir t.singularAt with
  | error e => simp [httpGet_mintFailed, Undeclared, bind, Except.bind]
  | ok token =>
    refine Iff.trans (undeclared_get t.singular token (undeclared_validate lib.wire)) ?_
    simp

theorem undeclared_fetchAll :
    ¬ Undeclared (fetchAll lib.wire (t.gateway lib stateDir)) ↔
      FetchAllHandled lib stateDir t := by
  have hcall : (t.gateway lib stateDir).plural =
      httpResult (t.minted lib stateDir t.pluralAt) t.plural := rfl
  unfold FetchAllHandled fetchAll
  rw [hcall, ← minted_ok_iff]
  cases hm : t.minted lib stateDir t.pluralAt with
  | error e => simp [httpGet_mintFailed, Undeclared]
  | ok token =>
    have hplural := undeclared_get t.plural token (undeclared_parsePlural lib.wire)
    rcases httpGet_minted t.plural token with ⟨hd, hbody, x, hget⟩ |
      ⟨hd, hnf, hbody, detail, hget⟩ | ⟨hd, hnf, hbody, hget⟩ | ⟨hd, hnf, json, hbody, hget⟩
    · rw [hget]
      simp [Undeclared, hd]
    · -- the singular path decides
      rw [hget, ← undeclared_fetch]
      cases hf : fetch lib.wire (t.gateway lib stateDir) with
      | ok one => simp [Undeclared, bind, Except.bind, pure, Except.pure, BodyHandled, hbody, hd]
      | error e => simp [Undeclared, bind, Except.bind, BodyHandled, hbody, hnf, hd]
    · rw [hget]
      simp [Undeclared, BodyHandled, hbody, hnf, hd]
    · rw [and_iff_right hd] at hplural
      rw [← hplural]
      cases hp : httpGet (httpResult (.ok token) t.plural) with
      | ok payload =>
        rw [show ((.ok payload : Except FetchError Json) >>= parsePlural lib.wire) =
          parsePlural lib.wire payload from rfl]
        simp [hnf, hd]
      | error e =>
        cases e with
        | policyNotFound detail =>
          -- a response with a body is no 404
          rw [hp] at hget
          cases json with
          | ok payload => simp at hget
          | error x => cases hv : x.isValueError <;> simp [hv] at hget
        | policyFetchError => simp [Undeclared, bind, Except.bind, hnf, hd]
        | raised x => simp [Undeclared, bind, Except.bind, hd]

end Fetches

theorem fetchFailed_raised {c : PolicyCache} {env : DiskEnv} {e : FetchError} :
    (∃ x, (fetchFailed c env e).ended = .raised x) ↔ ∃ x, e = .raised x := by
  cases e <;> simp [fetchFailed]

theorem swapped_not_raised (swap : PolicyCache × DiskM Unit) (env : DiskEnv) (x : OAuthError) :
    (swapped swap env).ended ≠ .raised x := by
  unfold swapped
  split <;> simp

theorem swappedCompiling_not_raised {compileFails : EdgePolicy → Bool} {env : DiskEnv}
    {c : PolicyCache} (policies : List EdgePolicy) (swap : PolicyCache × DiskM Unit)
    (x : OAuthError) : (swappedCompiling compileFails env c policies swap).ended ≠ .raised x := by
  unfold swappedCompiling
  split
  · simp
  · exact swapped_not_raised swap env x

section Loop

variable [PyRuntime] {lib : SyncLib} {cfg : Settings}

/-- A tick raises nothing exactly when its fetch is handled: what comes after the
fetch is caught. -/
theorem tick_handled_iff (t : SyncTick) (c : PolicyCache) :
    (∀ e, (t.run lib cfg c).ended ≠ .raised e) ↔ TickHandled lib cfg t := by
  unfold SyncTick.run syncOnceCompiling TickHandled
  cases cfg.multiPolicyEnabled with
  | true =>
    simp only [if_true]
    rw [← undeclared_fetchAll]
    unfold syncOnceMultiCompiling
    cases hf : fetchAll lib.wire (t.gateway lib cfg.stateDir) with
    | error e =>
      simp only
      rw [← not_exists, fetchFailed_raised]
      simp [Undeclared]
    | ok r => simp [Undeclared, swappedCompiling_not_raised]
  | false =>
    simp only [Bool.false_eq_true, if_false]
    rw [← undeclared_fetch]
    unfold syncOnceSingularCompiling
    cases hf : fetch lib.wire (t.gateway lib cfg.stateDir) with
    | error e =>
      simp only
      rw [← not_exists, fetchFailed_raised]
      simp [Undeclared]
    | ok p => simp [Undeclared, swappedCompiling_not_raised]

/-- The loop did not end by an exception. -/
def SyncLoop.Survives (l : SyncLoop) : Prop := ∀ e, l.ended ≠ some (.raised e)

/-- The input does not let an exception through in this state. -/
def InputHandled (lib : SyncLib) (cfg : Settings) (l : SyncLoop) (i : LoopInput) : Prop :=
  l.ended = none → ∀ t, i = .tick t → TickHandled lib cfg t

theorem loopStep_ended {l : SyncLoop} {x : LoopEnd} (h : l.ended = some x) (i : LoopInput) :
    (loopStep lib cfg l i).1 = l := by
  unfold loopStep
  rw [h]

theorem loopStep_survives_iff {l : SyncLoop} (h : l.Survives) (i : LoopInput) :
    (loopStep lib cfg l i).1.Survives ↔ InputHandled lib cfg l i := by
  cases hl : l.ended with
  | some x =>
    rw [loopStep_ended hl]
    exact iff_of_true h (fun hnone => by simp [hl] at hnone)
  | none =>
    cases i with
    | cancel => simp [loopStep, hl, SyncLoop.Survives, InputHandled]
    | tick t =>
      have hstep : (loopStep lib cfg l (.tick t)).1.ended =
          (t.run lib cfg l.cache).ended.loopEnd := by
        simp [loopStep, hl]
      have hrun : (loopStep lib cfg l (.tick t)).1.Survives ↔
          ∀ e, (t.run lib cfg l.cache).ended ≠ .raised e := by
        unfold SyncLoop.Survives
        rw [hstep]
        cases (t.run lib cfg l.cache).ended <;> simp [SyncEnd.loopEnd]
      rw [hrun, tick_handled_iff]
      simp [InputHandled, hl]

/-- A loop that an exception ended stays so. -/
theorem not_survives_final {l : SyncLoop} (h : ¬ l.Survives) (inputs : List LoopInput) :
    ¬ (final (loopStep lib cfg) l inputs).Survives := by
  obtain ⟨e, he⟩ : ∃ e, l.ended = some (.raised e) := by
    simpa [SyncLoop.Survives] using h
  have hsame : final (loopStep lib cfg) l inputs = l := by
    induction inputs with
    | nil => rfl
    | cons i is ih => rw [final_cons, loopStep_ended he, ih]
  rwa [hsame]

theorem final_survives_iff {l : SyncLoop} (h : l.Survives) (inputs : List LoopInput) :
    (final (loopStep lib cfg) l inputs).Survives ↔
      ∀ v ∈ visits (loopStep lib cfg) l inputs, InputHandled lib cfg v.1 v.2 := by
  induction inputs generalizing l with
  | nil => simpa using h
  | cons i is ih =>
    rw [final_cons, visits_cons, List.forall_mem_cons]
    by_cases hi : InputHandled lib cfg l i
    · have hstep := (loopStep_survives_iff h i).mpr hi
      rw [ih hstep]
      simp [hi]
    · have hstep : ¬ (loopStep lib cfg l i).1.Survives :=
        fun hs => hi ((loopStep_survives_iff h i).mp hs)
      exact iff_of_false (not_survives_final hstep is) (fun hall => hi hall.1)

/-- **The refresh loop.** A sync raises nothing, so that it returns a boolean
unless the process dies, exactly when its failures are handled; and a loop is
never ended by an exception exactly when those of every tick that it runs are. -/
theorem sync_loop_survives_iff (lib : SyncLib) (cfg : Settings) :
    (∀ (t : SyncTick) (c : PolicyCache),
      (∀ e, (t.run lib cfg c).ended ≠ .raised e) ↔ TickHandled lib cfg t) ∧
      ∀ (c : PolicyCache) (inputs : List LoopInput),
        (final (loopStep lib cfg) { cache := c } inputs).Survives ↔
          ∀ v ∈ visits (loopStep lib cfg) { cache := c } inputs, InputHandled lib cfg v.1 v.2 :=
  ⟨tick_handled_iff, fun c inputs => final_survives_iff (by simp [SyncLoop.Survives]) inputs⟩

end Loop

/-! An edge whose key is not on disk, and a gateway that would answer. -/

def demoSyncLib : SyncLib where
  jwt :=
    { encode := fun _ _ => .ok "token"
      decode := fun _ _ _ => .error (.other .valueError)
      publicPem := fun _ => .error .valueError }
  wire := demoBodyWire
  decodeError := fun _ => []

def demoSyncSettings : Settings where
  tenantId := "acme"
  stateDir := stateDir
  policyStaleThresholdSeconds := 7200
  oauthTokenTtlSeconds := 600

def unenrolledTick : SyncTick where
  singularAt := 1000
  pluralAt := 1000
  now := 1000
  env := { disk := .empty, now := 1000, faults := [] }
  singular := .response 200 (.ok []) (.ok (demoJsonOf "pol-b" "b"))
  plural := .transportError
  compileFails := fun _ => false

/-- `EnrollmentMissing` goes through `fetch` and `sync_once`, and ends the loop. -/
theorem unenrolled_sync_raises :
    (∃ e, (@SyncTick.run asciiRuntime unenrolledTick demoSyncLib demoSyncSettings {}).ended =
        .raised e) ∧
      ¬ (final (@loopStep asciiRuntime demoSyncLib demoSyncSettings) { cache := {} }
        [.tick unenrolledTick]).Survives := by
  let missing : OAuthError := .enrollmentMissing
    "missing enrollment private key at /data/key.pem; enrollment (TRUS-987) has not completed"
  have hrun : (@SyncTick.run asciiRuntime unenrolledTick demoSyncLib demoSyncSettings {}).ended =
      .raised missing := by decide +kernel
  refine ⟨⟨missing, hrun⟩, fun h => ?_⟩
  have hended : (final (@loopStep asciiRuntime demoSyncLib demoSyncSettings) { cache := {} }
      [.tick unenrolledTick]).ended = some (.raised missing) := by decide +kernel
  exact h missing hended

end TrustModelEdge.Policy
