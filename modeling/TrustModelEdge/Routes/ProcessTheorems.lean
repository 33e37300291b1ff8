/-
TrustModelEdge.Routes.ProcessTheorems — authorisation end to end.

`ProcessInv` is what links the state of a process to the steps behind it:
its key cache is the first pair it read, every token request that got a key
got that pair, and time went on. With the signatures of the steps as the
only ones that verify (`Rs256`), a decide call passes exactly with a token
minted for `govern:enforce` (`decide_authorised_iff`).
-/
import TrustModelEdge.Routes.DecideTheorems
import TrustModelEdge.Routes.OAuthTheorems
import TrustModelEdge.Routes.Process

namespace TrustModelEdge.Routes

open Py Policy OAuth Lib

/-! ## The claims of the two kinds of token -/

/-- The claims that a decide call gets from the token of a grant. -/
def World.claims (w : World) (client : AuthorizedClient) (granted : List Str) :
    AgentTokenClaims where
  sub := .str client.clientId
  agentId := optStr client.agentId
  scopes := granted
  exp := w.expiry
  iat := truncate w.now

section Claims

variable [PyRuntime]

theorem readClaims_tokenPayload (w : World) (client : AuthorizedClient) {granted : List Str}
    (h : ∀ s ∈ granted, IsWord s) :
    readClaims (w.tokenPayload client granted) = .ok (w.claims client granted) := by
  have hscope : (w.tokenPayload client granted).field? "scope" =
      some (.str (join (" " : Str) granted)) := rfl
  have hsub : (w.tokenPayload client granted).field? "sub" = some (.str client.clientId) := rfl
  have hagent : (w.tokenPayload client granted).field? "agent_id" =
      some (optStr client.agentId) := rfl
  have hexp : (w.tokenPayload client granted).field? "exp" =
      some (.int w.expiry) := rfl
  have hiat : (w.tokenPayload client granted).field? "iat" = some (.int (truncate w.now)) := rfl
  simp only [readClaims, claim, hscope, hsub, hagent, hexp, hiat, Option.getD_some,
    scopesOf_join h, jsonInt, bind, Except.bind, pure, Except.pure]
  rfl

/-- A cert-JWT carries no scope. -/
theorem scopes_certPayload {id : Json} {iat exp : Int} {claims : AgentTokenClaims}
    (h : readClaims (certPayload id iat exp) = .ok claims) : claims.scopes = [] := by
  have hscope : (certPayload id iat exp).field? "scope" = none := rfl
  have hsub : (certPayload id iat exp).field? "sub" = some id := rfl
  have hexp : (certPayload id iat exp).field? "exp" = some (.int exp) := rfl
  have hiat : (certPayload id iat exp).field? "iat" = some (.int iat) := rfl
  have hempty : scopesOf (.str []) = .ok [] := rfl
  simp only [readClaims, claim, hscope, hsub, hexp, hiat, Option.getD_none, hempty, jsonInt,
    bind, Except.bind, pure, Except.pure, Except.ok.injEq] at h
  rw [← h]

end Claims

/-! ## Minting -/

section Minting

theorem signed_some {lib : Libraries} {key : Str} {payload : Json} {s : Signature Str Str Json}
    (h : signed lib key payload = some s) :
    s.key = key ∧ s.payload = payload ∧ lib.jwt.encode payload key = .ok s.token := by
  unfold signed at h
  cases he : lib.jwt.encode payload key with
  | error e => simp [he, Except.toOption] at h
  | ok token =>
    simp only [he, Except.toOption, Option.map_some, Option.some.injEq] at h
    subst h
    exact ⟨rfl, rfl, rfl⟩

variable [PyRuntime] (lib : Libraries)

/-- The step `v` is a call of `issue_token` that authenticates `client` against
the cache of that moment and returns `token`, which `key` signs and which
carries the scopes `granted`. -/
structure Minted (v : World × Event) (req : TokenRequest) (client : AuthorizedClient)
    (granted : List Str) (key token : Str) : Prop where
  request : v.2 = .tokenRequest req
  found : findAuthorizedClient req.clientId v.1.cache.authorizedClients = some client
  verified : verifyDjangoPbkdf2 lib.hash req.clientSecret client.clientSecretHash = .ok true
  narrowed : granted = narrowScopes (requestedScopes req) client.allowedScopes
  keyed : ∃ pub, (keyState lib.jwt v.1.settings v.1.disk v.1.app).2 = .ok (key, pub)
  issued : ∃ resp, (v.1.issue lib req).2 = .ok resp ∧ resp.accessToken = token

variable {lib}

/-- A token request that is answered with a token: its grant, its key, and the
signature on the payload. -/
theorem issue_ok_iff {w : World} {req : TokenRequest} {token : Str} :
    (∃ resp, (w.issue lib req).2 = .ok resp ∧ resp.accessToken = token) ↔
      ∃ record granted keys, grant lib.hash w.cache req = .ok (record, granted) ∧
        (keyState lib.jwt w.settings w.disk w.app).2 = .ok keys ∧
        lib.jwt.encode (w.tokenPayload record granted) keys.1 = .ok token := by
  unfold World.issue issueToken
  cases hg : grant lib.hash w.cache req with
  | error f => simp
  | ok g =>
    obtain ⟨record, granted⟩ := g
    cases hk : (keyState lib.jwt w.settings w.disk w.app).2 with
    | error e => cases e <;> simp [signingKey, bind, Except.bind]
    | ok keys =>
      have hpayload : agentPayload (("edge:" : Str) ++ w.settings.tenantId) record.clientId
          record.agentId granted (truncate w.now)
          (truncate w.now + w.settings.oauthTokenTtlSeconds) =
            w.tokenPayload record granted := rfl
      cases he : lib.jwt.encode (w.tokenPayload record granted) keys.1 with
      | error e =>
        simp [signingKey, mintAgentToken, hpayload, he, uncaught, bind, Except.bind]
      | ok token' =>
        simp [signingKey, mintAgentToken, hpayload, he, uncaught, bind, Except.bind, pure,
          Except.pure]

/-- A mint is in the log of signatures. -/
theorem signature_of_minted {v : World × Event} {req : TokenRequest}
    {client : AuthorizedClient} {granted : List Str} {key token : Str}
    (h : Minted lib v req client granted key token) :
    signature lib v =
      some { key := key, token := token, payload := v.1.tokenPayload client granted } := by
  obtain ⟨record, granted', keys, hg, hk, he⟩ := issue_ok_iff.mp h.issued
  obtain ⟨hfound, -, hnarrow⟩ := grant_ok hg
  obtain rfl : client = record := Option.some.inj (h.found.symm.trans hfound)
  obtain rfl : granted = granted' := h.narrowed.trans hnarrow.symm
  obtain ⟨pub, hkeyed⟩ := h.keyed
  obtain rfl : keys = (key, pub) := Except.ok.inj (hk.symm.trans hkeyed)
  simp only [signature, h.request, hg, hk, signed, he]
  rfl

/-- A signature in the log is a mint's or a cert-JWT's. -/
theorem signature_cases {v : World × Event} {s : Signature Str Str Json}
    (h : signature lib v = some s) :
    (∃ req client granted, Minted lib v req client granted s.key s.token ∧
        s.payload = v.1.tokenPayload client granted) ∨
      ∃ id iat exp, s.payload = certPayload id iat exp := by
  obtain ⟨w, ev⟩ := v
  cases ev with
  | tokenRequest req =>
    simp only [signature] at h
    split at h
    · rename_i record granted keys hg hk
      obtain ⟨hkey, hpayload, he⟩ := signed_some h
      obtain ⟨hfound, hverified, hnarrow⟩ := grant_ok hg
      refine Or.inl ⟨req, record, granted, ⟨rfl, hfound, hverified, hnarrow, ?_, ?_⟩, hpayload⟩
      · exact ⟨keys.2, by rw [hkey]; exact hk⟩
      · exact issue_ok_iff.mpr ⟨record, granted, keys, hg, hk, he⟩
    · simp at h
  | certJwt edgeId ttlSeconds =>
    simp only [signature] at h
    split at h
    · obtain ⟨-, hpayload, -⟩ := signed_some h
      exact Or.inr ⟨_, _, _, hpayload⟩
    · simp at h
  | edgeJwt edgeId keyPem ttlS =>
    obtain ⟨-, hpayload, -⟩ := signed_some h
    exact Or.inr ⟨_, _, _, hpayload⟩
  | decide authorization body rd stored => simp [signature] at h
  | swap cache disk => simp [signature] at h
  | tick seconds => simp [signature] at h
  | rotate creds faults => simp [signature] at h

/-- The token of a cert-JWT step is in the log, with its payload. -/
theorem signature_of_jwt {v : World × Event} {token : Str}
    (h : (processStep lib v.1 v.2).2 = .jwt (.ok token)) :
    ∃ s id iat exp, signature lib v = some s ∧ s.token = token ∧
      s.payload = certPayload id iat exp := by
  obtain ⟨w, ev⟩ := v
  cases ev with
  | certJwt edgeId ttlSeconds =>
    simp only [processStep, Output.jwt.injEq, mintCertJwt] at h
    obtain ⟨⟨keyPem, id⟩, hc, h⟩ := bind_eq_ok.mp h
    cases he : lib.jwt.encode (certPayload id (truncate w.now) (truncate w.now + ttlSeconds))
        keyPem with
    | error e => simp [he, raising] at h
    | ok token' =>
      obtain rfl : token' = token := by simpa [he, raising] using h
      exact ⟨_, _, _, _, by simp only [signature, hc, signed, he]; rfl, rfl, rfl⟩
  | edgeJwt edgeId keyPem ttlS =>
    simp only [processStep, Output.jwt.injEq, signEdgeJwt] at h
    cases he : lib.jwt.encode
        (certPayload (.str edgeId) (truncate w.now) (truncate w.now + ttlS)) keyPem with
    | error e => simp [he, raising] at h
    | ok token' =>
      obtain rfl : token' = token := by simpa [he, raising] using h
      exact ⟨_, _, _, _, by simp only [signature, signed, he]; rfl, rfl, rfl⟩
  | tokenRequest req => simp [processStep] at h
  | decide authorization body rd stored => simp [processStep] at h
  | swap cache disk => simp [processStep] at h
  | tick seconds => simp [processStep] at h
  | rotate creds faults => simp [processStep] at h

end Minting

/-! ## The key pair of a process -/

section Keys

variable [PyRuntime] {lib : Libraries}

/-- A step changes the key cache by the pair it reads. -/
theorem app_step (w : World) (ev : Event) :
    (processStep lib w ev).1.app =
      match keysRead lib (w, ev) with
      | some keys => holding (some keys)
      | none => w.app := by
  cases ev with
  | tokenRequest req =>
    simp only [processStep, World.issue, issueToken, keysRead]
    cases hg : grant lib.hash w.cache req with
    | error f => simp [Except.isOk, Except.toBool]
    | ok g =>
      cases hk : w.app.keyPair? with
      | some keys => simp [Except.isOk, Except.toBool, keyState, hk]
      | none =>
        cases hr : readKeys lib.jwt w.settings w.disk <;>
          simp [Except.isOk, Except.toBool, keyState, hk, hr, AppState.keep, Except.toOption,
            holding]
  | decide authorization body rd stored =>
    simp only [processStep, World.decide, decide_app, requireAgentToken, keysRead]
    cases hb : bearerToken authorization with
    | error f => simp [Except.isOk, Except.toBool]
    | ok token =>
      cases hk : w.app.oauthPublicKeyPem with
      | some pub => simp [Except.isOk, Except.toBool, publicKey, hk]
      | none =>
        cases hr : readKeys lib.jwt w.settings w.disk <;>
          simp [Except.isOk, Except.toBool, publicKey, hk, hr, AppState.keep, Except.toOption,
            holding]
  | swap cache disk => rfl
  | tick seconds => rfl
  | rotate creds faults => rfl
  | certJwt edgeId ttlSeconds => rfl
  | edgeJwt edgeId keyPem ttlS => rfl

theorem keysRead_keyPair (hpem : PemSound lib.jwt) {v : World × Event} {keys : Str × Bytes}
    (h : keysRead lib v = some keys) : KeyPair lib.jwt keys := by
  have hread : (readKeys lib.jwt v.1.settings v.1.disk).toOption = some keys := by
    unfold keysRead at h
    simp only at h
    split at h
    · split at h
      · exact h
      · simp at h
    · split at h
      · exact h
      · simp at h
    · simp at h
  cases hr : readKeys lib.jwt v.1.settings v.1.disk with
  | error e => simp [hr, Except.toOption] at hread
  | ok keys' =>
    obtain rfl : keys' = keys := by simpa [hr, Except.toOption] using hread
    exact readKeys_ok hpem hr

/-- A process that holds a pair reads no other. -/
theorem keysRead_of_holding {v : World × Event} {keys : Str × Bytes}
    (hk : KeyPair lib.jwt keys) (h : v.1.app = holding (some keys)) : keysRead lib v = none := by
  have hpair := keyPair?_holding hk
  unfold keysRead
  rw [h, hpair]
  simp only
  split <;> simp [holding]

theorem firstKeys_concat (vs : List (World × Event)) (v : World × Event) :
    firstKeys lib (vs ++ [v]) = (firstKeys lib vs).or (keysRead lib v) := by
  unfold firstKeys
  rw [List.filterMap_append]
  cases hvs : vs.filterMap (keysRead lib) with
  | nil => cases hv : keysRead lib v <;> simp [hv]
  | cons keys rest => simp

/-- What links the state of a process to the steps behind it. -/
structure ProcessInv (lib : Libraries) (cfg : Settings) (vs : List (World × Event))
    (w : World) : Prop where
  settings : w.settings = cfg
  app : w.app = holding (firstKeys lib vs)
  paired : ∀ keys, firstKeys lib vs = some keys → KeyPair lib.jwt keys
  times : ∀ v ∈ vs, v.1.now.val ≤ w.now.val
  minted : ∀ v ∈ vs, ∀ req client granted key token,
    Minted lib v req client granted key token → ∃ pub, firstKeys lib vs = some (key, pub)

theorem settings_step (w : World) (ev : Event) :
    (processStep lib w ev).1.settings = w.settings := by
  cases ev <;> rfl

variable (lib) in
theorem now_step (w : World) (ev : Event) :
    w.now.val ≤ (processStep lib w ev).1.now.val := by
  cases ev with
  | tick seconds =>
    exact le_add_of_nonneg_right seconds.nonneg
  | _ => exact le_rfl

/-- The key of a mint is the first key of the process, that of this very step
if none came before. -/
theorem firstKeys_of_minted {cfg : Settings} {vs : List (World × Event)} {w : World}
    (hinv : ProcessInv lib cfg vs w) {ev : Event} {req : TokenRequest}
    {client : AuthorizedClient} {granted : List Str} {key token : Str}
    (h : Minted lib (w, ev) req client granted key token) :
    ∃ pub, firstKeys lib (vs ++ [(w, ev)]) = some (key, pub) := by
  obtain ⟨pub, hkeyed⟩ := h.keyed
  refine ⟨pub, ?_⟩
  rw [firstKeys_concat]
  have happ := hinv.app
  cases hf : firstKeys lib vs with
  | some keys =>
    rw [hf] at happ
    have hpair := keyPair?_holding (hinv.paired keys hf)
    rw [← happ] at hpair
    simp only [keyState, hpair, Except.ok.injEq] at hkeyed
    rw [hkeyed]
    rfl
  | none =>
    rw [hf] at happ
    have hnone : w.app.keyPair? = none := by rw [happ]; rfl
    simp only [keyState, hnone] at hkeyed
    obtain ⟨record, granted', keys, hg, -, -⟩ := issue_ok_iff.mp h.issued
    have hev : ev = .tokenRequest req := h.request
    simp only at hg
    simp [keysRead, hev, hg, hnone, hkeyed, Except.isOk, Except.toBool, Except.toOption]

/-- **One step** keeps the invariant. -/
theorem processInv_step (hpem : PemSound lib.jwt) {cfg : Settings}
    {vs : List (World × Event)} {w : World} (h : ProcessInv lib cfg vs w) (ev : Event) :
    ProcessInv lib cfg (vs ++ [(w, ev)]) (processStep lib w ev).1 where
  settings := (settings_step w ev).trans h.settings
  app := by
    rw [app_step, firstKeys_concat]
    have happ := h.app
    cases hf : firstKeys lib vs with
    | some keys =>
      rw [hf] at happ
      rw [keysRead_of_holding (h.paired keys hf) happ]
      simpa using happ
    | none =>
      rw [hf] at happ
      cases hk : keysRead lib (w, ev) with
      | none => simpa using happ
      | some keys => rfl
  paired := by
    intro keys hkeys
    rw [firstKeys_concat] at hkeys
    cases hf : firstKeys lib vs with
    | some keys' =>
      obtain rfl : keys' = keys := by simpa [hf] using hkeys
      exact h.paired keys' hf
    | none => exact keysRead_keyPair hpem (by simpa [hf] using hkeys)
  times := by
    intro v hv
    have hnow := now_step lib w ev
    rcases List.mem_append.mp hv with hv | hv
    · exact (h.times v hv).trans hnow
    · rw [List.mem_singleton.mp hv]
      exact hnow
  minted := by
    intro v hv req client granted key token hm
    rcases List.mem_append.mp hv with hv | hv
    · obtain ⟨pub, hpub⟩ := h.minted v hv req client granted key token hm
      exact ⟨pub, by rw [firstKeys_concat, hpub]; rfl⟩
    · rw [List.mem_singleton.mp hv] at hm
      exact firstKeys_of_minted h hm

/-- Every run of a process keeps the invariant. -/
theorem processInv_run (hpem : PemSound lib.jwt) (cfg : Settings) (disk : Disk)
    (cache : PolicyCache) (now : Seconds) (evs : List Event) :
    ProcessInv lib cfg (visits (processStep lib) (.start cfg disk cache now) evs)
      (final (processStep lib) (.start cfg disk cache now) evs) := by
  have hstart : ProcessInv lib cfg [] (.start cfg disk cache now) :=
    ⟨rfl, rfl, by simp [firstKeys], by simp, by simp⟩
  have hstep : ∀ vs w ev, ProcessInv lib cfg vs w →
      ProcessInv lib cfg (vs ++ [(w, ev)]) (processStep lib w ev).1 :=
    fun _ _ ev h => processInv_step hpem h ev
  exact visits_inv (processStep lib) hstep hstart

theorem now_run (w : World) (evs : List Event) :
    w.now.val ≤ (final (processStep lib) w evs).now.val := by
  induction evs generalizing w with
  | nil => exact le_rfl
  | cons ev evs ih => exact (now_step lib w ev).trans (ih _)

/-- The key a decide call verifies with is that of the first pair, its own read
included. -/
theorem publicKey_iff {cfg : Settings} {vs : List (World × Event)} {w : World}
    (hinv : ProcessInv lib cfg vs w) {authorization token : Str}
    (hb : bearerToken authorization = .ok token) (body : DecideRequest) (rd : Readings)
    (stored : Except Exc Bool) (pub : Bytes) :
    (publicKey lib.jwt w.settings w.disk w.app).2 = .ok pub ↔
      ∃ keys, firstKeys lib (vs ++ [(w, .decide authorization body rd stored)]) = some keys ∧
        keys.2 = pub := by
  have happ := hinv.app
  rw [firstKeys_concat]
  cases hf : firstKeys lib vs with
  | some keys =>
    rw [hf] at happ
    simp [publicKey, happ, holding]
  | none =>
    rw [hf] at happ
    have hnone : w.app.oauthPublicKeyPem = none := by rw [happ]; rfl
    cases hr : readKeys lib.jwt w.settings w.disk <;>
      simp [publicKey, keysRead, hnone, hb, hr, Except.isOk, Except.toBool, Except.toOption,
        Except.map]

end Keys

/-! ## Authorisation -/

section Authorisation

/-- `exp`, where it is a number of seconds, lies ahead. -/
def Unexpired (now : Rat) (payload : Json) : Prop :=
  ∀ exp : Int, payload.field? "exp" = some (.int exp) → now < exp

/-- A payload with a text for `sub`, an `exp` ahead and an `iat` behind: nothing
but the signature decides whether it is accepted. -/
def Acceptable (now : Rat) (payload : Json) : Prop :=
  ∃ sub exp iat, payload.field? "sub" = some (.str sub) ∧
    payload.field? "exp" = some (.int exp) ∧ now < exp ∧
    payload.field? "iat" = some (.int iat) ∧ (iat : Rat) ≤ now

/-- RS256 is unforgeable, for the signatures that the given steps make. -/
def Unforged [PyRuntime] (lib : Libraries) (steps : List (World × Event)) : Prop :=
  ∀ now : Rat, Unforgeable (fun pub token => (lib.jwt.decode now token pub).toOption)
    (fun key => (derivePublicKeyPem lib.jwt key).toOption) (Unexpired now)
    (steps.filterMap (signature lib))

/-- RS256 is unforgeable and verifies exactly, for the signatures that the given
steps make. -/
structure Rs256 [PyRuntime] (lib : Libraries) (steps : List (World × Event)) : Prop where
  pem : PemSound lib.jwt
  verifies : ∀ now : Rat,
    VerifiesExactly (fun pub token => (lib.jwt.decode now token pub).toOption)
      (fun key => (derivePublicKeyPem lib.jwt key).toOption) (Unexpired now) (Acceptable now)
      (steps.filterMap (signature lib))

theorem exp_tokenPayload (w : World) (client : AuthorizedClient) (granted : List Str) :
    (w.tokenPayload client granted).field? "exp" = some (.int w.expiry) := rfl

theorem acceptable_tokenPayload_iff {w : World} {client : AuthorizedClient}
    {granted : List Str} {now : Rat} (hiat : (w.now : Rat) ≤ now) :
    Acceptable now (w.tokenPayload client granted) ↔
      now < w.expiry := by
  constructor
  · intro h
    obtain ⟨sub, exp, iat, -, hexp, hnow, -, -⟩ := h
    rw [exp_tokenPayload] at hexp
    obtain rfl := Json.int.inj (Option.some.inj hexp)
    exact hnow
  · intro h
    exact ⟨client.clientId, _, truncate w.now, rfl, exp_tokenPayload w client granted, h, rfl,
      (truncate_le w.now.nonneg).trans hiat⟩

theorem unexpired_tokenPayload_iff {w : World} {client : AuthorizedClient}
    {granted : List Str} {now : Rat} :
    Unexpired now (w.tokenPayload client granted) ↔
      now < w.expiry := by
  constructor
  · intro h
    exact h _ (exp_tokenPayload w client granted)
  · intro h exp hexp
    rw [exp_tokenPayload] at hexp
    obtain rfl := Json.int.inj (Option.some.inj hexp)
    exact h

variable [PyRuntime] {lib : Libraries}

/-- A cert-JWT verifies, if at all, to claims without a scope. -/
theorem scopes_of_cert {steps : List (World × Event)} (hsig : Rs256 lib steps)
    {v : World × Event} (hv : v ∈ steps) {token : Str}
    (hjwt : (processStep lib v.1 v.2).2 = .jwt (.ok token)) {now : Rat} {pub : Bytes}
    {claims : AgentTokenClaims} (h : verifyAgentToken lib.jwt now token pub = .ok claims) :
    claims.scopes = [] := by
  obtain ⟨s, id, iat, exp, hs, rfl, hpayload⟩ := signature_of_jwt hjwt
  have hmem : s ∈ steps.filterMap (signature lib) := List.mem_filterMap.mpr ⟨v, hv, hs⟩
  obtain ⟨payload, hdecode, hread⟩ := verifyAgentToken_ok_iff.mp h
  have heq := (hsig.verifies now).payload_eq hmem (toOption_eq_some.mpr hdecode)
  rw [heq, hpayload] at hread
  exact scopes_certPayload hread

/-- A token whose claims hold a scope was minted, and its claims are those of
the mint. -/
theorem minted_of_verified {steps : List (World × Event)} (hsig : Rs256 lib steps)
    {now : Rat} {token : Str} {pub : Bytes} {claims : AgentTokenClaims} {scope : Str}
    (h : verifyAgentToken lib.jwt now token pub = .ok claims) (hscope : scope ∈ claims.scopes) :
    ∃ v req client granted key, v ∈ steps ∧ Minted lib v req client granted key token ∧
      derivePublicKeyPem lib.jwt key = .ok pub ∧
      now < v.1.expiry ∧
      claims = v.1.claims client granted := by
  obtain ⟨payload, hdecode, hread⟩ := verifyAgentToken_ok_iff.mp h
  obtain ⟨s, hs, hpub, rfl, rfl⟩ :=
    (hsig.verifies now).signed pub token payload (toOption_eq_some.mpr hdecode)
  have hvalid := ((hsig.verifies now).sound pub s.token _ (toOption_eq_some.mpr hdecode)).1
  obtain ⟨v, hv, hsv⟩ := List.mem_filterMap.mp hs
  rcases signature_cases hsv with ⟨req, client, granted, hm, hpayload⟩ | ⟨id, iat, exp, hpayload⟩
  · rw [hpayload] at hvalid hread
    have hwords : ∀ w ∈ granted, IsWord w := fun w hw =>
      isWord_of_granted (hm.narrowed ▸ hw)
    rw [readClaims_tokenPayload v.1 client hwords] at hread
    exact ⟨v, req, client, granted, s.key, hv, hm, toOption_eq_some.mp hpub,
      unexpired_tokenPayload_iff.mp hvalid, (Except.ok.inj hread).symm⟩
  · rw [hpayload] at hread
    rw [scopes_certPayload hread] at hscope
    simp at hscope

/-- A minted token verifies under the public key of its key while it lasts. -/
theorem verified_of_minted {steps : List (World × Event)} (hsig : Rs256 lib steps)
    {v : World × Event} (hv : v ∈ steps) {req : TokenRequest} {client : AuthorizedClient}
    {granted : List Str} {key token : Str} (hm : Minted lib v req client granted key token)
    {pub : Bytes} (hpub : derivePublicKeyPem lib.jwt key = .ok pub) {now : Rat}
    (hafter : (v.1.now : Rat) ≤ now)
    (hexp : now < v.1.expiry) :
    verifyAgentToken lib.jwt now token pub = .ok (v.1.claims client granted) := by
  have hmem : (⟨key, token, v.1.tokenPayload client granted⟩ : Signature Str Str Json) ∈
      steps.filterMap (signature lib) :=
    List.mem_filterMap.mpr ⟨v, hv, signature_of_minted hm⟩
  have hdecode := (hsig.verifies now).exact_ _ hmem pub (toOption_eq_some.mpr hpub)
    ((acceptable_tokenPayload_iff hafter).mpr hexp)
  have hwords : ∀ w ∈ granted, IsWord w := fun w hw => isWord_of_granted (hm.narrowed ▸ hw)
  exact verifyAgentToken_ok_iff.mpr
    ⟨_, toOption_eq_some.mp hdecode, readClaims_tokenPayload v.1 client hwords⟩

section Call

variable {cfg : Settings} {past vs : List (World × Event)} {w : World} {authorization : Str}

/-- A call that passes carries a token minted with the key in use. -/
theorem minted_of_required (hsig : Rs256 lib (past ++ vs)) (hinv : ProcessInv lib cfg vs w)
    (body : DecideRequest) (rd : Readings) (stored : Except Exc Bool) {claims : AgentTokenClaims}
    (h : (w.require lib authorization).2 = .ok claims) :
    ∃ token keys v req client granted key, bearerToken authorization = .ok token ∧
      firstKeys lib (vs ++ [(w, .decide authorization body rd stored)]) = some keys ∧
      v ∈ past ++ vs ∧ Minted lib v req client granted key token ∧
      derivePublicKeyPem lib.jwt key = .ok keys.2 ∧
      governEnforce ∈ requestedScopes req ∧ governEnforce ∈ client.allowedScopes ∧
      (w.now : Rat) < v.1.expiry ∧ claims = v.1.claims client granted := by
  obtain ⟨token, pub, hb, hpk, hverified, hscope⟩ := requireAgentToken_ok_iff.mp h
  obtain ⟨keys, hfirst, rfl⟩ := (publicKey_iff hinv hb body rd stored pub).mp hpk
  obtain ⟨v, req, client, granted, key, hv, hm, hpub, hexp, hclaims⟩ :=
    minted_of_verified hsig hverified hscope
  have hgranted : governEnforce ∈ granted := by rw [hclaims] at hscope; exact hscope
  rw [hm.narrowed] at hgranted
  obtain ⟨hreq, hallowed⟩ := mem_narrowScopes.mp hgranted
  exact ⟨token, keys, v, req, client, granted, key, hb, hfirst, hv, hm, hpub, hreq, hallowed,
    hexp, hclaims⟩

/-- A call with a token that a matching key minted passes while the token lasts. -/
theorem required_of_minted (hsig : Rs256 lib (past ++ vs)) (hinv : ProcessInv lib cfg vs w)
    {v : World × Event} (hv : v ∈ past ++ vs) (hafter : (v.1.now : Rat) ≤ w.now)
    {req : TokenRequest} {client : AuthorizedClient} {granted : List Str} {key token : Str}
    (hm : Minted lib v req client granted key token) (hreq : governEnforce ∈ requestedScopes req)
    (hallowed : governEnforce ∈ client.allowedScopes) (hexp : (w.now : Rat) < v.1.expiry)
    (hb : bearerToken authorization = .ok token) {body : DecideRequest} {rd : Readings}
    {stored : Except Exc Bool} {keys : Str × Bytes}
    (hfirst : firstKeys lib (vs ++ [(w, .decide authorization body rd stored)]) = some keys)
    (hpub : derivePublicKeyPem lib.jwt key = .ok keys.2) :
    (w.require lib authorization).2 = .ok (v.1.claims client granted) := by
  have hverified := verified_of_minted hsig hv hm hpub hafter hexp
  have hscope : governEnforce ∈ granted := by
    rw [hm.narrowed]
    exact mem_narrowScopes.mpr ⟨hreq, hallowed⟩
  exact requireAgentToken_ok_iff.mpr ⟨token, keys.2, hb,
    (publicKey_iff hinv hb body rd stored keys.2).mpr ⟨keys, hfirst, rfl⟩, hverified, hscope⟩

/-- A call with a cert-JWT does not pass. -/
theorem not_required_of_cert (hsig : Rs256 lib (past ++ vs)) {v : World × Event}
    (hv : v ∈ past ++ vs) {token : Str} (hjwt : (processStep lib v.1 v.2).2 = .jwt (.ok token))
    (hb : bearerToken authorization = .ok token) (claims : AgentTokenClaims) :
    (w.require lib authorization).2 ≠ .ok claims := by
  intro h
  obtain ⟨token', pub, hb', -, hverified, hscope⟩ := requireAgentToken_ok_iff.mp h
  obtain rfl := Except.ok.inj (hb.symm.trans hb')
  rw [scopes_of_cert hsig hv hjwt hverified] at hscope
  simp at hscope

end Call

/-- **Authorisation end to end**, over every run of a process. `past` are steps
of earlier processes of this edge, whose signatures count as well.

A decide call passes exactly with an unexpired token that a token request
was answered with, signed with the key pair this process loaded first, for a
client that was authenticated then and for which `govern:enforce` was both
requested and allowed; its claims are those of that client. A cert-JWT never
passes, and a token of this process passes until it expires, whatever was
done to the key file. -/
theorem decide_authorised_iff (cfg : Settings) (disk : Disk) (cache : PolicyCache)
    (now : Seconds) (past : List (World × Event)) (evs : List Event) (authorization : Str)
    (body : DecideRequest) (rd : Readings) (stored : Except Exc Bool)
    (hpast : ∀ v ∈ past, v.1.now.val ≤ now.val)
    (hsig : Rs256 lib (past ++ visits (processStep lib) (.start cfg disk cache now) evs)) :
    let run := visits (processStep lib) (.start cfg disk cache now)
    let w := final (processStep lib) (.start cfg disk cache now) evs
    (∀ claims, (w.require lib authorization).2 = .ok claims ↔
      ∃ token keys v req client granted key, bearerToken authorization = .ok token ∧
        firstKeys lib (run (evs ++ [.decide authorization body rd stored])) = some keys ∧
        v ∈ past ++ run evs ∧ Minted lib v req client granted key token ∧
        derivePublicKeyPem lib.jwt key = .ok keys.2 ∧
        governEnforce ∈ requestedScopes req ∧ governEnforce ∈ client.allowedScopes ∧
        (w.now : Rat) < v.1.expiry ∧
        claims = v.1.claims client granted) ∧
    (∀ v ∈ past ++ run evs, ∀ token, (processStep lib v.1 v.2).2 = .jwt (.ok token) →
      bearerToken authorization = .ok token →
      ∀ claims, (w.require lib authorization).2 ≠ .ok claims) ∧
    (∀ v ∈ run evs, ∀ req client granted key token,
      Minted lib v req client granted key token →
      governEnforce ∈ requestedScopes req → governEnforce ∈ client.allowedScopes →
      (w.now : Rat) < v.1.expiry →
      bearerToken authorization = .ok token →
      (w.require lib authorization).2 = .ok (v.1.claims client granted)) := by
  intro run w
  have hinv : ProcessInv lib cfg (run evs) w := processInv_run hsig.pem cfg disk cache now evs
  have hsteps : run (evs ++ [.decide authorization body rd stored]) =
      run evs ++ [(w, .decide authorization body rd stored)] := visits_concat _ _ _ _
  have htimes : ∀ v ∈ past ++ run evs, v.1.now.val ≤ w.now.val := by
    intro v hv
    rcases List.mem_append.mp hv with hv | hv
    · exact (hpast v hv).trans (now_run _ evs)
    · exact hinv.times v hv
  refine ⟨fun claims => ⟨?_, ?_⟩, ?_, ?_⟩
  · intro h
    rw [hsteps]
    exact minted_of_required hsig hinv body rd stored h
  · intro h
    obtain ⟨token, keys, v, req, client, granted, key, hb, hfirst, hv, hm, hpub, hreq, hallowed,
      hexp, rfl⟩ := h
    rw [hsteps] at hfirst
    exact required_of_minted hsig hinv hv (htimes v hv) hm hreq hallowed hexp hb hfirst hpub
  · intro v hv token hjwt hb claims
    exact not_required_of_cert hsig hv hjwt hb claims
  · intro v hv req client granted key token hm hreq hallowed hexp hb
    have hv' : v ∈ past ++ run evs := List.mem_append_right _ hv
    obtain ⟨pub, hfirst⟩ := hinv.minted v hv req client granted key token hm
    -- the pair of an own mint is the first pair, whatever the decide call reads
    have hfirst' : firstKeys lib (run evs ++ [(w, .decide authorization body rd stored)]) =
        some (key, pub) := by
      rw [firstKeys_concat, hfirst]
      rfl
    exact required_of_minted hsig hinv hv' (htimes v hv') hm hreq hallowed hexp hb hfirst'
      (hinv.paired _ hfirst).derived

end Authorisation

/-! A run: a token request, then a rotation of the key file, then a decide call
with the token. -/

def demoLibraries : Libraries where
  jwt := demoJwt
  hash := demoHash
  json := noWire.json
  isoformat := fun _ => []
  decodeError := fun _ => []

/-- Credentials with this private key. -/
def demoCredentials (keyPem : Str) : EdgeCredentials where
  edgeId := "edge-1"
  tenantId := "acme"
  certPem := "cert"
  keyPem := keyPem
  caChainPem := "ca"
  certValidTo := { wall := 0, offset := none }
  agpEndpoint := []
  telemetryEndpoint := []

/-- The process at time 1000, enrolled and synced. -/
def demoWorld : World :=
  let blank : World := .start (demoSettings .closed) .empty
    (@PolicyCache.install asciiRuntime 1000 allowAll) { val := 1000, nonneg := by decide }
  { blank with disk := blank.rotated demoLibraries (demoCredentials demoKeyPem) [] }

def demoTokenRequest : TokenRequest where
  grantType := "client_credentials"
  clientId := "client-1"
  clientSecret := "secret"
  scope := "govern:enforce"

def demoRun : List Event :=
  [.tokenRequest demoTokenRequest, .rotate (demoCredentials "new key") [],
    .tick { val := 100, nonneg := by decide }]

theorem demoPublicPem_sound : PemSound demoJwt := by
  intro pem pub h
  have hkey : asciiBytes demoKeyPem ≠ [] := by decide
  have hpub : demoPublicPem ≠ [] := by decide
  simp only [demoJwt] at h
  split at h
  · rename_i hpem
    rw [← Except.ok.inj h, hpem]
    exact ⟨hkey, hpub⟩
  · simp at h

theorem demoKey_derived : derivePublicKeyPem demoJwt demoKeyPem = .ok demoPublicPem := by
  have hencodes : Encodes demoKeyPem := by
    show _ = false
    decide
  have hbytes : demoKeyPem.flatMap utf8Bytes = asciiBytes demoKeyPem := rfl
  simp [derivePublicKeyPem, encode_of_encodes hencodes, hbytes, demoJwt, bind, Except.bind]

/-- The one signature of the examples. -/
def demoSignature : Signature Str Str Json where
  key := demoKeyPem
  token := demoToken
  payload := demoPayload

theorem demoJwt_decoded {now : Rat} {token : Str} {pub : Bytes} {p : Json}
    (h : demoJwt.decode now token pub = .ok p) :
    token = demoToken ∧ pub = demoPublicPem ∧ now < 4600 ∧ p = demoPayload := by
  simp only [demoJwt] at h
  split at h
  · simp at h
  · rename_i hmatch
    simp only [not_or, ne_eq, not_not] at hmatch
    split at h
    · rename_i hnow
      exact ⟨hmatch.1, hmatch.2, hnow, (Except.ok.inj h).symm⟩
    · simp at h

theorem demoJwt_verifies (now : Rat) :
    VerifiesExactly (fun pub token => (demoJwt.decode now token pub).toOption)
      (fun key => (derivePublicKeyPem demoJwt key).toOption) (Unexpired now) (Acceptable now)
      [demoSignature] where
  sound := by
    intro v t p h
    obtain ⟨-, rfl, hnow, rfl⟩ := demoJwt_decoded (toOption_eq_some.mp h)
    refine ⟨?_, demoSignature, List.mem_singleton_self _, toOption_eq_some.mpr demoKey_derived, rfl⟩
    intro exp hexp
    obtain rfl : (4600 : Int) = exp := Json.int.inj (Option.some.inj hexp)
    simpa using hnow
  signed := by
    intro v t p h
    obtain ⟨rfl, rfl, -, rfl⟩ := demoJwt_decoded (toOption_eq_some.mp h)
    exact ⟨demoSignature, List.mem_singleton_self _, toOption_eq_some.mpr demoKey_derived, rfl, rfl⟩
  exact_ := by
    intro s hs v hv hok
    obtain rfl := List.mem_singleton.mp hs
    have hpub : v = demoPublicPem :=
      Except.ok.inj ((toOption_eq_some.mp hv).symm.trans demoKey_derived)
    obtain ⟨sub, exp, iat, -, hexp, hnow, -, -⟩ := hok
    obtain rfl : (4600 : Int) = exp := Json.int.inj (Option.some.inj hexp)
    have hnow' : now < 4600 := by simpa using hnow
    simp [demoJwt, demoSignature, hpub, hnow', Except.toOption]
  carries := by
    intro s hs s' hs' _
    rw [List.mem_singleton.mp hs, List.mem_singleton.mp hs']

theorem demoMinted :
    @Minted asciiRuntime demoLibraries (demoWorld, .tokenRequest demoTokenRequest)
      demoTokenRequest demoClient [governEnforce] demoKeyPem demoToken := by
  have htoken : ((@World.issue asciiRuntime demoLibraries demoWorld
      demoTokenRequest).2.toOption.map (·.accessToken)) = some demoToken := by decide +kernel
  obtain ⟨resp, hresp, heq⟩ := Option.map_eq_some_iff.mp htoken
  refine @Minted.mk asciiRuntime _ _ _ _ _ _ _ rfl ?_ ?_ ?_ ?_ ?_
  · decide +kernel
  · exact toOption_eq_some.mp (by decide +kernel)
  · decide +kernel
  · exact ⟨demoPublicPem, toOption_eq_some.mp (by decide +kernel)⟩
  · exact ⟨resp, toOption_eq_some.mp hresp, heq⟩

theorem demoPayload_eq : demoWorld.tokenPayload demoClient [governEnforce] = demoPayload := by
  have htime : truncate demoWorld.now = 1000 := by decide +kernel
  simp only [World.tokenPayload, htime]
  rfl

/-- The signatures of the demo run. -/
theorem demoRun_signatures :
    (visits (@processStep asciiRuntime demoLibraries) demoWorld demoRun).filterMap
      (@signature asciiRuntime demoLibraries) = [demoSignature] := by
  have hfirst := @signature_of_minted asciiRuntime demoLibraries _ _ _ _ _ _ demoMinted
  rw [demoPayload_eq] at hfirst
  simp only [demoRun, visits_cons, visits_nil]
  rw [List.filterMap_cons_some hfirst]
  rfl

/-- The token passes after the rotation. -/
theorem decide_authorised_after_rotation :
    let w := final (@processStep asciiRuntime demoLibraries) demoWorld demoRun
    readText w.disk (credentialPath ["state"] keyFile) = .ok "new key" ∧
      (@World.require asciiRuntime demoLibraries w demoAuthorization).2 =
        .ok (demoWorld.claims demoClient [governEnforce]) := by
  intro w
  have hdisk : readText w.disk (credentialPath ["state"] keyFile) = .ok "new key" :=
    toOption_eq_some.mp (by decide +kernel)
  have hsig : @Rs256 asciiRuntime demoLibraries
      ([] ++ visits (@processStep asciiRuntime demoLibraries) demoWorld demoRun) := by
    refine @Rs256.mk asciiRuntime _ _ demoPublicPem_sound fun now => ?_
    rw [List.nil_append, demoRun_signatures]
    exact demoJwt_verifies now
  have hmain := @decide_authorised_iff asciiRuntime demoLibraries demoWorld.settings
    demoWorld.disk demoWorld.cache demoWorld.now [] demoRun demoAuthorization demoBody demoReadings
    (.ok true) (by simp) hsig
  have hbearer : bearerToken demoAuthorization = .ok demoToken :=
    toOption_eq_some.mp (by decide +kernel)
  have hexp : (w.now : Rat) <
      demoWorld.expiry := by
    decide +kernel
  exact ⟨hdisk, hmain.2.2 _ List.mem_cons_self demoTokenRequest demoClient [governEnforce]
    demoKeyPem demoToken demoMinted (by decide) (by decide) hexp hbearer⟩

end TrustModelEdge.Routes
