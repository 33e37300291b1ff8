/-
TrustModelEdge.Routes.PodTheorems — tokens over the restarts of a pod.

A pod is a run of processes (`world_step`), so what one process signs and
verifies carries over: a token outlives its process, and whether it passes
depends on the key that the present process verifies with
(`pod_authorised_iff`). A token names the client it was minted for, and
it is good for its lifetime at most, whoever restarts (`revocation_bounded`).
-/
import TrustModelEdge.Routes.Pod
import TrustModelEdge.Routes.ProcessTheorems

namespace TrustModelEdge.Routes

open Py Policy OAuth Telemetry Lib

/-- Whether a row is appended does not depend on the event. -/
theorem enqueueEnds_eq (json : JsonText) (p : Pod) (storedAt : Str) (fault : Option Exc) :
    p.enqueueEnds json storedAt fault = fun _ => p.stored fault := by
  funext event
  cases fault with
  | some e => rfl
  | none =>
    by_cases h : p.drains.store.count ≥ p.drains.store.maxSize
    · simp [Pod.enqueueEnds, Pod.stored, TelemetryStore.enqueue, h]
    · have hlt : p.drains.store.count < p.drains.store.maxSize := by omega
      simp [Pod.enqueueEnds, Pod.stored, TelemetryStore.enqueue, h, hlt]

theorem expiry_le (w : World) : (w.expiry : Rat) ≤ w.now + w.settings.oauthTokenTtlSeconds := by
  have h := truncate_le w.now.nonneg
  simp only [World.expiry, Int.cast_add, Int.cast_natCast]
  exact add_le_add_left h _

section Steps

variable [PyRuntime] {lib : Libraries}

/-- A decide call in a pod is one in its process. -/
theorem pod_decide_eq (p : Pod) (authorization : Str) (body : DecideRequest) (rd : Readings)
    (storedAt : Str) (fault : Option Exc) :
    p.decide lib authorization body rd storedAt fault =
      p.world.decide lib authorization body rd (p.stored fault) := by
  rw [Pod.decide, enqueueEnds_eq]
  rfl

variable (lib) in
/-- The process of a pod steps as a process, or is replaced. -/
theorem world_step (p : Pod) (ev : PodEvent) :
    (∃ e, p.event ev = some e ∧ (podStep lib p ev).1.world = (processStep lib p.world e).1) ∨
      p.event ev = none ∧ (podStep lib p ev).1.world.now = p.world.now := by
  cases ev with
  | decide authorization body rd storedAt fault =>
    refine Or.inl ⟨_, rfl, ?_⟩
    simp only [podStep, pod_decide_eq, processStep]
  | serve e h => exact Or.inl ⟨e, rfl, rfl⟩
  | drain i h => exact Or.inr ⟨rfl, rfl⟩
  | restart s => exact Or.inr ⟨rfl, rfl⟩

variable (lib) in
theorem pod_now_step (p : Pod) (ev : PodEvent) :
    p.world.now.val ≤ (podStep lib p ev).1.world.now.val := by
  rcases world_step lib p ev with ⟨e, -, hworld⟩ | ⟨-, hnow⟩
  · rw [hworld]
    exact now_step lib p.world e
  · rw [hnow]

/-- The steps of the processes lie behind the present. -/
theorem processSteps_past (p : Pod) (evs : List PodEvent) :
    ∀ v ∈ processSteps (visits (podStep lib) p evs),
      v.1.now.val ≤ (final (podStep lib) p evs).world.now.val := by
  refine visits_inv (podStep lib) (R := fun vs q => ∀ v ∈ processSteps vs,
    v.1.now.val ≤ q.world.now.val) ?_ (by simp [processSteps])
  intro vs q ev ih v hv
  have hnow := pod_now_step lib q ev
  simp only [processSteps, List.filterMap_append, List.mem_append] at hv
  rcases hv with hv | hv
  · exact (ih v hv).trans hnow
  · simp only [List.filterMap_cons, List.filterMap_nil] at hv
    cases he : q.event ev with
    | none => simp [he] at hv
    | some e =>
      simp only [he, Option.map_some, List.mem_singleton] at hv
      rw [hv]
      exact hnow

end Steps

section Tokens

variable [PyRuntime] {lib : Libraries}

/-- The step `v` of some process minted the token with a key that goes with the
public key `pub`, and granted `govern:enforce`. -/
def MintedFor (lib : Libraries) (v : World × Event) (pub : Bytes) (token : Str)
    (client : AuthorizedClient) (granted : List Str) : Prop :=
  ∃ req key, Minted lib v req client granted key token ∧
    derivePublicKeyPem lib.jwt key = .ok pub ∧ governEnforce ∈ requestedScopes req ∧
    governEnforce ∈ client.allowedScopes

/-- At the step the client was authenticated against a cache that listed it, first
under its id, with `govern:enforce` allowed. -/
def Listed (lib : Libraries) (v : World × Event) (clientId : Str) : Prop :=
  ∃ req client, v.2 = .tokenRequest req ∧ req.clientId = clientId ∧
    findAuthorizedClient clientId v.1.cache.authorizedClients = some client ∧
    verifyDjangoPbkdf2 lib.hash req.clientSecret client.clientSecretHash = .ok true ∧
    governEnforce ∈ client.allowedScopes

/-- What a signature that verifies says of the step that made it, if its claims hold a
scope. -/
theorem minted_of_signature {v : World × Event} {s : Signature Str Str Json} {now : Rat}
    {claims : AgentTokenClaims} {scope : Str} (hs : signature lib v = some s)
    (hvalid : Unexpired now s.payload) (hread : readClaims s.payload = .ok claims)
    (hscope : scope ∈ claims.scopes) :
    ∃ req client granted, Minted lib v req client granted s.key s.token ∧
      now < v.1.expiry ∧ claims = v.1.claims client granted := by
  rcases signature_cases hs with ⟨req, client, granted, hm, hpayload⟩ | ⟨id, iat, exp, hpayload⟩
  · rw [hpayload] at hvalid hread
    have hwords : ∀ w ∈ granted, IsWord w := fun w hw => isWord_of_granted (hm.narrowed ▸ hw)
    rw [readClaims_tokenPayload v.1 client hwords] at hread
    exact ⟨req, client, granted, hm, unexpired_tokenPayload_iff.mp hvalid,
      (Except.ok.inj hread).symm⟩
  · rw [hpayload] at hread
    rw [scopes_certPayload hread] at hscope
    simp at hscope

/-- A step of a run that minted the token of a call that passes. -/
theorem mintedFor_of_signature {v : World × Event} {s : Signature Str Str Json} {now : Rat}
    {claims : AgentTokenClaims} {pub : Bytes} (hs : signature lib v = some s)
    (hvalid : Unexpired now s.payload) (hread : readClaims s.payload = .ok claims)
    (hscope : governEnforce ∈ claims.scopes) (hpub : derivePublicKeyPem lib.jwt s.key = .ok pub) :
    ∃ client granted, MintedFor lib v pub s.token client granted ∧ now < v.1.expiry ∧
      claims = v.1.claims client granted := by
  obtain ⟨req, client, granted, hm, hexp, rfl⟩ := minted_of_signature hs hvalid hread hscope
  have hgranted : governEnforce ∈ granted := hscope
  rw [hm.narrowed] at hgranted
  obtain ⟨hreq, hallowed⟩ := mem_narrowScopes.mp hgranted
  exact ⟨client, granted, ⟨req, s.key, hm, hpub, hreq, hallowed⟩, hexp, rfl⟩

/-- The claims of a token that verifies were signed. -/
theorem signed_of_verified {steps : List (World × Event)} (hsig : Unforged lib steps) {now : Rat}
    {token : Str} {pub : Bytes} {claims : AgentTokenClaims}
    (h : verifyAgentToken lib.jwt now token pub = .ok claims) :
    ∃ s ∈ steps.filterMap (signature lib), Unexpired now s.payload ∧
      readClaims s.payload = .ok claims ∧ derivePublicKeyPem lib.jwt s.key = .ok pub := by
  obtain ⟨payload, hdecode, hread⟩ := verifyAgentToken_ok_iff.mp h
  obtain ⟨hvalid, s, hs, hpub, rfl⟩ :=
    (hsig now).sound pub token payload (toOption_eq_some.mpr hdecode)
  exact ⟨s, hs, hvalid, hread, toOption_eq_some.mp hpub⟩

/-- Where RS256 verifies exactly, the text was signed too. -/
theorem text_of_verified {steps : List (World × Event)} (hsig : Rs256 lib steps) {now : Rat}
    {token : Str} {pub : Bytes} {claims : AgentTokenClaims}
    (h : verifyAgentToken lib.jwt now token pub = .ok claims) :
    ∃ s ∈ steps.filterMap (signature lib), s.token = token ∧ Unexpired now s.payload ∧
      readClaims s.payload = .ok claims ∧ derivePublicKeyPem lib.jwt s.key = .ok pub := by
  obtain ⟨payload, hdecode, hread⟩ := verifyAgentToken_ok_iff.mp h
  have hp := toOption_eq_some.mpr hdecode
  obtain ⟨s, hs, hpub, htoken, rfl⟩ := (hsig.verifies now).signed pub token payload hp
  exact ⟨s, hs, htoken, ((hsig.verifies now).sound pub token _ hp).1, hread,
    toOption_eq_some.mp hpub⟩

/-- A decide call on a pod passes exactly with a token that one of its processes
minted with the key of the present one, and that has not expired. -/
theorem pod_authorised_iff {start : Pod} {evs : List PodEvent} {authorization : Str}
    {claims : AgentTokenClaims}
    (hsig : Rs256 lib (processSteps (visits (podStep lib) start evs))) :
    let w := (final (podStep lib) start evs).world
    (w.require lib authorization).2 = .ok claims ↔
      ∃ token pub v client granted, bearerToken authorization = .ok token ∧
        (publicKey lib.jwt w.settings w.disk w.app).2 = .ok pub ∧
        v ∈ processSteps (visits (podStep lib) start evs) ∧
        MintedFor lib v pub token client granted ∧ (w.now : Rat) < v.1.expiry ∧
        claims = v.1.claims client granted := by
  intro w
  constructor
  · intro h
    obtain ⟨token, pub, hb, hpub, hverified, hscope⟩ := requireAgentToken_ok_iff.mp h
    obtain ⟨s, hs, htoken, hvalid, hread, hderived⟩ := text_of_verified hsig hverified
    obtain ⟨v, hv, hsv⟩ := List.mem_filterMap.mp hs
    obtain ⟨client, granted, hm, hexp, hclaims⟩ :=
      mintedFor_of_signature hsv hvalid hread hscope hderived
    exact ⟨token, pub, v, client, granted, hb, hpub, hv, htoken ▸ hm, hexp, hclaims⟩
  · rintro ⟨token, pub, v, client, granted, hb, hpub, hv, hm, hexp, rfl⟩
    obtain ⟨req, key, hminted, hderived, hreq, hallowed⟩ := hm
    have hafter := processSteps_past start evs v hv
    have hverified := verified_of_minted hsig hv hminted hderived hafter hexp
    have hscope : governEnforce ∈ granted := by
      rw [hminted.narrowed]
      exact mem_narrowScopes.mpr ⟨hreq, hallowed⟩
    exact requireAgentToken_ok_iff.mpr ⟨token, pub, hb, hpub, hverified, hscope⟩

/-- **Revocation is bounded**, over restarts, key rotations and changed settings: a
decide call passes as a client only if, less than the lifetime of a token ago,
a token request of that client was authenticated against a policy cache that
listed it with `govern:enforce`. -/
theorem revocation_bounded (s : Startup) (disk : Disk) (now : Seconds)
    (table : SerialTable EventRow) (evs : List PodEvent) (authorization clientId : Str)
    (claims : AgentTokenClaims)
    (hsig : Unforged lib (processSteps (visits (podStep lib) (.start s disk now table) evs)))
    (hpass : ((final (podStep lib) (.start s disk now table) evs).world.require lib
      authorization).2 = .ok claims)
    (hsub : claims.sub = .str clientId) :
    ∃ v ∈ processSteps (visits (podStep lib) (.start s disk now table) evs),
      Listed lib v clientId ∧
        (v.1.now : Rat) ≤ (final (podStep lib) (.start s disk now table) evs).world.now ∧
        ((final (podStep lib) (.start s disk now table) evs).world.now : Rat) <
          v.1.now + v.1.settings.oauthTokenTtlSeconds := by
  obtain ⟨token, pub, -, -, hverified, hscope⟩ := requireAgentToken_ok_iff.mp hpass
  obtain ⟨sig, hsigned, hvalid, hread, hderived⟩ := signed_of_verified hsig hverified
  obtain ⟨v, hv, hsv⟩ := List.mem_filterMap.mp hsigned
  obtain ⟨client, granted, ⟨req, key, hminted, -, -, hallowed⟩, hexp, rfl⟩ :=
    mintedFor_of_signature hsv hvalid hread hscope hderived
  have hfound := hminted.found
  -- a record is found under its own id, which is the subject of the token
  have hid : client.clientId = req.clientId := by
    simpa [findAuthorizedClient] using List.find?_some hfound
  obtain rfl : client.clientId = clientId := Json.str.inj hsub
  have hlisted : Listed lib v client.clientId :=
    ⟨req, client, hminted.request, hid.symm, hid ▸ hfound, hminted.verified, hallowed⟩
  exact ⟨v, hv, hlisted, processSteps_past _ evs v hv, hexp.trans_le (expiry_le v.1)⟩

end Tokens

/-! A token request, then a restart on the same key file: the token passes in the
process after it. -/

def demoStartup : Startup where
  settings := demoSettings .closed
  cache := @PolicyCache.install asciiRuntime 1000 allowAll
  maxSize := 10
  batchSize := 50
  flushInterval := 5

def demoPod : Pod := .start demoStartup demoWorld.disk demoWorld.now .empty

/-- The event of a decide call of the demo process, and its text. -/
def mailEvent : AuditEvent where
  eventId := "e-1"
  customerId := "a719dee4-7b82-5596-b97a-a5543842c9f9"
  agentId := .str "agent-1"
  subjectId := []
  policyId := "pol-1"
  decision := "allow"
  reason := "Rule 'any' fired with action 'allow'."
  actionType := "mail.send"
  actionPayload := ∅
  evidence := { frameworkTags := [], redactions := [], ruleId := "any", latencyMs := 0 }
  occurredAt := "1970-01-01T00:18:20+00:00"

def mailText : Str :=
  ("\x7b\"event_id\": \"e-1\", \"customer_id\": \"a719dee4-7b82-5596-b97a-a5543842c9f9\", " : Str)
    ++ "\"agent_id\": \"agent-1\", \"subject_id\": \"\", \"policy_id\": \"pol-1\", "
    ++ "\"decision\": \"allow\", \"reason\": \"Rule 'any' fired with action 'allow'.\", "
    ++ "\"action_type\": \"mail.send\", \"action_payload\": \x7b\x7d, "
    ++ "\"evidence\": \x7b\"framework_tags\": [], \"redactions\": [], "
    ++ "\"rule_id\": \"any\", \"latency_ms\": 0.0\x7d, "
    ++ "\"occurred_at\": \"1970-01-01T00:18:20+00:00\"\x7d"

def mailLibraries : Libraries :=
  { demoLibraries with
    json :=
      { loads := fun t => if t = mailText then .ok mailEvent.toDict else .error .jsonDecodeError
        dumps := fun v => if v.pyEq mailEvent.toDict then mailText else [] } }

theorem mailMinted :
    @Minted asciiRuntime mailLibraries (demoWorld, .tokenRequest demoTokenRequest)
      demoTokenRequest demoClient [governEnforce] demoKeyPem demoToken := by
  -- the two sets of libraries mint alike
  obtain ⟨hreq, hfound, hverified, hnarrow, hkeyed, hissued⟩ := demoMinted
  exact @Minted.mk asciiRuntime _ _ _ _ _ _ _ hreq hfound hverified hnarrow hkeyed hissued

def restartRun : List PodEvent :=
  [.serve (.tokenRequest demoTokenRequest) rfl, .restart demoStartup]

theorem restartRun_signatures :
    (processSteps (visits (@podStep asciiRuntime mailLibraries) demoPod restartRun)).filterMap
      (@signature asciiRuntime mailLibraries) = [demoSignature] := by
  have hsteps : processSteps (visits (@podStep asciiRuntime mailLibraries) demoPod restartRun) =
      [(demoWorld, .tokenRequest demoTokenRequest)] := rfl
  have hfirst := @signature_of_minted asciiRuntime mailLibraries _ _ _ _ _ _ mailMinted
  rw [demoPayload_eq] at hfirst
  rw [hsteps, List.filterMap_cons_some hfirst]
  rfl

theorem restartRun_signed :
    @Rs256 asciiRuntime mailLibraries
      (processSteps (visits (@podStep asciiRuntime mailLibraries) demoPod restartRun)) := by
  refine @Rs256.mk asciiRuntime _ _ demoPublicPem_sound fun now => ?_
  rw [restartRun_signatures]
  exact demoJwt_verifies now

theorem restartRun_passes :
    (@World.require asciiRuntime mailLibraries
      (final (@podStep asciiRuntime mailLibraries) demoPod restartRun).world
      demoAuthorization).2 = .ok (demoWorld.claims demoClient [governEnforce]) := by
  refine (@pod_authorised_iff asciiRuntime mailLibraries demoPod restartRun demoAuthorization _
    restartRun_signed).mpr ?_
  refine ⟨demoToken, demoPublicPem, (demoWorld, .tokenRequest demoTokenRequest), demoClient,
    [governEnforce], toOption_eq_some.mp (by decide +kernel),
    toOption_eq_some.mp (by decide +kernel), List.mem_singleton_self _, ?_,
    by decide +kernel, rfl⟩
  exact ⟨demoTokenRequest, demoKeyPem, mailMinted, demoKey_derived, by decide, by decide⟩

/-- The call after the restart rests on the request before it. -/
theorem revocation_bounded_restart :
    let w := (final (@podStep asciiRuntime mailLibraries) demoPod restartRun).world
    w.app.oauthPublicKeyPem = none ∧
      ∃ v ∈ processSteps (visits (@podStep asciiRuntime mailLibraries) demoPod restartRun),
        @Listed asciiRuntime mailLibraries v "client-1" ∧ (v.1.now : Rat) ≤ w.now ∧
          (w.now : Rat) < v.1.now + v.1.settings.oauthTokenTtlSeconds :=
  ⟨rfl, @revocation_bounded asciiRuntime mailLibraries demoStartup demoWorld.disk demoWorld.now
    .empty restartRun demoAuthorization "client-1" _
    (fun now => (@Rs256.verifies asciiRuntime _ _ restartRun_signed now).toUnforgeable)
    restartRun_passes rfl⟩

end TrustModelEdge.Routes
