/-
TrustModelEdge.Routes.OAuthTheorems — what the token endpoint checks and
what it keeps: the clients it authenticates, the scopes it grants, the key
pair it holds.
-/
import TrustModelEdge.Routes.OAuth

namespace TrustModelEdge.Routes

open Py Policy OAuth

theorem truncate_le {q : Rat} (h : 0 ≤ q) : (truncate q : Rat) ≤ q := by
  rw [truncate, if_neg (not_lt.mpr h)]
  exact Rat.floor_le q

/-! ## Scopes -/

theorem mem_narrowScopes {requested allowed : List Str} {s : Str} :
    s ∈ narrowScopes requested allowed ↔ s ∈ requested ∧ s ∈ allowed := by
  simp [narrowScopes]

theorem isWord_of_granted {req : TokenRequest} {allowed : List Str} {w : Str}
    (h : w ∈ narrowScopes (requestedScopes req) allowed) : IsWord w :=
  isWord_of_mem_words (List.mem_filter.mp h).1

/-- Splitting the scope of a token gives the granted scopes back. -/
theorem scopesOf_join {granted : List Str} (h : ∀ w ∈ granted, IsWord w) :
    scopesOf (.str (join (" " : Str) granted)) = .ok granted := by
  have hwords := words_join h
  unfold scopesOf
  cases hj : join (" " : Str) granted with
  | nil =>
    rw [hj] at hwords
    have hnil : granted = [] := by rw [← hwords]; rfl
    simp [Json.truthy, hnil]
  | cons c s =>
    rw [hj] at hwords
    simp [Json.truthy, hwords]

/-! ## Clients -/

section Clients

variable [PyRuntime]

theorem authenticated_ok_iff {hash : HashLib} {cache : PolicyCache} {req : TokenRequest}
    {record : AuthorizedClient} :
    authenticated hash cache req = .ok record ↔
      findAuthorizedClient req.clientId cache.authorizedClients = some record ∧
        verifyDjangoPbkdf2 hash req.clientSecret record.clientSecretHash = .ok true := by
  unfold authenticated authenticateClient
  cases hf : findAuthorizedClient req.clientId cache.authorizedClients with
  | none =>
    cases hv : verifyDjangoPbkdf2 hash req.clientSecret (sentinelHash hash) <;>
      simp [raising, bind, Except.bind]
  | some client =>
    cases hv : verifyDjangoPbkdf2 hash req.clientSecret client.clientSecretHash with
    | error e =>
      simp only [hv, raising, bind, Except.bind, reduceCtorEq, Option.some.injEq, false_iff,
        not_and]
      rintro rfl
      simp [hv]
    | ok verified =>
      simp only [hv, raising, bind, Except.bind, Option.some.injEq]
      cases verified with
      | false =>
        simp only [Bool.false_eq_true, if_false, reduceCtorEq, false_iff, not_and]
        rintro rfl
        simp [hv]
      | true =>
        simp only [if_true, Except.ok.injEq]
        constructor
        · rintro rfl
          exact ⟨rfl, hv⟩
        · exact fun h => h.1

/-- What a grant rests on. -/
theorem grant_ok {hash : HashLib} {cache : PolicyCache} {req : TokenRequest}
    {record : AuthorizedClient} {granted : List Str}
    (h : grant hash cache req = .ok (record, granted)) :
    findAuthorizedClient req.clientId cache.authorizedClients = some record ∧
      verifyDjangoPbkdf2 hash req.clientSecret record.clientSecretHash = .ok true ∧
      granted = narrowScopes (requestedScopes req) record.allowedScopes := by
  unfold grant at h
  split at h
  · simp at h
  · split at h
    · simp at h
    · cases ha : authenticated hash cache req with
      | error f => simp [ha, bind, Except.bind] at h
      | ok client =>
        simp only [ha, bind, Except.bind] at h
        split at h
        · simp at h
        · simp only [pure, Except.pure, Except.ok.injEq, Prod.mk.injEq] at h
          obtain ⟨rfl, rfl⟩ := h
          obtain ⟨hfound, hverified⟩ := authenticated_ok_iff.mp ha
          exact ⟨hfound, hverified, rfl⟩

end Clients

/-! ## The key pair -/

/-- The application state that holds a pair, or none. -/
def holding : Option (Str × Bytes) → AppState
  | none => {}
  | some keys => { oauthPrivateKeyPem := some keys.1, oauthPublicKeyPem := some keys.2 }

/-- A private key with its public key, neither of them empty. -/
structure KeyPair (jwt : JwtLib) (keys : Str × Bytes) : Prop where
  derived : derivePublicKeyPem jwt keys.1 = .ok keys.2
  private_ne : keys.1 ≠ []
  public_ne : keys.2 ≠ []

/-- No key is derived from an empty text, and a derived key is not empty. -/
def PemSound (jwt : JwtLib) : Prop :=
  ∀ pem pub, jwt.publicPem pem = .ok pub → pem ≠ [] ∧ pub ≠ []

theorem keyPair_of_derived {jwt : JwtLib} (hpem : PemSound jwt) {key : Str} {pub : Bytes}
    (h : derivePublicKeyPem jwt key = .ok pub) : KeyPair jwt (key, pub) := by
  obtain ⟨pem, he, hderive⟩ := bind_eq_ok.mp h
  obtain ⟨hne, hpub⟩ := hpem pem pub hderive
  refine ⟨h, ?_, hpub⟩
  intro hnil
  rw [show key = [] from hnil] at he
  exact hne (Except.ok.inj he).symm

theorem readKeys_ok {jwt : JwtLib} (hpem : PemSound jwt) {cfg : Settings} {disk : Disk}
    {keys : Str × Bytes} (h : readKeys jwt cfg disk = .ok keys) : KeyPair jwt keys := by
  obtain ⟨key, -, h⟩ := bind_eq_ok.mp h
  obtain ⟨pub, hraising, h⟩ := bind_eq_ok.mp h
  cases h
  cases hd : derivePublicKeyPem jwt key with
  | error e => simp [hd, raising] at hraising
  | ok pub' =>
    obtain rfl : pub' = pub := by simpa [hd, raising] using hraising
    exact keyPair_of_derived hpem hd

theorem keyPair?_holding {jwt : JwtLib} {keys : Str × Bytes} (h : KeyPair jwt keys) :
    (holding (some keys)).keyPair? = some keys := by
  have h1 := h.private_ne
  have h2 := h.public_ne
  simp [AppState.keyPair?, holding, h1, h2]

end TrustModelEdge.Routes
