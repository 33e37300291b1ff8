/-
TrustModelEdge.OAuth — agent-facing OAuth (`oauth.py`) and the cert-JWTs
that are signed with the same key (`policy/jwt.py`, `sign_edge_jwt` of
`identity.py`).

`_SENTINEL_HASH` is computed when the module loads, which succeeds; the
verify against it counts only for what it may raise.
-/
import TrustModelEdge.Identity
import TrustModelEdge.Policy.Bundle
import TrustModelEdge.Py.Crypto

namespace TrustModelEdge.OAuth

open Py Policy

/-- The exceptions of this layer, with their texts. -/
inductive OAuthError where
  | invalidClient (message : Str)
  | invalidToken (message : Str)
  | enrollmentMissing (message : Str)
  | other (e : Exc)
deriving DecidableEq

/-- An exception of a library passes through. -/
def raising {α : Type} : Except Exc α → Except OAuthError α
  | .ok a => .ok a
  | .error e => .error (.other e)

/-! ## Client secrets -/

section Secrets

variable [PyRuntime] (hash : HashLib)

/-- `verify_django_pbkdf2`, on `pbkdf2_sha256$<iterations>$<salt>$<hash_b64>`. -/
def verifyDjangoPbkdf2 (presentedSecret encodedHash : Str) : Except Exc Bool :=
  match splitMax (CodePoint.ofChar '$') 3 encodedHash with
  | [algorithm, iterationsStr, salt, expectedB64] =>
      if algorithm ≠ "pbkdf2_sha256" then .ok false
      else
        match parseInt? iterationsStr with
        | none => .ok false
        | some iterations => do
            let secretBytes ← encode presentedSecret
            let saltBytes ← encode salt
            let derived ← hash.pbkdf2 secretBytes saltBytes iterations
            compareDigest (strip (b64encode derived)) (strip expectedB64)
  | _ => .ok false

/-- `_SENTINEL_HASH`. -/
def sentinelHash : Str :=
  let derived := hash.pbkdf2 (asciiBytes "sentinel-never-matches")
    (asciiBytes "edge-sentinel-salt-not-used-for-real-secrets") 600000
  ("pbkdf2_sha256$600000$edge-sentinel-salt-not-used-for-real-secrets$" : Str)
    ++ b64encode (derived.toOption.getD [])

/-- `find_authorized_client`. -/
def findAuthorizedClient (clientId : Str) (authorized : List AuthorizedClient) :
    Option AuthorizedClient :=
  authorized.find? (fun ac => decide (ac.clientId = clientId))

/-- `authenticate_client`: an unknown id costs a verify as well. -/
def authenticateClient (clientId clientSecret : Str) (authorized : List AuthorizedClient) :
    Except OAuthError AuthorizedClient :=
  match findAuthorizedClient clientId authorized with
  | none => do
      let _ ← raising (verifyDjangoPbkdf2 hash clientSecret (sentinelHash hash))
      .error (.invalidClient "unknown client_id")
  | some record => do
      let verified ← raising (verifyDjangoPbkdf2 hash clientSecret record.clientSecretHash)
      if verified then .ok record else .error (.invalidClient "invalid client_secret")

end Secrets

/-- `narrow_scopes`: the requested scopes that are allowed. -/
def narrowScopes (requested allowed : List Str) : List Str :=
  requested.filter (fun s => decide (s ∈ allowed))

/-! ## Agent tokens -/

/-- The claims handed to `decide`: JSON values as the token carries them. -/
structure AgentTokenClaims where
  sub : Json
  agentId : Json
  scopes : List Str
  exp : Int
  iat : Int

/-- A text or `None`. -/
def optStr (s : Option Str) : Json := s.elim .null .str

/-- The payload of an agent token. -/
def agentPayload (issuer clientId : Str) (agentId : Option Str) (grantedScopes : List Str)
    (iat exp : Int) : Json :=
  .obj
    [("iss", .str issuer), ("sub", .str clientId), ("agent_id", optStr agentId),
     ("scope", .str (join (" " : Str) grantedScopes)), ("iat", .int iat), ("exp", .int exp)]

/-- `mint_agent_token` at the time `now`: the token and its lifetime. -/
def mintAgentToken (jwt : JwtLib) (now : Rat) (clientId : Str) (agentId : Option Str)
    (grantedScopes : List Str) (ttlSeconds : Nat) (privateKeyPem issuer : Str) :
    Except Exc (Str × Nat) := do
  let iat := truncate now
  let payload := agentPayload issuer clientId agentId grantedScopes iat (iat + ttlSeconds)
  let token ← jwt.encode payload privateKeyPem
  return (token, ttlSeconds)

/-- `scope_str.split() if scope_str else []`. -/
def scopesOf (scope : Json) : Except Exc (List Str) :=
  if scope.truthy then
    match scope with
    | .str s => .ok (words s)
    | _ => .error .attributeError
  else .ok []

/-- `payload[key]`. -/
def claim (payload : Json) (key : Str) : Except Exc Json :=
  match payload.field? key with
  | some v => .ok v
  | none => .error .keyError

/-- The claims of a verified payload. -/
def readClaims [PyRuntime] (payload : Json) : Except Exc AgentTokenClaims := do
  let scopes ← scopesOf ((payload.field? "scope").getD (.str []))
  let sub ← claim payload "sub"
  let exp ← claim payload "exp" >>= jsonInt
  let iat ← claim payload "iat" >>= jsonInt
  return { sub := sub, agentId := (payload.field? "agent_id").getD .null, scopes := scopes,
           exp := exp, iat := iat }

/-- `verify_agent_token` at the time `now`. -/
def verifyAgentToken [PyRuntime] (jwt : JwtLib) (now : Rat) (token : Str)
    (publicKeyPem : Bytes) : Except OAuthError AgentTokenClaims :=
  match jwt.decode now token publicKeyPem with
  | .error (.pyJwtError message) =>
      .error (.invalidToken (("jwt verification failed: " : Str) ++ message))
  | .error (.other e) => .error (.other e)
  | .ok payload => raising (readClaims payload)

/-! ## Keys -/

/-- `_read_or_raise`. -/
def readOrRaise (d : Disk) (path : PurePath) (label : Str) : Except OAuthError Str := do
  let found ← raising (pathExists d path)
  if found then
    let text ← raising (readText d path)
    return strip text
  else
    .error (.enrollmentMissing
      (("missing " : Str) ++ label ++ (" at " : Str) ++ path.text
        ++ ("; enrollment (TRUS-987) has not completed" : Str)))

def loadPrivateKeyPem (d : Disk) (stateDir : Path) : Except OAuthError Str :=
  readOrRaise d (credentialPath stateDir keyFile) "enrollment private key"

def derivePublicKeyPem (jwt : JwtLib) (privateKeyPem : Str) : Except Exc Bytes := do
  let pem ← encode privateKeyPem
  jwt.publicPem pem

/-! ## Cert-JWTs -/

/-- The payload of a cert-JWT. -/
def certPayload (edgeId : Json) (iat exp : Int) : Json :=
  .obj [("sub", edgeId), ("iat", .int iat), ("exp", .int exp)]

/-- `json.loads(meta_raw)["edge_id"]`; `decodeError` is the text of the error
that `json.loads` raises. -/
def metaEdgeId (json : JsonText) (decodeError : Str → Str) (path : PurePath) (metaRaw : Str) :
    Except OAuthError Json :=
  let missing (text : Str) : OAuthError :=
    .enrollmentMissing
      (("could not read edge_id from " : Str) ++ path.text ++ (": " : Str) ++ text)
  match json.loads metaRaw with
  | .error .jsonDecodeError => .error (missing (decodeError metaRaw))
  | .error e => .error (.other e)
  | .ok (.obj fields) =>
      match fields.lookup ("edge_id" : Str) with
      | some v => .ok v
      | none => .error (missing "'edge_id'")
  | .ok _ => .error (.other .typeError)

/-- What a cert-JWT is signed with: the key on disk, and the subject. -/
def certKeyAndSubject (json : JsonText) (decodeError : Str → Str) (d : Disk) (stateDir : Path)
    (edgeId : Option Str) : Except OAuthError (Str × Json) := do
  let keyPem ← readOrRaise d (credentialPath stateDir keyFile) "enrollment private key"
  match edgeId with
  | some id => return (keyPem, .str id)
  | none => do
      let path := credentialPath stateDir metaFile
      let metaRaw ← readOrRaise d path "enrollment metadata"
      let id ← metaEdgeId json decodeError path metaRaw
      return (keyPem, id)

/-- `mint_cert_jwt`. -/
def mintCertJwt (jwt : JwtLib) (json : JsonText) (decodeError : Str → Str) (now : Rat)
    (d : Disk) (stateDir : Path) (edgeId : Option Str) (ttlSeconds : Int) :
    Except OAuthError Str := do
  let (keyPem, id) ← certKeyAndSubject json decodeError d stateDir edgeId
  raising (jwt.encode (certPayload id (truncate now) (truncate now + ttlSeconds)) keyPem)

/-- `sign_edge_jwt`. -/
def signEdgeJwt (jwt : JwtLib) (now : Rat) (edgeId keyPem : Str) (ttlS : Int) :
    Except Exc Str :=
  jwt.encode (certPayload (.str edgeId) (truncate now) (truncate now + ttlS)) keyPem

end TrustModelEdge.OAuth
