/-
TrustModelEdge.Routes.OAuth — `POST /v1/oauth/token` (`routes/oauth.py`)
and the key cache on the application state that it shares with
`POST /v1/decide`.

A handler runs without a suspension point, so one call is one step. What
it returns stands for a reply with status 200; the rendering of the reply
is the framework's.
-/
import TrustModelEdge.Config
import TrustModelEdge.OAuth
import TrustModelEdge.Policy.Cache

namespace TrustModelEdge.Routes

open Py Policy OAuth

/-! ## Replies -/

structure HttpException where
  statusCode : Nat
  detail : Json
  headers : List (Str × Str) := []

/-- How a handler fails: an `HTTPException`, or any other exception, which the
framework answers with 500. -/
inductive Failure where
  | http (e : HttpException)
  | raised (e : OAuthError)

def Failure.statusCode : Failure → Nat
  | .http e => e.statusCode
  | .raised _ => 500

def statusOf {α : Type} : Except Failure α → Nat
  | .ok _ => 200
  | .error f => f.statusCode

/-- An exception that the handler does not catch. -/
def uncaught {α : Type} : Except Exc α → Except Failure α
  | .ok a => .ok a
  | .error e => .error (.raised (.other e))

/-! ## The key cache -/

/-- The two attributes set lazily on `app.state`. -/
structure AppState where
  oauthPrivateKeyPem : Option Str := none
  oauthPublicKeyPem : Option Bytes := none

section Keys

variable (jwt : JwtLib) (cfg : Settings) (disk : Disk) (app : AppState)

/-- Read the key file and derive the public key. -/
def readKeys : Except OAuthError (Str × Bytes) := do
  let privateKeyPem ← loadPrivateKeyPem disk cfg.stateDir
  let publicKeyPem ← raising (derivePublicKeyPem jwt privateKeyPem)
  return (privateKeyPem, publicKeyPem)

/-- Both keys as the application state has them, unless one is absent or empty. -/
def AppState.keyPair? : Option (Str × Bytes) :=
  match app.oauthPrivateKeyPem, app.oauthPublicKeyPem with
  | some privateKeyPem, some publicKeyPem =>
      if privateKeyPem.isEmpty || publicKeyPem.isEmpty then none
      else some (privateKeyPem, publicKeyPem)
  | _, _ => none

/-- Keep a pair that was read. -/
def AppState.keep : Except OAuthError (Str × Bytes) → AppState
  | .ok keys => { oauthPrivateKeyPem := some keys.1, oauthPublicKeyPem := some keys.2 }
  | .error _ => app

/-- `_key_state`. -/
def keyState : AppState × Except OAuthError (Str × Bytes) :=
  match app.keyPair? with
  | some keys => (app, .ok keys)
  | none => (app.keep (readKeys jwt cfg disk), readKeys jwt cfg disk)

/-- `_public_key` of the decide route: it looks at the public key only. -/
def publicKey : AppState × Except OAuthError Bytes :=
  match app.oauthPublicKeyPem with
  | some publicKeyPem => (app, .ok publicKeyPem)
  | none => (app.keep (readKeys jwt cfg disk), (readKeys jwt cfg disk).map (·.2))

end Keys

/-! ## The token endpoint -/

structure TokenRequest where
  grantType : Str
  clientId : Str
  clientSecret : Str
  scope : Str := []

structure TokenResponse where
  accessToken : Str
  tokenType : Str := "Bearer"
  expiresIn : Nat
  scope : Str := []

/-- The error body of RFC 6749 § 5.2. -/
def tokenError (statusCode : Nat) (error description : Str) : Failure :=
  .http
    { statusCode := statusCode
      detail := .obj [("error", .str error), ("error_description", .str description)] }

section Token

variable [PyRuntime] (jwt : JwtLib) (hash : HashLib) (cfg : Settings)

/-- The record of an authenticated client. -/
def authenticated (cache : PolicyCache) (req : TokenRequest) :
    Except Failure AuthorizedClient :=
  match authenticateClient hash req.clientId req.clientSecret cache.authorizedClients with
  | .ok record => .ok record
  | .error (.invalidClient message) => .error (tokenError 401 "invalid_client" message)
  | .error e => .error (.raised e)

/-- `scope.split() if scope else []`. -/
def requestedScopes (req : TokenRequest) : List Str := words req.scope

/-- The request up to the scopes it is granted. -/
def grant (cache : PolicyCache) (req : TokenRequest) :
    Except Failure (AuthorizedClient × List Str) := do
  if req.grantType ≠ "client_credentials" then
    .error (tokenError 400 "unsupported_grant_type"
      "this endpoint only supports the 'client_credentials' grant")
  else if cache.isWarm = false then
    .error (tokenError 503 "service_unavailable"
      "policy cache not warm; Edge has not completed first sync")
  else do
    let record ← authenticated hash cache req
    let granted := narrowScopes (requestedScopes req) record.allowedScopes
    if requestedScopes req ≠ [] ∧ granted = [] then
      .error (tokenError 400 "invalid_scope"
        "none of the requested scopes are allowed for this client")
    else return (record, granted)

/-- The private key a token is signed with. -/
def signingKey : Except OAuthError (Str × Bytes) → Except Failure Str
  | .ok keys => .ok keys.1
  | .error (.enrollmentMissing message) =>
      .error (tokenError 503 "service_unavailable" message)
  | .error e => .error (.raised e)

/-- `issue_token`. -/
def issueToken (disk : Disk) (cache : PolicyCache) (now : Rat) (app : AppState)
    (req : TokenRequest) : AppState × Except Failure TokenResponse :=
  match grant hash cache req with
  | .error f => (app, .error f)
  | .ok (record, granted) =>
      ((keyState jwt cfg disk app).1, do
        let privateKeyPem ← signingKey (keyState jwt cfg disk app).2
        let (token, expiresIn) ←
          uncaught (mintAgentToken jwt now record.clientId record.agentId granted
            cfg.oauthTokenTtlSeconds privateKeyPem (("edge:" : Str) ++ cfg.tenantId))
        return { accessToken := token, expiresIn := expiresIn, scope := join (" " : Str) granted })

end Token

end TrustModelEdge.Routes
