/-
TrustModelEdge.Policy.Client — fetching policies from the gateway
(`policy/client.py`).

The gateway is what it answers on the two paths. The texts of
`PolicyFetchError` are only logged and are left out.
-/
import TrustModelEdge.OAuth
import TrustModelEdge.Policy.Cache

namespace TrustModelEdge.Policy

open Py OAuth

/-- The text forms of the response bodies: `validateClient` is
`AuthorizedClient.model_validate`. -/
structure BodyWire extends PolicyWire where
  validateClient : Json → Except Exc AuthorizedClient

/-- How one GET ends: the cert-JWT cannot be minted, `httpx` raises, or there is a
response, whose `text` decodes or not (its charset is the sender's) and whose body
parses or not. -/
inductive HttpResult where
  | mintFailed (e : OAuthError)
  /-- An `httpx.HTTPError`. -/
  | transportError
  /-- Any other exception of the request. -/
  | otherError (e : Exc)
  | response (statusCode : Nat) (text : Except Exc Str) (json : Except Exc Json)

/-- What the gateway answers on `_SINGULAR_PATH` and on `_PLURAL_PATH`. -/
structure Gateway where
  singular : HttpResult
  plural : HttpResult

inductive FetchError where
  | policyNotFound (detail : Str)
  | policyFetchError
  /-- An exception that the client lets through. -/
  | raised (e : OAuthError)

/-- `except (ValueError, TypeError)`. -/
def invalidBody (e : Exc) : FetchError :=
  if e.isValueError || e == .typeError then .policyFetchError else .raised (.other e)

/-- An error of a response that shows the start of its text. -/
def withText (text : Except Exc Str) (error : Str → FetchError) : FetchError :=
  match text with
  | .ok s => error (s.take 200)
  | .error e => .raised (.other e)

/-- `_http_get`. -/
def httpGet : HttpResult → Except FetchError Json
  | .mintFailed e => .error (.raised e)
  | .transportError => .error .policyFetchError
  | .otherError e => .error (.raised (.other e))
  | .response statusCode text json =>
      if statusCode = 404 then .error (withText text .policyNotFound)
      else if statusCode < 200 ∨ 300 ≤ statusCode then
        .error (withText text fun _ => .policyFetchError)
      else
        match json with
        | .ok payload => .ok payload
        | .error e => if e.isValueError then .error .policyFetchError else .error (.raised (.other e))

/-- `[validate(v) for v in raw]`. -/
def validateAll {α : Type} (validate : Json → Except Exc α) (raw : Json) : Except Exc (List α) := do
  let items ← listOf raw
  items.mapM validate

/-- The bundle name of the first policy that is flagged as primary. -/
def primaryNameOf (policies : List EdgePolicy) : Option Str :=
  (policies.find? (·.isPrimary)).map bundleName

section Fetching

variable (wire : BodyWire)

/-- `fetch`. -/
def fetch (g : Gateway) : Except FetchError EdgePolicy := do
  let payload ← httpGet g.singular
  match wire.validate payload with
  | .ok p => return p
  | .error e => .error (invalidBody e)

/-- The policies and the hoisted clients of a plural body. -/
def parsePlural (payload : Json) :
    Except FetchError (List EdgePolicy × Option Str × List AuthorizedClient) :=
  match payload.field? "policies" with
  | none => .error .policyFetchError
  | some rawPolicies =>
      let rawClients := (payload.field? "authorized_clients").getD (.arr [])
      match validateAll wire.validate rawPolicies, validateAll wire.validateClient rawClients with
      | .ok policies, .ok clients => .ok (policies, primaryNameOf policies, clients)
      | .error e, _ => .error (invalidBody e)
      | _, .error e => .error (invalidBody e)

/-- `fetch_all`: a 404 on the plural path falls back to the singular one. -/
def fetchAll (g : Gateway) :
    Except FetchError (List EdgePolicy × Option Str × List AuthorizedClient) :=
  match httpGet g.plural with
  | .ok payload => parsePlural wire payload
  | .error (.policyNotFound _) => do
      let one ← fetch wire g
      return ([one], some one.bundle.name, one.authorizedClients)
  | .error e => .error e

end Fetching

end TrustModelEdge.Policy
