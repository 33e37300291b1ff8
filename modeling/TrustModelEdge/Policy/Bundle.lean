/-
TrustModelEdge.Policy.Bundle — the wire models of the policy bundle
(`policy/bundle.py`).

Field types are those the pydantic models validate to; the defaults are
theirs. `when` is the one field of free shape: any keys, any JSON values.
-/
import TrustModelEdge.Py.Json

namespace TrustModelEdge.Policy

open Py

/-- One rule within a policy. -/
structure PolicyRule where
  ruleId : Str
  when : Dict Json
  then_ : Str
  frameworkTags : List Str := []
  priority : Int := 100

/-- `Policy` of the source, a policy ready to publish to the runtime: the value
of the field `bundle`. -/
structure Bundle where
  name : Str
  version : Str
  description : Str := []
  rules : List PolicyRule := []
  frameworkTags : List Str := []

/-- One OAuth client that may present `client_credentials` at this Edge. -/
structure AuthorizedClient where
  clientId : Str
  clientName : Str := []
  clientSecretHash : Str
  allowedScopes : List Str := []
  agentId : Option Str := none
deriving DecidableEq

/-- The wrapper `GET /api/v1/edge/policy/current` returns. -/
structure EdgePolicy where
  id : Str
  tenantId : Str
  name : Str
  version : Str
  bundle : Bundle
  isActive : Bool
  isPrimary : Bool := false
  createdAt : Rat
  authorizedClients : List AuthorizedClient := []

/-- The name a policy is served under. -/
abbrev bundleName (p : EdgePolicy) : Str := p.bundle.name

end TrustModelEdge.Policy
