/-
TrustModelEdge.Telemetry.Payload — the audit event of a decision
(`telemetry/payload.py`).
-/
import TrustModelEdge.Py.Crypto

namespace TrustModelEdge.Telemetry

open Py

/-- The value of the field `evidence`. -/
structure Evidence where
  frameworkTags : List Str
  redactions : List Str
  ruleId : Str
  latencyMs : Float64

/-- `agentId` is whatever the token claims, when that is not empty. -/
structure AuditEvent where
  eventId : Str
  customerId : Str
  agentId : Json
  subjectId : Str
  policyId : Str
  decision : Str
  reason : Str
  actionType : Str
  actionPayload : Dict Json
  evidence : Evidence
  occurredAt : Str

/-- A list of texts. -/
def strs (l : List Str) : Json := .arr (l.map .str)

def Evidence.toDict (e : Evidence) : Json :=
  .obj
    [("framework_tags", strs e.frameworkTags), ("redactions", strs e.redactions),
     ("rule_id", .str e.ruleId), ("latency_ms", .float e.latencyMs)]

/-- The entries of a map as fields. -/
def fields (args : Dict Json) : Json := .obj (args.entries.map (fun e => (e.1, e.2)))

def AuditEvent.toDict (a : AuditEvent) : Json :=
  .obj
    [("event_id", .str a.eventId), ("customer_id", .str a.customerId),
     ("agent_id", a.agentId), ("subject_id", .str a.subjectId),
     ("policy_id", .str a.policyId), ("decision", .str a.decision),
     ("reason", .str a.reason), ("action_type", .str a.actionType),
     ("action_payload", fields a.actionPayload), ("evidence", a.evidence.toDict),
     ("occurred_at", .str a.occurredAt)]

/-- `hash_subject`: a keyed pseudonym, empty when there is no subject or no key. -/
def hashSubject (hash : HashLib) (subject : Option Str) (key : Str) : Except Exc Str :=
  let subject := subject.getD []
  if subject.isEmpty || key.isEmpty then .ok []
  else do
    let keyBytes ← encode key
    let subjectBytes ← encode subject
    return hash.hmacSha256 keyBytes subjectBytes

/-- What a decision hands to the audit event. -/
structure Decision where
  agentId : Json
  subject : Option Str
  policyId : Str
  verdict : Str
  ruleId : Str
  reason : Str
  tool : Str
  args : Dict Json
  redactions : List Str
  frameworkTags : List Str
  latencyMs : Float64

/-- `agent_id or ""`. -/
def orEmpty (v : Json) : Json := if v.truthy then v else .str []

/-- `build_audit_event`: `eventId` and `occurredAt` come from `uuid4` and the
clock. -/
def buildAuditEvent (hash : HashLib) (eventId occurredAt tenantId : Str) (d : Decision) :
    Except Exc AuditEvent := do
  let tenantBytes ← encode tenantId
  return {
    eventId := eventId
    customerId := hash.uuid5 tenantBytes
    agentId := orEmpty d.agentId
    subjectId := d.subject.getD []
    policyId := d.policyId
    decision := d.verdict
    reason := d.reason
    actionType := d.tool
    actionPayload := d.args
    evidence :=
      { frameworkTags := d.frameworkTags, redactions := d.redactions, ruleId := d.ruleId
        latencyMs := d.latencyMs }
    occurredAt := occurredAt }

end TrustModelEdge.Telemetry
