/-
TrustModelEdge.Routes.Replica — what an edge is for: a replica of the newest
edition of the policies that reached it.

A replica knows no wire, no compiled rules, no cache and no files. It holds an
edition and the time of it, and it rules on a request by the policy that the request
is routed to and the least of the rules that match. `view` says what a step of an
edge is to its replica.
-/
import TrustModelEdge.Engine.EditTheorems
import TrustModelEdge.Policy.SyncTheorems
import TrustModelEdge.Routes.Edge

namespace TrustModelEdge.Routes

open Py Policy OAuth Engine Telemetry Lib

/-! ## Editions -/

/-- The policies that are in force together, and which of them is the primary one. -/
structure Edition where
  policies : List EdgePolicy := []
  primaryName : Option Str := none

namespace Edition

variable (e : Edition)

/-- The policy of a name: of several, the last. -/
def policy (name : Str) : Option EdgePolicy := lastWith bundleName name e.policies

def primary : Option EdgePolicy := e.primaryName.bind e.policy

/-- The policy for a request, by the name it asks for. -/
def routed : Option Str → Option EdgePolicy
  | some name => e.policy name
  | none => e.primary

def names : List Str := sorted (e.policies.map bundleName).dedup

def clients : List AuthorizedClient := e.primary.elim [] (·.authorizedClients)

end Edition

/-- An edition and its time; nothing, at first. -/
structure Held where
  edition : Edition := {}
  asOf : Rat := 0

/-! ## Rulings -/

inductive Ruling where
  /-- The request asks for a name that no policy has. -/
  | unknown (name : Str) (available : List Str)
  | noPolicy
  | outdated (p : EdgePolicy) (age : Rat)
  | judged (p : EdgePolicy) (result : EvaluationResult)

section Rulings

variable [PyRuntime]

def Edition.ruling (e : Edition) (requested : Option Str) (inp : EvaluationInput) : Ruling :=
  match e.routed requested, requested with
  | some p, _ => .judged p (answerOf 0 inp (winner inp p.bundle.rules))
  | none, some name => .unknown name e.names
  | none, none => .noPolicy

/-- The ruling at the time `at_`: no verdict beyond the threshold. -/
def Held.ruling (threshold : Nat) (h : Held) (at_ : Rat) (requested : Option Str)
    (inp : EvaluationInput) : Ruling :=
  match h.edition.ruling requested inp with
  | .judged p result =>
      if at_ - h.asOf > threshold then .outdated p (at_ - h.asOf) else .judged p result
  | r => r

end Rulings

/-! ## Answers -/

/-- A response without the time it took. -/
def untimed (r : DecideResponse) : DecideResponse := { r with latencyMs := 0 }

section Answering

variable [PyRuntime] (cfg : Settings)

/-- The reply that a ruling calls for. -/
def Ruling.reply : Ruling → Except Failure DecideResponse
  | .unknown name available =>
      .error (.http
        { statusCode := 400
          detail := .obj
            [("error", .str (("policy_name=" : Str) ++ reprText name
                ++ (" not found in Edge cache" : Str))),
             ("code", .str "policy_not_found"),
             ("available", strs available)] })
  | .noPolicy => (answerCold cfg).reply
  | .outdated p age =>
      (answerStale cfg (compile p)
        { isStale := true, secondsSinceRefresh := some age, lastSuccessAt := none }).reply
  | .judged p result => .ok (evaluatedResponse (compile p) result)

/-- What came of a call tells its ruling. An exception may come in place of the verdict
of a policy. -/
inductive Answers : Option DecideOutcome → Option Ruling → Prop
  | silent : Answers none none
  | refused (o : DecideOutcome) (f : Failure) (hreply : o.reply = .error f)
      (heffects : o.effects = []) : Answers (some o) none
  | told (o : DecideOutcome) (r : Ruling) (hreply : o.reply.map untimed = r.reply cfg) :
      Answers (some o) (some r)
  | raised (o : DecideOutcome) (p : EdgePolicy) (result : EvaluationResult) (e : OAuthError)
      (hreply : o.reply = .error (.raised e)) : Answers (some o) (some (.judged p result))

/-- Two replies are the same but for the time it took, unless an exception came in the
place of one. -/
def SameAnswer (r r' : Except Failure DecideResponse) : Prop :=
  (∃ e, r = .error (.raised e)) ∨ (∃ e, r' = .error (.raised e)) ∨ r.map untimed = r'.map untimed

end Answering

/-! ## The replica as a machine -/

inductive Replica where
  | down
  | up (held : Held)

inductive ReplicaInput where
  /-- A start, and what it finds, if it succeeds. -/
  | restarted (found : Option Held)
  | published (edition : Edition) (at_ : Rat)
  | asked (at_ : Rat) (requested : Option Str) (inp : EvaluationInput)
  | died
  /-- Nothing that concerns it. -/
  | idle

def replicaStep [PyRuntime] (threshold : Nat) (r : Replica) :
    ReplicaInput → Replica × Option Ruling
  | .restarted found => (found.elim .down .up, none)
  | .died => (.down, none)
  | .idle => (r, none)
  | .published edition at_ =>
      match r with
      | .down => (r, none)
      | .up _ => (.up { edition := edition, asOf := at_ }, none)
  | .asked at_ requested inp =>
      match r with
      | .down => (r, none)
      | .up held => (r, some (held.ruling threshold at_ requested inp))

/-! ## The view of an edge -/

/-- The edition that a sync brings: none where the fetch fails, or a policy of it does
not compile. -/
def brought (compileFails : EdgePolicy → Bool) (wire : BodyWire) (g : Gateway)
    (multiPolicyEnabled : Bool) : Option Edition :=
  if multiPolicyEnabled then
    match fetchAll wire g with
    | .ok (policies, primaryName, _) =>
        if policies.any compileFails then none
        else some { policies := policies, primaryName := primaryName }
    | .error _ => none
  else
    match fetch wire g with
    | .ok p =>
        if compileFails p then none
        else some { policies := [p], primaryName := some p.bundle.name }
    | .error _ => none

section Views

variable [PyRuntime] (cfg : Settings) (jwt : JwtLib) (wire : BodyWire)

/-- What a start finds on the disk; none where it fails. -/
def foundOnDisk (d : Disk) : Option Held :=
  match readDisk wire.toPolicyWire d cfg.stateDir with
  | .error _ => none
  | .ok none => some {}
  | .ok (some c) => some
      { edition :=
          { policies := loadedPolicies wire.toPolicyWire d cfg.stateDir
            primaryName := c.primaryName }
        asOf := c.lastSuccessAt.getD 0 }

/-- The token of a call is accepted. -/
def EdgeCall.passes (call : EdgeCall) (disk : Disk) (app : AppState) : Bool :=
  (requireAgentToken jwt cfg disk call.readings.verifiedAt app call.authorization).2.isOk

/-- What a step of an edge is to its replica. A call whose token is refused does not
concern it, and the outcome of a sync on the disk only where the process dies. -/
def view (v : Edge × EdgeInput) : ReplicaInput :=
  match v.2, v.1.cache with
  | .restart, _ => .restarted (foundOnDisk cfg wire v.1.disk)
  | .sync s, some c =>
      if (v.1.sync cfg wire c s).cache.isNone then .died
      else
        (brought s.compileFails wire s.gateway cfg.multiPolicyEnabled).elim .idle
          (.published · s.now)
  | .decide call, some _ =>
      if call.passes cfg jwt v.1.disk v.1.app then
        .asked call.readings.checkedAt (requestedName cfg call.body) call.body.input
      else .idle
  | _, none => .idle

end Views

/-! ## Sites -/

/-- Where an edge runs, and what has happened to it. -/
structure Site where
  hash : HashLib
  cfg : Settings
  jwt : JwtLib
  wire : BodyWire
  disk : Disk
  inputs : List EdgeInput

namespace Site

variable [PyRuntime] (s : Site)

def step : Edge → EdgeInput → Edge × Option DecideOutcome :=
  edgeStep s.hash s.cfg s.jwt s.wire

/-- The edge at the end. -/
def edge : Edge := final s.step { disk := s.disk } s.inputs

def outcomes : List (Option DecideOutcome) := trace s.step { disk := s.disk } s.inputs

def views : List ReplicaInput :=
  (visits s.step { disk := s.disk } s.inputs).map (view s.cfg s.jwt s.wire)

/-- The replica at the end. -/
def replica : Replica := final (replicaStep s.cfg.policyStaleThresholdSeconds) .down s.views

def rulings : List (Option Ruling) :=
  trace (replicaStep s.cfg.policyStaleThresholdSeconds) .down s.views

end Site

end TrustModelEdge.Routes
