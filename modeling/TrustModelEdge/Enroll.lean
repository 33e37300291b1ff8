/-
TrustModelEdge.Enroll — the start of a pod (`enroll.py`, the enroll call of
`control_plane.py`, `read_bootstrap_token` of `identity.py`).

A boot reuses the credentials on the disk or spends the bootstrap token. Of
the expiry the enrollment checks only that it parses; the first comparison
with the clock is made by the next boot.
-/
import TrustModelEdge.Heartbeat

namespace TrustModelEdge

open Py Lib

/-! ## The enroll call -/

structure EnrollBundle where
  edgeId : Json
  tenantId : Json
  certPem : Json
  keyPem : Json
  caChainPem : Json
  certValidFrom : DateTime
  certValidTo : DateTime
  agpEndpoint : Json
  telemetryEndpoint : Json

/-- The bundle of a body. -/
def enrollBundle (fromisoformat : Str → Except Exc DateTime) (b : Json) :
    Except Exc EnrollBundle := do
  let edgeId ← metaField b "edge_id"
  let tenantId ← metaField b "tenant_id"
  let certPem ← metaField b "client_cert"
  let keyPem ← metaField b "client_key"
  let caChainPem ← metaField b "ca_chain"
  let certValidFrom ← metaField b "cert_valid_from" >>= bodyDate fromisoformat
  let certValidTo ← metaField b "cert_valid_to" >>= bodyDate fromisoformat
  let agpEndpoint ← metaField b "agp_endpoint"
  let telemetryEndpoint ← metaField b "telemetry_endpoint"
  return {
    edgeId := edgeId, tenantId := tenantId, certPem := certPem, keyPem := keyPem
    caChainPem := caChainPem, certValidFrom := certValidFrom, certValidTo := certValidTo
    agpEndpoint := agpEndpoint, telemetryEndpoint := telemetryEndpoint }

/-- What `enroll` posts. -/
structure EnrollRequest where
  url : Str
  bootstrapToken : Str
  edgePodId : Str
  clusterFingerprint : Str

/-- `url.rstrip("/")`. -/
def rstripSlash (url : Str) : Str := url.rdropWhile (· = CodePoint.ofChar '/')

def enrollRequest (cfg : Settings) (token : Str) : EnrollRequest where
  url := rstripSlash (rstripSlash cfg.controlPlaneUrl) ++ ("/api/v1/edge/enroll/" : Str)
  bootstrapToken := token
  edgePodId := cfg.podId
  clusterFingerprint := cfg.clusterFingerprint

/-- `enroll`, once its request is sent. -/
def enroll (fromisoformat : Str → Except Exc DateTime) :
    Answer → Except ControlPlaneError EnrollBundle
  | .networkError => .error .edgeControlPlaneError
  | .otherError e => .error (.raised e)
  | .response statusCode text json =>
      if statusCode ≠ 201 then .error (statusError text)
      else do
        let b ← unhandled json
        unhandled (enrollBundle fromisoformat b)

/-! ## The token and the clock -/

/-- `text.strip() or None`. -/
def strippedToken (text : Str) : Option Str :=
  let token := strip text
  if token.isEmpty then none else some token

/-- `read_bootstrap_token`. -/
def readBootstrapToken (d : Disk) (path : PurePath) (override : Str) :
    Except Exc (Option Str) :=
  if ¬ override.isEmpty then .ok (strippedToken override)
  else
    match readText d path with
    | .error e => if e = .fileNotFoundError then .ok none else .error e
    | .ok text => .ok (strippedToken text)

/-- `a > b`: times with an offset and times without do not compare. -/
def DateTime.gt (a b : DateTime) : Except Exc Bool :=
  match a.offset, b.offset with
  | some o, some o' => .ok (b.wall - o' < a.wall - o)
  | none, none => .ok (b.wall < a.wall)
  | _, _ => .error .typeError

/-- `existing and existing.cert_valid_to > datetime.now(UTC)`. -/
def stillValid (existing : Option LoadedCredentials) (now : Rat) : Except Exc Bool :=
  match existing with
  | none => .ok false
  | some creds => creds.certValidTo.gt { wall := now, offset := some 0 }

/-! ## Booting -/

/-- The identifiers and endpoints of the bundle; its texts are `issued`. -/
def EnrollBundle.identity (bundle : EnrollBundle) : LoadedCredentials where
  edgeId := bundle.edgeId
  tenantId := bundle.tenantId
  certPem := []
  keyPem := []
  caChainPem := []
  certValidTo := bundle.certValidTo
  agpEndpoint := bundle.agpEndpoint
  telemetryEndpoint := bundle.telemetryEndpoint

def EnrollBundle.issued (bundle : EnrollBundle) : RotateBundle where
  certPem := bundle.certPem
  keyPem := bundle.keyPem
  caChainPem := bundle.caChainPem
  certValidFrom := bundle.certValidFrom
  certValidTo := bundle.certValidTo

/-- What a boot meets besides the disk. -/
structure Boot where
  cfg : Settings
  now : Rat
  answer : Answer
  /-- The time of its writes, and what befalls them. -/
  writtenAt : Rat
  faults : List Fault

/-- How a boot ends. -/
inductive BootEnd where
  | returned (creds : LoadedCredentials)
  | enrollmentFailed
  | raised (e : ControlPlaneError)
  /-- The process died while it wrote. -/
  | crashed

structure BootOutcome where
  /-- The request of the enroll call, if one was made. -/
  posted : Option EnrollRequest := none
  disk : Disk
  ended : BootEnd

section Booting

variable (lib : HeartbeatLib) (b : Boot) (d : Disk)

/-- The persisting of an enrollment. -/
def enrolledTo (request : EnrollRequest) (bundle : EnrollBundle) : BootOutcome :=
  match (persistRotated lib b.cfg.stateDir bundle.identity bundle.issued).run
      { disk := d, now := b.writtenAt, faults := b.faults } with
  | (.ok creds, env) => { posted := some request, disk := env.disk, ended := .returned creds }
  | (.error (.raised e), env) =>
      { posted := some request, disk := env.disk, ended := .raised (.raised e) }
  | (.error .crashed, env) => { posted := some request, disk := env.disk, ended := .crashed }

/-- The part of a boot that spends the token. -/
def enrollWith (token : Str) : BootOutcome :=
  let request := enrollRequest b.cfg token
  match enroll lib.fromisoformat b.answer with
  | .error .edgeControlPlaneError =>
      { posted := some request, disk := d, ended := .enrollmentFailed }
  | .error e => { posted := some request, disk := d, ended := .raised e }
  | .ok bundle => enrolledTo lib b d request bundle

/-- `bootstrap_if_needed`. -/
def bootstrapIfNeeded : BootOutcome :=
  match loadCredentials lib.json lib.fromisoformat d b.cfg.stateDir with
  | .error e => { disk := d, ended := .raised (.raised e) }
  | .ok existing =>
      match existing, stillValid existing b.now with
      | _, .error e => { disk := d, ended := .raised (.raised e) }
      | some creds, .ok true => { disk := d, ended := .returned creds }
      | _, .ok _ =>
          match readBootstrapToken d b.cfg.bootstrapTokenPath b.cfg.bootstrapToken with
          | .error e => { disk := d, ended := .raised (.raised e) }
          | .ok none => { disk := d, ended := .enrollmentFailed }
          | .ok (some token) => enrollWith lib b d token

end Booting

/-! ## The boots on one disk -/

/-- A boot, or what the rest of the program makes of the disk. -/
inductive PodInput where
  | boot (b : Boot)
  | others (d : Disk)

def podStep (lib : HeartbeatLib) (d : Disk) : PodInput → Disk × Option BootOutcome
  | .boot b =>
      let o := bootstrapIfNeeded lib b d
      (o.disk, some o)
  | .others d' => (d', none)

end TrustModelEdge
