/-
TrustModelEdge.Identity — the enrollment credentials on disk
(`identity.py`).

The four files are written in place, one after the other, so a stop half
way leaves some of them new. The loader takes whatever values `meta.json`
holds for the identifiers; only the expiry is parsed.
-/
import TrustModelEdge.Py.Disk

namespace TrustModelEdge

open Py

/-- A `datetime`: its wall clock reading, and its offset from UTC when it has
one. -/
structure DateTime where
  wall : Rat
  offset : Option Rat

structure EdgeCredentials where
  edgeId : Str
  tenantId : Str
  certPem : Str
  keyPem : Str
  caChainPem : Str
  certValidTo : DateTime
  agpEndpoint : Str
  telemetryEndpoint : Str

/-- `CREDENTIAL_FILES`. -/
def certFile : Str := "cert.pem"
def keyFile : Str := "key.pem"
def caFile : Str := "ca.pem"
def metaFile : Str := "meta.json"

def credentialPath (stateDir : Path) (file : Str) : PurePath :=
  (PurePath.ofDir stateDir).join file

/-- The object written to `meta.json`; `isoformat` prints the expiry. -/
def metaJson (isoformat : DateTime → Str) (creds : EdgeCredentials) : Json :=
  .obj
    [("edge_id", .str creds.edgeId), ("tenant_id", .str creds.tenantId),
     ("cert_valid_to", .str (isoformat creds.certValidTo)),
     ("agp_endpoint", .str creds.agpEndpoint),
     ("telemetry_endpoint", .str creds.telemetryEndpoint)]

/-- `persist_credentials`. The `chmod` between the key and the chain changes no
content. -/
def persistCredentials (json : JsonText) (isoformat : DateTime → Str) (stateDir : Path)
    (creds : EdgeCredentials) : DiskM Unit := do
  makeDirs stateDir
  writeText (credentialPath stateDir certFile) creds.certPem
  writeText (credentialPath stateDir keyFile) creds.keyPem
  DiskM.operation (fun _ d => .ok d) (fun _ _ d => d)
  writeText (credentialPath stateDir caFile) creds.caChainPem
  writeText (credentialPath stateDir metaFile) (json.dumps (metaJson isoformat creds))

/-- What `load_credentials` builds: the fields of `EdgeCredentials`, those from
`meta.json` as it has them. -/
structure LoadedCredentials where
  edgeId : Json
  tenantId : Json
  certPem : Str
  keyPem : Str
  caChainPem : Str
  certValidTo : DateTime
  agpEndpoint : Json
  telemetryEndpoint : Json

/-- Credentials as values that a loader could have built. -/
def EdgeCredentials.loaded (creds : EdgeCredentials) : LoadedCredentials where
  edgeId := .str creds.edgeId
  tenantId := .str creds.tenantId
  certPem := creds.certPem
  keyPem := creds.keyPem
  caChainPem := creds.caChainPem
  certValidTo := creds.certValidTo
  agpEndpoint := .str creds.agpEndpoint
  telemetryEndpoint := .str creds.telemetryEndpoint

/-- `meta[key]`. -/
def metaField (meta_ : Json) (key : Str) : Except Exc Json :=
  match meta_ with
  | .obj fields =>
      match fields.lookup key with
      | some v => .ok v
      | none => .error .keyError
  | _ => .error .typeError

/-- `datetime.fromisoformat(value)`. -/
def isoDateTime (fromisoformat : Str → Except Exc DateTime) : Json → Except Exc DateTime
  | .str s => fromisoformat s
  | _ => .error .typeError

/-- The four files, read in the order of the source. -/
def readCredentialFiles (json : JsonText) (d : Disk) (stateDir : Path) :
    Except Exc (Json × Str × Str × Str) := do
  let metaText ← readText d (credentialPath stateDir metaFile)
  let meta_ ← json.loads metaText
  let certPem ← readText d (credentialPath stateDir certFile)
  let keyPem ← readText d (credentialPath stateDir keyFile)
  let caPem ← readText d (credentialPath stateDir caFile)
  return (meta_, certPem, keyPem, caPem)

/-- The credentials made of what the files hold. -/
def buildCredentials (fromisoformat : Str → Except Exc DateTime) (meta_ : Json)
    (certPem keyPem caPem : Str) : Except Exc LoadedCredentials := do
  let edgeId ← metaField meta_ "edge_id"
  let tenantId ← metaField meta_ "tenant_id"
  let certValidTo ← metaField meta_ "cert_valid_to" >>= isoDateTime fromisoformat
  let agpEndpoint ← metaField meta_ "agp_endpoint"
  let telemetryEndpoint ← metaField meta_ "telemetry_endpoint"
  return {
    edgeId := edgeId, tenantId := tenantId, certPem := certPem, keyPem := keyPem
    caChainPem := caPem, certValidTo := certValidTo, agpEndpoint := agpEndpoint
    telemetryEndpoint := telemetryEndpoint }

/-- `load_credentials`. -/
def loadCredentials (json : JsonText) (fromisoformat : Str → Except Exc DateTime) (d : Disk)
    (stateDir : Path) : Except Exc (Option LoadedCredentials) := do
  let found ← pathExists d (credentialPath stateDir metaFile)
  if found then
    match readCredentialFiles json d stateDir with
    | .error e =>
        if e = .fileNotFoundError ∨ e = .jsonDecodeError then return none else .error e
    | .ok (meta_, certPem, keyPem, caPem) =>
        let creds ← buildCredentials fromisoformat meta_ certPem keyPem caPem
        return some creds
  else return none

end TrustModelEdge
