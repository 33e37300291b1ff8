/-
TrustModelEdge.Policy.Cache — the in-memory policy map with its two disk
layouts (`policy/cache.py`).

A call of `replace` or `replace_all` has a memory half, which cannot fail,
and then a disk half; both are kept apart here (`install`, `installAll`,
`persistLegacy`, `persistManifest`) and put together in the order of the
source. `load_from_disk` reads before it assigns, so its reading half
(`readManifest`, `readLegacy`) says what there is to assign, if anything.
-/
import TrustModelEdge.Policy.Snapshot
import TrustModelEdge.Py.Disk

namespace TrustModelEdge.Policy

open Py Engine

/-- The text forms of policies: `json`, `EdgePolicy.model_validate` and
`model_dump_json`. -/
structure PolicyWire where
  json : JsonText
  validate : Json → Except Exc EdgePolicy
  dump : EdgePolicy → Except Exc Str

/-- `EdgePolicy.model_validate(json.loads(text))`. -/
def PolicyWire.parse (wire : PolicyWire) (text : Str) : Except Exc EdgePolicy := do
  let raw ← wire.json.loads text
  wire.validate raw

structure PolicyCache where
  snapshots : Dict CacheSnapshot := ∅
  primaryName : Option Str := none
  lastSuccessAt : Option Rat := none

/-! ## The layouts -/

def legacyFilename : Str := "policy.json"
def manifestFilename : Str := "manifest.json"
def policiesSubdir : Str := "policies"

def legacyPath (stateDir : Path) : PurePath := (PurePath.ofDir stateDir).join legacyFilename

def manifestPath (stateDir : Path) : PurePath := (PurePath.ofDir stateDir).join manifestFilename

def policiesDir (stateDir : Path) : Path := stateDir ++ [policiesSubdir]

/-- `state_dir / "policies" / f"{name}.json"`. -/
def policyPath (stateDir : Path) (name : Str) : PurePath :=
  (PurePath.ofDir (policiesDir stateDir)).join (name ++ (".json" : Str))

def tmpSuffix : Str := ".json.tmp"

namespace PolicyCache

variable [PyRuntime]

/-! ## Reading -/

def isWarm (c : PolicyCache) : Bool := !c.snapshots.entries.isEmpty

def compiledByName (c : PolicyCache) (name : Str) : Option CompiledPolicy :=
  (c.snapshots.lookup name).map (·.compiled)

def primaryCompiled (c : PolicyCache) : Option CompiledPolicy :=
  c.primaryName.bind c.compiledByName

def allNames (c : PolicyCache) : List Str := sorted c.snapshots.keys

def snapshot (c : PolicyCache) : Option CacheSnapshot :=
  c.primaryName.bind (c.snapshots.lookup ·)

/-- The OAuth clients of the primary snapshot. -/
def authorizedClients (c : PolicyCache) : List AuthorizedClient :=
  match c.snapshot with
  | some snap => snap.edgePolicy.authorizedClients
  | none => []

/-! ## Writing memory -/

/-- One turn of a loop that fills a map of snapshots. -/
def addSnapshot (acc : Dict CacheSnapshot) (snap : CacheSnapshot) : Dict CacheSnapshot :=
  acc.insert snap.edgePolicy.bundle.name snap

/-- The assignments of `replace`. -/
def install (now : Rat) (p : EdgePolicy) : PolicyCache where
  snapshots := addSnapshot ∅ (snapshotOf now p)
  primaryName := some p.bundle.name
  lastSuccessAt := some now

/-- The primary name, cleared when no snapshot carries it. -/
def keepPrimary (snapshots : Dict CacheSnapshot) (primaryName : Option Str) : Option Str :=
  primaryName.filter (fun name => decide (name ∈ snapshots))

/-- The assignments of `replace_all`. -/
def installAll (now : Rat) (policies : List EdgePolicy) (primaryName : Option Str) :
    PolicyCache :=
  let snapshots := (policies.map (snapshotOf now)).foldl addSnapshot ∅
  { snapshots := snapshots
    primaryName := keepPrimary snapshots primaryName
    lastSuccessAt := some now }

end PolicyCache

/-! ## Writing the disk -/

/-- Write a text next to its target and move it there. -/
def writeAside (target : PurePath) (text : Str) : DiskM Unit := do
  let tmp := target.withSuffix tmpSuffix
  writeText tmp text
  replaceFile tmp target

/-- `_persist_legacy_to_disk`. -/
def persistLegacy (wire : PolicyWire) (stateDir : Path) (p : EdgePolicy) : DiskM Unit := do
  makeDirs stateDir
  let text ← DiskM.lift (wire.dump p)
  writeAside (legacyPath stateDir) text

/-- The loop over the policies. -/
def persistPolicies (wire : PolicyWire) (stateDir : Path) : List EdgePolicy → DiskM Unit
  | [] => pure ()
  | p :: ps => do
      let text ← DiskM.lift (wire.dump p)
      writeAside (policyPath stateDir p.bundle.name) text
      persistPolicies wire stateDir ps

/-- A file of the policies directory goes when it is of no current policy. -/
def dropOrphan (stateDir : Path) (currentNames : List Str) (file : Str) : DiskM Unit :=
  if stem file ∈ currentNames then pure ()
  else DiskM.ignoreOsError (unlink { root := policiesDir stateDir, parts := [file] })

/-- The loop over the files of the policies directory. -/
def dropOrphans (stateDir : Path) (currentNames : List Str) : List Str → DiskM Unit
  | [] => pure ()
  | file :: files => do
      dropOrphan stateDir currentNames file
      dropOrphans stateDir currentNames files

/-- The object written to `manifest.json`. -/
def manifestJson (policies : List EdgePolicy) (primaryName : Option Str) : Json :=
  let names := sorted (policies.map (·.bundle.name))
  .obj
    [(("primary_name" : Str), primaryName.elim .null .str),
     (("names" : Str), .arr (names.map .str))]

/-- `_persist_manifest_to_disk`. -/
def persistManifest (wire : PolicyWire) (stateDir : Path) (policies : List EdgePolicy)
    (primaryName : Option Str) : DiskM Unit := do
  makeDirs stateDir
  makeDirs (policiesDir stateDir)
  persistPolicies wire stateDir policies
  let disk ← DiskM.getDisk
  dropOrphans stateDir (policies.map (·.bundle.name)) (globJson disk (policiesDir stateDir))
  writeAside (manifestPath stateDir) (wire.json.dumps (manifestJson policies primaryName))

/-! ## Reading the disk -/

/-- `isinstance(exc, (json.JSONDecodeError, ValueError))`, the errors a
damaged file is skipped for. -/
def readPolicy (wire : PolicyWire) (d : Disk) (path : PurePath) :
    Except Exc (Option (EdgePolicy × Rat)) :=
  match readText d path >>= wire.parse with
  | .ok p => do
      let at_ ← mtime d path
      return some (p, at_)
  | .error e => if e.isValueError then .ok none else .error e

/-- `list(value)`. -/
def listOf : Json → Except Exc (List Json)
  | .arr items => .ok items
  | .str s => .ok (s.map (fun c => .str [c]))
  | .obj fields => .ok (fields.map (fun f => .str f.1))
  | _ => .error .typeError

/-- The entries of a manifest: `list(manifest.get("names", []))` and
`manifest.get("primary_name")`. -/
def manifestEntries (manifest : Json) : Except Exc (List Json × Json) :=
  match manifest with
  | .obj _ => do
      let names ← listOf ((manifest.field? "names").getD (.arr []))
      return (names, (manifest.field? "primary_name").getD .null)
  | _ => .error .attributeError

section Loading

variable [PyRuntime] (wire : PolicyWire) (d : Disk) (stateDir : Path)

/-- An absent or damaged policy file is skipped with a warning that carries
`extra={"name": name, …}`. `logging` refuses to overwrite an attribute of its
records, and `name` is one: the call raises where a record is made. -/
def skipWithWarning {α : Type} : Option α → Except Exc (Option α)
  | some a => .ok (some a)
  | none => if PyRuntime.logsWarnings then .error .keyError else .ok none

/-- One turn of the loop over the names of the manifest, on what reads a file. -/
def readListed (read : PurePath → Except Exc (Option (EdgePolicy × Rat))) (name : Json) :
    Except Exc (Option (EdgePolicy × Rat)) := do
  let path := policyPath stateDir name.toStr
  let found ← pathExists d path
  if found then
    let row ← read path
    skipWithWarning row
  else skipWithWarning none

/-- The loop over the names of the manifest: the policies that could be read,
each with the time of its file. -/
def readPolicies : List Json → Except Exc (List (EdgePolicy × Rat))
  | [] => .ok []
  | name :: names => do
      let row ← readListed d stateDir (readPolicy wire d) name
      let rest ← readPolicies names
      return row.toList ++ rest

/-- `primary_name is not None and primary_name not in snapshots`, on whatever
the manifest holds: a list or an object is not hashable. -/
def loadedPrimary (snapshots : Dict CacheSnapshot) : Json → Except Exc (Option Str)
  | .str s => .ok (PolicyCache.keepPrimary snapshots (some s))
  | .arr _ | .obj _ => .error .typeError
  | _ => .ok none

/-- What the manifest layout holds: the policies read and the primary name as
the manifest has it; `none` when there is no manifest or it is damaged. -/
def readManifestRows : Except Exc (Option (List (EdgePolicy × Rat) × Json)) := do
  let found ← pathExists d (manifestPath stateDir)
  if found then
    match readText d (manifestPath stateDir) >>= wire.json.loads >>= manifestEntries with
    | .error e => if e.isValueError || e == .typeError then .ok none else .error e
    | .ok (names, primaryName) => do
        let rows ← readPolicies wire d stateDir names
        return some (rows, primaryName)
  else return none

/-- The cache made of the policies read, `none` when there are none. -/
def loadedCache (rows : List (EdgePolicy × Rat)) (primaryName : Json) :
    Except Exc (Option PolicyCache) :=
  let snapshots := (rows.map (fun r => snapshotOf r.2 r.1)).foldl PolicyCache.addSnapshot ∅
  if snapshots.entries.isEmpty then .ok none
  else do
    let primaryName ← loadedPrimary snapshots primaryName
    return some
      { snapshots := snapshots
        primaryName := primaryName
        lastSuccessAt := (snapshots.entries.map (fun e => e.2.refreshedAt)).max? }

/-- What there is to assign after `_load_manifest`, `none` when it returns
`False`. -/
def readManifest : Except Exc (Option PolicyCache) := do
  match ← readManifestRows wire d stateDir with
  | some (rows, primaryName) => loadedCache rows primaryName
  | none => return none

/-- What there is to assign after `_load_legacy`. -/
def readLegacy : Except Exc (Option PolicyCache) := do
  let found ← pathExists d (legacyPath stateDir)
  if found then
    let read ← readPolicy wire d (legacyPath stateDir)
    return read.map (fun r => PolicyCache.install r.2 r.1)
  else return none

/-- What `load_from_disk` assigns. -/
def readDisk : Except Exc (Option PolicyCache) := do
  match ← readManifest wire d stateDir with
  | some c => return some c
  | none => readLegacy wire d stateDir

/-- `load_from_disk`: the cache afterwards, and what the call returns or
raises. -/
def PolicyCache.loadFromDisk (c : PolicyCache) : PolicyCache × Except Exc Bool :=
  match readDisk wire d stateDir with
  | .ok (some c') => (c', .ok true)
  | .ok none => (c, .ok false)
  | .error e => (c, .error e)

end Loading

/-! ## The write API -/

variable [PyRuntime]

/-- `replace(edge_policy, state_dir=…)`: the new cache stands whatever becomes
of the disk half. -/
def PolicyCache.replace (wire : PolicyWire) (now : Rat) (p : EdgePolicy)
    (stateDir : Option Path) : PolicyCache × DiskM Unit :=
  (.install now p,
    match stateDir with
    | some dir => persistLegacy wire dir p
    | none => pure ())

/-- `replace_all(policies, primary_name=…, state_dir=…)`: the manifest gets the
primary name that memory got. -/
def PolicyCache.replaceAll (wire : PolicyWire) (now : Rat) (policies : List EdgePolicy)
    (primaryName : Option Str) (stateDir : Option Path) : PolicyCache × DiskM Unit :=
  let c := PolicyCache.installAll now policies primaryName
  (c,
    match stateDir with
    | some dir => persistManifest wire dir policies c.primaryName
    | none => pure ())

end TrustModelEdge.Policy
