/-
TrustModelEdge.Policy.Calls — the calls that assign to a cache, with
everything that can go wrong in them.

`_compile` prints conditions with `str` and dumps rules with `model_dump`,
which raise on a value nested deep enough, also on a policy that validates.
Which policies it raises on, and with what, is a parameter of each call.
It runs before `replace` and `replace_all` assign anything, and in
`load_from_disk` outside the handlers.
-/
import TrustModelEdge.Lib.Machine
import TrustModelEdge.Policy.Cache

namespace TrustModelEdge.Policy

open Py Lib

/-- The exception of `_compile` on a policy, if it raises one. -/
abbrev CompileRaises := EdgePolicy → Option Exc

def compiles (raises : CompileRaises) (p : EdgePolicy) : Except Exc Unit :=
  match raises p with
  | some e => .error e
  | none => .ok ()

/-! ## Loading -/

section Loading

variable [PyRuntime] (raises : CompileRaises) (wire : PolicyWire) (d : Disk) (stateDir : Path)

/-- The policy of a file and the time of it, compiled; `none` for a damaged
file. -/
def readCompiled (path : PurePath) : Except Exc (Option (EdgePolicy × Rat)) := do
  match ← readPolicy wire d path with
  | some (p, at_) => do
      compiles raises p
      return some (p, at_)
  | none => return none

/-- The loop over the names of the manifest. -/
def readPoliciesCompiling : List Json → Except Exc (List (EdgePolicy × Rat))
  | [] => .ok []
  | name :: names => do
      let row ← readListed d stateDir (readCompiled raises wire d) name
      let rest ← readPoliciesCompiling names
      return row.toList ++ rest

/-- `_load_manifest`. -/
def readManifestCompiling : Except Exc (Option PolicyCache) := do
  let found ← pathExists d (manifestPath stateDir)
  if found then
    match readText d (manifestPath stateDir) >>= wire.json.loads >>= manifestEntries with
    | .error e => if e.isValueError || e == .typeError then .ok none else .error e
    | .ok (names, primaryName) => do
        let rows ← readPoliciesCompiling raises wire d stateDir names
        loadedCache rows primaryName
  else return none

/-- `_load_legacy`. -/
def readLegacyCompiling : Except Exc (Option PolicyCache) := do
  let found ← pathExists d (legacyPath stateDir)
  if found then
    let read ← readCompiled raises wire d (legacyPath stateDir)
    return read.map (fun r => PolicyCache.install r.2 r.1)
  else return none

/-- What `load_from_disk` assigns. -/
def readDiskCompiling : Except Exc (Option PolicyCache) := do
  match ← readManifestCompiling raises wire d stateDir with
  | some c => return some c
  | none => readLegacyCompiling raises wire d stateDir

/-- `load_from_disk`: the cache afterwards, and what the call returns or
raises. -/
def PolicyCache.loadFromDiskCompiling (c : PolicyCache) : PolicyCache × Except Exc Bool :=
  match readDiskCompiling raises wire d stateDir with
  | .ok (some c') => (c', .ok true)
  | .ok none => (c, .ok false)
  | .error e => (c, .error e)

end Loading

/-! ## The cache as a machine -/

/-- A call of the program on a cache: its arguments, the clock, the disk it
meets and what befalls its operations there. -/
inductive CacheCall where
  | replace (raises : CompileRaises) (now : Rat) (p : EdgePolicy) (stateDir : Option Path)
      (env : DiskEnv)
  | replaceAll (raises : CompileRaises) (now : Rat) (policies : List EdgePolicy)
      (primaryName : Option Str) (stateDir : Option Path) (env : DiskEnv)
  | loadFromDisk (raises : CompileRaises) (d : Disk) (stateDir : Path)

/-- The end of a call that assigned: whatever becomes of the disk half, the
assignments stand. -/
def assigned (swap : PolicyCache × DiskM Unit) (env : DiskEnv) :
    PolicyCache × Except Stop Bool :=
  (swap.1, (swap.2.run env).1.map (fun _ => true))

/-- One call: the cache it leaves, and how it ends. -/
def callStep [PyRuntime] (wire : PolicyWire) (c : PolicyCache) (call : CacheCall) :
    PolicyCache × Except Stop Bool :=
  match call with
  | .replace raises now p stateDir env =>
      match compiles raises p with
      | .error e => (c, .error (.raised e))
      | .ok _ => assigned (PolicyCache.replace wire now p stateDir) env
  | .replaceAll raises now policies primaryName stateDir env =>
      match policies.forM (compiles raises) with
      | .error e => (c, .error (.raised e))
      | .ok _ => assigned (PolicyCache.replaceAll wire now policies primaryName stateDir) env
  | .loadFromDisk raises d stateDir =>
      let r := c.loadFromDiskCompiling raises wire d stateDir
      (r.1, r.2.mapError .raised)

end TrustModelEdge.Policy
