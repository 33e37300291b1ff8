/-
TrustModelEdge.Py.Disk — the state directory as `pathlib` sees it.

A path object is a resolved directory with the components appended to it;
the system call walks them, `..` included. File names are text: a name
with a surrogate is refused (the range U+DC80–U+DCFF, which the file
system codec turns into raw bytes, is left out). The tree holds no
symbolic links. Permissions and disk quotas are not state of the model:
what they can do to an operation is an entry of its fault list.

`DiskM` runs a routine of the program one operation at a time. Each
operation takes the next entry of the fault list: it happens, at the time
of the routine or at one of its own, it raises, or the process dies there;
a write that does not finish may leave any text behind.
-/
import TrustModelEdge.Lib.FileTree
import TrustModelEdge.Py.Exc

namespace TrustModelEdge.Py

open Lib

/-- What a file holds: `none` is bytes that are not UTF-8. -/
structure FileBody where
  text : Option Str
  mtime : Rat

abbrev Path := List Str

abbrev Disk := FileTree Str FileBody

/-! ## Path objects -/

/-- The components `parts` below the directory `root`. -/
structure PurePath where
  root : Path
  parts : List Str

def PurePath.ofDir (dir : Path) : PurePath where
  root := dir
  parts := []

/-- The components of a text: empty ones and `.` are dropped. -/
def pathParts (s : Str) : List Str :=
  (split (CodePoint.ofChar '/') s).filter (fun c => c ≠ [] ∧ c ≠ (".": Str))

/-- `p / s`: an absolute `s` replaces `p`. -/
def PurePath.join (p : PurePath) (s : Str) : PurePath :=
  if startsWith s "/" then { root := [], parts := pathParts s }
  else { root := p.root, parts := p.parts ++ pathParts s }

/-- `path.stem` of a name: up to its last dot, unless that dot is its first
or last character. -/
def stem (name : Str) : Str :=
  let before := (name.rdropWhile (· ≠ CodePoint.ofChar '.')).dropLast
  let after := name.rtakeWhile (· ≠ CodePoint.ofChar '.')
  if CodePoint.ofChar '.' ∈ name ∧ before ≠ [] ∧ after ≠ [] then before else name

/-- `p.with_suffix(suffix)`. -/
def PurePath.withSuffix (p : PurePath) (suffix : Str) : PurePath where
  root := p.root
  parts := p.parts.dropLast ++ [stem (p.parts.getLast?.getD []) ++ suffix]

/-! ## Resolution -/

inductive PathError where
  | missing
  | notDirectory
  | tooLong
  /-- The text is no path: a `ValueError`. -/
  | unusable (e : Exc)

def PathError.toExc : PathError → Exc
  | .missing => .fileNotFoundError
  | .notDirectory | .tooLong => .osError
  | .unusable e => e

def byteLength (s : Str) : Nat := (s.flatMap utf8Bytes).length

/-- `NAME_MAX` and `PATH_MAX`. -/
def nameMax : Nat := 255

def pathMax : Nat := 4096

/-- `str(path)`. -/
def PurePath.text (p : PurePath) : Str :=
  (p.root ++ p.parts).flatMap (fun c => CodePoint.ofChar '/' :: c)

/-- What is wrong with a path before any look-up. -/
def PurePath.problem (p : PurePath) : Option PathError :=
  let text := p.text
  if text.any isSurrogate then some (.unusable .unicodeEncodeError)
  else if CodePoint.nul ∈ text then some (.unusable .valueError)
  else if byteLength text ≥ pathMax then some .tooLong
  else none

/-- The walk of the system call from the directory `cur`. -/
def walk (d : Disk) : Path → List Str → Except PathError Path
  | cur, [] => .ok cur
  | cur, c :: cs =>
      if d.isDir cur then
        if byteLength c > nameMax then .error .tooLong
        else if c = ".." then walk d cur.dropLast cs
        else walk d (cur ++ [c]) cs
      else if (d.lookup cur).isSome then .error .notDirectory
      else .error .missing

def resolve (d : Disk) (p : PurePath) : Except PathError Path :=
  match p.problem with
  | some e => .error e
  | none => walk d p.root p.parts

/-! ## Reading -/

/-- `path.exists()`. -/
def pathExists (d : Disk) (p : PurePath) : Except Exc Bool :=
  match resolve d p with
  | .ok q => .ok (d.lookup q).isSome
  | .error .tooLong => .error .osError
  | .error _ => .ok false

/-- Text mode reads `\r\n` and `\r` as `\n`. -/
def universalNewlines (s : Str) : Str := go false s
where
  go : Bool → Str → Str
    | _, [] => []
    | afterCr, c :: cs =>
        if c = .cr then .lf :: go true cs
        else if c = .lf ∧ afterCr = true then go false cs
        else c :: go false cs

/-- The file a path leads to. -/
def fileAt (d : Disk) (p : PurePath) : Except Exc FileBody :=
  match resolve d p with
  | .error e => .error e.toExc
  | .ok q =>
      match d.lookup q with
      | none => .error .fileNotFoundError
      | some .dir => .error .osError
      | some (.file body) => .ok body

/-- `path.read_text(encoding="utf-8")`. -/
def readText (d : Disk) (p : PurePath) : Except Exc Str := do
  let body ← fileAt d p
  match body.text with
  | none => .error .unicodeDecodeError
  | some s => .ok (universalNewlines s)

/-- `path.stat().st_mtime` of a file. -/
def mtime (d : Disk) (p : PurePath) : Except Exc Rat := do
  let body ← fileAt d p
  return body.mtime

/-- The names `dir.glob("*.json")` yields. -/
def globJson (d : Disk) (dir : Path) : List Str :=
  (d.children dir).filter (fun name => (".json" : Str).isSuffixOf name)

/-! ## Routines that change the disk -/

/-- What befalls one operation. -/
inductive Fault where
  | none
  /-- It happens, at a time of its own. -/
  | late (t : Rat)
  /-- It raises; a write may leave a text behind. -/
  | fail (e : Exc) (left : Option Str)
  /-- The process dies; a write may leave a text behind. -/
  | crash (left : Option Str)

/-- Why a routine did not finish. -/
inductive Stop where
  | raised (e : Exc)
  | crashed

/-- The disk, the time of the routine, and the faults to come. -/
structure DiskEnv where
  disk : Disk
  now : Rat
  faults : List Fault

/-- The time of the next operation: its own, or else that of the routine. -/
def DiskEnv.time (env : DiskEnv) : Rat :=
  match env.faults with
  | .late t :: _ => t
  | _ => env.now

theorem DiskEnv.time_nil {env : DiskEnv} (h : env.faults = []) : env.time = env.now := by
  simp only [DiskEnv.time, h]

/-- A routine: it finishes with a value or stops, and leaves the disk in some
state either way. -/
structure DiskM (α : Type) where
  run : DiskEnv → Except Stop α × DiskEnv

namespace DiskM

variable {α γ : Type}

/-- Go on after a routine that finished; one that stopped stops the rest. -/
def andThen (r : Except Stop α × DiskEnv) (f : α → DiskM γ) : Except Stop γ × DiskEnv :=
  match r with
  | (.ok a, env) => (f a).run env
  | (.error e, env) => (.error e, env)

instance : Monad DiskM where
  pure a := { run := fun env => (.ok a, env) }
  bind m f := { run := fun env => andThen (m.run env) f }

def raise (e : Exc) : DiskM α where
  run env := (.error (.raised e), env)

/-- A call that does not touch the disk. -/
def lift : Except Exc α → DiskM α
  | .ok a => pure a
  | .error e => raise e

def getDisk : DiskM Disk where
  run env := (.ok env.disk, env)

/-- `try: … except OSError: …` around one operation, the error being logged. -/
def ignoreOsError (m : DiskM Unit) : DiskM Unit where
  run env :=
    match m.run env with
    | (.error (.raised e), env') =>
        if e.isOsError then (.ok (), env') else (.error (.raised e), env')
    | r => r

/-- One operation: `act` is what it does, `torn` what it leaves when it stops
half way. -/
def operation (act : Rat → Disk → Except Exc Disk) (torn : Rat → Str → Disk → Disk) :
    DiskM Unit where
  run env :=
    let left : Option Str → Disk := fun
      | none => env.disk
      | some s => torn env.time s env.disk
    match env.faults with
    | .fail e s :: fs => (.error (.raised e), { env with disk := left s, faults := fs })
    | .crash s :: fs => (.error .crashed, { env with disk := left s, faults := fs })
    | fs =>
        match act env.time env.disk with
        | .ok d => (.ok (), { env with disk := d, faults := fs.tail })
        | .error e => (.error (.raised e), { env with faults := fs.tail })

end DiskM

/-- Put a text at a path: what `open(path, "w")` followed by the write does. -/
def putText (p : PurePath) (now : Rat) (text : Str) (d : Disk) : Except Exc Disk :=
  match resolve d p with
  | .error e => .error e.toExc
  | .ok q =>
      match d.write q { text := some text, mtime := now } with
      | some d' => .ok d'
      | none => if d.isDir q.dropLast then .error .osError else .error .fileNotFoundError

/-- `path.write_text(text)`: the file is truncated before the text is encoded. -/
def writeText (p : PurePath) (text : Str) : DiskM Unit := do
  let torn := fun now s d => (putText p now s d).toOption.getD d
  if text.any isSurrogate then
    DiskM.operation (fun now d => putText p now [] d) torn
    DiskM.raise .unicodeEncodeError
  else DiskM.operation (fun now d => putText p now text d) torn

def movePath (source target : PurePath) (d : Disk) : Except Exc Disk :=
  match resolve d source, resolve d target with
  | .ok p, .ok q =>
      match d.rename p q with
      | some d' => .ok d'
      | none => if (d.lookup p).isSome then .error .osError else .error .fileNotFoundError
  | .error e, _ => .error e.toExc
  | _, .error e => .error e.toExc

/-- `source.replace(target)`. -/
def replaceFile (source target : PurePath) : DiskM Unit :=
  DiskM.operation (fun _ => movePath source target) (fun _ _ d => d)

def removePath (p : PurePath) (d : Disk) : Except Exc Disk :=
  match resolve d p with
  | .error e => .error e.toExc
  | .ok q =>
      match d.remove q with
      | some d' => .ok d'
      | none => if (d.lookup q).isSome then .error .osError else .error .fileNotFoundError

/-- `path.unlink()`. -/
def unlink (p : PurePath) : DiskM Unit :=
  DiskM.operation (fun _ => removePath p) (fun _ _ d => d)

/-- `dir.mkdir(parents=True, exist_ok=True)`. -/
def makeDirs (dir : Path) : DiskM Unit :=
  DiskM.operation
    (fun _ d =>
      match d.mkdirs [] dir with
      | some d' => .ok d'
      | none => .error .osError)
    (fun _ _ d => d)

end TrustModelEdge.Py
