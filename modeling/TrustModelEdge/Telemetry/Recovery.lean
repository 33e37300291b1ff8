/-
TrustModelEdge.Telemetry.Recovery — how a process opens its queue
(`_open_or_recreate`, `_rotate_corrupt_files` and `get_store` of
`telemetry/store.py`).

What SQLite makes of the files when it opens them is an input, a function of
the files that it meets, and so is what befalls each system call of the
program: it happens, it raises, or the process dies there. The contents of
files are of any type: nothing here looks into one. A `rename` is one of a
file; a directory in the place of a file of the queue is not moved here.
-/
import TrustModelEdge.Py.Disk
import TrustModelEdge.Telemetry.Store

namespace TrustModelEdge.Telemetry

open Py Lib

/-! ## Names -/

/-- `_DB_FILENAME`. -/
def dbFilename : Str := "telemetry.db"

/-- The suffixes that the rotation goes through. -/
def dbSuffixes : List Str := [("" : Str), ("-wal" : Str), ("-shm" : Str)]

def dbPath (dir : Path) (suffix : Str) : Path := dir ++ [dbFilename ++ suffix]

/-- The path that a file of the queue is set aside at. -/
def corruptPath (dir : Path) (suffix stamp : Str) : Path :=
  dir ++ [dbFilename ++ suffix ++ (".corrupt-" : Str) ++ stamp]

/-- `_CORRUPTION_MARKERS`. -/
def corruptionMarkers : List Str :=
  [("database disk image is malformed" : Str), ("file is not a database" : Str),
   ("database is locked" : Str)]

/-- `part in text`. -/
def occursIn (text part : Str) : Bool := text.tails.any (fun rest => startsWith rest part)

/-- `any(m in msg for m in _CORRUPTION_MARKERS)`, of the message in lower case. -/
def looksCorrupt (message : Str) : Bool :=
  corruptionMarkers.any (occursIn (lowerLatin1 message))

/-! ## What an open meets -/

/-- How SQLite fails to open the files. -/
inductive OpenError where
  /-- `sqlite3.DatabaseError`, with its text. -/
  | databaseError (message : Str)
  | raised (e : Exc)
  /-- The process died. -/
  | crashed

def OpenError.stop : OpenError → Stop
  | .databaseError _ => .raised .databaseError
  | .raised e => .raised e
  | .crashed => .crashed

/-- `with self._conn() as conn: conn.executescript(_DDL)`: the table of the queue it
opens, and the files it leaves. -/
abbrev Attempt (β : Type) :=
  FileTree Str β → Except OpenError (SerialTable EventRow) × FileTree Str β

/-- What befalls the three calls for a file, if they are made. -/
structure FileFaults where
  existsStops : Option Stop := none
  renameStops : Option Stop := none
  unlinkStops : Option Stop := none

structure OpenEnv (β : Type) where
  mkdirStops : Option Stop := none
  first : Attempt β
  /-- The time of the rotation, to the second. -/
  stamp : Str
  faults : Str → FileFaults
  second : Attempt β

/-- What the rotation logs, and which content the file had. -/
inductive RotateLog (β : Type) where
  | rotated (source target : Path) (content : β)
  | deleted (source : Path)
  | cleanupFailed (source : Path)

section Open

variable {β : Type}

/-! ## The rotation -/

/-- A system call: what befalls it comes first, then what the files allow. -/
def systemCall (stops : Option Stop) (after : Option (FileTree Str β)) :
    Except Stop (FileTree Str β) :=
  match stops, after with
  | some stop, _ => .error stop
  | none, some t => .ok t
  | none, none => .error (.raised .osError)

/-- The `unlink` after a `rename` that raised. -/
def unlinkCorrupt (source : Path) (stops : Option Stop) (t : FileTree Str β) :
    Except Stop (List (RotateLog β)) × FileTree Str β :=
  match systemCall stops (t.remove source) with
  | .ok t' => (.ok [.deleted source], t')
  | .error (.raised e) =>
      if e.isOsError then (.ok [.cleanupFailed source], t) else (.error (.raised e), t)
  | .error .crashed => (.error .crashed, t)

/-- The body of the loop of `_rotate_corrupt_files`. -/
def setAside (dir : Path) (stamp suffix : Str) (f : FileFaults) (t : FileTree Str β) :
    Except Stop (List (RotateLog β)) × FileTree Str β :=
  let source := dbPath dir suffix
  let target := corruptPath dir suffix stamp
  match f.existsStops with
  | some stop => (.error stop, t)
  | none =>
      match t.lookup source with
      | none => (.ok [], t)
      | some node =>
          match systemCall f.renameStops (t.rename source target) with
          | .ok t' =>
              match node with
              | .file content => (.ok [.rotated source target content], t')
              | .dir => (.ok [], t')
          | .error (.raised e) =>
              if e.isOsError then unlinkCorrupt source f.unlinkStops t
              else (.error (.raised e), t)
          | .error .crashed => (.error .crashed, t)

structure RotateOutcome (β : Type) where
  files : FileTree Str β
  log : List (RotateLog β)
  stopped : Option Stop

/-- `_rotate_corrupt_files`, from the suffixes that are left. -/
def rotateCorruptFiles (dir : Path) (stamp : Str) (faults : Str → FileFaults) :
    List Str → FileTree Str β → RotateOutcome β
  | [], t => { files := t, log := [], stopped := none }
  | suffix :: suffixes, t =>
      match setAside dir stamp suffix (faults suffix) t with
      | (.error stop, t') => { files := t', log := [], stopped := some stop }
      | (.ok log, t') =>
          let o := rotateCorruptFiles dir stamp faults suffixes t'
          { o with log := log ++ o.log }

/-! ## Opening -/

structure OpenOutcome (β : Type) where
  files : FileTree Str β
  log : List (RotateLog β) := []
  ended : Except Stop (SerialTable EventRow)

/-- An attempt whose error is not caught. -/
def attempted (a : Attempt β) (log : List (RotateLog β)) (t : FileTree Str β) : OpenOutcome β :=
  { files := (a t).2, log := log, ended := (a t).1.mapError OpenError.stop }

/-- `_open_or_recreate`. -/
def openOrRecreate (dir : Path) (env : OpenEnv β) (t : FileTree Str β) : OpenOutcome β :=
  match env.first t with
  | (.error (.databaseError message), t') =>
      if looksCorrupt message then
        let o := rotateCorruptFiles dir env.stamp env.faults dbSuffixes t'
        match o.stopped with
        | some stop => { files := o.files, log := o.log, ended := .error stop }
        | none => attempted env.second o.log o.files
      else attempted env.first [] t
  | _ => attempted env.first [] t

/-- `TelemetryStore.__init__`: the directory first. -/
def openStore (dir : Path) (env : OpenEnv β) (t : FileTree Str β) : OpenOutcome β :=
  match systemCall env.mkdirStops (t.mkdirs [] dir) with
  | .error stop => { files := t, ended := .error stop }
  | .ok t' => openOrRecreate dir env t'

/-! ## The store of the process -/

structure StoreArgs where
  stateDir : Option Path := none
  maxSize : Option Nat := none
  telemetryDir : Option Path := none

/-- How `get_store` ends. -/
inductive StoreEnd where
  | returned (store : AnyTelemetryStore)
  /-- The `RuntimeError` of a first call without the two arguments. -/
  | runtimeError
  | crashed

structure StoreOutcome (β : Type) where
  files : FileTree Str β
  log : List (RotateLog β) := []
  ended : StoreEnd

/-- Any exception of the open gives the stand-in. -/
def OpenOutcome.store (maxSize : Nat) (o : OpenOutcome β) : StoreOutcome β :=
  { files := o.files, log := o.log
    ended :=
      match o.ended with
      | .ok table => .returned (.real (.openOn table maxSize))
      | .error (.raised _) => .returned (.noop 0)
      | .error .crashed => .crashed }

/-- `get_store`, where `singleton` is `_store_singleton`. -/
def getStore (singleton : Option AnyTelemetryStore) (args : StoreArgs) (env : OpenEnv β)
    (t : FileTree Str β) : StoreOutcome β :=
  match singleton with
  | some store => { files := t, ended := .returned store }
  | none =>
      match args.stateDir, args.maxSize with
      | some stateDir, some maxSize =>
          (openStore (args.telemetryDir.getD stateDir) env t).store maxSize
      | _, _ => { files := t, ended := .runtimeError }

end Open

/-! ## The processes on one file system -/

structure QueueHost (β : Type) where
  files : FileTree Str β
  singleton : Option AnyTelemetryStore := none

inductive HostInput (β : Type) where
  | getStore (args : StoreArgs) (env : OpenEnv β)
  /-- What the calls on the store and the rest of the program make of the files and of
  the store. -/
  | others (files : FileTree Str β) (use : AnyTelemetryStore → AnyTelemetryStore)
  /-- A new process; `reset_store` does the same. -/
  | restart

def StoreEnd.singleton (s : Option AnyTelemetryStore) : StoreEnd → Option AnyTelemetryStore
  | .returned store => some store
  | .runtimeError => s
  | .crashed => none

/-- One step, and what it logs. -/
def hostStep {β : Type} (h : QueueHost β) : HostInput β → QueueHost β × List (RotateLog β)
  | .getStore args env =>
      let o := getStore h.singleton args env h.files
      ({ files := o.files, singleton := o.ended.singleton h.singleton }, o.log)
  | .others files use => ({ files := files, singleton := h.singleton.map use }, [])
  | .restart => ({ h with singleton := none }, [])

end TrustModelEdge.Telemetry
