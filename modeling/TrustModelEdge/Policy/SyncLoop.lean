/-
TrustModelEdge.Policy.SyncLoop — the first sync and the refresh loop
(`warm`, `run_forever` of `policy/sync.py`).

Everything a tick meets is its input (`SyncTick`): the clock, the disk as
other tasks left it, the faults of the disk, the answers of the gateway,
and the policies that `_compile` raises on. Each GET mints a cert-JWT
first, from the files of the enrollment.
-/
import TrustModelEdge.Config
import TrustModelEdge.Lib.Machine
import TrustModelEdge.Policy.Sync

namespace TrustModelEdge.Policy

open Py OAuth Lib

/-! ## A sync whose compile may raise -/

section Compiling

variable [PyRuntime] (compileFails : EdgePolicy → Bool) (wire : BodyWire) (g : Gateway)
  (now : Rat) (stateDir : Path) (env : DiskEnv) (c : PolicyCache)

/-- The swap of fetched policies. An exception of `_compile` comes before it,
and `except Exception` turns it into `False`. -/
def swappedCompiling (policies : List EdgePolicy) (swap : PolicyCache × DiskM Unit) :
    SyncOutcome :=
  if policies.any compileFails then { cache := c, env := env, ended := .returned false }
  else swapped swap env

/-- `_sync_once_singular`. -/
def syncOnceSingularCompiling : SyncOutcome :=
  match fetch wire g with
  | .error e => fetchFailed c env e
  | .ok p =>
      swappedCompiling compileFails env c [p]
        (PolicyCache.replace wire.toPolicyWire now p (some stateDir))

/-- `_sync_once_multi`. -/
def syncOnceMultiCompiling : SyncOutcome :=
  match fetchAll wire g with
  | .error e => fetchFailed c env e
  | .ok (policies, primaryName, _clients) =>
      swappedCompiling compileFails env c policies
        (PolicyCache.replaceAll wire.toPolicyWire now policies primaryName (some stateDir))

/-- `sync_once`. -/
def syncOnceCompiling (multiPolicyEnabled : Bool) : SyncOutcome :=
  if multiPolicyEnabled then syncOnceMultiCompiling compileFails wire g now stateDir env c
  else syncOnceSingularCompiling compileFails wire g now stateDir env c

/-- Where no compile raises, this is the sync. -/
theorem syncOnceCompiling_none (multiPolicyEnabled : Bool) :
    syncOnceCompiling (fun _ => false) wire g now stateDir env c multiPolicyEnabled =
      syncOnce wire g now stateDir env c multiPolicyEnabled := by
  cases multiPolicyEnabled with
  | false =>
    show syncOnceSingularCompiling _ wire g now stateDir env c =
      syncOnceSingular wire g now stateDir env c
    unfold syncOnceSingularCompiling syncOnceSingular
    cases fetch wire g <;> simp [swappedCompiling]
  | true =>
    show syncOnceMultiCompiling _ wire g now stateDir env c =
      syncOnceMulti wire g now stateDir env c
    unfold syncOnceMultiCompiling syncOnceMulti
    cases fetchAll wire g <;> simp [swappedCompiling]

/-! ## The first sync -/

/-- How `warm` ends. -/
inductive WarmEnd where
  | returned
  /-- The `RuntimeError` of `warm` itself. -/
  | runtimeError (message : Str)
  /-- An exception that the sync let through. -/
  | raised (e : OAuthError)
  /-- The process died while it wrote. -/
  | crashed
deriving DecidableEq

structure WarmOutcome where
  cache : PolicyCache
  env : DiskEnv
  ended : WarmEnd

/-- What `warm` makes of its sync. -/
def SyncOutcome.warmEnd (requireSuccess : Bool) (o : SyncOutcome) : WarmEnd :=
  match o.ended with
  | .returned true => .returned
  | .returned false =>
      if requireSuccess || !o.cache.isWarm then
        .runtimeError "edge policy cache could not be warmed; no disk fallback either"
      else .returned
  | .raised e => .raised e
  | .crashed => .crashed

/-- `warm`. -/
def warm (requireSuccess multiPolicyEnabled : Bool) : WarmOutcome :=
  let o := syncOnceCompiling compileFails wire g now stateDir env c multiPolicyEnabled
  { cache := o.cache, env := o.env, ended := o.warmEnd requireSuccess }

end Compiling

/-! ## The loop -/

/-- How a GET ends once its token is minted. -/
inductive Transport where
  /-- An `httpx.HTTPError`. -/
  | transportError
  | otherError (e : Exc)
  | response (statusCode : Nat) (text : Except Exc Str) (json : Except Exc Json)

/-- The request is sent, its token being minted. -/
def Transport.result : Transport → HttpResult
  | .transportError => .transportError
  | .otherError e => .otherError e
  | .response statusCode text json => .response statusCode text json

/-- The mint and the request of one `_http_get`. -/
def httpResult (minted : Except OAuthError Str) (t : Transport) : HttpResult :=
  match minted with
  | .error e => .mintFailed e
  | .ok _ => t.result

/-- `_DEFAULT_TTL_SECONDS`. -/
def defaultTtlSeconds : Int := 60

/-- The libraries a sync calls; `decodeError` is the text of an error of
`json.loads`. -/
structure SyncLib where
  jwt : JwtLib
  wire : BodyWire
  decodeError : Str → Str

structure SyncTick where
  /-- The clock at the GET of either path, and at the swap. -/
  singularAt : Rat
  pluralAt : Rat
  now : Rat
  env : DiskEnv
  singular : Transport
  plural : Transport
  compileFails : EdgePolicy → Bool

/-- The token of a GET at the time `at_`. -/
def SyncTick.minted (t : SyncTick) (lib : SyncLib) (stateDir : Path) (at_ : Rat) :
    Except OAuthError Str :=
  mintCertJwt lib.jwt lib.wire.json lib.decodeError at_ t.env.disk stateDir none defaultTtlSeconds

def SyncTick.gateway (t : SyncTick) (lib : SyncLib) (stateDir : Path) : Gateway where
  singular := httpResult (t.minted lib stateDir t.singularAt) t.singular
  plural := httpResult (t.minted lib stateDir t.pluralAt) t.plural

/-- How the loop ends. -/
inductive LoopEnd where
  | cancelled
  | raised (e : OAuthError)
  /-- The process died. -/
  | died
deriving DecidableEq

structure SyncLoop where
  cache : PolicyCache
  ended : Option LoopEnd := none

inductive LoopInput where
  | tick (t : SyncTick)
  | cancel

/-- What becomes of the loop after a `sync_once`. -/
def SyncEnd.loopEnd : SyncEnd → Option LoopEnd
  | .returned _ => none
  | .raised e => some (.raised e)
  | .crashed => some .died

variable [PyRuntime]

/-- The `sync_once` of a tick. -/
def SyncTick.run (t : SyncTick) (lib : SyncLib) (cfg : Settings) (c : PolicyCache) :
    SyncOutcome :=
  syncOnceCompiling t.compileFails lib.wire (t.gateway lib cfg.stateDir) t.now cfg.stateDir t.env c
    cfg.multiPolicyEnabled

/-- One turn of `run_forever`; a loop that ended stays ended. -/
def loopStep (lib : SyncLib) (cfg : Settings) (l : SyncLoop) (i : LoopInput) :
    SyncLoop × Option SyncEnd :=
  match l.ended, i with
  | some _, _ => (l, none)
  | none, .cancel => ({ l with ended := some .cancelled }, none)
  | none, .tick t =>
      let o := t.run lib cfg l.cache
      ({ cache := o.cache, ended := o.ended.loopEnd }, some o.ended)

end TrustModelEdge.Policy
