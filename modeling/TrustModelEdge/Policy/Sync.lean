/-
TrustModelEdge.Policy.Sync — one fetch and swap (`policy/sync.py`).

The memory half of a swap stands even when the disk half raises, which
`except Exception` turns into `False`.
-/
import TrustModelEdge.Policy.Client

namespace TrustModelEdge.Policy

open Py OAuth

/-- How a sync ends. -/
inductive SyncEnd where
  | returned (success : Bool)
  | raised (e : OAuthError)
  /-- The process died while it wrote. -/
  | crashed
deriving DecidableEq

structure SyncOutcome where
  cache : PolicyCache
  env : DiskEnv
  ended : SyncEnd

/-- The end of a sync whose fetch failed. -/
def fetchFailed (c : PolicyCache) (env : DiskEnv) : FetchError → SyncOutcome
  | .raised e => { cache := c, env := env, ended := .raised e }
  | _ => { cache := c, env := env, ended := .returned false }

/-- The end of a sync that swapped the cache. -/
def swapped (swap : PolicyCache × DiskM Unit) (env : DiskEnv) : SyncOutcome :=
  match swap.2.run env with
  | (.ok _, env') => { cache := swap.1, env := env', ended := .returned true }
  | (.error (.raised _), env') => { cache := swap.1, env := env', ended := .returned false }
  | (.error .crashed, env') => { cache := swap.1, env := env', ended := .crashed }

@[simp] theorem fetchFailed_cache (c : PolicyCache) (env : DiskEnv) (e : FetchError) :
    (fetchFailed c env e).cache = c := by
  cases e <;> rfl

@[simp] theorem fetchFailed_env (c : PolicyCache) (env : DiskEnv) (e : FetchError) :
    (fetchFailed c env e).env = env := by
  cases e <;> rfl

theorem fetchFailed_ended (c : PolicyCache) (env : DiskEnv) (e : FetchError) :
    (fetchFailed c env e).ended ≠ .returned true := by
  cases e <;> simp [fetchFailed]

@[simp] theorem swapped_cache (swap : PolicyCache × DiskM Unit) (env : DiskEnv) :
    (swapped swap env).cache = swap.1 := by
  unfold swapped
  split <;> rfl

theorem swapped_env (swap : PolicyCache × DiskM Unit) (env : DiskEnv) :
    (swapped swap env).env = (swap.2.run env).2 := by
  unfold swapped
  split <;> rename_i h <;> rw [h]

section Sync

variable [PyRuntime] (wire : BodyWire) (g : Gateway) (now : Rat) (stateDir : Path)
  (env : DiskEnv) (c : PolicyCache)

/-- `_sync_once_singular` at the time `now`. -/
def syncOnceSingular : SyncOutcome :=
  match fetch wire g with
  | .error e => fetchFailed c env e
  | .ok p => swapped (PolicyCache.replace wire.toPolicyWire now p (some stateDir)) env

/-- `_sync_once_multi` at the time `now`: the third part of the fetch is dropped. -/
def syncOnceMulti : SyncOutcome :=
  match fetchAll wire g with
  | .error e => fetchFailed c env e
  | .ok (policies, primaryName, _clients) =>
      swapped (PolicyCache.replaceAll wire.toPolicyWire now policies primaryName (some stateDir))
        env

/-- `sync_once`. -/
def syncOnce (multiPolicyEnabled : Bool) : SyncOutcome :=
  if multiPolicyEnabled then syncOnceMulti wire g now stateDir env c
  else syncOnceSingular wire g now stateDir env c

end Sync

end TrustModelEdge.Policy
