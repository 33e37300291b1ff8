/-
TrustModelEdge.Routes.Metrics — the metrics of a process
(`metrics/prometheus.py`) and the scrape that shows them (`routes/metrics.py`).

The registry belongs to the process, so a restart begins a new one. The rendering
as text is the library's: a scrape shows the registry itself. Of the histogram the
observations are kept, of which its buckets, its count and its sum are functions.
-/
import TrustModelEdge.Lib.Tally
import TrustModelEdge.Routes.Pod

namespace TrustModelEdge.Routes

open Py Policy Lib

/-! ## The registry -/

structure Registry where
  /-- A time series for each value of the label `verdict`. -/
  decisionsTotal : Tally Str := ∅
  decisionLatencyMs : List Float64 := []
  cacheHitsTotal : Nat := 0
  policyNotFoundTotal : Nat := 0
  staleSeconds : Rat := 0
  cacheAgeSeconds : Rat := 0

/-- What an effect of a decide call does to the registry. -/
def Registry.add (m : Registry) : Effect → Registry
  | .policyNotFound => { m with policyNotFoundTotal := m.policyNotFoundTotal + 1 }
  | .cacheHit => { m with cacheHitsTotal := m.cacheHitsTotal + 1 }
  | .decision verdict => { m with decisionsTotal := m.decisionsTotal.inc verdict }
  | .latencyObserved ms => { m with decisionLatencyMs := m.decisionLatencyMs ++ [ms] }
  | .enqueue _ => m

def Registry.addAll (m : Registry) (effects : List Effect) : Registry :=
  effects.foldl Registry.add m

/-- `metrics`: both gauges are set at every scrape. -/
def Registry.scraped (m : Registry) (cache : PolicyCache) (now : Rat) : Registry :=
  match cache.lastSuccessAt with
  | some last => { m with staleSeconds := now - last, cacheAgeSeconds := now - last }
  | none => { m with staleSeconds := 0, cacheAgeSeconds := 0 }

/-! ## A pod that is scraped -/

structure Monitored where
  pod : Pod
  registry : Registry := {}

inductive MonitoredEvent where
  | pod (ev : PodEvent)
  | scrape

/-- The outcome of a decide call. -/
def Output.outcome : Output → Option DecideOutcome
  | .decision o => .some o
  | _ => Option.none

section Step

variable [PyRuntime] (lib : Libraries)

/-- The registry that a step of the pod begins with. -/
def Monitored.registryFor (m : Monitored) : PodEvent → Registry
  | .restart _ => {}
  | _ => m.registry

/-- One step, and what a scrape shows. -/
def monitoredStep (m : Monitored) : MonitoredEvent → Monitored × Option Registry
  | .pod ev =>
      let r := podStep lib m.pod ev
      let effects := r.2.answer.outcome.elim [] DecideOutcome.effects
      ({ pod := r.1, registry := (m.registryFor ev).addAll effects }, none)
  | .scrape =>
      let registry := m.registry.scraped m.pod.world.cache m.pod.world.now
      ({ m with registry := registry }, some registry)

end Step

end TrustModelEdge.Routes
