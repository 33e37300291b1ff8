/-
TrustModelEdge.AppTheorems — what the lives of a process come to (`app.py`).

The lifespan tells at its end how the heartbeats went: `Beaten` is the invariant,
between the loop in memory and the ticks that the process has made since its
launch. Of a start while the gateway is out of reach only the disk decides
(`outage_survived`), and nothing on the disk remembers a revocation.
-/
import TrustModelEdge.App
import TrustModelEdge.EnrollTheorems
import TrustModelEdge.Policy.WarmTheorems
import TrustModelEdge.Routes.StateTheorems
import TrustModelEdge.RotationTheorems
import TrustModelEdge.Telemetry.RecoveryTheorems

namespace TrustModelEdge

open Py OAuth Lib Policy Telemetry

/-! ## The ticks since the launch -/

def LifeOutput.after (ticks : List TickEnd) (o : LifeOutput) : List TickEnd :=
  if o.launched then o.ticks else ticks ++ o.ticks

/-- How the ticks since the last launch ended, in order. -/
def ticksSince (outputs : List LifeOutput) : List TickEnd := outputs.foldl LifeOutput.after []

theorem ticksSince_concat (outputs : List LifeOutput) (o : LifeOutput) :
    ticksSince (outputs ++ [o]) = o.after (ticksSince outputs) := by
  unfold ticksSince
  rw [List.foldl_append]
  rfl

/-- The loop is what these ticks leave of one that was started. -/
structure Beaten (ticks : List TickEnd) (l : HeartbeatLoop) : Prop where
  ended : ∀ x, l.ended = some x ↔ ∃ e ∈ ticks, e.loopEnd = some x
  revoked : l.state.revoked = true ↔ .edgeRevoked ∈ ticks

theorem beaten_start (creds : LoadedCredentials) :
    Beaten [] { state := { credentials := creds } } where
  ended := fun _ => by simp
  revoked := by simp

section Beats

variable [PyRuntime] {lib : HeartbeatLib} {cfg : Settings} {p : RotatingPod}
  {ticks : List TickEnd}

/-- One tick; of a loop that ended there is none. -/
theorem Beaten.tick (h : Beaten ticks p.loop) (t : HeartbeatTick) :
    Beaten (ticks ++ (rotatingStep lib cfg p (.heartbeat (.tick t))).2.toList)
      (rotatingStep lib cfg p (.heartbeat (.tick t))).1.loop := by
  cases hl : p.loop.ended with
  | some x =>
    have hstep : heartbeatStep lib cfg p.loop (.tick (t.on p.disk)) = (p.loop, none) := by
      simp only [heartbeatStep, hl]
    simp only [rotatingStep, hstep, Option.toList_none, List.append_nil]
    exact h
  | none =>
    let o := oneTick lib cfg (t.on p.disk) p.loop.state
    have hstep : heartbeatStep lib cfg p.loop (.tick (t.on p.disk)) =
        ({ state := o.state, ended := o.ended.loopEnd }, some o.ended) := by
      simp only [heartbeatStep, hl, o]
    have hgoing : ∀ x, ¬ ∃ e ∈ ticks, e.loopEnd = some x := by
      intro x hx
      rw [← h.ended x, hl] at hx
      cases hx
    simp only [rotatingStep, hstep, Option.toList_some]
    constructor
    · intro x
      constructor
      · intro hx
        exact ⟨o.ended, by simp, hx⟩
      · rintro ⟨e, he, hx⟩
        rcases List.mem_append.mp he with he | he
        · exact absurd ⟨e, he, hx⟩ (hgoing x)
        · obtain rfl := List.mem_singleton.mp he
          exact hx
    · show o.state.revoked = true ↔ _
      rw [oneTick_revoked, h.revoked, List.mem_append, List.mem_singleton]
      exact or_congr Iff.rfl eq_comm

omit [PyRuntime] in
theorem reduceOption_cons (o : Option TickEnd) (os : List (Option TickEnd)) :
    (o :: os).reduceOption = o.toList ++ os.reduceOption := by
  cases o <;> simp

/-- A tick, and the ticks after it. -/
theorem beats_cons (lib : AppLib) (p : RotatingPod) (t : HeartbeatTick) (ts : List HeartbeatTick) :
    let r := rotatingStep lib.heartbeat cfg p (.heartbeat (.tick t))
    beats lib cfg p.loop p.disk (t :: ts) =
      ((beats lib cfg r.1.loop r.1.disk ts).1,
        r.2.toList ++ (beats lib cfg r.1.loop r.1.disk ts).2) := by
  intro r
  exact Prod.ext rfl (reduceOption_cons r.2 _)

theorem beaten_beats {lib : AppLib} (h : Beaten ticks p.loop) (ts : List HeartbeatTick) :
    Beaten (ticks ++ (beats lib cfg p.loop p.disk ts).2)
      (beats lib cfg p.loop p.disk ts).1.loop := by
  induction ts generalizing ticks p with
  | nil =>
    show Beaten (ticks ++ []) p.loop
    rwa [List.append_nil]
  | cons t ts ih =>
    have hnext : Beaten _ (rotatingStep lib.heartbeat cfg p (.heartbeat (.tick t))).1.loop :=
      h.tick t
    have hrest := ih hnext
    rw [List.append_assoc] at hrest
    rw [beats_cons]
    exact hrest

end Beats

/-! ## Every life -/

/-- The process has made these ticks, and has not died of one. -/
def Serving.Tracks (p : Serving) (ticks : List TickEnd) : Prop :=
  match p.heartbeat with
  | none => ticks = []
  | some loop => Beaten ticks loop ∧ loop.ended ≠ some .died

section Launching

variable [PyRuntime] {lib : AppLib} {l : Launch} {heartbeat : Option HeartbeatLoop}
  {c : PolicyCache} {d : Disk} {p : Serving}

omit [PyRuntime] in
/-- What comes up has the heartbeat and the cache that were there before the queue. -/
theorem openQueue_ok {policyWarmOk : Bool}
    (h : (openQueue l heartbeat policyWarmOk c d).process = .ok p) :
    p.cfg = l.boot.cfg ∧ p.heartbeat = heartbeat ∧ p.sync = { cache := c } := by
  unfold openQueue at h
  dsimp only at h
  split at h
  · obtain rfl := Except.ok.inj h
    exact ⟨rfl, rfl, rfl⟩
  · cases h
  · cases h

omit [PyRuntime] in
theorem openQueue_ticks (policyWarmOk : Bool) :
    (openQueue l heartbeat policyWarmOk c d).ticks = [] := by
  unfold openQueue
  dsimp only
  split <;> rfl

theorem warmPolicies_ok (h : (warmPolicies lib l heartbeat c d).process = .ok p) :
    p.heartbeat = heartbeat ∧ (warmPolicies lib l heartbeat c d).ticks = [] := by
  unfold warmPolicies at h ⊢
  dsimp only at h ⊢
  split at h
  · exact ⟨(openQueue_ok h).2.1, openQueue_ticks _⟩
  · cases h

theorem beatAndWarm_tracks (hloop : ∀ loop ∈ heartbeat, Beaten [] loop)
    (h : (beatAndWarm lib l heartbeat c d).process = .ok p) :
    p.Tracks (beatAndWarm lib l heartbeat c d).ticks := by
  unfold beatAndWarm at h ⊢
  cases heartbeat with
  | none =>
    obtain ⟨hp, hticks⟩ := warmPolicies_ok h
    unfold Serving.Tracks
    rw [hp]
    exact hticks
  | some loop =>
    dsimp only at h ⊢
    split at h
    · cases h
    · rename_i hended
      have hp := (warmPolicies_ok h).1
      have hbeaten : Beaten (beats lib l.boot.cfg loop d l.ticks).2
          (beats lib l.boot.cfg loop d l.ticks).1.loop :=
        beaten_beats (p := { loop := loop, disk := d }) (hloop loop rfl) l.ticks
      unfold Serving.Tracks
      rw [hp]
      exact ⟨hbeaten, hended⟩

theorem startPolicies_tracks (hloop : ∀ loop ∈ heartbeat, Beaten [] loop)
    (h : (startPolicies lib l heartbeat d).process = .ok p) :
    p.Tracks (startPolicies lib l heartbeat d).ticks := by
  unfold startPolicies at h ⊢
  dsimp only at h ⊢
  split at h
  · cases h
  · exact beatAndWarm_tracks hloop h

/-- A process that comes up has made the ticks that its launch shows. -/
theorem launch_tracks (h : (launch lib l d).process = .ok p) :
    p.Tracks (launch lib l d).ticks := by
  unfold launch at h ⊢
  split at h
  · rename_i hskip
    rw [if_pos hskip]
    exact startPolicies_tracks (fun _ hloop => by cases hloop) h
  · rename_i hskip
    rw [if_neg hskip]
    dsimp only at h ⊢
    split at h
    · cases h
    · cases h
    · cases h
    · refine startPolicies_tracks (fun loop hloop => ?_) h
      obtain rfl := Option.some.inj hloop
      exact beaten_start _

end Launching

section Living

variable [PyRuntime] {lib : AppLib} {x : Life} {ticks : List TickEnd}

theorem Serving.beat_launched (p : Serving) (d : Disk) (t : HeartbeatTick) :
    (p.beat lib d t).2.launched = false := by
  unfold Serving.beat
  split
  · rfl
  · dsimp only
    split <;> rfl

theorem Serving.Tracks.beat {p : Serving} (h : p.Tracks ticks) (d : Disk) (t : HeartbeatTick)
    {q : Serving} (hq : (p.beat lib d t).1.process = some q) :
    q.Tracks (ticks ++ (p.beat lib d t).2.ticks) := by
  cases hp : p.heartbeat with
  | none =>
    have hbeat : p.beat lib d t = ({ disk := d, process := some p }, {}) := by
      simp only [Serving.beat, hp]
    rw [hbeat] at hq ⊢
    obtain rfl := Option.some.inj hq
    show p.Tracks (ticks ++ [])
    rwa [List.append_nil]
  | some loop =>
    have hbeaten : Beaten ticks loop := by
      unfold Serving.Tracks at h
      rw [hp] at h
      exact h.1
    have hnext : Beaten (ticks ++ (beats lib p.cfg loop d [t]).2)
        (beats lib p.cfg loop d [t]).1.loop :=
      beaten_beats (p := { loop := loop, disk := d }) hbeaten [t]
    unfold Serving.beat at hq ⊢
    simp only [hp] at hq ⊢
    split at hq
    · cases hq
    · rename_i hended
      obtain rfl := Option.some.inj hq
      exact ⟨hnext, hended⟩

theorem Serving.refresh_heartbeat {p q : Serving} {d : Disk} {s : Routes.ProbedSync}
    (hq : (p.refresh lib d s).1.process = some q) :
    q.heartbeat = p.heartbeat ∧ (p.refresh lib d s).2 = {} := by
  unfold Serving.refresh at hq ⊢
  split at hq
  · obtain rfl := Option.some.inj hq
    exact ⟨rfl, rfl⟩
  · dsimp only at hq ⊢
    split at hq
    · cases hq
    · obtain rfl := Option.some.inj hq
      exact ⟨rfl, rfl⟩

/-- **One step** keeps the account of the ticks. -/
theorem tracks_step (outputs : List LifeOutput) (x : Life) (i : LifeInput)
    (h : ∀ p ∈ x.process, p.Tracks (ticksSince outputs)) :
    ∀ p ∈ (lifeStep lib x i).1.process,
      p.Tracks (ticksSince (outputs ++ [(lifeStep lib x i).2])) := by
  intro p hp
  rw [ticksSince_concat]
  have hquiet : LifeOutput.after (ticksSince outputs) {} = ticksSince outputs :=
    List.append_nil _
  cases hx : x.process with
  | none =>
    cases i with
    | launch l =>
      simp only [lifeStep, hx] at hp ⊢
      unfold LaunchOutcome.life at hp ⊢
      split at hp
      · rename_i q hlaunch
        obtain rfl := Option.some.inj hp
        exact launch_tracks hlaunch
      · cases hp
    | _ => simp [lifeStep, hx] at hp
  | some q =>
    have hq := h q hx
    cases i with
    | launch l =>
      simp only [lifeStep, hx, hquiet] at hp ⊢
      obtain rfl := Option.some.inj hp
      exact hq
    | heartbeat t =>
      simp only [lifeStep, hx, Option.elim_some] at hp ⊢
      rw [LifeOutput.after, Serving.beat_launched]
      exact hq.beat x.disk t hp
    | sync s =>
      simp only [lifeStep, hx, Option.elim_some] at hp ⊢
      obtain ⟨hheartbeat, hquiet'⟩ := Serving.refresh_heartbeat hp
      rw [hquiet', hquiet]
      unfold Serving.Tracks at hq ⊢
      rwa [hheartbeat]
    | others d use =>
      simp only [lifeStep, hx, hquiet] at hp ⊢
      obtain rfl := Option.some.inj hp
      exact hq
    | shutdown => simp [lifeStep, hx] at hp
    | kill => simp [lifeStep, hx] at hp

omit [PyRuntime] in
theorem Serving.Tracks.revoked {p : Serving} (h : p.Tracks ticks) :
    p.probed.revoked = true ↔ .edgeRevoked ∈ ticks := by
  unfold Serving.Tracks at h
  unfold Routes.ProbedState.revoked Serving.probed
  cases hp : p.heartbeat with
  | none =>
    rw [hp] at h
    obtain rfl : ticks = [] := h
    simp
  | some loop =>
    rw [hp] at h
    exact h.1.revoked

/-- The three ends of a teardown: every tick went well, one was a revocation, or one
has raised. -/
theorem teardown_cases (lib : AppLib) {p : Serving} (h : p.Tracks ticks) :
    ((∀ e ∈ ticks, e = .returned) ∧ p.teardown lib = .returned) ∨
      (.edgeRevoked ∈ ticks ∧ (∀ e, .raised e ∉ ticks) ∧ p.teardown lib = .systemExit 3) ∨
      ∃ e, (∀ e', .raised e' ∈ ticks ↔ e' = e) ∧ .edgeRevoked ∉ ticks ∧
        p.teardown lib = .raised (.heartbeat e) := by
  unfold Serving.Tracks at h
  unfold Serving.teardown
  cases hp : p.heartbeat with
  | none =>
    rw [hp] at h
    obtain rfl : ticks = [] := h
    exact Or.inl ⟨fun e he => absurd he List.not_mem_nil, rfl⟩
  | some loop =>
    rw [hp] at h
    have hbeaten : Beaten ticks loop := h.1
    have hdied : loop.ended ≠ some .died := h.2
    have hmem : ∀ e ∈ ticks, ∀ x, e.loopEnd = some x → loop.ended = some x :=
      fun e he x hx => (hbeaten.ended x).mpr ⟨e, he, hx⟩
    dsimp only
    cases hl : loop.ended with
    | none =>
      rw [heartbeatStep_cancel hl]
      have hall : ∀ e ∈ ticks, e = .returned := by
        intro e he
        rw [← loopEnd_eq_none, Option.eq_none_iff_forall_ne_some]
        intro x hx
        have hended := hmem e he x hx
        rw [hl] at hended
        cases hended
      have hflag : loop.state.revoked = false := by
        rw [← Bool.not_eq_true, hbeaten.revoked]
        intro hrevoked
        cases hall _ hrevoked
      exact Or.inl ⟨hall, by simp [hflag]⟩
    | some x =>
      rw [heartbeatStep_ended hl]
      obtain ⟨e, he, hx⟩ := (hbeaten.ended x).mp hl
      cases e with
      | returned => cases hx
      | crashed =>
        obtain rfl : HeartbeatEnd.died = x := Option.some.inj hx
        exact absurd hl hdied
      | edgeRevoked =>
        obtain rfl : HeartbeatEnd.returned = x := Option.some.inj hx
        have hflag : loop.state.revoked = true := hbeaten.revoked.mpr he
        refine Or.inr (Or.inl ⟨he, fun e' he' => ?_, by simp [hl, hflag]⟩)
        have hraised := hmem _ he' _ rfl
        rw [hl] at hraised
        cases hraised
      | raised e =>
        obtain rfl : HeartbeatEnd.raised e = x := Option.some.inj hx
        have hone : ∀ e', .raised e' ∈ ticks ↔ e' = e := by
          refine fun e' => ⟨fun he' => ?_, fun heq => heq ▸ he⟩
          have hraised := hmem _ he' _ rfl
          rw [hl] at hraised
          cases hraised
          rfl
        refine Or.inr (Or.inr ⟨e, hone, fun he' => ?_, by simp [hl]⟩)
        have hreturned := hmem _ he' _ rfl
        rw [hl] at hreturned
        cases hreturned

end Living

/-- **A shutdown tells how the heartbeats went.** In every run of lives on a disk, the
process that is there has its flag set exactly when a tick since its launch was
answered by a revocation; the lifespan then ends with `SystemExit(3)`, it lets an
exception through exactly when a tick has raised it, and it ends well exactly when every
tick did. -/
theorem shutdown_tells_heartbeats [PyRuntime] (lib : AppLib) (d : Disk) (inputs : List LifeInput)
    (p : Serving) (hp : (final (lifeStep lib) { disk := d } inputs).process = some p) :
    let ticks := ticksSince (trace (lifeStep lib) { disk := d } inputs)
    (p.probed.revoked = true ↔ .edgeRevoked ∈ ticks) ∧
      (p.teardown lib = .systemExit 3 ↔ .edgeRevoked ∈ ticks) ∧
      (∀ e, p.teardown lib = .raised (.heartbeat e) ↔ .raised e ∈ ticks) ∧
      (p.teardown lib = .returned ↔ ∀ e ∈ ticks, e = .returned) := by
  intro ticks
  have htracks : p.Tracks ticks := by
    have hrun := guarded_inv (lifeStep lib) (R := fun outputs x => ∀ q ∈ x.process,
        q.Tracks (ticksSince outputs)) (G := fun _ _ => True)
      (fun outputs x i h _ => tracks_step outputs x i h)
      (show ∀ q ∈ ({ disk := d } : Life).process, q.Tracks (ticksSince []) from
        fun _ h => by cases h)
      (fun v (_ : v ∈ visits (lifeStep lib) _ inputs) => trivial)
    exact hrun p hp
  refine ⟨htracks.revoked, ?_⟩
  rcases teardown_cases lib htracks with
    ⟨hall, h⟩ | ⟨hrevoked, hnot, h⟩ | ⟨e, hraised, hnot, h⟩
  · have hr : .edgeRevoked ∉ ticks := fun hr => by cases hall _ hr
    have he : ∀ e, .raised e ∉ ticks := fun e he => by cases hall _ he
    simpa [h, hr, he] using hall
  · have hall : ¬ ∀ e ∈ ticks, e = .returned := fun hall => by cases hall _ hrevoked
    simp [h, hrevoked, hnot, hall]
  · have hall : ¬ ∀ e ∈ ticks, e = .returned := fun hall => by
      cases hall _ ((hraised e).mpr rfl)
    simp [h, hraised, hnot, hall, eq_comm]

/-! A pod that enrolls and is revoked by its second heartbeat. -/

def demoPodLib : AppLib where
  heartbeat := demoEnrollLib
  wire := demoBodyWire

/-- A queue that opens empty. -/
def freshQueue : OpenEnv FileBody where
  first := fun t => (.ok .empty, t)
  stamp := []
  faults := fun _ => {}
  second := fun t => (.ok .empty, t)

def syncOf (g : Gateway) : Routes.ProbedSync where
  multiPolicyEnabled := false
  gateway := g
  compileFails := fun _ => false
  now := startOf2030
  env := emptyEnv

def firstLaunch : Launch where
  boot := firstBoot "2031-01-01T00:00:00Z"
  raises := fun _ => none
  ticks := [tickOf .networkError .networkError]
  sync := syncOf gatewayB
  maxSize := 100
  telemetryDir := none
  queue := freshQueue

def revokedLife : List LifeInput :=
  [.launch firstLaunch,
    .heartbeat (tickOf (.response 401 (.ok "") (.error .jsonDecodeError)) .networkError)]

theorem shutdown_tells_heartbeats_revoked : ∃ p,
    (final (@lifeStep asciiRuntime demoPodLib) { disk := .empty } revokedLife).process = some p ∧
      p.probed.revoked = true ∧ @Serving.teardown asciiRuntime demoPodLib p = .systemExit 3 := by
  have hends : (final (@lifeStep asciiRuntime demoPodLib) { disk := .empty }
      revokedLife).process.map (@Serving.teardown asciiRuntime demoPodLib) =
        some (.systemExit 3) := by
    decide +kernel
  obtain ⟨p, hp, hteardown⟩ := Option.map_eq_some_iff.mp hends
  obtain ⟨hflag, hexit, -⟩ :=
    @shutdown_tells_heartbeats asciiRuntime demoPodLib .empty revokedLife p hp
  exact ⟨p, hp, hflag.mpr (hexit.mp hteardown), hteardown⟩

/-! ## A start during an outage -/

/-- The GET does not reach the gateway: it fails on its way, or its token cannot be
minted, with an error that the startup handles. -/
def Unreached : HttpResult → Prop
  | .mintFailed e => isRuntimeError e = true
  | .transportError => True
  | .otherError _ => False
  | .response _ _ _ => False

def SyncUnreached (s : Routes.ProbedSync) : Prop :=
  Unreached s.gateway.singular ∧ Unreached s.gateway.plural

/-- No call of the launch reaches the gateway. -/
structure Launch.Offline (l : Launch) : Prop where
  answer : l.boot.answer = .networkError
  ticks : ∀ t ∈ l.ticks, t.heartbeat = .networkError
  sync : SyncUnreached l.sync

/-- A step of a process that serves while the gateway is out of reach. -/
def LifeInput.Outage : LifeInput → Prop
  | .heartbeat t => t.heartbeat = .networkError
  | .sync s => SyncUnreached s
  | .others _ _ => True
  | .launch _ | .shutdown | .kill => False

/-- The disk has credentials that a boot takes without the enroll call. -/
def HasCredentials (lib : HeartbeatLib) (b : Boot) (d : Disk) : Prop :=
  ∃ creds, loadCredentials lib.json lib.fromisoformat d b.cfg.stateDir = .ok (some creds) ∧
    creds.certValidTo.offset ≠ none ∧ b.now < creds.certValidTo.utc

/-- A boot without the gateway leaves the disk, and returns exactly where there are
credentials to take. -/
theorem boot_offline (lib : HeartbeatLib) {b : Boot} (d : Disk) (h : b.answer = .networkError) :
    (bootstrapIfNeeded lib b d).disk = d ∧
      ((HasCredentials lib b d ∧
          ∃ creds, (bootstrapIfNeeded lib b d).ended = .returned creds) ∨
        ¬ HasCredentials lib b d ∧ ∀ creds, (bootstrapIfNeeded lib b d).ended ≠ .returned creds) := by
  have hfailed : ∀ token, enrollWith lib b d token =
      { posted := some (enrollRequest b.cfg token), disk := d, ended := .enrollmentFailed } := by
    intro token
    simp only [enrollWith, enroll, h]
  have hdisk : (bootstrapIfNeeded lib b d).disk = d := by
    unfold bootstrapIfNeeded
    split
    · rfl
    · split
      · rfl
      · rfl
      · split
        · rfl
        · rfl
        · rw [hfailed]
  have hnone : (∀ creds, (bootstrapIfNeeded lib b d).ended ≠ .returned creds) →
      ¬ HasCredentials lib b d := by
    rintro hnot ⟨creds, hcreds⟩
    exact hnot creds (boot_reuses_iff.mpr hcreds).2
  refine ⟨hdisk, ?_⟩
  rcases boot_cases lib b d with ⟨creds, hload, hvalid, hboot⟩ | ⟨-, hnot⟩ | ⟨token, hboot⟩
  · exact Or.inl ⟨⟨creds, hload, gt_now_iff.mp hvalid⟩, creds, by rw [hboot]⟩
  · exact Or.inr ⟨hnone hnot, hnot⟩
  · have hnot : ∀ creds, (bootstrapIfNeeded lib b d).ended ≠ .returned creds := by
      intro creds hended
      rw [hboot, hfailed] at hended
      cases hended
    exact Or.inr ⟨hnone hnot, hnot⟩

section Outage

variable [PyRuntime] {lib : AppLib} {l : Launch} {heartbeat : Option HeartbeatLoop}
  {c : PolicyCache} {d : Disk} {p : Serving}

/-- A sync that reaches nobody leaves the cache and the disk; what it may let through,
the startup handles. -/
theorem run_unreached (wire : BodyWire) (cfg : Settings) (c : PolicyCache)
    {s : Routes.ProbedSync} (h : SyncUnreached s) :
    (s.run wire cfg c).cache = c ∧ (s.run wire cfg c).env = s.env ∧
      ((s.run wire cfg c).ended = .returned false ∨
        ∃ e, isRuntimeError e = true ∧ (s.run wire cfg c).ended = .raised e) := by
  have hget : ∀ r, Unreached r → httpGet r = .error .policyFetchError ∨
      ∃ e, isRuntimeError e = true ∧ httpGet r = .error (.raised e) := by
    intro r hr
    cases r with
    | mintFailed e => exact Or.inr ⟨e, hr, rfl⟩
    | transportError => exact Or.inl rfl
    | otherError => exact hr.elim
    | response => exact hr.elim
  have hfailed : ∃ x, s.run wire cfg c = fetchFailed c s.env x ∧
      (x = .policyFetchError ∨ ∃ e, isRuntimeError e = true ∧ x = .raised e) := by
    unfold Routes.ProbedSync.run syncOnceCompiling
    split
    · unfold syncOnceMultiCompiling fetchAll
      rcases hget _ h.2 with hx | ⟨e, he, hx⟩ <;> rw [hx]
      · exact ⟨_, rfl, Or.inl rfl⟩
      · exact ⟨_, rfl, Or.inr ⟨e, he, rfl⟩⟩
    · unfold syncOnceSingularCompiling fetch
      rcases hget _ h.1 with hx | ⟨e, he, hx⟩ <;> rw [hx]
      · exact ⟨_, rfl, Or.inl rfl⟩
      · exact ⟨_, rfl, Or.inr ⟨e, he, rfl⟩⟩
  obtain ⟨x, hrun, hx⟩ := hfailed
  rw [hrun]
  refine ⟨fetchFailed_cache c s.env x, fetchFailed_env c s.env x, ?_⟩
  rcases hx with rfl | ⟨e, he, rfl⟩
  · exact Or.inl rfl
  · exact Or.inr ⟨e, he, rfl⟩

/-- The startup goes on from a first sync that reaches nobody. -/
theorem warmPolicies_unreached (h : SyncUnreached l.sync) :
    ∃ policyWarmOk, warmPolicies lib l heartbeat c d = openQueue l heartbeat policyWarmOk c d := by
  let s := l.sync.on l.boot.cfg d
  have hs : SyncUnreached s := h
  obtain ⟨hc, henv, hended⟩ := run_unreached lib.wire l.boot.cfg c hs
  have hok : ∃ policyWarmOk,
      warmOk ((s.run lib.wire l.boot.cfg c).warmEnd false) = .ok policyWarmOk := by
    unfold SyncOutcome.warmEnd
    rcases hended with hended | ⟨e, he, hended⟩ <;> rw [hended] <;> dsimp only
    · split
      · exact ⟨false, rfl⟩
      · exact ⟨true, rfl⟩
    · exact ⟨false, if_pos he⟩
  obtain ⟨policyWarmOk, hok⟩ := hok
  refine ⟨policyWarmOk, ?_⟩
  unfold warmPolicies warm
  unfold Routes.ProbedSync.run at hok hc henv
  dsimp only at hok hc henv ⊢
  simp only [s] at hok hc henv
  rw [hok]
  dsimp only
  rw [hc, henv]
  rfl

omit [PyRuntime] in
theorem callFailed_unanswered {e : ControlPlaneError} (he : e ≠ .edgeRevoked) (s : HeartbeatState)
    (env : DiskEnv) :
    (callFailed s env e).state = s ∧ (callFailed s env e).env = env ∧
      (callFailed s env e).ended.loopEnd ≠ some .died := by
  cases e with
  | edgeRevoked => exact absurd rfl he
  | edgeControlPlaneError => exact ⟨rfl, rfl, by simp [callFailed, TickEnd.loopEnd]⟩
  | raised e => exact ⟨rfl, rfl, by simp [callFailed, TickEnd.loopEnd]⟩

theorem heartbeat_unanswered (jwt : JwtLib) (at_ : Rat) (creds : LoadedCredentials) :
    ∃ e, TrustModelEdge.heartbeat jwt at_ creds .networkError = .error e ∧ e ≠ .edgeRevoked := by
  unfold TrustModelEdge.heartbeat
  cases authHeader jwt at_ creds with
  | error e => exact ⟨.raised e, rfl, by simp⟩
  | ok token => exact ⟨.edgeControlPlaneError, rfl, by simp⟩

/-- A heartbeat without an answer leaves the state and the disk. -/
theorem beat_unanswered {lib : HeartbeatLib} {cfg : Settings} {p : RotatingPod}
    {t : HeartbeatTick} (ht : t.heartbeat = .networkError) (hl : p.loop.ended ≠ some .died) :
    let q := (rotatingStep lib cfg p (.heartbeat (.tick t))).1
    q.loop.state = p.loop.state ∧ q.disk = p.disk ∧ q.loop.ended ≠ some .died := by
  intro q
  rcases rotatingStep_cases lib cfg p (.heartbeat (.tick t)) with
    ⟨d, hi, -⟩ | hstep | ⟨-, hstep⟩ | ⟨t', hi, -, hstep⟩
  · cases hi
  · simp only [q, hstep]
    exact ⟨trivial, trivial, hl⟩
  · simp only [q, hstep]
    exact ⟨trivial, trivial, by simp⟩
  · obtain rfl : t = t' := by simpa using hi
    obtain ⟨e, he, hne⟩ := heartbeat_unanswered lib.jwt t.heartbeatAt p.loop.state.credentials
    have htick : oneTick lib cfg (t.on p.disk) p.loop.state =
        callFailed p.loop.state (t.on p.disk).env e := by
      refine oneTick_of_error ?_
      show TrustModelEdge.heartbeat lib.jwt t.heartbeatAt _ t.heartbeat = _
      rw [ht, he]
    obtain ⟨hstate, henv, hended⟩ := callFailed_unanswered hne p.loop.state (t.on p.disk).env
    simp only [q, hstep, htick]
    exact ⟨hstate, congrArg DiskEnv.disk henv, hended⟩

theorem beats_unanswered {cfg : Settings} {p : RotatingPod} (hl : p.loop.ended ≠ some .died)
    {ts : List HeartbeatTick} (hts : ∀ t ∈ ts, t.heartbeat = .networkError) :
    let q := (beats lib cfg p.loop p.disk ts).1
    q.loop.state = p.loop.state ∧ q.disk = p.disk ∧ q.loop.ended ≠ some .died := by
  induction ts generalizing p with
  | nil => exact ⟨rfl, rfl, hl⟩
  | cons t ts ih =>
    let r := (rotatingStep lib.heartbeat cfg p (.heartbeat (.tick t))).1
    have hr : r.loop.state = p.loop.state ∧ r.disk = p.disk ∧ r.loop.ended ≠ some .died :=
      beat_unanswered (hts t List.mem_cons_self) hl
    obtain ⟨hstate, hdisk, hended⟩ := ih hr.2.2 (fun t ht => hts t (List.mem_cons_of_mem _ ht))
    rw [beats_cons]
    exact ⟨hstate.trans hr.1, hdisk.trans hr.2.1, hended⟩

/-- What `load_from_disk` makes of a fresh cache. -/
def loadedFrom (lib : AppLib) (l : Launch) (d : Disk) : PolicyCache × Except Exc Bool :=
  ({} : PolicyCache).loadFromDiskCompiling l.raises lib.wire.toPolicyWire d l.boot.cfg.stateDir

/-- The heartbeat, if there is one, has met neither death nor revocation. -/
def Unrevoked (heartbeat : Option HeartbeatLoop) : Prop :=
  ∀ loop ∈ heartbeat, loop.ended ≠ some .died ∧ loop.state.revoked = false

/-- The outcome is the opening of the queue, with this cache and a heartbeat that is
not revoked. -/
def OpensQueue (l : Launch) (c : PolicyCache) (d : Disk) (o : LaunchOutcome) : Prop :=
  ∃ heartbeat policyWarmOk, Unrevoked heartbeat ∧
    o.process = (openQueue l heartbeat policyWarmOk c d).process ∧
    o.disk = (openQueue l heartbeat policyWarmOk c d).disk

theorem beatAndWarm_offline (h : l.Offline) (hloop : Unrevoked heartbeat) :
    OpensQueue l c d (beatAndWarm lib l heartbeat c d) := by
  cases heartbeat with
  | none =>
    obtain ⟨policyWarmOk, hwarm⟩ := warmPolicies_unreached h.sync
    exact ⟨none, policyWarmOk, fun _ hnone => (by cases hnone), congrArg _ hwarm, congrArg _ hwarm⟩
  | some loop =>
    obtain ⟨hended, hflag⟩ := hloop loop rfl
    let q := (beats lib l.boot.cfg loop d l.ticks).1
    have hq : q.loop.state = loop.state ∧ q.disk = d ∧ q.loop.ended ≠ some .died :=
      beats_unanswered (p := { loop := loop, disk := d }) hended h.ticks
    have hwarm : ∃ policyWarmOk, warmPolicies lib l (some q.loop) c d =
        openQueue l (some q.loop) policyWarmOk c d := warmPolicies_unreached h.sync
    obtain ⟨policyWarmOk, hwarm⟩ := hwarm
    refine ⟨some q.loop, policyWarmOk, fun loop' hloop' => ?_, ?_⟩
    · obtain rfl := Option.some.inj hloop'
      exact ⟨hq.2.2, by rw [hq.1, hflag]⟩
    · unfold beatAndWarm
      dsimp only
      split
      · rename_i hdied
        exact absurd hdied hq.2.2
      · show (warmPolicies lib l (some q.loop) c q.disk).process = _ ∧
          (warmPolicies lib l (some q.loop) c q.disk).disk = _
        rw [hq.2.1, hwarm]
        exact ⟨rfl, rfl⟩

/-- A start that reaches nobody, after the enrollment. -/
theorem startPolicies_offline (h : l.Offline) (hloop : Unrevoked heartbeat) :
    OpensQueue l (loadedFrom lib l d).1 d (startPolicies lib l heartbeat d) ∨
      (loadedFrom lib l d).1 = {} ∧ (startPolicies lib l heartbeat d).disk = d ∧
        ∀ p, (startPolicies lib l heartbeat d).process ≠ .ok p := by
  unfold startPolicies loadedFrom PolicyCache.loadFromDiskCompiling
  dsimp only
  split
  · exact Or.inl (beatAndWarm_offline h hloop)
  · exact Or.inl (beatAndWarm_offline h hloop)
  · exact Or.inr ⟨rfl, rfl, fun p hp => by cases hp⟩

/-- The launch has an identity without a call: it needs none, or the disk has the
credentials. -/
def Identified (lib : AppLib) (l : Launch) (d : Disk) : Prop :=
  l.skipEnrollment = true ∨ HasCredentials lib.heartbeat l.boot d

/-- **A launch that reaches nobody** opens its queue with what it loaded, or it does
not come up, with no identity or nothing to serve, and leaves the disk. -/
theorem launch_offline (lib : AppLib) (d : Disk) (h : l.Offline) :
    (Identified lib l d ∧ OpensQueue l (loadedFrom lib l d).1 d (launch lib l d)) ∨
      ¬ (Identified lib l d ∧ (loadedFrom lib l d).1.isWarm = true) ∧
        (launch lib l d).disk = d ∧ ∀ p, (launch lib l d).process ≠ .ok p := by
  have hcold : (loadedFrom lib l d).1 = {} → (loadedFrom lib l d).1.isWarm ≠ true := by
    intro hempty
    rw [hempty]
    decide
  unfold launch
  split
  · rename_i hskip
    have hstart : OpensQueue l (loadedFrom lib l d).1 d (startPolicies lib l none d) ∨ _ :=
      startPolicies_offline h (fun _ hnone => by cases hnone)
    rcases hstart with hopens | ⟨hempty, hdisk, hnot⟩
    · exact Or.inl ⟨Or.inl hskip, hopens⟩
    · exact Or.inr ⟨fun hboth => hcold hempty hboth.2, hdisk, hnot⟩
  · rename_i hskip
    dsimp only
    obtain ⟨hdisk, ⟨hcreds, creds, hended⟩ | ⟨hnone, hnot⟩⟩ :=
      boot_offline lib.heartbeat d h.answer
    · rw [hended, hdisk]
      have hstart : OpensQueue l (loadedFrom lib l d).1 d
            (startPolicies lib l (some { state := { credentials := creds } }) d) ∨ _ :=
        startPolicies_offline h (fun loop hloop => by
          obtain rfl := Option.some.inj hloop
          exact ⟨by simp, rfl⟩)
      rcases hstart with hopens | ⟨hempty, hdisk', hnot⟩
      · exact Or.inl ⟨Or.inr hcreds, hopens⟩
      · exact Or.inr ⟨fun hboth => hcold hempty hboth.2, hdisk', hnot⟩
    · refine Or.inr ⟨fun hboth => hboth.1.elim hskip hnone, ?_⟩
      split
      · exact ⟨hdisk, fun p hp => by cases hp⟩
      · exact ⟨hdisk, fun p hp => by cases hp⟩
      · exact ⟨hdisk, fun p hp => by cases hp⟩
      · rename_i creds hended
        exact absurd hended (hnot creds)

end Outage

/-! ## Through an outage -/

/-- The process serves this cache and is not revoked. -/
def Serving.Steady (c : PolicyCache) (p : Serving) : Prop :=
  p.sync.cache = c ∧ Unrevoked p.heartbeat

section Steady

variable [PyRuntime] {lib : AppLib} {c : PolicyCache} {p : Serving} {d : Disk}

omit [PyRuntime] in
/-- No gate of the probe fails in a steady process that is warm. -/
theorem Serving.Steady.unready_iff (h : p.Steady c) : p.probed.unready = [] ↔ c.isWarm = true := by
  have hflag : p.probed.revoked = false := by
    unfold Routes.ProbedState.revoked Serving.probed
    cases hp : p.heartbeat with
    | none => rfl
    | some loop => exact (h.2 loop hp).2
  have hcache : p.probed.cache = c := h.1
  have hcomplete : p.probed.enrollmentComplete = true := rfl
  unfold Routes.ProbedState.unready
  rw [hflag, hcache, hcomplete]
  cases c.isWarm <;> simp

theorem Serving.Steady.beat (h : p.Steady c) {t : HeartbeatTick}
    (ht : t.heartbeat = .networkError) :
    ∃ q, (p.beat lib d t).1.process = some q ∧ q.Steady c := by
  cases hp : p.heartbeat with
  | none =>
    refine ⟨p, ?_, h⟩
    simp only [Serving.beat, hp]
  | some loop =>
    obtain ⟨hended, hflag⟩ := h.2 loop hp
    let q := (beats lib p.cfg loop d [t]).1
    have hq : q.loop.state = loop.state ∧ q.disk = d ∧ q.loop.ended ≠ some .died :=
      beats_unanswered (p := { loop := loop, disk := d }) hended (by simpa using ht)
    have hbeat : (p.beat lib d t).1.process = some { p with heartbeat := some q.loop } := by
      unfold Serving.beat
      simp only [hp]
      split
      · rename_i hdied
        exact absurd hdied hq.2.2
      · rfl
    refine ⟨_, hbeat, h.1, fun loop' hloop' => ?_⟩
    obtain rfl := Option.some.inj hloop'
    exact ⟨hq.2.2, by rw [hq.1, hflag]⟩

theorem Serving.Steady.refresh (h : p.Steady c) {s : Routes.ProbedSync} (hs : SyncUnreached s) :
    ∃ q, (p.refresh lib d s).1.process = some q ∧ q.Steady c := by
  unfold Serving.refresh
  split
  · exact ⟨p, rfl, h⟩
  · have hon : SyncUnreached (s.on p.cfg d) := hs
    obtain ⟨hcache, -, hended⟩ := run_unreached lib.wire p.cfg p.sync.cache hon
    dsimp only
    split
    · rename_i hcrashed
      rw [hcrashed] at hended
      rcases hended with hended | ⟨e, -, hended⟩ <;> cases hended
    · exact ⟨_, rfl, hcache.trans h.1, h.2⟩

/-- **One step of an outage** leaves the process, steady as it was. -/
theorem Serving.Steady.step {x : Life} (hx : x.process = some p) (h : p.Steady c) {i : LifeInput}
    (hi : i.Outage) : ∃ q, (lifeStep lib x i).1.process = some q ∧ q.Steady c := by
  cases i with
  | launch l => exact hi.elim
  | shutdown => exact hi.elim
  | kill => exact hi.elim
  | heartbeat t =>
    simp only [lifeStep, hx, Option.elim_some]
    exact h.beat hi
  | sync s =>
    simp only [lifeStep, hx, Option.elim_some]
    exact h.refresh hi
  | others d use =>
    simp only [lifeStep, hx, Option.map_some]
    exact ⟨_, rfl, h⟩

/-- Nothing comes up in an outage but by a launch. -/
theorem outage_none {x : Life} (hx : x.process = none) {i : LifeInput} (hi : i.Outage) :
    (lifeStep lib x i).1.process = none := by
  cases i with
  | launch l => exact hi.elim
  | shutdown => exact hi.elim
  | kill => exact hi.elim
  | heartbeat t => simp [lifeStep, hx]
  | sync s => simp [lifeStep, hx]
  | others d use => simp [lifeStep, hx]

theorem outage_run_none {x : Life} (hx : x.process = none) {inputs : List LifeInput}
    (hinputs : ∀ i ∈ inputs, i.Outage) : (final (lifeStep lib) x inputs).process = none := by
  have hstep : ∀ (y : Life) i, y.process = none → i.Outage → (lifeStep lib y i).1.process = none :=
    fun y i hy hi => outage_none hy hi
  exact final_inv (lifeStep lib) hstep hx hinputs

/-- **An outage** leaves the process, however many steps it has. -/
theorem Serving.Steady.run {x : Life} (hx : x.process = some p) (h : p.Steady c)
    {inputs : List LifeInput} (hinputs : ∀ i ∈ inputs, i.Outage) :
    ∃ q, (final (lifeStep lib) x inputs).process = some q ∧ q.Steady c := by
  have hstep : ∀ (y : Life) i, (∃ q, y.process = some q ∧ q.Steady c) → i.Outage →
      ∃ q, (lifeStep lib y i).1.process = some q ∧ q.Steady c :=
    fun y i ⟨q, hy, hq⟩ hi => hq.step hy hi
  have hstart : ∃ q, x.process = some q ∧ q.Steady c := ⟨p, hx, h⟩
  exact final_inv (lifeStep lib) hstep hstart hinputs

end Steady

/-- The directory of the queue. -/
def Launch.queueDir (l : Launch) : Path := l.telemetryDir.getD l.boot.cfg.stateDir

section Queue

variable (l : Launch) (heartbeat : Option HeartbeatLoop) (policyWarmOk : Bool) (c : PolicyCache)
  (d : Disk)

/-- A queue is always opened, unless the process dies over it. -/
theorem openQueue_cases :
    (openQueue l heartbeat policyWarmOk c d).process = .error .killed ∨
      ∃ p, (openQueue l heartbeat policyWarmOk c d).process = .ok p := by
  unfold openQueue getStore OpenOutcome.store
  dsimp only
  cases (openStore (l.telemetryDir.getD l.boot.cfg.stateDir) l.queue d).ended with
  | ok table => exact Or.inr ⟨_, rfl⟩
  | error stop =>
    cases stop with
    | raised e => exact Or.inr ⟨_, rfl⟩
    | crashed => exact Or.inl rfl

theorem openQueue_disk :
    (openQueue l heartbeat policyWarmOk c d).disk = (openStore l.queueDir l.queue d).files := by
  unfold openQueue
  dsimp only
  split <;> rfl

end Queue

/-- **An outage is survived.** After a launch that reaches nobody, and any heartbeats,
syncs and other steps for as long as nobody is reached, no gate of the probe fails
exactly when the launch had an identity without a call and found a policy on the disk.
What serves is just what was found, and of the disk the launch changes the files of the
queue only. -/
theorem outage_survived [PyRuntime] (lib : AppLib) (l : Launch) (d : Disk)
    (inputs : List LifeInput) (h : l.Offline) (hinputs : ∀ i ∈ inputs, i.Outage)
    (hlives : (launch lib l d).process ≠ .error .killed) :
    let x := final (lifeStep lib) { disk := d } (.launch l :: inputs)
    ((∃ p, x.process = some p ∧ p.probed.unready = []) ↔
        Identified lib l d ∧ (loadedFrom lib l d).1.isWarm = true) ∧
      (∀ p, x.process = some p → p.sync.cache = (loadedFrom lib l d).1) ∧
      (l.queue.OwnFiles l.queueDir →
        FileTree.KeptOutside (OwnQueue l.queueDir l.queue.stamp) d (launch lib l d).disk) := by
  intro x
  let c := (loadedFrom lib l d).1
  rcases launch_offline lib d h with
    ⟨hid, heartbeat, policyWarmOk, hloop, hprocess, hdisk⟩ | ⟨hnot, hdisk, hnone⟩
  · rcases openQueue_cases l heartbeat policyWarmOk c d with hkilled | ⟨p, hp⟩
    · exact absurd (hprocess.trans hkilled) hlives
    obtain ⟨-, hheartbeat, hsync⟩ := openQueue_ok hp
    have hsteady : p.Steady c := ⟨by rw [hsync], by rw [hheartbeat]; exact hloop⟩
    have hlife : (launch lib l d).life.1.process = some p := by
      unfold LaunchOutcome.life
      rw [hprocess, hp]
    obtain ⟨q, hq, hqsteady⟩ : ∃ q, x.process = some q ∧ q.Steady c := hsteady.run hlife hinputs
    have hxq : ∀ r, x.process = some r ↔ q = r := by
      intro r
      rw [hq, Option.some.injEq]
    refine ⟨?_, ?_, fun hsql => ?_⟩
    · constructor
      · rintro ⟨r, hr, hready⟩
        obtain rfl := (hxq r).mp hr
        exact ⟨hid, hqsteady.unready_iff.mp hready⟩
      · rintro ⟨-, hwarm⟩
        exact ⟨q, (hxq q).mpr rfl, hqsteady.unready_iff.mpr hwarm⟩
    · intro r hr
      obtain rfl := (hxq r).mp hr
      exact hqsteady.1
    · rw [hdisk, openQueue_disk]
      exact openStore_frame hsql
  · have hlife : (launch lib l d).life.1.process = none := by
      unfold LaunchOutcome.life
      split
      · rename_i p hp
        exact absurd hp (hnone p)
      · rfl
    have hxnone : ∀ r, x.process ≠ some r := by
      intro r hr
      have hxn : x.process = none := outage_run_none hlife hinputs
      rw [hxn] at hr
      cases hr
    refine ⟨⟨?_, fun hboth => absurd hboth hnot⟩, ?_, fun _ => ?_⟩
    · rintro ⟨r, hr, -⟩
      exact absurd hr (hxnone r)
    · intro r hr
      exact absurd hr (hxnone r)
    · rw [hdisk]
      exact .refl d

/-! The revoked pod is restarted while the gateway is out of reach. -/

def revokedDisk : Disk :=
  (final (@lifeStep asciiRuntime demoPodLib) { disk := .empty } (revokedLife ++ [.shutdown])).disk

def outageLaunch : Launch :=
  { firstLaunch with
    boot := { firstLaunch.boot with now := startOf2030 + 3600, answer := .networkError }
    sync := syncOf { singular := .transportError, plural := .transportError } }

theorem outageLaunch_offline : outageLaunch.Offline where
  answer := rfl
  ticks := fun t ht => by
    rw [List.mem_singleton.mp ht]
    rfl
  sync := ⟨trivial, trivial⟩

/-- It serves again: the disk does not tell. -/
theorem outage_survived_revoked : ∃ p,
    (final (@lifeStep asciiRuntime demoPodLib) { disk := revokedDisk }
      [.launch outageLaunch, .heartbeat (tickOf .networkError .networkError)]).process = some p ∧
        p.probed.unready = [] := by
  have hfinished : (bootstrapIfNeeded demoEnrollLib outageLaunch.boot revokedDisk).finished =
      true := by
    decide +kernel
  have hcreds : HasCredentials demoEnrollLib outageLaunch.boot revokedDisk := by
    rcases (boot_offline demoEnrollLib revokedDisk outageLaunch_offline.answer).2 with
      ⟨hcreds, -⟩ | ⟨-, hnot⟩
    · exact hcreds
    · unfold BootOutcome.finished at hfinished
      split at hfinished
      · rename_i creds hended
        exact absurd hended (hnot creds)
      · cases hfinished
  have hwarm : (@loadedFrom asciiRuntime demoPodLib outageLaunch revokedDisk).1.isWarm = true := by
    decide +kernel
  have hlives : (@launch asciiRuntime demoPodLib outageLaunch revokedDisk).process ≠
      .error .killed := by
    have hok : (@launch asciiRuntime demoPodLib outageLaunch revokedDisk).process.isOk = true := by
      decide +kernel
    intro hkilled
    rw [hkilled] at hok
    cases hok
  refine (@outage_survived asciiRuntime demoPodLib outageLaunch revokedDisk _ outageLaunch_offline
    ?_ hlives).1.mpr ⟨Or.inr hcreds, hwarm⟩
  intro i hi
  rw [List.mem_singleton.mp hi]
  rfl

end TrustModelEdge
