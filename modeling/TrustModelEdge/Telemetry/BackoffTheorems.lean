/-
TrustModelEdge.Telemetry.BackoffTheorems — how long `run_forever` sleeps.

The backoff starts at the flush interval, is doubled up to a cap, and is
put back where something was sent. Between two resets it climbs towards the
cap, so all depends on where it starts: from an interval above the cap the
first doubling is a step down (`soundBackoff_iff`).
-/
import Mathlib.Tactic.Linarith
import Mathlib.Tactic.NormNum
import TrustModelEdge.Config
import TrustModelEdge.Telemetry.FifoTheorems
import TrustModelEdge.Telemetry.Loops

namespace TrustModelEdge.Telemetry

open Py Lib

/-! ## What a backoff is to be -/

/-- A tick failed, the loop slept for `sleep`, and sent nothing since. -/
def FailedBefore (ends : List TurnEnd) (sleep : Rat) : Prop :=
  ∃ front since, ends = front ++ .failed sleep :: since ∧ ∀ n, .sent n ∉ since

/-- The sleeps after failed ticks, in order. -/
structure SoundBackoff (flushInterval : Rat) (ends : List TurnEnd) : Prop where
  floor : ∀ sleep, .failed sleep ∈ ends → flushInterval ≤ sleep
  /-- No sleep is shorter than the one before it, unless something was sent. -/
  grows : ∀ before sleep after, ends = before ++ .failed sleep :: after →
    ∀ earlier, FailedBefore before earlier → earlier ≤ sleep
  cap : ∀ sleep, .failed sleep ∈ ends → sleep ≤ max maxBackoffSeconds flushInterval

/-! ## One tick -/

/-- How a tick goes, by what it finds in the queue, at the minter and at the
gateway. -/
inductive Met where
  | sent
  | idle
  /-- The batch is marked, to be retried. -/
  | retried
  | raised

/-- What the end of its POST makes of a tick. -/
def PostOutcome.met : PostOutcome → Met
  | .transportError _ => .retried
  | .otherError => .raised
  | .response code text =>
      if isSuccess code then .sent
      else if text.isNone then .raised
      else if code = 400 ∨ code = 422 then .sent
      else .retried

def SenderInput.met (json : JsonText) (batchSize : Int) (i : SenderInput) : Met :=
  match i.store.dequeueBatch json batchSize with
  | .error _ => .raised
  | .ok [] => .idle
  | .ok (_ :: _) =>
      match i.tick.mint with
      | .error _ => .retried
      | .ok _ => i.tick.outcome.met

/-- What a tick that goes so leaves of the sender, and what it returns. -/
inductive TickMeets (s : TelemetrySender) : Met → TelemetrySender → TickStatus → Prop where
  | sent (n : Nat) : TickMeets s .sent s (.returned (n + 1))
  | idle : TickMeets s .idle s (.returned 0)
  | retried : TickMeets s .retried s.bumpBackoff (.returned 0)
  | raised : TickMeets s .raised s .raised

/-- What a tick of this loop leaves of the sender, and the turn it is: where
something was sent the backoff is reset, by `run_forever` only; elsewhere it is
what the loop sleeps for. -/
inductive StepMeets (s : TelemetrySender) :
    Ticker → Met → TelemetrySender → Option TurnEnd → Prop where
  | sent (n : Nat) :
      StepMeets s .runForever .sent { s with backoff := s.flushInterval } (some (.sent n))
  | idle : StepMeets s .runForever .idle s (some (.idle s.backoff))
  | retried :
      StepMeets s .runForever .retried s.bumpBackoff (some (.failed s.bumpBackoff.backoff))
  | raised : StepMeets s .runForever .raised s (some (.failed s.backoff))
  | flushRetried : StepMeets s .flushNow .retried s.bumpBackoff none
  | flushed (m : Met) (h : m ≠ .retried) : StepMeets s .flushNow m s none

section Tick

variable (json : JsonText)

theorem tickEnd_meets {batch : List QueuedEvent} (h : batch ≠ []) (outcome : PostOutcome)
    (s : TelemetrySender) (st : TelemetryStore) :
    TickMeets s outcome.met (tickEnd batch outcome s st).1 (tickEnd batch outcome s st).2.2.1 := by
  obtain ⟨n, hn⟩ := Nat.exists_eq_succ_of_ne_zero (List.length_pos_iff.mpr h).ne'
  have hids : (batch.map (·.id)).length = n + 1 := by rw [List.length_map, hn]
  unfold tickEnd PostOutcome.met
  cases outcome with
  | transportError e => exact .retried
  | otherError => exact .raised
  | response code text =>
    dsimp only
    rw [hids]
    by_cases hs : isSuccess code = true
    · rw [if_pos hs, if_pos hs]
      exact .sent n
    · rw [if_neg hs, if_neg hs]
      cases text with
      | none =>
        -- the tick raises on either side of the ack
        by_cases hbad : code = 400 ∨ code = 422
        · simp only [hbad, if_true]
          exact .raised
        · simp only [hbad, if_false]
          exact .raised
      | some text =>
        by_cases hbad : code = 400 ∨ code = 422
        · simp only [hbad, if_true]
          exact .sent n
        · simp only [hbad, if_false]
          exact .retried

theorem tick_meets (s : TelemetrySender) (i : SenderInput) :
    TickMeets s (i.met json s.batchSize) (tick json i.tick s i.store).1
      (tick json i.tick s i.store).2.2 := by
  unfold tick tickBegin SenderInput.met
  cases i.store.dequeueBatch json s.batchSize with
  | error e => exact .raised
  | ok batch =>
    cases batch with
    | nil => exact .idle
    | cons e batch =>
      cases i.tick.mint with
      | error e => exact .retried
      | ok jwt => exact tickEnd_meets (List.cons_ne_nil e batch) i.tick.outcome s _

theorem met_idle_iff (i : SenderInput) (batchSize : Int) :
    i.met json batchSize = .idle ↔ i.store.dequeueBatch json batchSize = .ok [] := by
  have hposted : i.tick.outcome.met ≠ .idle := by
    unfold PostOutcome.met
    split
    · simp
    · simp
    · split
      · simp
      · split
        · simp
        · split <;> simp
  unfold SenderInput.met
  cases i.store.dequeueBatch json batchSize with
  | error e => simp
  | ok batch =>
    cases batch with
    | nil => simp
    | cons e batch => cases i.tick.mint <;> simp [hposted]

theorem turnEnd_idle {i : SenderInput} {batchSize : Int}
    (h : i.store.dequeueBatch json batchSize = .ok []) (backoff : Rat) :
    turnEnd json i batchSize (.returned 0) backoff = .idle backoff := by
  simp only [turnEnd, h]

/-- A tick that sent nothing of what it found has failed. -/
theorem turnEnd_failed {i : SenderInput} {batchSize : Int} {status : TickStatus}
    (hstatus : ∀ n, status ≠ .returned (n + 1))
    (h : i.store.dequeueBatch json batchSize ≠ .ok []) (backoff : Rat) :
    turnEnd json i batchSize status backoff = .failed backoff := by
  unfold turnEnd
  split
  · rename_i n
    exact absurd rfl (hstatus n)
  · split
    · rename_i hempty
      exact absurd hempty h
    · rfl

theorem senderStep_meets (s : TelemetrySender) (i : SenderInput) :
    StepMeets s i.ticker (i.met json s.batchSize) (senderStep json s i).1
      (senderStep json s i).2 := by
  have htick := tick_meets json s i
  have hidle := met_idle_iff json i s.batchSize
  unfold senderStep
  generalize tick json i.tick s i.store = r at htick
  obtain ⟨s', st', status⟩ := r
  generalize i.met json s.batchSize = m at htick hidle
  dsimp only at htick ⊢
  cases htick with
  | sent n =>
    cases i.ticker with
    | runForever => exact .sent (n + 1)
    | flushNow => exact .flushed .sent (by simp)
  | idle =>
    rw [turnEnd_idle json (hidle.mp rfl)]
    cases i.ticker with
    | runForever => exact .idle
    | flushNow => exact .flushed .idle (by simp)
  | retried =>
    rw [turnEnd_failed json (by simp) (fun h => by cases hidle.mpr h)]
    cases i.ticker with
    | runForever => exact .retried
    | flushNow => exact .flushRetried
  | raised =>
    rw [turnEnd_failed json (by simp) (fun h => by cases hidle.mpr h)]
    cases i.ticker with
    | runForever => exact .raised
    | flushNow => exact .flushed .raised (by simp)

end Tick

/-! ## Every run -/

/-- An entry of a longer history is its last, or one of the history before. -/
theorem concat_eq_append_cons {α : Type} {l front since : List α} {a b : α}
    (h : l ++ [b] = front ++ a :: since) :
    l = front ∧ b = a ∧ since = [] ∨ ∃ since', since = since' ++ [b] ∧ l = front ++ a :: since' := by
  rcases List.eq_nil_or_concat since with rfl | ⟨since', last, rfl⟩
  · obtain ⟨hl, hb⟩ := List.append_inj' h rfl
    exact Or.inl ⟨hl, List.singleton_inj.mp hb, rfl⟩
  · rw [List.concat_eq_append, ← List.cons_append, ← List.append_assoc] at h
    obtain ⟨hl, hb⟩ := List.append_inj' h rfl
    refine Or.inr ⟨since', ?_, hl⟩
    rw [List.concat_eq_append, hb]

theorem FailedBefore.concat {ends : List TurnEnd} {e : TurnEnd} {sleep : Rat}
    (h : FailedBefore (ends ++ [e]) sleep) :
    e = .failed sleep ∨ FailedBefore ends sleep ∧ ∀ n, e ≠ .sent n := by
  obtain ⟨front, since, heq, hsince⟩ := h
  rcases concat_eq_append_cons heq with ⟨-, he, -⟩ | ⟨since', rfl, hends⟩
  · exact Or.inl he
  · refine Or.inr ⟨⟨front, since', hends, fun n hn => ?_⟩, fun n hn => ?_⟩
    · exact hsince n (by simp [hn])
    · exact hsince n (by simp [hn])

/-- A run is sound turn by turn: the last sleep is compared with the bounds and
with the sleeps it follows. -/
theorem SoundBackoff.concat {flushInterval : Rat} {ends : List TurnEnd} {e : TurnEnd}
    (h : SoundBackoff flushInterval ends)
    (he : ∀ sleep, e = .failed sleep →
      flushInterval ≤ sleep ∧ sleep ≤ max maxBackoffSeconds flushInterval ∧
        ∀ earlier, FailedBefore ends earlier → earlier ≤ sleep) :
    SoundBackoff flushInterval (ends ++ [e]) where
  floor sleep hmem := by
    rcases List.mem_append.mp hmem with hmem | hmem
    · exact h.floor sleep hmem
    · exact (he sleep (List.mem_singleton.mp hmem).symm).1
  cap sleep hmem := by
    rcases List.mem_append.mp hmem with hmem | hmem
    · exact h.cap sleep hmem
    · exact (he sleep (List.mem_singleton.mp hmem).symm).2.1
  grows before sleep after heq earlier hearlier := by
    rcases concat_eq_append_cons heq with ⟨rfl, hlast, -⟩ | ⟨after', -, hends⟩
    · exact (he sleep hlast).2.2 earlier hearlier
    · exact h.grows before sleep after' hends earlier hearlier

/-- Where the interval is below the cap, the backoff stays between the two, and
above every sleep since the last turn that sent something. -/
structure BackoffInv (flushInterval : Rat) (ends : List TurnEnd) (s : TelemetrySender) : Prop where
  configured : s.flushInterval = flushInterval
  low : flushInterval ≤ s.backoff
  high : s.backoff ≤ maxBackoffSeconds
  above : ∀ earlier, FailedBefore ends earlier → earlier ≤ s.backoff
  sound : SoundBackoff flushInterval ends

section Runs

variable {flushInterval : Rat} {ends : List TurnEnd} {s : TelemetrySender}

theorem BackoffInv.create (hcap : flushInterval ≤ maxBackoffSeconds) (batchSize : Int) :
    BackoffInv flushInterval [] (.create batchSize flushInterval) where
  configured := rfl
  low := le_refl flushInterval
  high := hcap
  above := by
    rintro earlier ⟨front, since, heq, -⟩
    simp at heq
  sound := by constructor <;> simp

theorem BackoffInv.bump (h : BackoffInv flushInterval ends s) (hpos : 0 ≤ flushInterval) :
    BackoffInv flushInterval ends s.bumpBackoff := by
  have hdouble : s.backoff ≤ s.backoff * 2 := by linarith [h.low]
  have hle : s.backoff ≤ s.bumpBackoff.backoff := le_min hdouble h.high
  exact {
    configured := h.configured
    low := h.low.trans hle
    high := min_le_right _ _
    above := fun earlier hearlier => (h.above earlier hearlier).trans hle
    sound := h.sound }

/-- A turn that sent something starts over. -/
theorem BackoffInv.sent (h : BackoffInv flushInterval ends s)
    (hcap : flushInterval ≤ maxBackoffSeconds) (n : Nat) :
    BackoffInv flushInterval (ends ++ [.sent n]) { s with backoff := s.flushInterval } where
  configured := h.configured
  low := h.configured.ge
  high := h.configured.le.trans hcap
  above earlier hearlier := by
    rcases hearlier.concat with heq | ⟨-, hnot⟩
    · cases heq
    · exact absurd rfl (hnot n)
  sound := h.sound.concat (by rintro sleep ⟨⟩)

/-- A turn that sent nothing slept for the backoff, if it failed. -/
theorem BackoffInv.turn (h : BackoffInv flushInterval ends s) {e : TurnEnd}
    (hsent : ∀ sleep, e = .failed sleep → sleep = s.backoff) :
    BackoffInv flushInterval (ends ++ [e]) s where
  configured := h.configured
  low := h.low
  high := h.high
  above earlier hearlier := by
    rcases hearlier.concat with heq | ⟨hbefore, -⟩
    · exact (hsent earlier heq).le
    · exact h.above earlier hbefore
  sound := h.sound.concat (by
    intro sleep heq
    rw [hsent sleep heq]
    exact ⟨h.low, le_max_of_le_left h.high, h.above⟩)

/-- One tick of either loop: the backoff first, then what the turn adds. -/
theorem BackoffInv.step (json : JsonText) (hpos : 0 ≤ flushInterval)
    (hcap : flushInterval ≤ maxBackoffSeconds) (h : BackoffInv flushInterval ends s)
    (i : SenderInput) :
    BackoffInv flushInterval (ends ++ (senderStep json s i).2.toList) (senderStep json s i).1 := by
  have hmeets := senderStep_meets json s i
  generalize (senderStep json s i).1 = s', (senderStep json s i).2 = turn at hmeets ⊢
  generalize i.ticker = ticker, i.met json s.batchSize = m at hmeets
  cases hmeets with
  | sent n => exact h.sent hcap n
  | idle => exact h.turn (by simp)
  | retried => exact (h.bump hpos).turn (by simp)
  | raised => exact h.turn (by simp)
  | flushRetried => simpa using h.bump hpos
  | flushed => simpa using h

end Runs

/-! ## Intervals above the cap -/

/-- A batch was to be retried, by a tick of either loop, and `run_forever` has sent
nothing since. -/
def RetryPending (json : JsonText) (batchSize : Int) (inputs : List SenderInput) : Prop :=
  ∃ front i since, inputs = front ++ i :: since ∧ i.met json batchSize = .retried ∧
    ∀ k ∈ since, k.ticker = .runForever → k.met json batchSize ≠ .sent

/-- Where the interval is not below the cap, the backoff is the one or the other. -/
structure PendingInv (json : JsonText) (batchSize : Int) (flushInterval : Rat)
    (inputs : List SenderInput) (s : TelemetrySender) : Prop where
  configured : s.flushInterval = flushInterval
  size : s.batchSize = batchSize
  capped : RetryPending json batchSize inputs → s.backoff = maxBackoffSeconds
  reset : ¬ RetryPending json batchSize inputs → s.backoff = flushInterval

section Pending

variable {json : JsonText} {batchSize : Int} {flushInterval : Rat} {inputs : List SenderInput}
  {i : SenderInput} {s s' : TelemetrySender} {ticker : Ticker} {m : Met} {turn : Option TurnEnd}

theorem retryPending_concat :
    RetryPending json batchSize (inputs ++ [i]) ↔
      i.met json batchSize = .retried ∨ RetryPending json batchSize inputs ∧
        (i.ticker = .runForever → i.met json batchSize ≠ .sent) := by
  constructor
  · rintro ⟨front, j, since, heq, hretried, hsince⟩
    rcases concat_eq_append_cons heq with ⟨-, rfl, -⟩ | ⟨since', rfl, hinputs⟩
    · exact Or.inl hretried
    · refine Or.inr ⟨⟨front, j, since', hinputs, hretried, fun k hk => ?_⟩, ?_⟩
      · exact hsince k (by simp [hk])
      · exact hsince i (by simp)
  · rintro (hretried | ⟨⟨front, j, since, rfl, hretried, hsince⟩, hlast⟩)
    · exact ⟨inputs, i, [], rfl, hretried, by simp⟩
    · refine ⟨front, j, since ++ [i], by simp, hretried, fun k hk => ?_⟩
      rcases List.mem_append.mp hk with hk | hk
      · exact hsince k hk
      · rw [List.mem_singleton.mp hk]
        exact hlast

theorem bumpBackoff_capped (hcap : maxBackoffSeconds ≤ flushInterval)
    (h : s.backoff = maxBackoffSeconds ∨ s.backoff = flushInterval) :
    s.bumpBackoff.backoff = maxBackoffSeconds := by
  have hpos : 0 ≤ maxBackoffSeconds := by norm_num [maxBackoffSeconds]
  refine min_eq_right ?_
  rcases h with h | h <;> rw [h] <;> linarith

theorem PendingInv.step (hcap : maxBackoffSeconds ≤ flushInterval)
    (h : PendingInv json batchSize flushInterval inputs s) (i : SenderInput) :
    PendingInv json batchSize flushInterval (inputs ++ [i]) (senderStep json s i).1 := by
  have hmeets := senderStep_meets json s i
  have hpending : RetryPending json batchSize (inputs ++ [i]) ↔ _ := retryPending_concat
  have hsame : (RetryPending json batchSize (inputs ++ [i]) ↔ RetryPending json batchSize inputs) →
      PendingInv json batchSize flushInterval (inputs ++ [i]) s := fun hiff =>
    ⟨h.configured, h.size, fun hp => h.capped (hiff.mp hp), fun hp => h.reset (mt hiff.mpr hp)⟩
  have hretried : RetryPending json batchSize (inputs ++ [i]) →
      PendingInv json batchSize flushInterval (inputs ++ [i]) s.bumpBackoff := fun hp =>
    ⟨h.configured, h.size, fun _ => bumpBackoff_capped hcap ((em _).imp h.capped h.reset),
      fun hnot => absurd hp hnot⟩
  rw [h.size] at hmeets
  generalize (senderStep json s i).1 = s', (senderStep json s i).2 = turn at hmeets ⊢
  generalize i.ticker = ticker, i.met json batchSize = m at hmeets hpending
  cases hmeets with
  | sent n =>
    have hnot : ¬ RetryPending json batchSize (inputs ++ [i]) := by simp [hpending]
    exact ⟨h.configured, h.size, fun hp => absurd hp hnot, fun _ => h.configured⟩
  | idle => exact hsame (by simp [hpending])
  | retried => exact hretried (hpending.mpr (Or.inl rfl))
  | raised => exact hsame (by simp [hpending])
  | flushRetried => exact hretried (hpending.mpr (Or.inl rfl))
  | flushed m hm => exact hsame (by simp [hpending, hm])

end Pending

end TrustModelEdge.Telemetry
