/-
TrustModelEdge.Lib.Machine — runs of deterministic machines.

A machine is a function `step : σ → ι → σ × ο`: it takes a state and an
input to the next state and an output. What the environment decides (a
reply, a failure, the clock) is part of the input, so quantifying over
input lists quantifies over every behaviour of the environment.

The rules below are the inductions a development needs once each:
`final_inv` and `visits_state_inv` for an invariant of the state,
`guarded_inv`, `trace_inv` and `visits_inv` for an invariant that links the
outputs or the steps so far to the state, `lockstep` for a relation between
two runs, `simulates` for a machine and its specification.
-/
import Mathlib.Data.List.Forall2

namespace TrustModelEdge.Lib

variable {σ ι ο : Type*} (step : σ → ι → σ × ο)

/-- The state a run ends in. -/
def final (s : σ) (is : List ι) : σ := is.foldl (fun s i => (step s i).1) s

/-- The outputs of a run, in order. -/
def trace (s : σ) : List ι → List ο
  | [] => []
  | i :: is => (step s i).2 :: trace (step s i).1 is

/-- The steps of a run, in order: each input with the state it met. -/
def visits (s : σ) : List ι → List (σ × ι)
  | [] => []
  | i :: is => (s, i) :: visits (step s i).1 is

@[simp] theorem final_nil (s : σ) : final step s [] = s := rfl

@[simp] theorem final_cons (s : σ) (i : ι) (is : List ι) :
    final step s (i :: is) = final step (step s i).1 is := rfl

@[simp] theorem trace_nil (s : σ) : trace step s [] = [] := rfl

@[simp] theorem trace_cons (s : σ) (i : ι) (is : List ι) :
    trace step s (i :: is) = (step s i).2 :: trace step (step s i).1 is := rfl

@[simp] theorem visits_nil (s : σ) : visits step s [] = [] := rfl

@[simp] theorem visits_cons (s : σ) (i : ι) (is : List ι) :
    visits step s (i :: is) = (s, i) :: visits step (step s i).1 is := rfl

theorem final_append (s : σ) (is js : List ι) :
    final step s (is ++ js) = final step (final step s is) js := List.foldl_append

/-- An output is that of some step: the one after a front of the inputs. -/
theorem mem_trace_iff {s : σ} {is : List ι} {o : ο} :
    o ∈ trace step s is ↔
      ∃ front i, front ++ [i] <+: is ∧ (step (final step s front) i).2 = o := by
  induction is generalizing s with
  | nil => simp
  | cons j is ih =>
    rw [trace_cons, List.mem_cons, ih]
    constructor
    · rintro (rfl | ⟨front, i, hpre, ho⟩)
      · exact ⟨[], j, List.cons_prefix_cons.mpr ⟨rfl, List.nil_prefix⟩, rfl⟩
      · exact ⟨j :: front, i, List.cons_prefix_cons.mpr ⟨rfl, hpre⟩, ho⟩
    · rintro ⟨front, i, hpre, ho⟩
      cases front with
      | nil =>
        obtain ⟨rfl, -⟩ := List.cons_prefix_cons.mp hpre
        exact Or.inl ho.symm
      | cons k front =>
        obtain ⟨rfl, hrest⟩ := List.cons_prefix_cons.mp hpre
        exact Or.inr ⟨front, i, hrest, ho⟩

/-- The invariant rule: what each step preserves, a run preserves. The
inputs of the run may be constrained. -/
theorem final_inv {Inv : σ → Prop} {Ok : ι → Prop}
    (hstep : ∀ s i, Inv s → Ok i → Inv (step s i).1) {s : σ} {is : List ι}
    (hs : Inv s) (his : ∀ i ∈ is, Ok i) : Inv (final step s is) := by
  induction is generalizing s with
  | nil => exact hs
  | cons i is ih =>
    exact ih (hstep s i hs (his i List.mem_cons_self))
      (fun j hj => his j (List.mem_cons_of_mem _ hj))

/-- The history rule: a property of the outputs so far and the state, true
at the start and preserved by each step, holds at the end of every run. The
steps of the run may be constrained, each by the state it meets. -/
theorem guarded_inv {R : List ο → σ → Prop} {G : σ → ι → Prop}
    (hstep : ∀ os s i, R os s → G s i → R (os ++ [(step s i).2]) (step s i).1) {s : σ}
    {is : List ι} (hs : R [] s) (hG : ∀ v ∈ visits step s is, G v.1 v.2) :
    R (trace step s is) (final step s is) := by
  suffices h : ∀ os s, R os s → (∀ v ∈ visits step s is, G v.1 v.2) →
      R (os ++ trace step s is) (final step s is) by
    simpa using h [] s hs hG
  clear hs hG
  induction is with
  | nil => intro os s h _; simpa using h
  | cons i is ih =>
    intro os s h hG
    have h1 := hstep os s i h (hG (s, i) List.mem_cons_self)
    have h2 := ih _ _ h1 (fun v hv => hG v (List.mem_cons_of_mem _ hv))
    simpa using h2

/-- What each step of a constrained run preserves holds of every state the
run meets. -/
theorem visits_state_inv {Inv : σ → Prop} {G : σ → ι → Prop}
    (hstep : ∀ s i, Inv s → G s i → Inv (step s i).1) {s : σ} {is : List ι} (hs : Inv s)
    (hG : ∀ v ∈ visits step s is, G v.1 v.2) : ∀ v ∈ visits step s is, Inv v.1 := by
  induction is generalizing s with
  | nil => intro v hv; simp at hv
  | cons i is ih =>
    have hrest := ih (hstep s i hs (hG (s, i) List.mem_cons_self))
      (fun v hv => hG v (List.mem_cons_of_mem _ hv))
    intro v hv
    rcases List.mem_cons.mp hv with rfl | hv
    · exact hs
    · exact hrest v hv

theorem mem_visits {s : σ} {is : List ι} {v : σ × ι} (h : v ∈ visits step s is) : v.2 ∈ is := by
  induction is generalizing s with
  | nil => simp at h
  | cons i is ih =>
    rcases List.mem_cons.mp h with rfl | h
    · exact List.mem_cons_self
    · exact List.mem_cons_of_mem _ (ih h)

/-- The history rule for constrained inputs. -/
theorem trace_inv {R : List ο → σ → Prop} {P : ι → Prop}
    (hstep : ∀ os s i, R os s → P i → R (os ++ [(step s i).2]) (step s i).1) {s : σ}
    {is : List ι} (hs : R [] s) (his : ∀ i ∈ is, P i) :
    R (trace step s is) (final step s is) :=
  guarded_inv step hstep hs (fun v hv => his v.2 (mem_visits step hv))

theorem visits_append (s : σ) (is js : List ι) :
    visits step s (is ++ js) = visits step s is ++ visits step (final step s is) js := by
  induction is generalizing s with
  | nil => rfl
  | cons i is ih => simp [ih]

theorem visits_concat (s : σ) (is : List ι) (i : ι) :
    visits step s (is ++ [i]) = visits step s is ++ [(final step s is, i)] := by
  rw [visits_append]; rfl

/-- The history rule for the steps themselves: a property of the steps so far
and the state they lead to. -/
theorem visits_inv {R : List (σ × ι) → σ → Prop}
    (hstep : ∀ vs s i, R vs s → R (vs ++ [(s, i)]) (step s i).1) {s : σ} {is : List ι}
    (hs : R [] s) : R (visits step s is) (final step s is) := by
  suffices h : ∀ vs s, R vs s → R (vs ++ visits step s is) (final step s is) by
    simpa using h [] s hs
  clear hs
  induction is with
  | nil => intro vs s h; simpa using h
  | cons i is ih =>
    intro vs s h
    have h2 := ih _ _ (hstep vs s i h)
    simpa using h2

/-- The lockstep rule: two runs whose inputs are related one by one keep
their states related and produce related outputs. -/
theorem lockstep {R : σ → σ → Prop} {A : ι → ι → Prop} {O : ο → ο → Prop}
    (hstep : ∀ s t i j, R s t → A i j → R (step s i).1 (step t j).1 ∧ O (step s i).2 (step t j).2)
    {is js : List ι} (h : List.Forall₂ A is js) {s t : σ} (hst : R s t) :
    R (final step s is) (final step t js) ∧
      List.Forall₂ O (trace step s is) (trace step t js) := by
  induction h generalizing s t with
  | nil => exact ⟨hst, .nil⟩
  | cons hij _ ih =>
    obtain ⟨h1, h2⟩ := hstep _ _ _ _ hst hij
    obtain ⟨h3, h4⟩ := ih h1
    exact ⟨h3, .cons h2 h4⟩

/-- The refinement rule: where each step of a machine is a step of its
specification, on the input that `view` makes of it, so is a run of it. -/
theorem simulates {τ κ ω : Type*} (spec : τ → κ → τ × ω) (view : σ × ι → κ) {R : σ → τ → Prop}
    {O : ο → ω → Prop}
    (hstep : ∀ s t i, R s t →
      R (step s i).1 (spec t (view (s, i))).1 ∧ O (step s i).2 (spec t (view (s, i))).2)
    {s : σ} {t : τ} (h : R s t) (is : List ι) :
    R (final step s is) (final spec t ((visits step s is).map view)) ∧
      List.Forall₂ O (trace step s is) (trace spec t ((visits step s is).map view)) := by
  induction is generalizing s t with
  | nil => exact ⟨h, .nil⟩
  | cons i is ih =>
    obtain ⟨h1, h2⟩ := hstep s t i h
    obtain ⟨h3, h4⟩ := ih h1
    exact ⟨h3, .cons h2 h4⟩

end TrustModelEdge.Lib
