/-
TrustModelEdge.Lib.Fifo — what it is for a machine to implement a queue.

`FifoStep` is the abstract queue: arrivals go to the back, deliveries
come off the front. A machine with an abstraction function to pending
lists implements it when each of its steps is such a step; `fifo_run`
composes the steps, so that over a whole run nothing is lost, repeated
or reordered.
-/
import TrustModelEdge.Lib.Machine

namespace TrustModelEdge.Lib

variable {α σ ι ο : Type*}

/-- One step of the abstract queue: `ins` arrive, `outs` are delivered. -/
def FifoStep (pending ins outs pending' : List α) : Prop :=
  pending ++ ins = outs ++ pending'

theorem FifoStep.comp {p q r ins ins' outs outs' : List α} (h : FifoStep p ins outs q)
    (h' : FifoStep q ins' outs' r) : FifoStep p (ins ++ ins') (outs ++ outs') r := by
  unfold FifoStep at *
  rw [← List.append_assoc, h, List.append_assoc, h', List.append_assoc]

/-- An arrival. -/
theorem FifoStep.push (p : List α) (a : α) : FifoStep p [a] [] (p ++ [a]) := rfl

/-- Nothing happens. -/
theorem FifoStep.idle (p : List α) : FifoStep p [] [] p := by
  simp [FifoStep]

/-- A front part is delivered. -/
theorem FifoStep.pop (outs p : List α) : FifoStep (outs ++ p) [] outs p := by
  simp [FifoStep]

/-- **Steps compose**: a machine whose steps, from states of the invariant,
are steps of the abstract queue has runs that are such steps. -/
theorem fifo_run {step : σ → ι → σ × ο} {Inv : σ → Prop} {Ok : ι → Prop}
    {pending : σ → List α} {ins outs : ο → List α}
    (hinv : ∀ s i, Inv s → Ok i → Inv (step s i).1)
    (hstep : ∀ s i, Inv s → Ok i →
      FifoStep (pending s) (ins (step s i).2) (outs (step s i).2) (pending (step s i).1))
    {s : σ} {is : List ι} (hs : Inv s) (his : ∀ i ∈ is, Ok i) :
    FifoStep (pending s) ((trace step s is).flatMap ins) ((trace step s is).flatMap outs)
      (pending (final step s is)) := by
  induction is generalizing s with
  | nil => exact .idle _
  | cons i is ih =>
    have hi := his i List.mem_cons_self
    have hrest := ih (hinv s i hs hi) (fun j hj => his j (List.mem_cons_of_mem _ hj))
    simpa using (hstep s i hs hi).comp hrest

end TrustModelEdge.Lib
