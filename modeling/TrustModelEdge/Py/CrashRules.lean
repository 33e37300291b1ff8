/-
TrustModelEdge.Py.CrashRules — what a routine that is cut anywhere leaves.

`Cuts` is a triple with two exits: what holds of the disk when the routine
finishes, and what holds when it stops, by an exception or by the death of
the process, after any of its operations. The rules take a routine apart as
its code does, so that a condition proved for the stopped exit holds at
every point between two operations. Operations are whole here: each happens
or does not.

`Finishes` and `CrashesTo` are the other direction: that a disk is really
left by some cut.
-/
import TrustModelEdge.Py.DiskRules

namespace TrustModelEdge.Py

open Lib

/-- The text an operation leaves behind when it stops half way. -/
def Fault.left : Fault → Option Str
  | .none => Option.none
  | .late _ => Option.none
  | .fail _ left => left
  | .crash left => left

/-- The operation happens. -/
def Fault.happens : Fault → Bool
  | .none | .late _ => true
  | .fail _ _ | .crash _ => false

namespace DiskM

variable {α γ : Type}

/-- No operation stops half way. -/
def Whole (faults : List Fault) : Prop := ∀ f ∈ faults, f.left = none

theorem left_of_happens {f : Fault} (h : f.happens = true) : f.left = none := by
  cases f with
  | none => rfl
  | late t => rfl
  | fail e left => cases h
  | crash left => cases h

/-- The process dies before the operation after these. -/
theorem whole_crash {ops : List Fault} (h : ∀ f ∈ ops, f.happens = true) :
    Whole (ops ++ [.crash none]) := by
  intro f hf
  rcases List.mem_append.mp hf with hf | hf
  · exact left_of_happens (h f hf)
  · rw [List.mem_singleton.mp hf]
    rfl

/-- The process dies before the operation after the first `k`. -/
theorem whole_crash_after (k : Nat) : Whole (List.replicate k .none ++ [.crash none]) :=
  whole_crash fun f hf => by rw [List.eq_of_mem_replicate hf]; rfl

/-- From a disk with `A`, the routine finishes with `B` or stops with `S`. -/
def Cuts (A : Disk → Prop) (m : DiskM α) (B : α → Disk → Prop)
    (S : Stop → Disk → Prop) : Prop :=
  ∀ env : DiskEnv, Whole env.faults → A env.disk →
    Whole (m.run env).2.faults ∧
      match (m.run env).1 with
      | .ok a => B a (m.run env).2.disk
      | .error e => S e (m.run env).2.disk

variable {A : Disk → Prop} {B : α → Disk → Prop} {S : Stop → Disk → Prop}

namespace Cuts

theorem pure {a : α} (h : ∀ d, A d → B a d) : Cuts A (pure a : DiskM α) B S :=
  fun env hwhole hd => ⟨hwhole, h env.disk hd⟩

theorem bind {m : DiskM α} {f : α → DiskM γ} {C : γ → Disk → Prop} (hm : Cuts A m B S)
    (hf : ∀ a, Cuts (B a) (f a) C S) : Cuts A (m >>= f) C S := by
  intro env hwhole hd
  obtain ⟨hwhole', hend⟩ := hm env hwhole hd
  have hrun : (m >>= f).run env = andThen (m.run env) f := rfl
  rw [hrun]
  rcases hr : m.run env with ⟨r, env'⟩
  rw [hr] at hwhole' hend
  cases r with
  | ok a => exact hf a env' hwhole' hend
  | error e => exact ⟨hwhole', hend⟩

theorem imp {m : DiskM α} {B' : α → Disk → Prop} (h : Cuts A m B S)
    (himp : ∀ a d, B a d → B' a d) : Cuts A m B' S := by
  intro env hwhole hd
  obtain ⟨hwhole', hend⟩ := h env hwhole hd
  refine ⟨hwhole', ?_⟩
  cases hr : (m.run env).1 with
  | ok a =>
    rw [hr] at hend
    exact himp a _ hend
  | error e =>
    rw [hr] at hend
    exact hend

/-- What is known of no disk in particular is known throughout. -/
theorem of_fact {m : DiskM α} {fact : Prop} (h : fact → Cuts A m B S) :
    Cuts (fun d => A d ∧ fact) m B S :=
  fun env hwhole hd => h hd.2 env hwhole hd.1

theorem raise {e : Exc} (h : ∀ d, A d → S (.raised e) d) : Cuts A (raise e : DiskM α) B S :=
  fun env hwhole hd => ⟨hwhole, h env.disk hd⟩

theorem lift {x : Except Exc α} (hok : ∀ a, x = .ok a → ∀ d, A d → B a d)
    (herr : ∀ e, x = .error e → ∀ d, A d → S (.raised e) d) :
    Cuts A (DiskM.lift x) B S := by
  cases x with
  | ok a => exact Cuts.pure (hok a rfl)
  | error e => exact Cuts.raise (herr e rfl)

theorem getDisk {B : Disk → Disk → Prop} (h : ∀ d, A d → B d d) :
    Cuts A DiskM.getDisk B S :=
  fun env hwhole hd => ⟨hwhole, h env.disk hd⟩

/-- One operation: it stops where it was, or happens. -/
theorem operation {B : Unit → Disk → Prop} {act : Rat → Disk → Except Exc Disk}
    {torn : Rat → Str → Disk → Disk} (hcut : ∀ e d, A d → S e d)
    (hact : ∀ t d d', A d → act t d = .ok d' → B () d') :
    Cuts A (DiskM.operation act torn) B S := by
  intro env hwhole hd
  have hrest : ∀ {f fs}, env.faults = f :: fs → Whole fs := by
    intro f fs hf g hg
    exact hwhole g (by rw [hf]; exact List.mem_cons_of_mem _ hg)
  have hleft : ∀ {f fs}, env.faults = f :: fs → f.left = none := by
    intro f fs hf
    exact hwhole f (by rw [hf]; exact List.mem_cons_self)
  simp only [DiskM.operation]
  split
  · rename_i e s fs hf
    have hs : s = none := hleft hf
    subst hs
    exact ⟨hrest hf, hcut _ _ hd⟩
  · rename_i s fs hf
    have hs : s = none := hleft hf
    subst hs
    exact ⟨hrest hf, hcut _ _ hd⟩
  · have htail : Whole env.faults.tail := fun f hf => hwhole f (List.mem_of_mem_tail hf)
    cases ha : act env.time env.disk with
    | ok d => exact ⟨htail, hact _ _ _ hd ha⟩
    | error e => exact ⟨htail, hcut _ _ hd⟩

/-- An exception that is ignored counts as finished. -/
theorem ignoreOsError {m : DiskM Unit} {B : Unit → Disk → Prop}
    (h : Cuts A m B (fun e d => S e d ∧ B () d)) :
    Cuts A (DiskM.ignoreOsError m) B S := by
  intro env hwhole hd
  have hend := h env hwhole hd
  simp only [DiskM.ignoreOsError]
  rcases hr : m.run env with ⟨r, env'⟩
  rw [hr] at hend
  obtain ⟨hwhole', hend⟩ := hend
  cases r with
  | ok a => exact ⟨hwhole', hend⟩
  | error s =>
    cases s with
    | raised e =>
      by_cases hos : e.isOsError = true
      · simp only [hos, if_true]
        exact ⟨hwhole', hend.2⟩
      · simp only [hos, Bool.false_eq_true, if_false]
        exact ⟨hwhole', hend.1⟩
    | crashed => exact ⟨hwhole', hend.1⟩

end Cuts

/-! ## The operations -/

section Operations

variable {B : Unit → Disk → Prop}

/-- A text that has no bytes leaves its file empty, and raises. -/
theorem cuts_writeText {p : PurePath} {text : Str} (hcut : ∀ e d, A d → S e d)
    (hput : text.any isSurrogate = false → ∀ t d d' q, A d → resolve d p = .ok q →
      d.write q { text := some text, mtime := t } = some d' → B () d')
    (hempty : text.any isSurrogate = true → ∀ t d d' q, A d → resolve d p = .ok q →
      d.write q { text := some [], mtime := t } = some d' → S (.raised .unicodeEncodeError) d') :
    Cuts A (writeText p text) B S := by
  unfold writeText
  simp only
  cases hs : text.any isSurrogate with
  | true =>
    simp only [if_true]
    refine Cuts.bind (B := fun _ d => S (.raised .unicodeEncodeError) d)
      (Cuts.operation hcut ?_) (fun _ => Cuts.raise (fun _ h => h))
    intro t d d' hd hact
    obtain ⟨q, hq, hwrite⟩ := putText_ok hact
    exact hempty hs t d d' q hd hq hwrite
  | false =>
    simp only [Bool.false_eq_true, if_false]
    refine Cuts.operation hcut ?_
    intro t d d' hd hact
    obtain ⟨q, hq, hwrite⟩ := putText_ok hact
    exact hput hs t d d' q hd hq hwrite

theorem cuts_replaceFile {source target : PurePath} (hcut : ∀ e d, A d → S e d)
    (hmove : ∀ d d' p q, A d → resolve d source = .ok p → resolve d target = .ok q →
      d.rename p q = some d' → B () d') : Cuts A (replaceFile source target) B S := by
  refine Cuts.operation hcut ?_
  intro _ d d' hd hact
  obtain ⟨p, q, hp, hq, hrename⟩ := movePath_ok hact
  exact hmove d d' p q hd hp hq hrename

/-- Unlinking with errors ignored: the file goes, or stays. -/
theorem cuts_ignoreOsError_unlink {p : PurePath} (hcut : ∀ e d, A d → S e d)
    (hkeep : ∀ d, A d → B () d)
    (hdrop : ∀ d d' q, A d → resolve d p = .ok q → d.remove q = some d' → B () d') :
    Cuts A (ignoreOsError (unlink p)) B S := by
  refine Cuts.ignoreOsError (Cuts.operation (fun e d hd => ⟨hcut e d hd, hkeep d hd⟩) ?_)
  intro _ d d' hd hact
  obtain ⟨q, hq, hremove⟩ := removePath_ok hact
  exact hdrop d d' q hd hq hremove

theorem cuts_makeDirs {dir : Path} (hcut : ∀ e d, A d → S e d)
    (hmake : ∀ d d', A d → d.mkdirs [] dir = some d' → B () d') :
    Cuts A (makeDirs dir) B S := by
  refine Cuts.operation hcut ?_
  intro _ d d' hd hact
  split at hact
  · rename_i d₁ hmk
    obtain rfl := Except.ok.inj hact
    exact hmake d _ hd hmk
  · cases hact

end Operations

/-! ## What holds of every file -/

/-- Wherever the routine is cut, the property still holds. -/
def Keeps (P : Disk → Prop) (m : DiskM α) : Prop :=
  Cuts P m (fun _ => P) (fun _ => P)

namespace Keeps

variable {P : Disk → Prop} {F : FileBody → Prop} {p : PurePath}

/-- The disk after a run, finished or not. -/
theorem run {m : DiskM α} (h : Keeps P m) {env : DiskEnv} (hwhole : Whole env.faults)
    (hd : P env.disk) : P (m.run env).2.disk := by
  obtain ⟨-, hend⟩ := h env hwhole hd
  cases hr : (m.run env).1 with
  | ok a =>
    rw [hr] at hend
    exact hend
  | error e =>
    rw [hr] at hend
    exact hend

theorem pure (a : α) : Keeps P (pure a : DiskM α) := Cuts.pure (fun _ h => h)

theorem bind {m : DiskM α} {f : α → DiskM γ} (hm : Keeps P m) (hf : ∀ a, Keeps P (f a)) :
    Keeps P (m >>= f) :=
  Cuts.bind hm hf

theorem lift_bind {x : Except Exc α} {f : α → DiskM γ} (hf : ∀ a, x = .ok a → Keeps P (f a)) :
    Keeps P (DiskM.lift x >>= f) := by
  cases x with
  | ok a => exact hf a rfl
  | error e => exact fun env hwhole hd => ⟨hwhole, hd⟩

theorem getDisk_bind {f : Disk → DiskM γ} (hf : ∀ d, Keeps P (f d)) :
    Keeps P (DiskM.getDisk >>= f) :=
  Cuts.bind (Cuts.getDisk (fun _ h => h)) hf

/-- A text and the empty text that an encoding error leaves. -/
theorem writeText {text : Str} (htext : ∀ t, F { text := some text, mtime := t })
    (hempty : ∀ t, F { text := some [], mtime := t }) :
    Keeps (FileTree.EveryFile F) (writeText p text) :=
  cuts_writeText (fun _ _ h => h) (fun _ _ _ _ _ hd _ hw => hd.write (htext _) hw)
    (fun _ _ _ _ _ hd _ hw => hd.write (hempty _) hw)

theorem replaceFile {source target : PurePath} :
    Keeps (FileTree.EveryFile F) (replaceFile source target) :=
  cuts_replaceFile (fun _ _ h => h) (fun _ _ _ _ hd _ _ hr => hd.rename hr)

theorem unlink : Keeps (FileTree.EveryFile F) (ignoreOsError (unlink p)) :=
  cuts_ignoreOsError_unlink (fun _ _ h => h) (fun _ h => h) (fun _ _ _ hd _ hr => hd.remove hr)

theorem makeDirs {dir : Path} : Keeps (FileTree.EveryFile F) (makeDirs dir) :=
  cuts_makeDirs (fun _ _ h => h) (fun _ _ hd hm => hd.mkdirs hm)

end Keeps

/-! ## Cuts that happen -/

/-- When its operations happen, at some times, the routine finishes with `a` and
leaves `d'`. -/
def Finishes (d : Disk) (m : DiskM α) (a : α) (d' : Disk) : Prop :=
  ∃ ops : List Fault, (∀ f ∈ ops, f.happens = true) ∧ ∀ now fs,
    m.run { disk := d, now := now, faults := ops ++ fs } =
      (.ok a, { disk := d', now := now, faults := fs })

/-- The death of the process before some operation leaves `d'`. -/
def CrashesTo (d : Disk) (m : DiskM α) (d' : Disk) : Prop :=
  ∃ ops : List Fault, (∀ f ∈ ops, f.happens = true) ∧ ∀ now fs,
    m.run { disk := d, now := now, faults := ops ++ .crash none :: fs } =
      (.error .crashed, { disk := d', now := now, faults := fs })

/-- When its operations happen, the routine raises and leaves `d'`. -/
def RaisesTo (d : Disk) (m : DiskM α) (e : Exc) (d' : Disk) : Prop :=
  ∃ ops : List Fault, (∀ f ∈ ops, f.happens = true) ∧ ∀ now fs,
    m.run { disk := d, now := now, faults := ops ++ fs } =
      (.error (.raised e), { disk := d', now := now, faults := fs })

variable {d d₁ d' : Disk} {a : α} {c : γ} {m : DiskM α} {f : α → DiskM γ} {e : Exc}

theorem Finishes.pure : Finishes d (pure a : DiskM α) a d := ⟨[], by simp, fun _ _ => rfl⟩

theorem Finishes.getDisk : Finishes d DiskM.getDisk d d := ⟨[], by simp, fun _ _ => rfl⟩

theorem Finishes.bind (hm : Finishes d m a d₁) (hf : Finishes d₁ (f a) c d') :
    Finishes d (m >>= f) c d' := by
  obtain ⟨ops₁, hops₁, h₁⟩ := hm
  obtain ⟨ops₂, hops₂, h₂⟩ := hf
  refine ⟨ops₁ ++ ops₂, List.forall_mem_append.mpr ⟨hops₁, hops₂⟩, fun now fs => ?_⟩
  show andThen (m.run _) f = _
  rw [List.append_assoc, h₁]
  exact h₂ now fs

theorem CrashesTo.bind_left (hm : CrashesTo d m d') : CrashesTo d (m >>= f) d' := by
  obtain ⟨ops, hops, h⟩ := hm
  refine ⟨ops, hops, fun now fs => ?_⟩
  show andThen (m.run _) f = _
  rw [h]
  rfl

theorem CrashesTo.bind_right (hm : Finishes d m a d₁) (hf : CrashesTo d₁ (f a) d') :
    CrashesTo d (m >>= f) d' := by
  obtain ⟨ops₁, hops₁, h₁⟩ := hm
  obtain ⟨ops₂, hops₂, h₂⟩ := hf
  refine ⟨ops₁ ++ ops₂, List.forall_mem_append.mpr ⟨hops₁, hops₂⟩, fun now fs => ?_⟩
  show andThen (m.run _) f = _
  rw [List.append_assoc, h₁]
  exact h₂ now fs

theorem RaisesTo.bind_left (hm : RaisesTo d m e d') : RaisesTo d (m >>= f) e d' := by
  obtain ⟨ops, hops, h⟩ := hm
  refine ⟨ops, hops, fun now fs => ?_⟩
  show andThen (m.run _) f = _
  rw [h]
  rfl

theorem RaisesTo.bind_right (hm : Finishes d m a d₁) (hf : RaisesTo d₁ (f a) e d') :
    RaisesTo d (m >>= f) e d' := by
  obtain ⟨ops₁, hops₁, h₁⟩ := hm
  obtain ⟨ops₂, hops₂, h₂⟩ := hf
  refine ⟨ops₁ ++ ops₂, List.forall_mem_append.mpr ⟨hops₁, hops₂⟩, fun now fs => ?_⟩
  show andThen (m.run _) f = _
  rw [List.append_assoc, h₁]
  exact h₂ now fs

theorem RaisesTo.raise : RaisesTo d (DiskM.raise e : DiskM α) e d :=
  ⟨[], by simp, fun _ _ => rfl⟩

theorem Finishes.lift {x : Except Exc α} (h : x = .ok a) : Finishes d (DiskM.lift x) a d := by
  subst h
  exact .pure

theorem Finishes.operation {act : Rat → Disk → Except Exc Disk} {torn : Rat → Str → Disk → Disk}
    {t : Rat} (h : act t d = .ok d') : Finishes d (DiskM.operation act torn) () d' := by
  refine ⟨[.late t], by simp [Fault.happens], fun now fs => ?_⟩
  simp [DiskM.operation, DiskEnv.time, h]

theorem CrashesTo.operation (act : Rat → Disk → Except Exc Disk) (torn : Rat → Str → Disk → Disk) :
    CrashesTo d (DiskM.operation act torn) d :=
  ⟨[], by simp, fun _ _ => rfl⟩

theorem CrashesTo.writeText (p : PurePath) (text : Str) : CrashesTo d (writeText p text) d := by
  unfold Py.writeText
  simp only
  split
  · exact .bind_left (.operation _ _)
  · exact .operation _ _

theorem Finishes.ignoreOsError_operation {act : Rat → Disk → Except Exc Disk}
    {torn : Rat → Str → Disk → Disk} {t : Rat} (h : act t d = .ok d') :
    Finishes d (DiskM.ignoreOsError (DiskM.operation act torn)) () d' := by
  refine ⟨[.late t], by simp [Fault.happens], fun now fs => ?_⟩
  simp [DiskM.ignoreOsError, DiskM.operation, DiskEnv.time, h]

theorem Finishes.ignored {act : Rat → Disk → Except Exc Disk} {torn : Rat → Str → Disk → Disk}
    {t : Rat} (h : act t d = .error e) (hos : e.isOsError = true) :
    Finishes d (DiskM.ignoreOsError (DiskM.operation act torn)) () d := by
  refine ⟨[.late t], by simp [Fault.happens], fun now fs => ?_⟩
  simp [DiskM.ignoreOsError, DiskM.operation, DiskEnv.time, h, hos]

/-! ## Deaths that happen -/

/-- The death of the process after some operations, or the end before it, leaves `d'`. -/
def Leaves (d : Disk) (m : DiskM α) (d' : Disk) : Prop :=
  ∃ ops : List Fault, (∀ f ∈ ops, f.happens = true) ∧ ∀ now,
    (m.run { disk := d, now := now, faults := ops ++ [.crash none] }).2.disk = d'

/-- A routine that the process dies in before its first operation has done nothing. -/
def Idle (m : DiskM α) : Prop :=
  ∀ env fs, env.faults = .crash none :: fs → (m.run env).2.disk = env.disk ∧
    ((m.run env).1 = .error .crashed ∨ (m.run env).2 = env)

theorem Leaves.bind_right (hm : Finishes d m a d₁) (hf : Leaves d₁ (f a) d') :
    Leaves d (m >>= f) d' := by
  obtain ⟨ops₁, hops₁, h₁⟩ := hm
  obtain ⟨ops₂, hops₂, h₂⟩ := hf
  refine ⟨ops₁ ++ ops₂, List.forall_mem_append.mpr ⟨hops₁, hops₂⟩, fun now => ?_⟩
  rw [List.append_assoc, bind_of_ok (h₁ now _)]
  exact h₂ now

theorem Finishes.exists_run (h : Finishes d m a d') :
    ∃ env env', env.disk = d ∧ env'.disk = d' ∧ m.run env = (.ok a, env') := by
  obtain ⟨ops, -, hrun⟩ := h
  exact ⟨_, _, rfl, rfl, hrun 0 []⟩

theorem Finishes.leaves (h : Finishes d m a d') : Leaves d m d' := by
  obtain ⟨ops, hops, hrun⟩ := h
  exact ⟨ops, hops, fun now => by rw [hrun]⟩

namespace Idle

theorem leaves (h : Idle m) : Leaves d m d :=
  ⟨[], by simp, fun now => (h { disk := d, now := now, faults := [.crash none] } [] rfl).1⟩

theorem pure (a : α) : Idle (pure a : DiskM α) := fun _ _ _ => ⟨rfl, Or.inr rfl⟩

theorem raise (e : Exc) : Idle (raise e : DiskM α) := fun _ _ _ => ⟨rfl, Or.inr rfl⟩

theorem lift (x : Except Exc α) : Idle (DiskM.lift x) := by
  cases x with
  | ok a => exact .pure a
  | error e => exact .raise e

theorem getDisk : Idle DiskM.getDisk := fun _ _ _ => ⟨rfl, Or.inr rfl⟩

theorem bind (hm : Idle m) (hf : ∀ a, Idle (f a)) : Idle (m >>= f) := by
  intro env fs hfaults
  obtain ⟨hdisk, hend⟩ := hm env fs hfaults
  rcases hr : m.run env with ⟨r, env₁⟩
  rw [hr] at hdisk hend
  cases r with
  | ok a =>
    obtain rfl : env₁ = env := hend.resolve_left (by simp)
    rw [bind_of_ok hr]
    exact hf a env₁ fs hfaults
  | error e =>
    rw [bind_of_error hr]
    exact ⟨hdisk, hend.imp_left fun he => congrArg _ (Except.error.inj he)⟩

theorem operation (act : Rat → Disk → Except Exc Disk) (torn : Rat → Str → Disk → Disk) :
    Idle (DiskM.operation act torn) := by
  intro env fs hfaults
  simp only [DiskM.operation, hfaults]
  exact ⟨trivial, Or.inl trivial⟩

theorem ignoreOsError {m : DiskM Unit} (h : Idle m) : Idle (DiskM.ignoreOsError m) := by
  intro env fs hfaults
  obtain ⟨hdisk, hend⟩ := h env fs hfaults
  simp only [DiskM.ignoreOsError]
  rcases hr : m.run env with ⟨r, env₁⟩
  rw [hr] at hdisk hend
  rcases r with (e | _) | a
  · obtain rfl : env₁ = env := hend.resolve_left (by simp)
    simp only
    split <;> exact ⟨rfl, Or.inr rfl⟩
  · exact ⟨hdisk, Or.inl rfl⟩
  · exact ⟨hdisk, hend.imp_left (by simp)⟩

theorem writeText (p : PurePath) (text : Str) : Idle (writeText p text) := by
  unfold Py.writeText
  simp only
  split
  · exact .bind (.operation _ _) fun _ => .raise _
  · exact .operation _ _

end Idle

/-! ## Runs without faults -/

/-- A run without faults that finished does so whatever faults come after it. -/
def Replays (m : DiskM α) : Prop :=
  ∀ (env env' : DiskEnv) (a : α), env.faults = [] → m.run env = (.ok a, env') →
    env'.faults = [] ∧ env'.now = env.now ∧ Finishes env.disk m a env'.disk

namespace Replays

theorem pure (a : α) : Replays (pure a : DiskM α) := by
  intro env env' b hf h
  obtain ⟨rfl, rfl⟩ := DiskM.pure_ok h
  exact ⟨hf, rfl, .pure⟩

theorem lift (x : Except Exc α) : Replays (DiskM.lift x) := by
  intro env env' a hf h
  obtain ⟨hx, rfl⟩ := DiskM.lift_ok h
  exact ⟨hf, rfl, .lift hx⟩

theorem bind (hm : Replays m) (hf : ∀ a, Replays (f a)) : Replays (m >>= f) := by
  intro env env' c hfaults h
  obtain ⟨a, env₁, h₁, h₂⟩ := DiskM.bind_ok h
  obtain ⟨hfaults₁, hnow₁, hfin₁⟩ := hm _ _ _ hfaults h₁
  obtain ⟨hfaults₂, hnow₂, hfin₂⟩ := hf a _ _ _ hfaults₁ h₂
  exact ⟨hfaults₂, hnow₂.trans hnow₁, hfin₁.bind hfin₂⟩

theorem operation (act : Rat → Disk → Except Exc Disk) (torn : Rat → Str → Disk → Disk) :
    Replays (DiskM.operation act torn) := by
  intro env env' a hf h
  obtain ⟨hact, hnow⟩ := DiskM.operation_ok h
  refine ⟨?_, hnow, .operation hact⟩
  -- an empty list of faults stays empty
  simp only [DiskM.operation, hf, hact] at h
  rw [← (Prod.mk.inj h).2]
  rfl

/-- The error that is ignored is ignored again. -/
theorem ignoreOsError_operation (act : Rat → Disk → Except Exc Disk)
    (torn : Rat → Str → Disk → Disk) :
    Replays (DiskM.ignoreOsError (DiskM.operation act torn)) := by
  intro env env' a hf h
  have htime := DiskEnv.time_nil hf
  cases ha : act env.now env.disk with
  | ok d =>
    simp only [DiskM.ignoreOsError, DiskM.operation, htime, hf, ha, Prod.mk.injEq] at h
    obtain ⟨-, rfl⟩ := h
    refine ⟨rfl, rfl, [.late env.now], by simp [Fault.happens], fun now fs => ?_⟩
    simp [DiskM.ignoreOsError, DiskM.operation, DiskEnv.time, ha]
  | error e =>
    simp only [DiskM.ignoreOsError, DiskM.operation, htime, hf, ha] at h
    split at h
    · rename_i hos
      obtain ⟨-, rfl⟩ := Prod.mk.inj h
      refine ⟨rfl, rfl, [.late env.now], by simp [Fault.happens], fun now fs => ?_⟩
      simp [DiskM.ignoreOsError, DiskM.operation, DiskEnv.time, ha, hos]
    · cases (Prod.mk.inj h).1

theorem writeText (p : PurePath) (text : Str) : Replays (writeText p text) := by
  unfold Py.writeText
  simp only
  split
  · refine .bind (.operation _ _) fun _ => ?_
    intro env env' a hf h
    cases h
  · exact .operation _ _

end Replays

/-- Without a fault, a file that can be reached goes. -/
theorem unlink_removes {p : PurePath} {q : Path} {body : FileBody} {env env' : DiskEnv}
    (hf : env.faults = []) (hq : resolve env.disk p = .ok q)
    (hbody : env.disk.lookup q = some (.file body))
    (h : (ignoreOsError (unlink p)).run env = (.ok (), env')) :
    env.disk.remove q = some env'.disk := by
  obtain ⟨d, hd⟩ := FileTree.exists_remove hbody
  have hact : removePath p env.disk = .ok d := by
    simp only [removePath, hq, hd]
  simp only [ignoreOsError, unlink, DiskM.operation, hf, hact, Prod.mk.injEq] at h
  rw [← h.2]
  exact hd

end DiskM

end TrustModelEdge.Py
