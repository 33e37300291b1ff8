/-
TrustModelEdge.Py.FailRules — when a routine raises.

A routine gets past an operation unless the next entry of the fault list or
the disk is against it. So it is read as a list of hazards (`Meets`), and
how it ends is what comes of that list and the fault list alone (`meet`).
What the disk refuses depends on its directories only, and a routine that
writes, moves and removes files leaves these as they are.
-/
import TrustModelEdge.Py.FrameRules

namespace TrustModelEdge.Py

open Lib Lib.FileTree

/-- What one step of a routine has against it. -/
inductive Hazard where
  /-- An operation, and whether the disk refuses it. -/
  | operation (refused : Bool)
  /-- An operation under `except OSError`, and whether it is refused with another
  exception. -/
  | tolerated (refused : Bool)
  /-- An exception of the routine's own. -/
  | raises

inductive Ending where
  /-- It got through, and these faults are to come. -/
  | through (faults : List Fault)
  | failed
  | died

/-- The hazards of a routine against the faults: each operation takes one. -/
def meet : List Hazard → List Fault → Ending
  | [], fs => .through fs
  | .raises :: _, _ => .failed
  | .operation _ :: _, .fail _ _ :: _ => .failed
  | .tolerated _ :: hs, .fail e _ :: fs => if e.isOsError then meet hs fs else .failed
  | .operation _ :: _, .crash _ :: _ => .died
  | .tolerated _ :: _, .crash _ :: _ => .died
  | .operation refused :: hs, fs => if refused then .failed else meet hs fs.tail
  | .tolerated refused :: hs, fs => if refused then .failed else meet hs fs.tail

/-- Go on after hazards that were got through. -/
def Ending.andThen : Ending → (List Fault → Ending) → Ending
  | .through fs, next => next fs
  | .failed, _ => .failed
  | .died, _ => .died

theorem meet_append (hs hs' : List Hazard) (fs : List Fault) :
    meet (hs ++ hs') fs = (meet hs fs).andThen (meet hs') := by
  induction hs generalizing fs with
  | nil => rfl
  | cons h hs ih =>
    cases h with
    | raises => rfl
    | operation refused =>
      cases refused with
      | true => cases fs with
        | nil => rfl
        | cons f fs => cases f <;> rfl
      | false => cases fs with
        | nil => exact ih []
        | cons f fs => cases f <;> first | exact ih fs | rfl
    | tolerated refused =>
      cases fs with
      | nil => cases refused <;> first | exact ih [] | rfl
      | cons f fs =>
        cases f with
        | crash s => rfl
        | fail e s =>
          cases he : e.isOsError with
          | true => simpa only [List.cons_append, meet, he, if_true] using ih fs
          | false => simp [meet, he, Ending.andThen]
        | none => cases refused <;> first | exact ih fs | rfl
        | late t => cases refused <;> first | exact ih fs | rfl

/-! What the next fault of a list comes to. -/

theorem happens_or_stops (fs : List Fault) : (∀ f ∈ fs.head?, f.happens = true) ∨
    (∃ e s rest, fs = .fail e s :: rest) ∨ ∃ s rest, fs = .crash s :: rest := by
  cases fs with
  | nil => exact .inl (by simp)
  | cons f fs =>
    cases f with
    | none => exact .inl (by simp [Fault.happens])
    | late t => exact .inl (by simp [Fault.happens])
    | fail e s => exact .inr (.inl ⟨e, s, fs, rfl⟩)
    | crash s => exact .inr (.inr ⟨s, fs, rfl⟩)

theorem meet_operation {refused : Bool} {fs : List Fault} (hf : ∀ f ∈ fs.head?, f.happens = true) :
    meet [.operation refused] fs = if refused then .failed else .through fs.tail := by
  cases fs with
  | nil => rfl
  | cons f fs => cases f <;> first | rfl | simp [Fault.happens] at hf

theorem meet_tolerated {refused : Bool} {fs : List Fault} (hf : ∀ f ∈ fs.head?, f.happens = true) :
    meet [.tolerated refused] fs = if refused then .failed else .through fs.tail := by
  cases fs with
  | nil => rfl
  | cons f fs => cases f <;> first | rfl | simp [Fault.happens] at hf

namespace DiskM

variable {α γ : Type} {P : Disk → Prop}

theorem operation_done {act : Rat → Disk → Except Exc Disk} {torn : Rat → Str → Disk → Disk}
    {env : DiskEnv} {d : Disk} (hf : ∀ f ∈ env.faults.head?, f.happens = true)
    (h : act env.time env.disk = .ok d) :
    (operation act torn).run env = (.ok (), { env with disk := d, faults := env.faults.tail }) := by
  obtain ⟨disk, now, fs⟩ := env
  cases fs with
  | nil => simp only [operation, h]
  | cons f fs =>
    cases f with
    | none => simp only [operation, h]
    | late t => simp only [operation, h]
    | fail e s => simp [Fault.happens] at hf
    | crash s => simp [Fault.happens] at hf

theorem operation_refused {act : Rat → Disk → Except Exc Disk} {torn : Rat → Str → Disk → Disk}
    {env : DiskEnv} {e : Exc} (hf : ∀ f ∈ env.faults.head?, f.happens = true)
    (h : act env.time env.disk = .error e) :
    (operation act torn).run env = (.error (.raised e), { env with faults := env.faults.tail }) := by
  obtain ⟨disk, now, fs⟩ := env
  cases fs with
  | nil => simp only [operation, h]
  | cons f fs =>
    cases f with
    | none => simp only [operation, h]
    | late t => simp only [operation, h]
    | fail e s => simp [Fault.happens] at hf
    | crash s => simp [Fault.happens] at hf

theorem ignoreOsError_done {m : DiskM Unit} {env env' : DiskEnv} (h : m.run env = (.ok (), env')) :
    (ignoreOsError m).run env = (.ok (), env') := by
  simp only [ignoreOsError, h]

theorem ignoreOsError_ignored {m : DiskM Unit} {env env' : DiskEnv} {e : Exc}
    (h : m.run env = (.error (.raised e), env')) (hos : e.isOsError = true) :
    (ignoreOsError m).run env = (.ok (), env') := by
  simp only [ignoreOsError, h, hos, if_true]

theorem ignoreOsError_other {m : DiskM Unit} {env env' : DiskEnv} {e : Exc}
    (h : m.run env = (.error (.raised e), env')) (hos : e.isOsError = false) :
    (ignoreOsError m).run env = (.error (.raised e), env') := by
  simp only [ignoreOsError, h, hos, Bool.false_eq_true, if_false]

/-- The result of a routine is such an ending; when it got through, `Q` holds. -/
def EndsAs (Q : α → Disk → Prop) (r : Except Stop α × DiskEnv) : Ending → Prop
  | .through fs => ∃ a env, r = (.ok a, env) ∧ env.faults = fs ∧ Q a env.disk
  | .failed => ∃ e env, r = (.error (.raised e), env)
  | .died => ∃ env, r = (.error .crashed, env)

/-- On a disk with `P`, the routine has these hazards against it, and `Q` holds
once it got through. -/
def Meets (P : Disk → Prop) (m : DiskM α) (hs : List Hazard) (Q : α → Disk → Prop) : Prop :=
  ∀ env, P env.disk → EndsAs Q (m.run env) (meet hs env.faults)

namespace Meets

variable {m : DiskM α} {Q : α → Disk → Prop} {hs : List Hazard}

theorem finishes_iff (h : Meets P m hs Q) {env : DiskEnv} (hd : P env.disk) :
    (∃ a env', m.run env = (.ok a, env')) ↔ ∃ rest, meet hs env.faults = .through rest := by
  have hend := h env hd
  cases hm : meet hs env.faults with
  | failed =>
    rw [hm] at hend
    obtain ⟨e, env', hr⟩ := hend
    simp [hr]
  | died =>
    rw [hm] at hend
    obtain ⟨env', hr⟩ := hend
    simp [hr]
  | through rest =>
    rw [hm] at hend
    obtain ⟨a, env', hr, -⟩ := hend
    exact iff_of_true ⟨a, env', hr⟩ ⟨rest, rfl⟩

theorem pure {a : α} (h : ∀ d, P d → Q a d) : Meets P (pure a : DiskM α) [] Q :=
  fun env hd => ⟨a, env, rfl, rfl, h _ hd⟩

theorem raise {e : Exc} : Meets P (raise e : DiskM α) [.raises] Q := fun env _ => ⟨e, env, rfl⟩

/-- What comes after an exception is not reached. -/
theorem raise_bind {e : Exc} {f : α → DiskM γ} {Q : γ → Disk → Prop} :
    Meets P (DiskM.raise e >>= f) [.raises] Q := fun env _ => ⟨e, env, rfl⟩

theorem getDisk_bind {f : Disk → DiskM γ} {Q : γ → Disk → Prop}
    (h : ∀ disk, P disk → Meets P (f disk) hs Q) : Meets P (getDisk >>= f) hs Q :=
  fun env hd => h env.disk hd env hd

/-- The hazards may be those of the disk at hand. -/
theorem of_each (h : ∀ disk, P disk → Meets (· = disk) m hs Q) : Meets P m hs Q :=
  fun env hd => h env.disk hd env rfl

theorem imp {P' : Disk → Prop} {Q' : α → Disk → Prop} (h : Meets P m hs Q) (hp : ∀ d, P' d → P d)
    (hq : ∀ a d, Q a d → Q' a d) : Meets P' m hs Q' := by
  intro env hd
  have hend := h env (hp _ hd)
  cases hm : meet hs env.faults with
  | failed =>
    rw [hm] at hend
    exact hend
  | died =>
    rw [hm] at hend
    exact hend
  | through fs =>
    rw [hm] at hend
    obtain ⟨a, env', hr, hfs, hqa⟩ := hend
    exact ⟨a, env', hr, hfs, hq _ _ hqa⟩

/-- What the value of a part is known to be can be used for the rest. -/
theorem bind {f : α → DiskM γ} {hs' : List Hazard} {R : γ → Disk → Prop} (hm : Meets P m hs Q)
    (hf : ∀ a, Meets (Q a) (f a) hs' R) : Meets P (m >>= f) (hs ++ hs') R := by
  intro env hd
  have hend := hm env hd
  rw [meet_append]
  cases hmeet : meet hs env.faults with
  | failed =>
    rw [hmeet] at hend
    obtain ⟨e, env', hr⟩ := hend
    exact ⟨e, env', bind_of_error hr⟩
  | died =>
    rw [hmeet] at hend
    obtain ⟨env', hr⟩ := hend
    exact ⟨env', bind_of_error hr⟩
  | through fs =>
    rw [hmeet] at hend
    obtain ⟨a, env', hr, rfl, hq⟩ := hend
    rw [bind_of_ok hr]
    exact hf a env' hq

/-- A fact that is known beside the disk may be used. -/
theorem of_fact {fact : Prop} (h : fact → Meets P m hs Q) : Meets (fun d => P d ∧ fact) m hs Q :=
  fun env hd => h hd.2 env hd.1

theorem operation {Q : Unit → Disk → Prop} {act : Rat → Disk → Except Exc Disk}
    {torn : Rat → Str → Disk → Disk} {refused : Bool}
    (hrefused : refused = true → ∀ t d, P d → ∃ e, act t d = .error e)
    (hdone : refused = false → ∀ t d, P d → ∃ d', act t d = .ok d' ∧ Q () d') :
    Meets P (operation act torn) [.operation refused] Q := by
  rintro ⟨d, now, fs⟩ hd
  obtain hf | ⟨e, s, rest, rfl⟩ | ⟨s, rest, rfl⟩ := happens_or_stops fs
  · rw [meet_operation hf]
    cases refused with
    | true =>
      obtain ⟨e, he⟩ := hrefused rfl _ d hd
      exact ⟨e, _, operation_refused hf he⟩
    | false =>
      obtain ⟨d', hok, hq⟩ := hdone rfl _ d hd
      exact ⟨(), _, operation_done hf hok, rfl, hq⟩
  · exact ⟨e, _, rfl⟩
  · exact ⟨_, rfl⟩

/-- Under `except OSError` an operation that is refused changes nothing. -/
theorem ignored {Q : Unit → Disk → Prop} {act : Rat → Disk → Except Exc Disk}
    {torn : Rat → Str → Disk → Disk} {refused : Bool} (hkept : ∀ d, P d → Q () d)
    (htorn : ∀ t s d, P d → Q () (torn t s d))
    (hrefused : refused = true → ∀ t d, P d → ∃ e, act t d = .error e ∧ e.isOsError = false)
    (hdone : refused = false → ∀ t d, P d → (∃ d', act t d = .ok d' ∧ Q () d') ∨
      ∃ e, act t d = .error e ∧ e.isOsError = true) :
    Meets P (ignoreOsError (DiskM.operation act torn)) [.tolerated refused] Q := by
  rintro ⟨d, now, fs⟩ hd
  obtain hf | ⟨e, s, rest, rfl⟩ | ⟨s, rest, rfl⟩ := happens_or_stops fs
  · rw [meet_tolerated hf]
    cases refused with
    | true =>
      obtain ⟨e, he, hos⟩ := hrefused rfl _ d hd
      exact ⟨e, _, ignoreOsError_other (operation_refused hf he) hos⟩
    | false =>
      obtain ⟨d', hok, hq⟩ | ⟨e, he, hos⟩ := hdone rfl _ d hd
      · exact ⟨(), _, ignoreOsError_done (operation_done hf hok), rfl, hq⟩
      · exact ⟨(), _, ignoreOsError_ignored (operation_refused hf he) hos, rfl, hkept _ hd⟩
  · have hfails : (DiskM.operation act torn).run
          { disk := d, now := now, faults := .fail e s :: rest } =
        (.error (.raised e), { disk := s.elim d (torn now · d), now := now, faults := rest }) := by
      cases s <;> rfl
    cases hos : e.isOsError with
    | true =>
      simp only [meet, hos, if_true]
      refine ⟨(), _, ignoreOsError_ignored hfails hos, rfl, ?_⟩
      cases s with
      | none => exact hkept _ hd
      | some s => exact htorn _ s _ hd
    | false =>
      simp only [meet, hos, Bool.false_eq_true, if_false]
      exact ⟨e, _, ignoreOsError_other hfails hos⟩
  · exact ⟨_, rfl⟩

end Meets

/-! ## The operations -/

/-- The disk has no place for a file at this path. -/
def refuses (d : Disk) (p : PurePath) : Bool := !(putText p 0 [] d).toBool

/-- The tree with a file put at a path, and with one moved. -/
def put (d : Disk) (p : PurePath) : Disk := (putText p 0 [] d).toOption.getD d

def moved (d : Disk) (source target : PurePath) : Disk := (movePath source target d).toOption.getD d

def writeHazards (d : Disk) (p : PurePath) (text : Str) : List Hazard :=
  .operation (refuses d p) :: if text.any isSurrogate then [.raises] else []

section Operations

variable {d d' : Disk} {p source target : PurePath}

theorem refuses_eq_false_iff : refuses d p = false ↔ ∃ q, Leads d p q := by
  constructor
  · intro h
    cases hput : putText p 0 [] d with
    | error e => simp [refuses, hput, Except.toBool] at h
    | ok d' =>
      obtain ⟨q, hq, -⟩ := putText_place hput
      exact ⟨q, hq⟩
  · rintro ⟨q, hq⟩
    obtain ⟨d', hput, -⟩ := putText_of_leads 0 [] hq
    simp [refuses, hput, Except.toBool]

theorem refuses_congr (h : d.SameDirs d') : refuses d' p = refuses d p := by
  rw [Bool.eq_iff_iff, ← not_iff_not, Bool.not_eq_true, Bool.not_eq_true, refuses_eq_false_iff,
    refuses_eq_false_iff]
  exact exists_congr fun q => leads_congr h

theorem putText_refused {t : Rat} {text : Str} (h : refuses d p = true) :
    ∃ e, putText p t text d = .error e := by
  cases hput : putText p t text d with
  | error e => exact ⟨e, rfl⟩
  | ok d' =>
    obtain ⟨q, hq, -⟩ := putText_place hput
    rw [refuses_eq_false_iff.mpr ⟨q, hq⟩] at h
    cases h

theorem put_of_leads {q : Path} (h : Leads d p q) :
    d.write q { text := some [], mtime := 0 } = some (put d p) := by
  obtain ⟨d', hput, hwrite⟩ := putText_of_leads 0 [] h
  rw [hwrite]
  simp [put, hput, Except.toOption]

theorem sameDirs_put : d.SameDirs (put d p) := by
  unfold put
  cases hput : putText p 0 [] d with
  | error e => exact SameDirs.refl d
  | ok d' =>
    obtain ⟨q, hq, hwrite⟩ := putText_place hput
    exact sameDirs_write hwrite

theorem sameDirs_moved : d.SameDirs (moved d source target) := by
  unfold moved
  cases hm : movePath source target d with
  | error e => exact SameDirs.refl d
  | ok d' =>
    obtain ⟨p, q, hp, hq, hrename⟩ := movePath_ok hm
    exact sameDirs_rename hrename

namespace Meets

theorem writeText {text : Str} : Meets (Alike d) (writeText p text) (writeHazards d p text)
    (fun _ d' => Alike (put d p) d' ∧ refuses d p = false) := by
  have hop : ∀ (s : Str) (torn : Rat → Str → Disk → Disk),
      Meets (Alike d) (DiskM.operation (fun now d => putText p now s d) torn)
        [.operation (refuses d p)] (fun _ d' => Alike (put d p) d' ∧ refuses d p = false) := by
    intro s torn
    refine .operation (fun hr t d₁ hd => ?_) fun hr t d₁ hd => ?_
    · exact putText_refused ((refuses_congr hd.dirs).trans hr)
    · obtain ⟨q, hq⟩ := refuses_eq_false_iff.mp hr
      obtain ⟨d₂, hput, hwrite⟩ := putText_of_leads t s ((leads_congr hd.dirs).mpr hq)
      exact ⟨d₂, hput, hd.write (put_of_leads hq) hwrite, hr⟩
  unfold Py.writeText writeHazards
  split
  · exact .bind (hop [] _) fun _ => .raise
  · exact hop text _

/-- The file that is moved was put there. -/
theorem replaceFile (hsource : refuses d source = false) :
    Meets (Alike (put d source)) (replaceFile source target) [.operation (refuses d target)]
      (fun _ d' => Alike (moved (put d source) source target) d') := by
  obtain ⟨p, hp⟩ := refuses_eq_false_iff.mp hsource
  have hwritten := put_of_leads hp
  have hthere : (put d source).lookup p = some (.file { text := some [], mtime := 0 }) := by
    rw [lookup_write hwritten, if_pos rfl]
  have hput := sameDirs_write hwritten
  refine .operation (fun hr t d₁ hd => ?_) fun hr t d₁ hd => ?_
  · cases hm : movePath source target d₁ with
    | error e => exact ⟨e, rfl⟩
    | ok d₂ =>
      obtain ⟨p', q, hp', hq, hrename⟩ := movePath_ok hm
      obtain ⟨c, hc, -⟩ := lookup_rename hrename
      have hplace := (rename_iff_place hc).mp ⟨d₂, hrename⟩
      have hleads := (leads_congr (hput.trans hd.dirs)).mp ⟨hq, hplace⟩
      rw [refuses_eq_false_iff.mpr ⟨q, hleads⟩] at hr
      cases hr
  · obtain ⟨q, hq⟩ := refuses_eq_false_iff.mp hr
    obtain ⟨c, hc⟩ := hd.file hthere
    have hmove : ∀ {d₁ : Disk} {c : FileBody}, d.SameDirs d₁ → d₁.lookup p = some (.file c) →
        ∃ d₂, movePath source target d₁ = .ok d₂ ∧ d₁.rename p q = some d₂ := by
      intro d₁ c hdirs hlook
      have hto := (leads_congr hdirs).mpr hq
      obtain ⟨d₂, hrename⟩ := (rename_iff_place hlook).mpr hto.2
      have hfrom := (resolve_congr hdirs).mpr hp.1
      exact ⟨d₂, by simp only [movePath, hfrom, hto.1, hrename], hrename⟩
    obtain ⟨d₂, hmoved, hrename⟩ := hmove hput hthere
    obtain ⟨d₃, hmoved', hrename'⟩ := hmove (hput.trans hd.dirs) hc
    refine ⟨d₃, hmoved', ?_⟩
    have heq : moved (put d source) source target = d₂ := by
      simp [moved, hmoved, Except.toOption]
    rw [heq]
    exact hd.rename hrename hrename'

theorem unlink : Meets d.SameDirs (ignoreOsError (unlink p)) [.tolerated (unusable p)]
    (fun _ d' => d.SameDirs d') := by
  refine .ignored (fun _ hd => hd) (fun _ _ _ hd => hd) (fun hu t d₁ hd => ?_) fun hu t d₁ hd => ?_
  · cases hremove : removePath p d₁ with
    | error e => exact ⟨e, rfl, by rw [removePath_error hremove, hu]; rfl⟩
    | ok d₂ =>
      obtain ⟨q, hq, -⟩ := removePath_ok hremove
      rw [not_unusable_of_resolve hq] at hu
      cases hu
  · cases hremove : removePath p d₁ with
    | error e => exact Or.inr ⟨e, rfl, by rw [removePath_error hremove, hu]; rfl⟩
    | ok d₂ =>
      obtain ⟨q, -, hremoved⟩ := removePath_ok hremove
      exact Or.inl ⟨d₂, rfl, hd.trans (sameDirs_remove hremoved)⟩

theorem makeDirs {dir : Path} : Meets (· = d) (makeDirs dir) [.operation (d.mkdirs [] dir).isNone]
    (fun _ d' => d.mkdirs [] dir = some d') := by
  refine .operation (fun hr t d₁ hd => ?_) fun hr t d₁ hd => ?_
  · subst hd
    have hnone := Option.isNone_iff_eq_none.mp hr
    exact ⟨.osError, by simp only [hnone]⟩
  · subst hd
    cases hmade : d₁.mkdirs [] dir with
    | none =>
      rw [hmade] at hr
      cases hr
    | some d₂ => exact ⟨d₂, rfl, rfl⟩

end Meets

end Operations

end DiskM

end TrustModelEdge.Py
