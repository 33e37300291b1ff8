/-
TrustModelEdge.Py.FrameRules — which files a routine can reach.

`Frames` is a triple for the files outside a set of paths: they stay as
they were, however the routine ends and whatever befalls its operations,
torn writes included. Its rules need no more of the disk than its
directories, because the walk of a path looks at nothing else (`walk_congr`)
and no operation on a file makes or removes one.

`TornTo` is the other direction: a disk that a death in the middle of a
write really leaves.
-/
import Mathlib.Data.List.Flatten
import TrustModelEdge.Py.CrashRules

namespace TrustModelEdge.Py

open Lib Lib.FileTree

/-- A path object leads to a place where a file can be put. -/
def Leads (d : Disk) (p : PurePath) (q : Path) : Prop := resolve d p = .ok q ∧ d.Place q

section Walks

variable {d d' : Disk} {p : PurePath} {cur q : Path}

/-- The walk sees directories only. -/
theorem walk_congr (h : d.SameDirs d') {cs : List Str} :
    walk d' cur cs = .ok q ↔ walk d cur cs = .ok q := by
  induction cs generalizing cur with
  | nil => simp [walk]
  | cons c cs ih =>
    simp only [walk, h cur]
    split
    · split
      · simp
      · split <;> exact ih
    · constructor <;> intro hw <;> split at hw <;> cases hw

theorem resolve_congr (h : d.SameDirs d') : resolve d' p = .ok q ↔ resolve d p = .ok q := by
  unfold resolve
  split
  · simp
  · exact walk_congr h

theorem leads_congr (h : d.SameDirs d') : Leads d' p q ↔ Leads d p q := by
  rw [Leads, Leads, resolve_congr h, h.place]

/-- The last component of a walk is a name in the directory it came to. -/
theorem walk_concat {cs : List Str} {k : Str} (hk : k ≠ (".." : Str)) :
    walk d cur (cs ++ [k]) = .ok q ↔
      ∃ par, walk d cur cs = .ok par ∧ d.isDir par = true ∧ byteLength k ≤ nameMax ∧
        q = par ++ [k] := by
  induction cs generalizing cur with
  | nil =>
    simp only [List.nil_append, walk, if_neg hk]
    split
    · rename_i hd
      split
      · rename_i hlong
        refine iff_of_false (by simp) ?_
        rintro ⟨_, _, _, hshort, _⟩
        exact Nat.not_lt.mpr hshort hlong
      · rename_i hshort
        constructor
        · intro hw
          exact ⟨cur, rfl, hd, Nat.not_lt.mp hshort, (Except.ok.inj hw).symm⟩
        · rintro ⟨par, hpar, -, -, rfl⟩
          rw [Except.ok.inj hpar]
    · rename_i hd
      constructor
      · intro hw
        split at hw <;> cases hw
      · rintro ⟨par, hpar, hdir, -⟩
        obtain rfl := Except.ok.inj hpar
        exact absurd hdir hd
  | cons c cs ih =>
    simp only [List.cons_append, walk]
    split
    · split
      · simp
      · split <;> exact ih
    · constructor
      · intro hw
        split at hw <;> cases hw
      · rintro ⟨par, hpar, -⟩
        split at hpar <;> cases hpar

theorem resolve_concat {root : Path} {init : List Str} {k : Str} (hk : k ≠ (".." : Str))
    (h : resolve d { root := root, parts := init ++ [k] } = .ok q) :
    ∃ par, walk d root init = .ok par ∧ byteLength k ≤ nameMax ∧ q = par ++ [k] := by
  unfold resolve at h
  split at h
  · cases h
  · obtain ⟨par, hpar, -, hshort, rfl⟩ := (walk_concat hk).mp h
    exact ⟨par, hpar, hshort, rfl⟩

/-- What a walk comes to is made of components it went through. -/
theorem walk_sublist {cs : List Str} (h : walk d cur cs = .ok q) : q.Sublist (cur ++ cs) := by
  induction cs generalizing cur with
  | nil =>
    obtain rfl := Except.ok.inj h
    rw [List.append_nil]
  | cons c cs ih =>
    simp only [walk] at h
    split at h
    · split at h
      · cases h
      · split at h
        · refine (ih h).trans ((List.dropLast_sublist cur).append ?_)
          exact List.sublist_cons_self c cs
        · simpa using ih h
    · split at h <;> cases h

/-- A file that some path leads to can be named in its directory. -/
theorem usable_of_resolve {par : Path} {k : Str} (h : resolve d p = .ok (par ++ [k]))
    (hshort : byteLength k ≤ nameMax) (hup : k ≠ (".." : Str)) : Usable par k := by
  refine ⟨?_, hshort, hup⟩
  unfold resolve at h
  split at h
  · cases h
  · rename_i hclean
    have htext : ((child par k).text).Sublist p.text := (walk_sublist h).flatMap _
    obtain ⟨hbytes, hnul, hlen⟩ := problem_eq_none.mp hclean
    refine problem_eq_none.mpr ⟨?_, fun hm => hnul (htext.subset hm), ?_⟩
    · rw [List.any_eq_false] at hbytes ⊢
      exact fun c hc => hbytes c (htext.subset hc)
    · exact (htext.flatMap utf8Bytes).length_le.trans_lt hlen

/-- What a written text leaves of a tree, and where. -/
theorem putText_place {now : Rat} {text : Str} (h : putText p now text d = .ok d') :
    ∃ q, Leads d p q ∧ d.write q { text := some text, mtime := now } = some d' := by
  obtain ⟨q, hq, hwrite⟩ := putText_ok h
  exact ⟨q, ⟨hq, write_iff_place.mp ⟨d', hwrite⟩⟩, hwrite⟩

theorem putText_of_leads (now : Rat) (text : Str) (h : Leads d p q) :
    ∃ d', putText p now text d = .ok d' ∧
      d.write q { text := some text, mtime := now } = some d' := by
  obtain ⟨d', hd'⟩ : ∃ d', d.write q { text := some text, mtime := now } = some d' :=
    write_iff_place.mpr h.2
  exact ⟨d', by simp only [putText, h.1, hd'], hd'⟩

theorem walk_not_unusable {e : Exc} {cs : List Str} :
    walk d cur cs ≠ .error (.unusable e) := by
  induction cs generalizing cur with
  | nil => simp [walk]
  | cons c cs ih =>
    simp only [walk]
    split
    · split
      · simp
      · split <;> exact ih
    · split <;> simp

theorem resolve_unusable_iff {e : Exc} :
    resolve d p = .error (.unusable e) ↔ p.problem = some (.unusable e) := by
  unfold resolve
  split
  · rename_i pe hpe
    rw [hpe, Except.error.injEq, Option.some.injEq]
  · rename_i hnone
    rw [hnone]
    exact iff_of_false walk_not_unusable (by simp)

/-- The text of a path is none: calls raise a `ValueError` before they look. -/
def unusable (p : PurePath) : Bool :=
  match p.problem with
  | some (.unusable _) => true
  | _ => false

theorem unusable_iff : unusable p = true ↔ ∃ e, p.problem = some (.unusable e) := by
  unfold unusable
  split
  · rename_i e he
    exact iff_of_true rfl ⟨e, he⟩
  · rename_i hno
    refine iff_of_false (by simp) ?_
    rintro ⟨e, he⟩
    exact hno e he

theorem not_unusable_of_clean (h : p.problem = none) : unusable p = false := by
  simp only [unusable, h]

/-- What a look-up comes to of such a path is its error, which is a `ValueError`. -/
theorem unusable_of_resolve_error {pe : PathError} (h : resolve d p = .error pe) :
    pe.toExc.isOsError = !unusable p := by
  have hother : (∀ e, pe ≠ .unusable e) → unusable p = false := by
    intro hno
    rw [Bool.eq_false_iff, Ne, unusable_iff]
    rintro ⟨e, he⟩
    rw [resolve_unusable_iff.mpr he] at h
    exact hno e (Except.error.inj h).symm
  cases pe with
  | missing => rw [hother (by simp)]; rfl
  | notDirectory => rw [hother (by simp)]; rfl
  | tooLong => rw [hother (by simp)]; rfl
  | unusable e =>
    have he := resolve_unusable_iff.mp h
    rw [unusable_iff.mpr ⟨e, he⟩]
    unfold PurePath.problem at he
    simp only at he
    split at he
    · cases he
      rfl
    · split at he
      · cases he
        rfl
      · split at he <;> cases he

theorem not_unusable_of_resolve (h : resolve d p = .ok q) : unusable p = false := by
  rw [Bool.eq_false_iff, Ne, unusable_iff]
  rintro ⟨e, he⟩
  rw [resolve_unusable_iff.mpr he] at h
  cases h

/-- What the removal of a file raises, if anything. -/
theorem removePath_error {e : Exc} (h : removePath p d = .error e) :
    e.isOsError = !unusable p := by
  unfold removePath at h
  split at h
  · rename_i pe hpe
    rw [← Except.error.inj h]
    exact unusable_of_resolve_error hpe
  · rename_i q hq
    rw [not_unusable_of_resolve hq]
    split at h
    · cases h
    · split at h <;> obtain rfl := Except.error.inj h <;> rfl

end Walks

namespace DiskM

variable {α γ : Type} {Own : Path → Prop} {d₀ : Disk}

/-- From a disk with the directories of `d₀`, the files outside `Own` stay, and a
routine that finishes does so with `Q`. -/
def Frames (Own : Path → Prop) (d₀ : Disk) (m : DiskM α) (Q : α → Prop) : Prop :=
  ∀ env : DiskEnv, d₀.SameDirs env.disk →
    d₀.SameDirs (m.run env).2.disk ∧ KeptOutside Own env.disk (m.run env).2.disk ∧
      ∀ a, (m.run env).1 = .ok a → Q a

namespace Frames

variable {m : DiskM α} {Q : α → Prop} {p : PurePath}

theorem pure {a : α} (h : Q a) : Frames Own d₀ (pure a : DiskM α) Q := by
  intro env hd
  refine ⟨hd, KeptOutside.refl _, fun b hb => ?_⟩
  rwa [← Except.ok.inj hb]

theorem bind {f : α → DiskM γ} {R : γ → Prop} (hm : Frames Own d₀ m Q)
    (hf : ∀ a, Q a → Frames Own d₀ (f a) R) : Frames Own d₀ (m >>= f) R := by
  intro env hd
  obtain ⟨hdirs, hkept, hend⟩ := hm env hd
  have hrun : (m >>= f).run env = andThen (m.run env) f := rfl
  rw [hrun]
  rcases hr : m.run env with ⟨r, env'⟩
  rw [hr] at hdirs hkept hend
  cases r with
  | ok a =>
    obtain ⟨hdirs', hkept', hend'⟩ := hf a (hend a rfl) env' hdirs
    exact ⟨hdirs', hkept.trans hkept', hend'⟩
  | error e => exact ⟨hdirs, hkept, fun a ha => by cases ha⟩

theorem imp {R : α → Prop} (h : Frames Own d₀ m Q) (hqr : ∀ a, Q a → R a) :
    Frames Own d₀ m R := by
  intro env hd
  obtain ⟨hdirs, hkept, hend⟩ := h env hd
  exact ⟨hdirs, hkept, fun a ha => hqr a (hend a ha)⟩

theorem raise {e : Exc} : Frames Own d₀ (raise e : DiskM α) Q :=
  fun _ hd => ⟨hd, KeptOutside.refl _, fun a ha => by cases ha⟩

theorem lift {x : Except Exc α} (h : ∀ a, x = .ok a → Q a) : Frames Own d₀ (DiskM.lift x) Q := by
  cases x with
  | ok a => exact .pure (h a rfl)
  | error e => exact .raise

theorem getDisk : Frames Own d₀ DiskM.getDisk (fun _ => True) :=
  fun _ hd => ⟨hd, KeptOutside.refl _, fun _ _ => trivial⟩

/-- One operation: what it does and what it leaves when it is torn. -/
theorem operation {Q : Unit → Prop} {act : Rat → Disk → Except Exc Disk}
    {torn : Rat → Str → Disk → Disk}
    (hact : ∀ now d d', d₀.SameDirs d → act now d = .ok d' →
      d.SameDirs d' ∧ KeptOutside Own d d' ∧ Q ())
    (htorn : ∀ now s d, d₀.SameDirs d →
      d.SameDirs (torn now s d) ∧ KeptOutside Own d (torn now s d)) :
    Frames Own d₀ (DiskM.operation act torn) Q := by
  intro env hd
  have hleft : ∀ s, d₀.SameDirs (torn env.time s env.disk) ∧
      KeptOutside Own env.disk (torn env.time s env.disk) := fun s =>
    (htorn env.time s env.disk hd).imp_left hd.trans
  simp only [DiskM.operation]
  split
  · rename_i e left fs _
    cases left with
    | none => exact ⟨hd, KeptOutside.refl _, fun a ha => by cases ha⟩
    | some s => exact ⟨(hleft s).1, (hleft s).2, fun a ha => by cases ha⟩
  · rename_i left fs _
    cases left with
    | none => exact ⟨hd, KeptOutside.refl _, fun a ha => by cases ha⟩
    | some s => exact ⟨(hleft s).1, (hleft s).2, fun a ha => by cases ha⟩
  · cases ha : act env.time env.disk with
    | error e => exact ⟨hd, KeptOutside.refl _, fun a ha => by cases ha⟩
    | ok d' =>
      obtain ⟨hdirs, hkept, hq⟩ := hact env.time env.disk d' hd ha
      exact ⟨hd.trans hdirs, hkept, fun _ _ => hq⟩

/-- A text goes where its path leads; one that finishes had bytes. -/
theorem writeText {text : Str} (hown : ∀ q, Leads d₀ p q → Own q) :
    Frames Own d₀ (writeText p text)
      (fun _ => text.any isSurrogate = false ∧ ∃ q, Leads d₀ p q) := by
  have hput : ∀ now s d d', d₀.SameDirs d → putText p now s d = .ok d' →
      d.SameDirs d' ∧ KeptOutside Own d d' ∧ ∃ q, Leads d₀ p q := by
    intro now s d d' hd h
    obtain ⟨q, hq, hwrite⟩ := putText_place h
    have hq₀ := (leads_congr hd).mp hq
    exact ⟨sameDirs_write hwrite, keptOutside_write (hown q hq₀) hwrite, q, hq₀⟩
  have htorn : ∀ now s d, d₀.SameDirs d → d.SameDirs ((putText p now s d).toOption.getD d) ∧
      KeptOutside Own d ((putText p now s d).toOption.getD d) := by
    intro now s d hd
    cases hp : putText p now s d with
    | error e => exact ⟨SameDirs.refl d, KeptOutside.refl d⟩
    | ok d' =>
      obtain ⟨hdirs, hkept, -⟩ := hput now s d d' hd hp
      exact ⟨hdirs, hkept⟩
  unfold Py.writeText
  simp only
  cases hs : text.any isSurrogate with
  | true =>
    simp only [if_true]
    refine bind (Q := fun _ => True) (operation (fun now d d' hd h => ?_) htorn) fun _ _ => .raise
    obtain ⟨hdirs, hkept, -⟩ := hput now [] d d' hd h
    exact ⟨hdirs, hkept, trivial⟩
  | false =>
    simp only [Bool.false_eq_true, if_false]
    refine operation (fun now d d' hd h => ?_) htorn
    obtain ⟨hdirs, hkept, hq⟩ := hput now text d d' hd h
    exact ⟨hdirs, hkept, trivial, hq⟩

theorem replaceFile {source target : PurePath} (hsource : ∀ q, Leads d₀ source q → Own q)
    (htarget : ∀ q, Leads d₀ target q → Own q) :
    Frames Own d₀ (replaceFile source target) (fun _ => ∃ q, Leads d₀ target q) := by
  refine operation (fun _ d d' hd h => ?_) fun _ _ d _ => ⟨SameDirs.refl d, KeptOutside.refl d⟩
  obtain ⟨q, q', hq, hq', hrename⟩ := movePath_ok h
  obtain ⟨c, hc, -⟩ := lookup_rename hrename
  have hl := (leads_congr hd).mp ⟨hq, place_of_lookup hc⟩
  have hl' := (leads_congr hd).mp ⟨hq', (rename_iff_place hc).mp ⟨d', hrename⟩⟩
  exact ⟨sameDirs_rename hrename, keptOutside_rename (hsource q hl) (htarget q' hl') hrename,
    q', hl'⟩

theorem unlink (hown : ∀ q, Leads d₀ p q → Own q) :
    Frames Own d₀ (unlink p) (fun _ => True) := by
  refine operation (fun _ d d' hd h => ?_) fun _ _ d _ => ⟨SameDirs.refl d, KeptOutside.refl d⟩
  obtain ⟨q, hq, hremove⟩ := removePath_ok h
  have hl := (leads_congr hd).mp ⟨hq, place_of_remove hremove⟩
  exact ⟨sameDirs_remove hremove, keptOutside_remove (hown q hl) hremove, trivial⟩

theorem ignoreOsError {m : DiskM Unit} (h : Frames Own d₀ m (fun _ => True)) :
    Frames Own d₀ (DiskM.ignoreOsError m) (fun _ => True) := by
  intro env hd
  obtain ⟨hdirs, hkept, -⟩ := h env hd
  simp only [DiskM.ignoreOsError]
  rcases hr : m.run env with ⟨r, env'⟩
  rw [hr] at hdirs hkept
  rcases r with (e | _) | a
  · simp only
    split <;> exact ⟨hdirs, hkept, fun _ _ => trivial⟩
  · exact ⟨hdirs, hkept, fun _ _ => trivial⟩
  · exact ⟨hdirs, hkept, fun _ _ => trivial⟩

end Frames

/-! ## Torn writes that happen -/

/-- The death of the process in the middle of some write leaves `d'`. -/
def TornTo (now : Rat) (d : Disk) (m : DiskM α) (d' : Disk) : Prop :=
  ∃ (ops : List Fault) (s : Str), (∀ f ∈ ops, f.happens = true) ∧ ∀ fs,
    m.run { disk := d, now := now, faults := ops ++ .crash (some s) :: fs } =
      (.error .crashed, { disk := d', now := now, faults := fs })

namespace TornTo

variable {now : Rat} {d d₁ d' : Disk} {m : DiskM α} {a : α} {f : α → DiskM γ}

theorem bind_left (hm : TornTo now d m d') : TornTo now d (m >>= f) d' := by
  obtain ⟨ops, s, hops, h⟩ := hm
  refine ⟨ops, s, hops, fun fs => ?_⟩
  show andThen (m.run _) f = _
  rw [h]
  rfl

theorem bind_right (hm : Finishes d m a d₁) (hf : TornTo now d₁ (f a) d') :
    TornTo now d (m >>= f) d' := by
  obtain ⟨ops₁, hops₁, h₁⟩ := hm
  obtain ⟨ops₂, s, hops₂, h₂⟩ := hf
  refine ⟨ops₁ ++ ops₂, s, List.forall_mem_append.mpr ⟨hops₁, hops₂⟩, fun fs => ?_⟩
  show andThen (m.run _) f = _
  rw [List.append_assoc, h₁]
  exact h₂ fs

/-- Any text can be left where a path leads. -/
theorem writeText (now : Rat) {p : PurePath} {q : Path} (h : Leads d p q) (text s : Str) :
    ∃ d', TornTo now d (writeText p text) d' ∧
      d'.file? q = some { text := some s, mtime := now } := by
  obtain ⟨d', hput, hwrite⟩ := putText_of_leads now s h
  refine ⟨d', ?_, file?_of_lookup (by rw [lookup_write hwrite, if_pos rfl])⟩
  have htorn : ∀ act, TornTo now d
      (DiskM.operation act fun now s d => (putText p now s d).toOption.getD d) d' := by
    refine fun act => ⟨[], s, by simp, fun fs => ?_⟩
    simp [DiskM.operation, DiskEnv.time, hput, Except.toOption]
  unfold Py.writeText
  simp only
  split
  · exact (htorn _).bind_left
  · exact htorn _

end TornTo

theorem Finishes.makeDirs {d d' : Disk} {made : Path}
    (h : d.mkdirs [] made = some d') : Finishes d (Py.makeDirs made) () d' :=
  .operation (t := 0) (by simp only [h])

/-- A text with bytes is written where its path leads. -/
theorem Finishes.writeText_of_leads (now : Rat) {d : Disk} {p : PurePath} {q : Path} {text : Str}
    (h : Leads d p q) (hs : text.any isSurrogate = false) :
    ∃ d', Finishes d (Py.writeText p text) () d' ∧
      d.write q { text := some text, mtime := now } = some d' := by
  obtain ⟨d', hput, hwrite⟩ := putText_of_leads now text h
  refine ⟨d', ?_, hwrite⟩
  unfold Py.writeText
  simp only [hs, Bool.false_eq_true, if_false]
  exact .operation hput

/-- A text that has no bytes empties its file, and raises. -/
theorem RaisesTo.writeText_of_leads (now : Rat) {d : Disk} {p : PurePath} {q : Path} {text : Str}
    (h : Leads d p q) (hs : text.any isSurrogate = true) :
    ∃ d', RaisesTo d (Py.writeText p text) .unicodeEncodeError d' ∧
      d.write q { text := some [], mtime := now } = some d' := by
  obtain ⟨d', hput, hwrite⟩ := putText_of_leads now [] h
  refine ⟨d', ?_, hwrite⟩
  unfold Py.writeText
  simp only [hs, if_true]
  exact .bind_right (.operation hput) .raise

/-- A file is moved to where a path leads. -/
theorem Finishes.replaceFile_of_leads {d : Disk} {source target : PurePath}
    {p q : Path} {body : FileBody} (hp : resolve d source = .ok p)
    (hbody : d.lookup p = some (.file body)) (hq : Leads d target q) :
    ∃ d', Finishes d (Py.replaceFile source target) () d' ∧ d.rename p q = some d' := by
  obtain ⟨d', hrename⟩ := (rename_iff_place hbody).mpr hq.2
  exact ⟨d', .operation (t := 0) (by simp only [movePath, hp, hq.1, hrename]), hrename⟩

end DiskM

end TrustModelEdge.Py
