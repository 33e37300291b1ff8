/-
TrustModelEdge.Py.TornRules — what stays true of a disk through torn writes.

`Maintains` is a triple with one exit: a property of the disk survives a routine,
however it ends, if every text that a fault may leave behind is a known one. The
property these rules are for is about one path: the file there holds one of the
known texts (`FileIn`). A write at another path cannot break it, so for most of a
routine only the last component of a path matters (`resolve_last`).
-/
import TrustModelEdge.Py.CrashRules

namespace TrustModelEdge.Py

open Lib Lib.FileTree

/-- The file at `q`, if there is one, holds one of these texts, if it holds a text. -/
def FileIn (q : Path) (T : Str → Prop) (d : Disk) : Prop :=
  ∀ body text, d.file? q = some body → body.text = some text → T text

/-- What these faults leave behind is one of these texts. -/
def Leaving (L : Str → Prop) (faults : List Fault) : Prop :=
  ∀ f ∈ faults, ∀ s, f.left = some s → L s

theorem leaving_true (faults : List Fault) : Leaving (fun _ => True) faults :=
  fun _ _ _ _ => trivial

section Files

variable {q q' : Path} {T : Str → Prop} {d d' : Disk}

theorem FileIn.of_file (h : FileIn q T d) (hq : d'.file? q = d.file? q) : FileIn q T d' :=
  fun body text hbody => h body text (hq ▸ hbody)

theorem FileIn.write (h : FileIn q T d) {text : Str} {now : Rat} (htext : q' = q → T text)
    (hw : d.write q' { text := some text, mtime := now } = some d') : FileIn q T d' := by
  by_cases hq : q' = q
  · intro body text' hbody ht
    have hlookup := lookup_write hw q
    rw [if_pos hq.symm] at hlookup
    obtain rfl := Option.some.inj ((file?_of_lookup hlookup).symm.trans hbody)
    rw [← Option.some.inj ht]
    exact htext hq
  · have hkept : KeptOutside (· = q') d d' := keptOutside_write rfl hw
    exact h.of_file (hkept q (Ne.symm hq))

/-- A path ends with the last component of its path object. -/
theorem resolve_last {root : Path} {init : List Str} {k : Str} (hk : k ≠ (".." : Str))
    (h : resolve d { root := root, parts := init ++ [k] } = .ok q) : q.getLast? = some k := by
  have hwalk : ∀ {cs : List Str} {cur : Path}, walk d cur (cs ++ [k]) = .ok q →
      q.getLast? = some k := by
    intro cs
    induction cs with
    | nil =>
      intro cur hw
      simp only [List.nil_append, walk, if_neg hk] at hw
      split at hw
      · split at hw
        · cases hw
        · obtain rfl := Except.ok.inj hw
          exact List.getLast?_concat
      · split at hw <;> cases hw
    | cons c cs ih =>
      intro cur hw
      simp only [List.cons_append, walk] at hw
      split at hw
      · split at hw
        · cases hw
        · split at hw <;> exact ih hw
      · split at hw <;> cases hw
  unfold resolve at h
  split at h
  · cases h
  · exact hwalk h

end Files

namespace DiskM

variable {α γ : Type} {P : Disk → Prop} {L : Str → Prop}

/-- `P` survives the routine, and so does what is known of the faults to come. -/
def Maintains (P : Disk → Prop) (L : Str → Prop) (m : DiskM α) : Prop :=
  ∀ env : DiskEnv, P env.disk → Leaving L env.faults →
    P (m.run env).2.disk ∧ Leaving L (m.run env).2.faults

namespace Maintains

theorem pure (a : α) : Maintains P L (pure a : DiskM α) := fun _ hd hleft => ⟨hd, hleft⟩

theorem raise (e : Exc) : Maintains P L (raise e : DiskM α) := fun _ hd hleft => ⟨hd, hleft⟩

theorem lift (x : Except Exc α) : Maintains P L (DiskM.lift x) := by
  cases x with
  | ok a => exact .pure a
  | error e => exact .raise e

theorem getDisk : Maintains P L DiskM.getDisk := fun _ hd hleft => ⟨hd, hleft⟩

theorem bind {m : DiskM α} {f : α → DiskM γ} (hm : Maintains P L m)
    (hf : ∀ a, Maintains P L (f a)) : Maintains P L (m >>= f) := by
  intro env hd hleft
  obtain ⟨hd', hleft'⟩ := hm env hd hleft
  have hrun : (m >>= f).run env = andThen (m.run env) f := rfl
  rw [hrun]
  rcases hr : m.run env with ⟨r, env'⟩
  rw [hr] at hd' hleft'
  cases r with
  | ok a => exact hf a env' hd' hleft'
  | error e => exact ⟨hd', hleft'⟩

theorem ignoreOsError {m : DiskM Unit} (hm : Maintains P L m) :
    Maintains P L (DiskM.ignoreOsError m) := by
  intro env hd hleft
  have hend := hm env hd hleft
  simp only [DiskM.ignoreOsError]
  rcases hr : m.run env with ⟨r, env'⟩
  rw [hr] at hend
  rcases r with (e | _) | a
  · simp only
    split <;> exact hend
  · exact hend
  · exact hend

/-- One operation: what it does, and what it leaves when it is torn. -/
theorem operation {act : Rat → Disk → Except Exc Disk} {torn : Rat → Str → Disk → Disk}
    (hact : ∀ now d d', P d → act now d = .ok d' → P d')
    (htorn : ∀ now s d, P d → L s → P (torn now s d)) :
    Maintains P L (DiskM.operation act torn) := by
  intro env hd hleft
  have hrest : ∀ {f fs}, env.faults = f :: fs → Leaving L fs := by
    intro f fs hf g hg
    exact hleft g (by rw [hf]; exact List.mem_cons_of_mem _ hg)
  have hleave : ∀ {f : Fault} {fs}, env.faults = f :: fs → ∀ s, f.left = some s →
      P (torn env.time s env.disk) := by
    intro f fs hf s hs
    exact htorn _ _ _ hd (hleft f (by rw [hf]; exact List.mem_cons_self) s hs)
  simp only [DiskM.operation]
  split
  · rename_i e left fs hf
    cases left with
    | none => exact ⟨hd, hrest hf⟩
    | some s => exact ⟨hleave hf s rfl, hrest hf⟩
  · rename_i left fs hf
    cases left with
    | none => exact ⟨hd, hrest hf⟩
    | some s => exact ⟨hleave hf s rfl, hrest hf⟩
  · have htail : Leaving L env.faults.tail := fun f hf => hleft f (List.mem_of_mem_tail hf)
    cases ha : act env.time env.disk with
    | error e => exact ⟨hd, htail⟩
    | ok d' => exact ⟨hact _ _ _ hd ha, htail⟩

/-! ## One file -/

variable {q : Path} {T : Str → Prop} {p : PurePath}

/-- What is written at the path is one of the texts, whole or torn. -/
theorem writeText {text : Str}
    (h : ∀ d, resolve d p = .ok q → T text ∧ T [] ∧ ∀ s, L s → T s) :
    Maintains (FileIn q T) L (writeText p text) := by
  have hput : ∀ now s d d', (resolve d p = .ok q → T s) → FileIn q T d →
      putText p now s d = .ok d' → FileIn q T d' := by
    intro now s d d' hs hd hact
    obtain ⟨q', hq', hw⟩ := putText_ok hact
    exact hd.write (fun hq => hs (hq ▸ hq')) hw
  have htorn : ∀ now s d, FileIn q T d → L s →
      FileIn q T ((putText p now s d).toOption.getD d) := by
    intro now s d hd hs
    cases hp : putText p now s d with
    | error e => exact hd
    | ok d' => exact hput now s d d' (fun hq => (h d hq).2.2 s hs) hd hp
  unfold Py.writeText
  simp only
  split
  · refine bind (operation (fun now d d' hd hact => ?_) htorn) fun _ => .raise _
    exact hput now [] d d' (fun hq => (h d hq).2.1) hd hact
  · refine operation (fun now d d' hd hact => ?_) htorn
    exact hput now text d d' (fun hq => (h d hq).1) hd hact

theorem replaceFile {source target : PurePath} (hsource : ∀ d, resolve d source ≠ .ok q)
    (htarget : ∀ d, resolve d target ≠ .ok q) :
    Maintains (FileIn q T) L (replaceFile source target) := by
  refine operation (fun _ d d' hd hact => ?_) fun _ _ _ hd _ => hd
  obtain ⟨r, r', hr, hr', hrename⟩ := movePath_ok hact
  have hne : r ≠ q := fun hq => hsource d (hq ▸ hr)
  have hne' : r' ≠ q := fun hq => htarget d (hq ▸ hr')
  have hkept : KeptOutside (· ≠ q) d d' := keptOutside_rename hne hne' hrename
  exact hd.of_file (hkept q (not_not_intro rfl))

theorem unlink (h : ∀ d, resolve d p ≠ .ok q) : Maintains (FileIn q T) L (unlink p) := by
  refine operation (fun _ d d' hd hact => ?_) fun _ _ _ hd _ => hd
  obtain ⟨r, hr, hremove⟩ := removePath_ok hact
  have hne : r ≠ q := fun hq => h d (hq ▸ hr)
  have hkept : KeptOutside (· ≠ q) d d' := keptOutside_remove hne hremove
  exact hd.of_file (hkept q (not_not_intro rfl))

theorem makeDirs (dir : Path) : Maintains (FileIn q T) L (makeDirs dir) := by
  refine operation (fun _ d d' hd hact => ?_) fun _ _ _ hd _ => hd
  split at hact
  · rename_i d₁ hmk
    obtain rfl := Except.ok.inj hact
    have hkept : KeptOutside (fun _ => False) d d₁ := keptOutside_mkdirs hmk
    exact hd.of_file (hkept q id)
  · cases hact

end Maintains

end DiskM

end TrustModelEdge.Py
