/-
TrustModelEdge.Telemetry.RecoveryTheorems — what the recovery of a corrupt
queue does to the files (`telemetry/store.py`).

A rotation loses a file only where its `rename` is refused
(`rotate_keeps`), touches no file but the queue's (`getStore_conserves`), and
what it set aside stays as it is until a later rotation of the same second
puts another file there (`set_aside_stays`).
-/
import TrustModelEdge.Lib.LastWins
import TrustModelEdge.Lib.Machine
import TrustModelEdge.Telemetry.Recovery

namespace TrustModelEdge.Telemetry

open Py Lib FileTree

/-! ## The paths -/

/-- The suffixes of the files that SQLite keeps next to the database. -/
def sqliteSuffixes : List Str := dbSuffixes ++ [("-journal" : Str)]

/-- A path of the database in this directory. -/
def OwnDb (dir p : Path) : Prop := ∃ s ∈ sqliteSuffixes, p = dbPath dir s

/-- A path that some rotation may set a file aside at. -/
def Aside (p : Path) : Prop := ∃ dir suffix stamp, p = corruptPath dir suffix stamp

theorem dbPath_inj {dir : Path} {s s' : Str} : dbPath dir s = dbPath dir s' ↔ s = s' := by
  simp [dbPath]

theorem corruptPath_inj {dir : Path} {s s' stamp : Str} :
    corruptPath dir s stamp = corruptPath dir s' stamp ↔ s = s' := by
  simp [corruptPath]

theorem aside_corruptPath (dir : Path) (suffix stamp : Str) :
    Aside (corruptPath dir suffix stamp) :=
  ⟨dir, suffix, stamp, rfl⟩

theorem length_sqliteSuffix {s : Str} (hs : s ∈ sqliteSuffixes) : s.length ≤ 8 := by
  revert s
  decide

/-- No file of a database is one that was set aside: its name is too short. -/
theorem not_aside_dbPath {dir : Path} {s : Str} (hs : s ∈ sqliteSuffixes) :
    ¬ Aside (dbPath dir s) := by
  rintro ⟨dir', s', stamp, h⟩
  obtain ⟨-, h⟩ := List.append_inj' h rfl
  have hlen : (dbFilename ++ s).length =
      (dbFilename ++ s' ++ (".corrupt-" : Str) ++ stamp).length :=
    congrArg List.length (List.singleton_inj.mp h)
  have hmark : (".corrupt-" : Str).length = 9 := by decide
  have hs' := length_sqliteSuffix hs
  simp only [List.length_append, hmark] at hlen
  omega

theorem mem_sqliteSuffixes {s : Str} (hs : s ∈ dbSuffixes) : s ∈ sqliteSuffixes :=
  List.mem_append_left _ hs

theorem dbPath_ne_corruptPath {dir dir' : Path} {s s' stamp : Str} (hs : s ∈ dbSuffixes) :
    dbPath dir s ≠ corruptPath dir' s' stamp :=
  fun h => not_aside_dbPath (mem_sqliteSuffixes hs) ⟨dir', s', stamp, h⟩

section Steps

variable {β : Type} {dir : Path} {stamp suffix : Str} {f : FileFaults} {t t' : FileTree Str β}

/-! ## One file -/

/-- The `rename` of the file raises, or the files do not allow it. -/
def Refused (dir : Path) (stamp suffix : Str) (f : FileFaults) (t : FileTree Str β) : Prop :=
  f.renameStops ≠ none ∨ t.rename (dbPath dir suffix) (corruptPath dir suffix stamp) = none

/-- The ways the loop body ends. -/
inductive AsideEnd (dir : Path) (stamp suffix : Str) (f : FileFaults) (t : FileTree Str β) :
    Except Stop (List (RotateLog β)) × FileTree Str β → Prop
  | absent (h : t.lookup (dbPath dir suffix) = none) : AsideEnd dir stamp suffix f t (.ok [], t)
  | renamed {content : β} {t' : FileTree Str β}
      (hsource : t.lookup (dbPath dir suffix) = some (.file content))
      (h : t.rename (dbPath dir suffix) (corruptPath dir suffix stamp) = some t') :
      AsideEnd dir stamp suffix f t
        (.ok [.rotated (dbPath dir suffix) (corruptPath dir suffix stamp) content], t')
  | deleted {t' : FileTree Str β} (hrefused : Refused dir stamp suffix f t)
      (h : t.remove (dbPath dir suffix) = some t') :
      AsideEnd dir stamp suffix f t (.ok [.deleted (dbPath dir suffix)], t')
  | kept (hrefused : Refused dir stamp suffix f t) :
      AsideEnd dir stamp suffix f t (.ok [.cleanupFailed (dbPath dir suffix)], t)
  | stopped (stop : Stop) : AsideEnd dir stamp suffix f t (.error stop, t)

theorem systemCall_ok {stops : Option Stop} {after : Option (FileTree Str β)}
    (h : systemCall stops after = .ok t') : after = some t' := by
  unfold systemCall at h
  split at h
  · cases h
  · rw [Except.ok.inj h]
  · cases h

theorem systemCall_error {stops : Option Stop} {after : Option (FileTree Str β)} {stop : Stop}
    (h : systemCall stops after = .error stop) : stops ≠ none ∨ after = none := by
  unfold systemCall at h
  split at h
  · exact Or.inl (Option.some_ne_none _)
  · cases h
  · exact Or.inr rfl

theorem setAside_cases (dir : Path) (stamp suffix : Str) (f : FileFaults) (t : FileTree Str β) :
    AsideEnd dir stamp suffix f t (setAside dir stamp suffix f t) := by
  unfold setAside
  dsimp only
  split
  · exact .stopped _
  · split
    · rename_i habsent
      exact .absent habsent
    · rename_i node hsource
      split
      · rename_i t' hrename
        have h := systemCall_ok hrename
        cases node with
        | file content => exact .renamed hsource h
        | dir =>
          obtain ⟨content, hfile, -⟩ := lookup_rename h
          rw [hfile] at hsource
          cases hsource
      · rename_i e hrename
        have hrefused : Refused dir stamp suffix f t := systemCall_error hrename
        split
        · unfold unlinkCorrupt
          split
          · rename_i t' hremove
            exact .deleted hrefused (systemCall_ok hremove)
          · split
            · exact .kept hrefused
            · exact .stopped _
          · exact .stopped _
        · exact .stopped _
      · exact .stopped _

/-- The two paths that the loop body may change. -/
def Moved (dir : Path) (stamp suffix : Str) (p : Path) : Prop :=
  p = dbPath dir suffix ∨ p = corruptPath dir suffix stamp

theorem setAside_frame (dir : Path) (stamp suffix : Str) (f : FileFaults) (t : FileTree Str β) :
    SameDirs t (setAside dir stamp suffix f t).2 ∧
      KeptOutside (Moved dir stamp suffix) t (setAside dir stamp suffix f t).2 := by
  generalize hr : setAside dir stamp suffix f t = r
  cases hr ▸ setAside_cases dir stamp suffix f t with
  | absent h => exact ⟨.refl t, .refl t⟩
  | renamed hsource h =>
    exact ⟨sameDirs_rename h, keptOutside_rename (Or.inl rfl) (Or.inr rfl) h⟩
  | deleted hrefused h => exact ⟨sameDirs_remove h, keptOutside_remove (Or.inl rfl) h⟩
  | kept hrefused => exact ⟨.refl t, .refl t⟩
  | stopped stop => exact ⟨.refl t, .refl t⟩

/-! ## The rotation -/

/-- Where the content of a file is after a rotation: set aside; or the `rename` was
refused; or the rotation stopped before it came to the file. -/
def Accounted (dir : Path) (stamp suffix : Str) (f : FileFaults) (t : FileTree Str β) (content : β)
    (o : RotateOutcome β) : Prop :=
  .rotated (dbPath dir suffix) (corruptPath dir suffix stamp) content ∈ o.log ∧
      o.files.file? (corruptPath dir suffix stamp) = some content ∨
    Refused dir stamp suffix f t ∨
    o.stopped ≠ none ∧ o.files.file? (dbPath dir suffix) = some content

theorem rename_congr {p q : Path} {content : β} (hdirs : SameDirs t t')
    (h : t.lookup p = some (.file content)) (h' : t'.lookup p = some (.file content)) :
    t'.rename p q = none ↔ t.rename p q = none := by
  rw [← not_iff_not]
  simp only [← ne_eq, Option.ne_none_iff_exists']
  rw [rename_iff_place h, rename_iff_place h', hdirs.place]

theorem lookup_of_file? {p : Path} {content : β} (h : t.file? p = some content) :
    t.lookup p = some (.file content) := by
  unfold file? at h
  split at h
  · rename_i c hc
    rw [hc, Option.some.inj h]
  · cases h

variable (dir stamp) in
theorem rotate_frame (faults : Str → FileFaults) (suffixes : List Str) (t : FileTree Str β) :
    SameDirs t (rotateCorruptFiles dir stamp faults suffixes t).files ∧
      KeptOutside (fun p => ∃ s ∈ suffixes, Moved dir stamp s p) t
        (rotateCorruptFiles dir stamp faults suffixes t).files := by
  induction suffixes generalizing t with
  | nil => exact ⟨.refl t, .refl t⟩
  | cons s suffixes ih =>
    obtain ⟨hdirs, hkept⟩ := setAside_frame dir stamp s (faults s) t
    have hhead : KeptOutside (fun p => ∃ s' ∈ s :: suffixes, Moved dir stamp s' p) t
        (setAside dir stamp s (faults s) t).2 :=
      fun p hp => hkept p (fun hm => hp ⟨s, List.mem_cons_self, hm⟩)
    unfold rotateCorruptFiles
    split
    · rename_i stop t' hset
      rw [hset] at hdirs hhead
      exact ⟨hdirs, hhead⟩
    · rename_i log t' hset
      rw [hset] at hdirs hhead
      obtain ⟨hdirs', hkept'⟩ := ih t'
      refine ⟨hdirs.trans hdirs', hhead.trans ?_⟩
      rintro p hp
      exact hkept' p (fun ⟨s', hs', hm⟩ => hp ⟨s', List.mem_cons_of_mem _ hs', hm⟩)

variable (dir stamp) in
/-- The part of a rotation that is about other files leaves both paths of a file. -/
theorem not_moved {s : Str} {suffixes : List Str} (hs : s ∈ dbSuffixes)
    (hsub : ∀ s' ∈ suffixes, s' ∈ dbSuffixes) (hnot : s ∉ suffixes) :
    (¬ ∃ s' ∈ suffixes, Moved dir stamp s' (dbPath dir s)) ∧
      ¬ ∃ s' ∈ suffixes, Moved dir stamp s' (corruptPath dir s stamp) := by
  constructor
  · rintro ⟨s', hs', h | h⟩
    · exact hnot (dbPath_inj.mp h ▸ hs')
    · exact dbPath_ne_corruptPath hs h
  · rintro ⟨s', hs', h | h⟩
    · exact dbPath_ne_corruptPath (hsub s' hs') h.symm
    · exact hnot (corruptPath_inj.mp h ▸ hs')

/-- **A rotation accounts for every file** of the queue. -/
theorem rotate_accounts (faults : Str → FileFaults) {suffixes : List Str}
    (hsub : ∀ s ∈ suffixes, s ∈ dbSuffixes) (hnodup : suffixes.Nodup) {s : Str}
    (hs : s ∈ suffixes) {content : β} (hfile : t.file? (dbPath dir s) = some content) :
    Accounted dir stamp s (faults s) t content
      (rotateCorruptFiles dir stamp faults suffixes t) := by
  induction suffixes generalizing t with
  | nil => simp at hs
  | cons s' suffixes ih =>
    obtain ⟨hnot, hnodup'⟩ := List.nodup_cons.mp hnodup
    have hsub' : ∀ r ∈ suffixes, r ∈ dbSuffixes := fun r hr => hsub r (List.mem_cons_of_mem _ hr)
    rcases List.mem_cons.mp hs with rfl | hs'
    · -- the rest of the loop is about other files
      have hrest := fun t₁ : FileTree Str β =>
        (rotate_frame dir stamp faults suffixes t₁).2
      obtain ⟨hn1, hn2⟩ := not_moved dir stamp (hsub s List.mem_cons_self) hsub' hnot
      generalize hr : setAside dir stamp s (faults s) t = r
      unfold rotateCorruptFiles
      rw [hr]
      cases hr ▸ setAside_cases dir stamp s (faults s) t with
      | absent h =>
        rw [lookup_of_file? hfile] at h
        cases h
      | renamed hsource h =>
        rename_i c t₁
        obtain rfl : content = c := by
          rw [lookup_of_file? hfile] at hsource
          exact Node.file.inj (Option.some.inj hsource)
        obtain ⟨c', hc', hlook⟩ := lookup_rename h
        rw [hsource] at hc'
        obtain rfl : content = c' := Node.file.inj (Option.some.inj hc')
        have htarget : t₁.lookup (corruptPath dir s stamp) = some (.file content) := by
          rw [hlook, if_pos rfl]
        refine Or.inl ⟨List.mem_append_left _ (List.mem_singleton_self _), ?_⟩
        show (rotateCorruptFiles dir stamp faults suffixes t₁).files.file? _ = _
        rw [hrest t₁ _ hn2, file?_of_lookup htarget]
      | deleted hrefused h => exact Or.inr (Or.inl hrefused)
      | kept hrefused => exact Or.inr (Or.inl hrefused)
      | stopped stop => exact Or.inr (Or.inr ⟨Option.some_ne_none _, hfile⟩)
    · -- the head of the loop is about another file
      have hne : s ∉ [s'] := by
        rw [List.mem_singleton]
        rintro rfl
        exact hnot hs'
      obtain ⟨hdirs, hkept⟩ := setAside_frame dir stamp s' (faults s') t
      have hsource :
          (setAside dir stamp s' (faults s') t).2.file? (dbPath dir s) = some content := by
        rw [← hfile]
        refine hkept _ (fun hm => ?_)
        have hsub1 : ∀ r ∈ [s'], r ∈ dbSuffixes := by
          intro r hr
          rw [List.mem_singleton.mp hr]
          exact hsub s' List.mem_cons_self
        exact (not_moved dir stamp (hsub' s hs') hsub1 hne).1 ⟨s', List.mem_singleton_self _, hm⟩
      unfold rotateCorruptFiles
      split
      · rename_i stop t' hset
        rw [hset] at hsource
        exact Or.inr (Or.inr ⟨Option.some_ne_none _, hsource⟩)
      · rename_i log t' hset
        rw [hset] at hsource hdirs
        have hacc : Accounted dir stamp s (faults s) t' content
            (rotateCorruptFiles dir stamp faults suffixes t') := ih hsub' hnodup' hs' hsource
        rcases hacc with ⟨hlog, h⟩ | h | h
        · exact Or.inl ⟨List.mem_append_right _ hlog, h⟩
        · refine Or.inr (Or.inl ?_)
          rcases h with h | h
          · exact Or.inl h
          · exact Or.inr ((rename_congr hdirs (lookup_of_file? hfile)
              (lookup_of_file? hsource)).mp h)
        · exact Or.inr (Or.inr h)

end Steps

/-! ## Opening -/

section Open

variable {β : Type} {dir : Path} {env : OpenEnv β} {t t₂ : FileTree Str β}

/-- SQLite, when it opens this database, touches its own files only. -/
def OpenEnv.OwnFiles (env : OpenEnv β) (dir : Path) : Prop :=
  ∀ t, KeptOutside (OwnDb dir) t (env.first t).2 ∧ KeptOutside (OwnDb dir) t (env.second t).2

/-- The first attempt finds the database corrupt, and leaves these files. -/
def Corrupt (dir : Path) (env : OpenEnv β) (t t₂ : FileTree Str β) : Prop :=
  ∃ t₁ message, systemCall env.mkdirStops (t.mkdirs [] dir) = .ok t₁ ∧
    env.first t₁ = (.error (.databaseError message), t₂) ∧ looksCorrupt message = true

/-- What an open may change beside the database itself. -/
def OwnQueue (dir : Path) (stamp : Str) (p : Path) : Prop :=
  OwnDb dir p ∨ ∃ s ∈ dbSuffixes, p = corruptPath dir s stamp

/-- What an open does if it is not the recovery of a corrupt database. -/
theorem openStore_plain (hsql : env.OwnFiles dir) (h : ¬ ∃ t₂, Corrupt dir env t t₂) :
    (openStore dir env t).log = [] ∧ KeptOutside (OwnDb dir) t (openStore dir env t).files := by
  unfold openStore
  split
  · exact ⟨rfl, .refl t⟩
  · rename_i t₁ hdir
    have hmk : KeptOutside (OwnDb dir) t t₁ := keptOutside_mkdirs (systemCall_ok hdir)
    have hplain : (attempted env.first [] t₁).log = [] ∧
        KeptOutside (OwnDb dir) t (attempted env.first [] t₁).files :=
      ⟨rfl, hmk.trans (hsql t₁).1⟩
    unfold openOrRecreate
    split
    · rename_i message t' hfirst
      split
      · rename_i hmark
        exact absurd ⟨t', t₁, message, hdir, hfirst, hmark⟩ h
      · exact hplain
    · exact hplain

/-- The rotation of a recovery. -/
def recovery (dir : Path) (env : OpenEnv β) (t₂ : FileTree Str β) : RotateOutcome β :=
  rotateCorruptFiles dir env.stamp env.faults dbSuffixes t₂

/-- What an open does of a corrupt database: the rotation, and then the second attempt
unless the rotation stopped. -/
theorem openStore_corrupt (h : Corrupt dir env t t₂) :
    openStore dir env t =
      match (recovery dir env t₂).stopped with
      | some stop =>
          { files := (recovery dir env t₂).files, log := (recovery dir env t₂).log
            ended := .error stop }
      | none => attempted env.second (recovery dir env t₂).log (recovery dir env t₂).files := by
  obtain ⟨t₁, message, hdir, hfirst, hmark⟩ := h
  unfold openStore openOrRecreate
  simp only [hdir, hfirst, hmark, if_true]
  rfl

theorem corrupt_kept (hsql : env.OwnFiles dir) (h : Corrupt dir env t t₂) :
    KeptOutside (OwnDb dir) t t₂ := by
  obtain ⟨t₁, message, hdir, hfirst, -⟩ := h
  have hfirst' := (hsql t₁).1
  rw [hfirst] at hfirst'
  exact (keptOutside_mkdirs (systemCall_ok hdir)).trans hfirst'

theorem recovery_kept (dir : Path) (env : OpenEnv β) (t₂ : FileTree Str β) :
    KeptOutside (OwnQueue dir env.stamp) t₂ (recovery dir env t₂).files := by
  intro p hp
  refine (rotate_frame dir env.stamp env.faults dbSuffixes t₂).2 p ?_
  rintro ⟨s, hs, h | h⟩
  · exact hp (Or.inl ⟨s, mem_sqliteSuffixes hs, h⟩)
  · exact hp (Or.inr ⟨s, hs, h⟩)

/-- The files of an open, whatever it meets. -/
theorem openStore_frame (hsql : env.OwnFiles dir) :
    KeptOutside (OwnQueue dir env.stamp) t (openStore dir env t).files := by
  have hmono : ∀ {a b : FileTree Str β}, KeptOutside (OwnDb dir) a b →
      KeptOutside (OwnQueue dir env.stamp) a b :=
    fun hab p hp => hab p (fun hown => hp (Or.inl hown))
  by_cases h : ∃ t₂, Corrupt dir env t t₂
  · obtain ⟨t₂, h⟩ := h
    have hrec := (hmono (corrupt_kept hsql h)).trans (recovery_kept dir env t₂)
    rw [openStore_corrupt h]
    split
    · exact hrec
    · exact hrec.trans (hmono (hsql _).2)
  · exact hmono (openStore_plain hsql h).2

/-- Where the content of a file of a corrupt database is once the open ends. -/
theorem openStore_accounts (hsql : env.OwnFiles dir) (h : Corrupt dir env t t₂) {s : Str}
    (hs : s ∈ dbSuffixes) {content : β} (hfile : t₂.file? (dbPath dir s) = some content) :
    (.rotated (dbPath dir s) (corruptPath dir s env.stamp) content ∈ (openStore dir env t).log ∧
        (openStore dir env t).files.file? (corruptPath dir s env.stamp) = some content) ∨
      Refused dir env.stamp s (env.faults s) t₂ ∨
      (∃ stop, (openStore dir env t).ended = .error stop) ∧
        (openStore dir env t).files.file? (dbPath dir s) = some content := by
  have hacc : Accounted dir env.stamp s (env.faults s) t₂ content (recovery dir env t₂) :=
    rotate_accounts env.faults (fun _ h => h) (by decide) hs hfile
  rw [openStore_corrupt h]
  split
  · rename_i stop hstop
    rcases hacc with hacc | hacc | ⟨-, hacc⟩
    · exact Or.inl hacc
    · exact Or.inr (Or.inl hacc)
    · exact Or.inr (Or.inr ⟨⟨stop, rfl⟩, hacc⟩)
  · rename_i hstop
    rcases hacc with ⟨hlog, hacc⟩ | hacc | ⟨hne, -⟩
    · -- the second attempt leaves what was set aside
      refine Or.inl ⟨hlog, ?_⟩
      have hnot : ¬ OwnDb dir (corruptPath dir s env.stamp) := by
        rintro ⟨s', hs', he⟩
        exact not_aside_dbPath hs' (he ▸ aside_corruptPath dir s env.stamp)
      rw [← hacc]
      exact (hsql _).2 _ hnot
    · exact Or.inr (Or.inl hacc)
    · exact absurd hstop hne

/-- **A queue is opened without losing what was there.** Whatever SQLite does with its
own files and whatever befalls the calls: `get_store` returns a store or the process dies;
the files that are not the queue's are kept, and nothing is set aside from a database that
is not corrupt. Of a corrupt one, each file that the failed attempt left is set aside with
its content, unless its `rename` is refused, or is where it was and the process has the
stand-in. -/
theorem getStore_conserves (args : StoreArgs) (env : OpenEnv β) (t : FileTree Str β)
    {stateDir : Path} {maxSize : Nat} (hargs : args.stateDir = some stateDir)
    (hsize : args.maxSize = some maxSize)
    (hsql : env.OwnFiles (args.telemetryDir.getD stateDir)) :
    let dir := args.telemetryDir.getD stateDir
    let o := getStore none args env t
    (o.ended = .crashed ∨ ∃ store, o.ended = .returned store) ∧
      KeptOutside (OwnQueue dir env.stamp) t o.files ∧
      ((¬ ∃ t₂, Corrupt dir env t t₂) → o.log = [] ∧ KeptOutside (OwnDb dir) t o.files) ∧
      ∀ t₂, Corrupt dir env t t₂ → ∀ s ∈ dbSuffixes, ∀ content,
        t₂.file? (dbPath dir s) = some content →
          (.rotated (dbPath dir s) (corruptPath dir s env.stamp) content ∈ o.log ∧
              o.files.file? (corruptPath dir s env.stamp) = some content) ∨
            Refused dir env.stamp s (env.faults s) t₂ ∨
            (o.ended = .crashed ∨ o.ended = .returned (.noop 0)) ∧
              o.files.file? (dbPath dir s) = some content := by
  intro dir o
  have ho : o = (openStore dir env t).store maxSize := by
    simp only [o, dir, getStore, hargs, hsize]
  rw [ho]
  refine ⟨?_, openStore_frame hsql, openStore_plain hsql, ?_⟩
  · unfold OpenOutcome.store
    dsimp only
    split
    · exact Or.inr ⟨_, rfl⟩
    · exact Or.inr ⟨_, rfl⟩
    · exact Or.inl rfl
  · intro t₂ hcorrupt s hs content hfile
    rcases openStore_accounts hsql hcorrupt hs hfile with h | h | ⟨⟨stop, hstop⟩, h⟩
    · exact Or.inl h
    · exact Or.inr (Or.inl h)
    · refine Or.inr (Or.inr ⟨?_, h⟩)
      unfold OpenOutcome.store
      rw [hstop]
      cases stop with
      | raised e => exact Or.inr rfl
      | crashed => exact Or.inl rfl

end Open

/-! A database that SQLite does not take, with a `-wal` next to it. -/

def demoDir : Path := [("data" : Str)]

def demoStamp : Str := "20260722T101010Z"

def garbage : Bytes := [83, 81, 76, 0]

def notDatabase : Str := "file is not a database"

/-- The files of a database, in their directory. -/
def demoFiles : FileTree Str Bytes :=
  let dir := (FileTree.empty.mkdirs [] demoDir).getD .empty
  let db := (dir.write (dbPath demoDir "") garbage).getD dir
  (db.write (dbPath demoDir "-wal") [7]).getD db

/-- It opens anything but the garbage. -/
def demoSqlite : Attempt Bytes := fun t =>
  if t.file? (dbPath demoDir "") = some garbage then
    (.error (.databaseError notDatabase), t)
  else (.ok .empty, (t.write (dbPath demoDir "") [1]).getD t)

def demoOpen : OpenEnv Bytes where
  first := demoSqlite
  stamp := demoStamp
  faults := fun _ => {}
  second := demoSqlite

def demoArgs : StoreArgs where
  stateDir := some demoDir
  maxSize := some 100

theorem demoSqlite_kept (t : FileTree Str Bytes) :
    KeptOutside (OwnDb demoDir) t (demoSqlite t).2 := by
  unfold demoSqlite
  split
  · exact .refl t
  · cases h : t.write (dbPath demoDir "") [1] with
    | none => exact .refl t
    | some t' => exact keptOutside_write ⟨_, by decide, rfl⟩ h

theorem demoOpen_ownFiles : demoOpen.OwnFiles demoDir :=
  fun t => ⟨demoSqlite_kept t, demoSqlite_kept t⟩

theorem demo_corrupt : ∃ t₂, Corrupt demoDir demoOpen demoFiles t₂ ∧
    t₂.file? (dbPath demoDir "") = some garbage ∧
    ¬ Refused demoDir demoStamp "" {} t₂ := by
  have hdir : (demoFiles.mkdirs [] demoDir).isSome = true := by decide +kernel
  have hrename : ((demoFiles.mkdirs [] demoDir).bind fun t =>
      t.rename (dbPath demoDir "") (corruptPath demoDir "" demoStamp)).isSome = true := by
    decide +kernel
  have hgarbage : ((demoFiles.mkdirs [] demoDir).bind fun t => t.file? (dbPath demoDir "")) =
      some garbage := by
    decide +kernel
  obtain ⟨t₂, ht₂⟩ := Option.isSome_iff_exists.mp hdir
  rw [ht₂, Option.bind_some] at hrename hgarbage
  refine ⟨t₂, ⟨t₂, notDatabase, ?_, ?_, ?_⟩, hgarbage, ?_⟩
  · rw [ht₂]
    rfl
  · show demoSqlite t₂ = _
    unfold demoSqlite
    rw [if_pos hgarbage]
  · decide +kernel
  · rintro (h | h)
    · exact h rfl
    · rw [h] at hrename
      cases hrename

/-- The garbage is set aside, and the process has a queue. -/
theorem getStore_conserves_garbage :
    (getStore none demoArgs demoOpen demoFiles).files.file? (corruptPath demoDir "" demoStamp) =
      some garbage := by
  obtain ⟨t₂, hcorrupt, hfile, hnot⟩ := demo_corrupt
  have hreal : ((getStore none demoArgs demoOpen demoFiles).files.file? (dbPath demoDir "")) =
      some [1] := by
    decide +kernel
  obtain ⟨-, -, -, haccounts⟩ :=
    getStore_conserves demoArgs demoOpen demoFiles (show demoArgs.stateDir = some demoDir from rfl)
      (show demoArgs.maxSize = some 100 from rfl) demoOpen_ownFiles
  rcases haccounts t₂ hcorrupt _ (by decide) garbage hfile with ⟨-, h⟩ | h | ⟨-, h⟩
  · exact h
  · exact absurd h hnot
  · exact absurd (hreal.symm.trans h) (by decide)

/-! ## Runs -/

section Runs

variable {β : Type} {log log' : List (RotateLog β)} {t t' t'' : FileTree Str β}

def RotateLog.side : RotateLog β → Option (Path × β)
  | .rotated _ target content => some (target, content)
  | _ => none

/-- The files that a log says were set aside, in order. -/
def sides (log : List (RotateLog β)) : List (Path × β) := log.filterMap RotateLog.side

theorem sides_append : sides (log ++ log') = sides log ++ sides log' := List.filterMap_append

/-- At the paths of set-aside files, what the log last put there, else what was there. -/
def Follows (log : List (RotateLog β)) (t t' : FileTree Str β) : Prop :=
  ∀ p, Aside p →
    t'.file? p = ((lastWith Prod.fst p (sides log)).map Prod.snd).or (t.file? p)

theorem Follows.of_kept {Own : Path → Prop} (h : KeptOutside Own t t')
    (hown : ∀ p, Aside p → ¬ Own p) (hlog : sides log = []) : Follows log t t' := by
  intro p hp
  rw [hlog, h p (hown p hp)]
  rfl

theorem Follows.trans (h : Follows log t t') (h' : Follows log' t' t'') :
    Follows (log ++ log') t t'' := by
  intro p hp
  rw [h' p hp, h p hp, sides_append, lastWith_append]
  cases lastWith Prod.fst p (sides log') <;> rfl

theorem not_ownDb_of_aside {dir p : Path} (hp : Aside p) : ¬ OwnDb dir p := by
  rintro ⟨s, hs, rfl⟩
  exact not_aside_dbPath hs hp

theorem follows_setAside {dir : Path} {stamp suffix : Str} {f : FileFaults}
    (hs : suffix ∈ dbSuffixes) (hset : setAside dir stamp suffix f t = (.ok log, t')) :
    Follows log t t' := by
  have hsource : ∀ p, Aside p → p ≠ dbPath dir suffix := by
    rintro p hp rfl
    exact not_aside_dbPath (mem_sqliteSuffixes hs) hp
  cases hset ▸ setAside_cases dir stamp suffix f t with
  | absent h => exact .of_kept (.refl t) hsource rfl
  | kept hrefused => exact .of_kept (.refl t) hsource rfl
  | deleted hrefused h =>
    have hkept : KeptOutside (fun p => p = dbPath dir suffix) t t' := keptOutside_remove rfl h
    exact .of_kept hkept hsource rfl
  | renamed hfile h =>
    rename_i content
    intro p hp
    obtain ⟨c, hc, hlook⟩ := lookup_rename h
    rw [hfile] at hc
    obtain rfl : content = c := Node.file.inj (Option.some.inj hc)
    have hside : sides
        [RotateLog.rotated (dbPath dir suffix) (corruptPath dir suffix stamp) content] =
          [(corruptPath dir suffix stamp, content)] := rfl
    rw [hside, lastWith_cons]
    by_cases htarget : corruptPath dir suffix stamp = p
    · have hthere : t'.lookup p = some (.file content) := by
        rw [hlook, if_pos htarget.symm]
      rw [if_pos htarget, file?_of_lookup hthere]
      rfl
    · have hsame : t'.lookup p = t.lookup p := by
        rw [hlook, if_neg (Ne.symm htarget), if_neg (hsource p hp)]
      rw [if_neg htarget, file?_congr hsame]
      rfl

theorem follows_rotate {dir : Path} {stamp : Str} {faults : Str → FileFaults}
    {suffixes : List Str} (hsub : ∀ s ∈ suffixes, s ∈ dbSuffixes) :
    Follows (rotateCorruptFiles dir stamp faults suffixes t).log t
      (rotateCorruptFiles dir stamp faults suffixes t).files := by
  induction suffixes generalizing t with
  | nil => exact .of_kept (.refl t) (fun _ _ h => h) rfl
  | cons s suffixes ih =>
    have hs := hsub s List.mem_cons_self
    unfold rotateCorruptFiles
    split
    · rename_i stop t' hset
      cases hset ▸ setAside_cases dir stamp s (faults s) t with
      | stopped => exact .of_kept (.refl t) (fun _ _ h => h) rfl
    · rename_i log t' hset
      exact (follows_setAside hs hset).trans (ih (fun r hr => hsub r (List.mem_cons_of_mem _ hr)))

theorem follows_openStore {dir : Path} {env : OpenEnv β} (hsql : env.OwnFiles dir) :
    Follows (openStore dir env t).log t (openStore dir env t).files := by
  have hnot : ∀ p, Aside p → ¬ OwnDb dir p := fun p hp => not_ownDb_of_aside hp
  by_cases h : ∃ t₂, Corrupt dir env t t₂
  · obtain ⟨t₂, h⟩ := h
    have hfirst : Follows [] t t₂ := .of_kept (corrupt_kept hsql h) hnot rfl
    have hrec : Follows (recovery dir env t₂).log t (recovery dir env t₂).files :=
      hfirst.trans (follows_rotate (fun _ hs => hs))
    rw [openStore_corrupt h]
    split
    · exact hrec
    · have hsecond : Follows [] (recovery dir env t₂).files
          (env.second (recovery dir env t₂).files).2 := .of_kept (hsql _).2 hnot rfl
      have hall := hrec.trans hsecond
      rwa [List.append_nil] at hall
  · obtain ⟨hlog, hkept⟩ := openStore_plain hsql h
    exact .of_kept hkept hnot (by rw [hlog]; rfl)

/-- The directory of the queue, of a call that may open it. -/
def StoreArgs.dbDir (args : StoreArgs) : Option Path :=
  match args.stateDir, args.maxSize with
  | some stateDir, some _ => some (args.telemetryDir.getD stateDir)
  | _, _ => none

/-- SQLite keeps to the files of the database, and the rest of the program leaves
those that were set aside. -/
def HostInput.LeavesAside (h : QueueHost β) : HostInput β → Prop
  | .getStore args env => ∀ dir ∈ args.dbDir, env.OwnFiles dir
  | .others files _ => KeptOutside (fun p => ¬ Aside p) h.files files
  | .restart => True

theorem follows_hostStep {h : QueueHost β} {i : HostInput β} (hi : i.LeavesAside h) :
    Follows (hostStep h i).2 h.files (hostStep h i).1.files := by
  cases i with
  | restart => exact .of_kept (.refl _) (fun _ _ h => h) rfl
  | others files use => exact .of_kept hi (fun p hp hnot => hnot hp) rfl
  | getStore args env =>
    simp only [hostStep, getStore]
    split
    · exact .of_kept (.refl _) (fun _ _ h => h) rfl
    · split
      · rename_i hdir hsize
        refine follows_openStore (hi _ ?_)
        simp only [StoreArgs.dbDir, hdir, hsize, Option.mem_def]
      · exact .of_kept (.refl _) (fun _ _ h => h) rfl

/-- **What was set aside stays.** In every run of processes on one file system, with
whatever SQLite and the calls do, a path that recoveries set files aside at holds in the
end what the last of them put there: an earlier file is lost only to a later one of the
same name, and so of the same second. -/
theorem set_aside_stays (h : QueueHost β) (inputs : List (HostInput β))
    (hinputs : ∀ v ∈ visits hostStep h inputs, v.2.LeavesAside v.1) (p : Path) (hp : Aside p) :
    (final hostStep h inputs).files.file? p =
      ((lastWith Prod.fst p (sides (trace hostStep h inputs).flatten)).map Prod.snd).or
        (h.files.file? p) := by
  have hrun := guarded_inv hostStep
    (R := fun logs h' => Follows logs.flatten h.files h'.files)
    (G := fun h' i => i.LeavesAside h')
    (fun logs h' i ih hi => by
      rw [List.flatten_append, List.flatten_singleton]
      exact ih.trans (follows_hostStep hi))
    (.of_kept (.refl _) (fun _ _ h => h) rfl) hinputs
  exact hrun p hp

end Runs

/-- The garbage is still there after a restart. -/
theorem set_aside_stays_restart :
    (final hostStep { files := demoFiles } [.getStore demoArgs demoOpen, .restart,
      .getStore demoArgs demoOpen]).files.file? (corruptPath demoDir "" demoStamp) =
        some garbage := by
  have hown : ∀ dir ∈ demoArgs.dbDir, demoOpen.OwnFiles dir := by
    intro dir hdir
    obtain rfl : demoDir = dir := Option.some.inj hdir
    exact demoOpen_ownFiles
  rw [set_aside_stays { files := demoFiles } _ ?_ _ (aside_corruptPath _ _ _)]
  · decide +kernel
  · intro v hv
    simp only [visits_cons, visits_nil, List.mem_cons, List.not_mem_nil, or_false] at hv
    rcases hv with rfl | rfl | rfl
    · exact hown
    · trivial
    · exact hown

end TrustModelEdge.Telemetry
