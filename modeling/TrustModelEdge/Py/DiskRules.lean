/-
TrustModelEdge.Py.DiskRules — what a routine that finished did.

`bind_ok` takes a finished routine apart, and there is one rule for each
operation. The rules speak of a file directly below a resolved directory
(`child`), the only paths the layouts of the state directory consist of
when the names in them are free of separators.
-/
import TrustModelEdge.Py.Disk

namespace TrustModelEdge.Py

open Lib

namespace DiskM

variable {α γ : Type}

theorem ext_run {m m' : DiskM α} (h : ∀ env, m.run env = m'.run env) : m = m' := by
  cases m
  cases m'
  exact congrArg DiskM.mk (funext h)

instance : LawfulMonad DiskM :=
  LawfulMonad.mk' DiskM
    (fun m => ext_run fun env => by
      show andThen (m.run env) (fun a => pure (id a)) = m.run env
      rcases m.run env with ⟨r, env'⟩
      cases r <;> rfl)
    (fun _ _ => rfl)
    (fun m f g => ext_run fun env => by
      show andThen (andThen (m.run env) f) g = andThen (m.run env) (fun a => f a >>= g)
      rcases m.run env with ⟨r, env'⟩
      cases r <;> rfl)

theorem pure_ok {a b : α} {env env' : DiskEnv}
    (h : (pure a : DiskM α).run env = (.ok b, env')) : a = b ∧ env = env' := by
  have h' : ((Except.ok a : Except Stop α), env) = (.ok b, env') := h
  simpa using h'

/-- A finished sequence is two finished parts. -/
theorem bind_ok {m : DiskM α} {f : α → DiskM γ} {env env' : DiskEnv} {b : γ}
    (h : (m >>= f).run env = (.ok b, env')) :
    ∃ a env₁, m.run env = (.ok a, env₁) ∧ (f a).run env₁ = (.ok b, env') := by
  cases hm : m.run env with
  | mk r env₁ =>
    have hb : (m >>= f).run env = andThen (m.run env) f := rfl
    rw [hb, hm] at h
    cases r with
    | ok a => exact ⟨a, env₁, rfl, h⟩
    | error e => simp [andThen] at h

/-- A sequence goes on after a part that finished, and stops with one that did
not. -/
theorem bind_of_ok {m : DiskM α} {f : α → DiskM γ} {env env₁ : DiskEnv} {a : α}
    (h : m.run env = (.ok a, env₁)) : (m >>= f).run env = (f a).run env₁ := by
  show andThen (m.run env) f = _
  rw [h]
  rfl

theorem bind_of_error {m : DiskM α} {f : α → DiskM γ} {env env₁ : DiskEnv} {s : Stop}
    (h : m.run env = (.error s, env₁)) : (m >>= f).run env = (.error s, env₁) := by
  show andThen (m.run env) f = _
  rw [h]
  rfl

/-- A run that is seen to finish. -/
theorem finished_of_toBool {r : Except Stop Unit × DiskEnv} (h : r.1.toBool = true) :
    r = (.ok (), r.2) := by
  rcases r with ⟨r, env⟩
  cases r with
  | ok a => rfl
  | error e => cases h

theorem lift_ok {x : Except Exc α} {env env' : DiskEnv} {a : α}
    (h : (lift x).run env = (.ok a, env')) : x = .ok a ∧ env' = env := by
  cases x with
  | ok b =>
    obtain ⟨hab, henv⟩ := pure_ok h
    exact ⟨by rw [hab], henv.symm⟩
  | error e => simp [lift, raise] at h

theorem getDisk_ok {env env' : DiskEnv} {d : Disk} (h : getDisk.run env = (.ok d, env')) :
    d = env.disk ∧ env' = env := by
  have h' : ((Except.ok env.disk : Except Stop Disk), env) = (.ok d, env') := h
  simp only [Prod.mk.injEq, Except.ok.injEq] at h'
  exact ⟨h'.1.symm, h'.2.symm⟩

theorem operation_ok {act : Rat → Disk → Except Exc Disk} {torn : Rat → Str → Disk → Disk}
    {env env' : DiskEnv} (h : (operation act torn).run env = (.ok (), env')) :
    act env.time env.disk = .ok env'.disk ∧ env'.now = env.now := by
  simp only [operation] at h
  split at h
  · simp at h
  · simp at h
  · cases ha : act env.time env.disk with
    | ok d =>
      simp only [ha, Prod.mk.injEq, true_and] at h
      rw [← h]
      exact ⟨rfl, rfl⟩
    | error e => simp [ha] at h

/-- An operation that failed without a torn write left the disk as it was. -/
theorem operation_disk (act : Rat → Disk → Except Exc Disk) (env : DiskEnv) :
    ((operation act (fun _ _ d => d)).run env).2.now = env.now ∧
      (((operation act (fun _ _ d => d)).run env).2.disk = env.disk ∨
        act env.time env.disk = .ok ((operation act (fun _ _ d => d)).run env).2.disk) := by
  simp only [operation]
  split
  · rename_i e s fs _
    cases s <;> exact ⟨rfl, Or.inl rfl⟩
  · rename_i s fs _
    cases s <;> exact ⟨rfl, Or.inl rfl⟩
  · cases ha : act env.time env.disk with
    | ok d => exact ⟨rfl, Or.inr rfl⟩
    | error e => exact ⟨rfl, Or.inl rfl⟩

theorem ignoreOsError_disk {m : DiskM Unit} {env env' : DiskEnv}
    (h : (ignoreOsError m).run env = (.ok (), env')) : env' = (m.run env).2 := by
  simp only [ignoreOsError] at h
  cases hm : m.run env with
  | mk r env₁ =>
    rw [hm] at h
    cases r with
    | ok a => simpa using h.symm
    | error e =>
      cases e with
      | crashed => simp at h
      | raised e =>
        simp only at h
        split at h
        · simpa using h.symm
        · simp at h

end DiskM

/-! ## Files directly below a directory -/

/-- The path object of a name below a resolved directory. -/
def child (dir : Path) (name : Str) : PurePath where
  root := dir
  parts := [name]

/-- A name without separators is one component. -/
theorem join_ofDir {dir : Path} {name : Str} (hsep : CodePoint.ofChar '/' ∉ name)
    (hne : name ≠ []) (hdot : name ≠ (".": Str)) :
    (PurePath.ofDir dir).join name = child dir name := by
  have habs : startsWith name "/" = false := by
    cases name with
    | nil => exact absurd rfl hne
    | cons c cs =>
      have hc : CodePoint.ofChar '/' ≠ c := fun he => hsep (he ▸ List.mem_cons_self)
      have hlit : ("/" : Str) = [CodePoint.ofChar '/'] := by decide
      rw [startsWith, hlit, List.isPrefixOf_cons_cons]
      simp [hc]
  have hparts : pathParts name = [name] := by
    have hsplit : split (CodePoint.ofChar '/') name = [name] := by
      apply List.splitOnP_eq_singleton
      intro c hc
      have : c ≠ CodePoint.ofChar '/' := fun he => hsep (he ▸ hc)
      simpa using this
    rw [pathParts, hsplit]
    simp [hne, hdot]
  unfold PurePath.join
  rw [habs, hparts]
  rfl

/-- A directory keeps being one when only files below it change. -/
theorem isDir_of_lookup {d d' : Disk} {dir : Path} (h : d.isDir dir = true)
    (hl : d'.lookup dir = d.lookup dir) : d'.isDir dir = true := by
  rw [FileTree.isDir_iff] at h ⊢
  rw [hl, h]

theorem ne_child (dir : Path) (name : Str) : dir ≠ dir ++ [name] := by
  intro h
  have hlen := congrArg List.length h
  simp at hlen

theorem child_ne_child (dir : Path) {a b : Str} (h : a ≠ b) : dir ++ [a] ≠ dir ++ [b] := by
  simpa using h

theorem not_prefix_of_length {r dir : Path} (h : dir.length < r.length) : ¬ r <+: dir := by
  intro hp
  have := hp.length_le
  omega

/-- The stem of a name with an extension. -/
theorem stem_append {name ext : Str} (hn : name ≠ []) (he : ext ≠ [])
    (hdot : CodePoint.ofChar '.' ∉ ext) : stem (name ++ CodePoint.ofChar '.' :: ext) = name := by
  have hall : ∀ c ∈ ext.reverse, decide (c ≠ CodePoint.ofChar '.') = true := by
    intro c hc
    have : c ≠ CodePoint.ofChar '.' := fun h => hdot (h ▸ List.mem_reverse.mp hc)
    simpa using this
  have hrev : (name ++ CodePoint.ofChar '.' :: ext).reverse =
      ext.reverse ++ CodePoint.ofChar '.' :: name.reverse := by
    simp
  have hbefore : (name ++ CodePoint.ofChar '.' :: ext).rdropWhile (· ≠ CodePoint.ofChar '.') =
      name ++ [CodePoint.ofChar '.'] := by
    rw [List.rdropWhile, hrev, List.dropWhile_append_of_pos hall]
    simp
  have hafter : (name ++ CodePoint.ofChar '.' :: ext).rtakeWhile (· ≠ CodePoint.ofChar '.') =
      ext := by
    rw [List.rtakeWhile, hrev, List.takeWhile_append_of_pos hall]
    simp
  unfold stem
  simp only [hbefore, hafter, List.dropLast_concat]
  rw [if_pos ⟨by simp, hn, he⟩]

theorem text_child (dir : Path) (name : Str) :
    (child dir name).text =
      dir.flatMap (fun c => CodePoint.ofChar '/' :: c) ++ CodePoint.ofChar '/' :: name := by
  simp [PurePath.text, child]

/-- A name the system accepts below a directory. -/
structure Usable (dir : Path) (name : Str) : Prop where
  clean : (child dir name).problem = none
  short : byteLength name ≤ nameMax
  notUp : name ≠ (".." : Str)

theorem problem_eq_none {p : PurePath} :
    p.problem = none ↔
      p.text.any isSurrogate = false ∧ CodePoint.nul ∉ p.text ∧ byteLength p.text < pathMax := by
  unfold PurePath.problem
  simp only
  split
  · rename_i h; simp [h]
  · rename_i h
    split
    · rename_i h0; simp [h0]
    · rename_i h0
      split
      · rename_i hl
        simp only [reduceCtorEq, false_iff, not_and]
        omega
      · rename_i hl
        simp only [true_iff]
        exact ⟨by simpa using h, h0, by omega⟩

theorem byteLength_append (s t : Str) : byteLength (s ++ t) = byteLength s + byteLength t := by
  simp [byteLength]

/-- A name without odd characters, not longer than a usable one. -/
theorem Usable.of_shorter {dir : Path} {name name' : Str} (h : Usable dir name)
    (hs : name'.any isSurrogate = false) (h0 : CodePoint.nul ∉ name')
    (hlen : byteLength name' ≤ byteLength name) (hup : name' ≠ (".." : Str)) :
    Usable dir name' := by
  obtain ⟨hclean, hshort, -⟩ := h
  refine ⟨?_, by omega, hup⟩
  rw [problem_eq_none, text_child] at hclean ⊢
  obtain ⟨h1, h2, h3⟩ := hclean
  have hcons : ∀ s : Str, CodePoint.ofChar '/' :: s = [CodePoint.ofChar '/'] ++ s := fun _ => rfl
  rw [hcons] at h1 h2 h3 ⊢
  simp only [List.any_append, Bool.or_eq_false_iff, List.mem_append, not_or, byteLength_append]
    at h1 h2 h3 ⊢
  exact ⟨⟨h1.1, h1.2.1, hs⟩, ⟨h2.1, h2.2.1, h0⟩, by omega⟩

/-- Resolution of a name that is not `..`: the directory must be there and the
name usable. -/
theorem resolve_child {d : Disk} {dir q : Path} {name : Str} (hup : name ≠ (".." : Str)) :
    resolve d (child dir name) = .ok q ↔
      Usable dir name ∧ d.isDir dir = true ∧ q = dir ++ [name] := by
  unfold resolve
  constructor
  · intro h
    cases hp : (child dir name).problem with
    | some e => rw [hp] at h; simp at h
    | none =>
      rw [hp] at h
      simp only [child, walk, hup, if_false] at h
      split at h
      · rename_i hd
        split at h
        · simp at h
        · rename_i hs
          exact ⟨⟨hp, by omega, hup⟩, hd, by simpa using h.symm⟩
      · split at h <;> simp at h
  · rintro ⟨⟨hp, hs, _⟩, hd, rfl⟩
    rw [hp]
    simp [child, walk, hd, hup, Nat.not_lt.mpr hs]

theorem fileAt_child {d : Disk} {dir : Path} {name : Str} {body : FileBody}
    (hu : Usable dir name) (hd : d.isDir dir = true)
    (hf : d.lookup (dir ++ [name]) = some (.file body)) :
    fileAt d (child dir name) = .ok body := by
  unfold fileAt
  rw [(resolve_child hu.notUp).mpr ⟨hu, hd, rfl⟩]
  simp [hf]

theorem pathExists_child {d : Disk} {dir : Path} {name : Str} (hu : Usable dir name)
    (hd : d.isDir dir = true) :
    pathExists d (child dir name) = .ok (d.lookup (dir ++ [name])).isSome := by
  unfold pathExists
  rw [(resolve_child hu.notUp).mpr ⟨hu, hd, rfl⟩]

/-- An absent file stays absent while nothing happens at its path. -/
theorem pathExists_child_absent {d d' : Disk} {dir : Path} {name : Str}
    (hup : name ≠ (".." : Str)) (hshort : byteLength name ≤ nameMax)
    (h : pathExists d (child dir name) = .ok false)
    (hl : d'.lookup (dir ++ [name]) = d.lookup (dir ++ [name])) :
    pathExists d' (child dir name) = .ok false := by
  cases hp : (child dir name).problem with
  | some e =>
    unfold pathExists resolve at h ⊢
    simp only [hp] at h ⊢
    cases e <;> exact h
  | none =>
    have hu : Usable dir name := ⟨hp, hshort, hup⟩
    by_cases hd' : d'.isDir dir = true
    · rw [pathExists_child hu hd', hl]
      by_cases hd : d.isDir dir = true
      · rw [pathExists_child hu hd] at h
        exact h
      · cases hf : d.lookup (dir ++ [name]) with
        | none => rfl
        | some node => exact absurd (FileTree.isDir_of_child d hf) hd
    · unfold pathExists resolve
      rw [hp]
      simp only [child, walk, hd', Bool.false_eq_true, if_false]
      split <;> rename_i hr <;> split at hr <;> cases hr <;> rfl

theorem universalNewlines_of_no_cr {s : Str} (h : CodePoint.cr ∉ s) :
    universalNewlines s = s := by
  suffices hgo : ∀ s : Str, CodePoint.cr ∉ s → universalNewlines.go false s = s from
    hgo s h
  intro s
  induction s with
  | nil => intro _; rfl
  | cons c cs ih =>
    intro h
    have hc : c ≠ .cr := fun he => h (he ▸ List.mem_cons_self)
    have hcs := ih (fun hm => h (List.mem_cons_of_mem _ hm))
    simp [universalNewlines.go, hc, hcs]

theorem cr_not_mem_universalNewlines (s : Str) : CodePoint.cr ∉ universalNewlines s := by
  suffices hgo : ∀ (s : Str) after, CodePoint.cr ∉ universalNewlines.go after s from hgo s false
  intro s
  induction s with
  | nil => intro after h; cases h
  | cons c cs ih =>
    intro after
    unfold universalNewlines.go
    split
    · -- the carriage return is read as a line feed
      exact fun h => (List.mem_cons.mp h).elim (by decide) (ih true)
    · rename_i hc
      split
      · exact ih false
      · exact fun h => (List.mem_cons.mp h).elim (fun he => hc he.symm) (ih false)

/-- Text mode keeps exactly the texts without carriage returns. -/
theorem universalNewlines_eq_self_iff {s : Str} :
    universalNewlines s = s ↔ CodePoint.cr ∉ s := by
  refine ⟨fun h => ?_, universalNewlines_of_no_cr⟩
  rw [← h]
  exact cr_not_mem_universalNewlines s

/-- Reading back a text without carriage returns. -/
theorem readText_child {d : Disk} {dir : Path} {name text : Str} {m : Rat}
    (hu : Usable dir name) (hd : d.isDir dir = true)
    (hf : d.lookup (dir ++ [name]) = some (.file { text := some text, mtime := m }))
    (hcr : CodePoint.cr ∉ text) : readText d (child dir name) = .ok text := by
  unfold readText
  rw [fileAt_child hu hd hf]
  show Except.ok (universalNewlines text) = _
  rw [universalNewlines_of_no_cr hcr]

theorem mtime_child {d : Disk} {dir : Path} {name text : Str} {m : Rat}
    (hu : Usable dir name) (hd : d.isDir dir = true)
    (hf : d.lookup (dir ++ [name]) = some (.file { text := some text, mtime := m })) :
    mtime d (child dir name) = .ok m := by
  unfold mtime
  rw [fileAt_child hu hd hf]
  rfl

/-! ## The operations -/

theorem putText_ok {p : PurePath} {now : Rat} {text : Str} {d d' : Disk}
    (h : putText p now text d = .ok d') :
    ∃ q, resolve d p = .ok q ∧ d.write q { text := some text, mtime := now } = some d' := by
  unfold putText at h
  split at h
  · simp at h
  · rename_i q hq
    refine ⟨q, hq, ?_⟩
    split at h
    · rename_i d₁ hd; rw [hd]; simpa using h
    · split at h <;> simp at h

theorem movePath_ok {source target : PurePath} {d d' : Disk}
    (h : movePath source target d = .ok d') :
    ∃ p q, resolve d source = .ok p ∧ resolve d target = .ok q ∧ d.rename p q = some d' := by
  unfold movePath at h
  split at h
  · rename_i p q hp hq
    refine ⟨p, q, hp, hq, ?_⟩
    split at h
    · rename_i d₁ hd; rw [hd]; simpa using h
    · split at h <;> simp at h
  · simp at h
  · simp at h

theorem removePath_ok {p : PurePath} {d d' : Disk} (h : removePath p d = .ok d') :
    ∃ q, resolve d p = .ok q ∧ d.remove q = some d' := by
  unfold removePath at h
  split at h
  · simp at h
  · rename_i q hq
    refine ⟨q, hq, ?_⟩
    split at h
    · rename_i d₁ hd; rw [hd]; simpa using h
    · split at h <;> simp at h

theorem writeText_ok {p : PurePath} {text : Str} {env env' : DiskEnv}
    (h : (writeText p text).run env = (.ok (), env')) :
    env'.now = env.now ∧ ∃ q, resolve env.disk p = .ok q ∧
      env.disk.write q { text := some text, mtime := env.time } = some env'.disk := by
  unfold writeText at h
  split at h
  · obtain ⟨_, _, -, h2⟩ := DiskM.bind_ok h
    simp [DiskM.raise] at h2
  · obtain ⟨hact, hnow⟩ := DiskM.operation_ok h
    exact ⟨hnow, putText_ok hact⟩

/-- A text that was written has bytes. -/
theorem bytes_of_written {p : PurePath} {text : Str} {env env' : DiskEnv}
    (h : (writeText p text).run env = (.ok (), env')) : text.any isSurrogate = false := by
  unfold writeText at h
  split at h
  · obtain ⟨_, _, -, h2⟩ := DiskM.bind_ok h
    simp [DiskM.raise] at h2
  · rename_i hs
    simpa using hs

theorem replaceFile_ok {source target : PurePath} {env env' : DiskEnv}
    (h : (replaceFile source target).run env = (.ok (), env')) :
    env'.now = env.now ∧ ∃ p q, resolve env.disk source = .ok p ∧
      resolve env.disk target = .ok q ∧ env.disk.rename p q = some env'.disk := by
  obtain ⟨hact, hnow⟩ := DiskM.operation_ok h
  exact ⟨hnow, movePath_ok hact⟩

/-- Unlinking, errors ignored: the disk is as before or without the file. -/
theorem ignoreOsError_unlink_ok {p : PurePath} {env env' : DiskEnv}
    (h : (DiskM.ignoreOsError (unlink p)).run env = (.ok (), env')) :
    env'.now = env.now ∧ (env'.disk = env.disk ∨
      ∃ q, resolve env.disk p = .ok q ∧ env.disk.remove q = some env'.disk) := by
  rw [DiskM.ignoreOsError_disk h]
  obtain ⟨hnow, hdisk | hact⟩ := DiskM.operation_disk (fun _ => removePath p) env
  · exact ⟨hnow, Or.inl hdisk⟩
  · exact ⟨hnow, Or.inr (removePath_ok hact)⟩

theorem makeDirs_ok {dir : Path} {env env' : DiskEnv}
    (h : (makeDirs dir).run env = (.ok (), env')) :
    env'.now = env.now ∧ env.disk.mkdirs [] dir = some env'.disk := by
  obtain ⟨hact, hnow⟩ := DiskM.operation_ok h
  refine ⟨hnow, ?_⟩
  split at hact
  · rename_i d' hd'; rw [hd']; simpa using hact
  · simp at hact

end TrustModelEdge.Py
