/-
TrustModelEdge.Lib.FileTree — a tree of directories and files.

A tree maps a path, the list of its components, to a directory or a file;
the root `[]` is a directory and is not stored. That every entry lies in a
directory is a field of the structure, so an operation that would break it
has no result: each returns `none` where the system call fails, and the
tree it returns is again one.

The rules are frame rules: what an operation does at its own path, and
that it leaves every other path as it was.
-/
import Mathlib.Data.List.AList

namespace TrustModelEdge.Lib

inductive Node (β : Type) where
  | dir
  | file (content : β)

variable {κ β : Type} [DecidableEq κ]

/-- A stored directory, or the root. -/
def IsDirIn (nodes : AList (fun _ : List κ => Node β)) (p : List κ) : Prop :=
  p = [] ∨ nodes.lookup p = some .dir

instance (nodes : AList (fun _ : List κ => Node β)) (p : List κ) :
    Decidable (IsDirIn nodes p) :=
  match hp : nodes.lookup p with
  | some .dir => isTrue (Or.inr hp)
  | some (.file _) => decidable_of_iff (p = []) ⟨Or.inl, fun h => h.resolve_right (by simp [hp])⟩
  | none => decidable_of_iff (p = []) ⟨Or.inl, fun h => h.resolve_right (by simp [hp])⟩

/-- Directories and files, every entry in a directory. -/
structure FileTree (κ β : Type) [DecidableEq κ] where
  nodes : AList (fun _ : List κ => Node β)
  closed : ∀ p k, p ++ [k] ∈ nodes → IsDirIn nodes p

namespace FileTree

variable (t : FileTree κ β)

def empty : FileTree κ β where
  nodes := ∅
  closed := by intro p k h; simp at h

/-- The node at a path; the root reads as a directory. -/
def lookup (p : List κ) : Option (Node β) := if p = [] then some .dir else t.nodes.lookup p

def isDir (p : List κ) : Bool := IsDirIn t.nodes p

theorem isDir_iff {p : List κ} : t.isDir p = true ↔ t.lookup p = some .dir := by
  unfold isDir lookup
  rw [decide_eq_true_iff]
  by_cases hp : p = [] <;> simp [IsDirIn, hp]

/-- Every entry lies in a directory. -/
theorem isDir_of_child {p : List κ} {k : κ} {node : Node β}
    (h : t.lookup (p ++ [k]) = some node) : t.isDir p = true := by
  unfold lookup at h
  rw [if_neg (by simp)] at h
  have hmem : p ++ [k] ∈ t.nodes := AList.lookup_isSome.mp (by rw [h]; rfl)
  exact decide_eq_true (t.closed p k hmem)

/-- The names in a directory. -/
def children (p : List κ) : List κ :=
  t.nodes.keys.filterMap (fun q => if q.dropLast = p then q.getLast? else none)

/-- Create or overwrite a file. -/
def write (p : List κ) (content : β) : Option (FileTree κ β) :=
  if h : p ≠ [] ∧ IsDirIn t.nodes p.dropLast ∧ ¬ IsDirIn t.nodes p then
    some
      { nodes := t.nodes.insert p (.file content)
        closed := by
          obtain ⟨hne, hpar, hnd⟩ := h
          intro q k hq
          have hkeep : IsDirIn t.nodes q → IsDirIn (t.nodes.insert p (.file content)) q := by
            intro hd
            have hqp : q ≠ p := fun he => hnd (he ▸ hd)
            rcases hd with hd | hd
            · exact Or.inl hd
            · exact Or.inr (by rw [AList.lookup_insert_ne hqp, hd])
          rcases AList.mem_insert _ |>.mp hq with he | hq
          · rw [← he, List.dropLast_concat] at hpar
            exact hkeep hpar
          · exact hkeep (t.closed q k hq) }
  else none

/-- Delete a file. -/
def remove (p : List κ) : Option (FileTree κ β) :=
  if h : p ≠ [] ∧ p ∈ t.nodes ∧ ¬ IsDirIn t.nodes p then
    some
      { nodes := t.nodes.erase p
        closed := by
          obtain ⟨_, _, hnd⟩ := h
          intro q k hq
          have hd := t.closed q k (AList.mem_erase.mp hq).2
          have hqp : q ≠ p := fun he => hnd (he ▸ hd)
          rcases hd with hd | hd
          · exact Or.inl hd
          · exact Or.inr (by rw [AList.lookup_erase_ne hqp, hd]) }
  else none

/-- Move a file onto a path, over a file that may be there. -/
def rename (p q : List κ) : Option (FileTree κ β) :=
  match t.lookup p with
  | some (.file content) =>
      if p = q then some t
      else (t.remove p).bind (fun t' => t'.write q content)
  | _ => none

/-- Create one directory, or find it there. -/
def mkdir (p : List κ) : Option (FileTree κ β) :=
  if t.isDir p then some t
  else if h : p ≠ [] ∧ IsDirIn t.nodes p.dropLast ∧ p ∉ t.nodes then
    some
      { nodes := t.nodes.insert p .dir
        closed := by
          obtain ⟨_, hpar, hnew⟩ := h
          intro q k hq
          have hkeep : IsDirIn t.nodes q → IsDirIn (t.nodes.insert p .dir) q := by
            intro hd
            rcases hd with hd | hd
            · exact Or.inl hd
            · by_cases hqp : q = p
              · exact Or.inr (by rw [hqp, AList.lookup_insert])
              · exact Or.inr (by rw [AList.lookup_insert_ne hqp, hd])
          rcases AList.mem_insert _ |>.mp hq with he | hq
          · rw [← he, List.dropLast_concat] at hpar
            exact hkeep hpar
          · exact hkeep (t.closed q k hq) }
  else none

/-- Create every missing directory of a path, below `p`. -/
def mkdirs : FileTree κ β → List κ → List κ → Option (FileTree κ β)
  | t, _, [] => some t
  | t, p, k :: ks => (t.mkdir (p ++ [k])).bind (fun t' => t'.mkdirs (p ++ [k]) ks)

variable {t}

/-! ## Frame rules -/

/-- An entry that is put in, over one that may be there. -/
theorem lookup_of_insert {t' : FileTree κ β} {p : List κ} {node : Node β} (hp : p ≠ [])
    (h : t'.nodes = t.nodes.insert p node) (q : List κ) :
    t'.lookup q = if q = p then some node else t.lookup q := by
  unfold lookup
  rw [h]
  by_cases hqp : q = p
  · rw [if_pos hqp, hqp, if_neg hp, AList.lookup_insert]
  · rw [if_neg hqp, AList.lookup_insert_ne hqp]

theorem lookup_write {t' : FileTree κ β} {p : List κ} {c : β} (h : t.write p c = some t')
    (q : List κ) : t'.lookup q = if q = p then some (.file c) else t.lookup q := by
  unfold write at h
  split at h
  · rename_i hp
    obtain rfl := Option.some.inj h
    exact lookup_of_insert hp.1 rfl q
  · simp at h

theorem lookup_remove {t' : FileTree κ β} {p : List κ} (h : t.remove p = some t')
    (q : List κ) : t'.lookup q = if q = p then none else t.lookup q := by
  unfold remove at h
  split at h
  · rename_i hp
    obtain rfl := Option.some.inj h
    unfold lookup
    by_cases hqp : q = p
    · rw [if_pos hqp, hqp, if_neg hp.1, AList.lookup_erase]
    · rw [if_neg hqp, AList.lookup_erase_ne hqp]
  · simp at h

theorem mem_of_lookup {p : List κ} {node : Node β} (hne : p ≠ []) (h : t.lookup p = some node) :
    p ∈ t.nodes := by
  rw [lookup, if_neg hne] at h
  exact AList.lookup_isSome.mp (by rw [h]; rfl)

/-- A file can be deleted. -/
theorem exists_remove {p : List κ} {c : β} (h : t.lookup p = some (.file c)) :
    ∃ t', t.remove p = some t' := by
  have hne : p ≠ [] := by
    rintro rfl
    simp [lookup] at h
  have hfile : ¬ IsDirIn t.nodes p := by
    intro hd
    rw [(t.isDir_iff).mp (decide_eq_true hd)] at h
    cases h
  exact ⟨_, dif_pos ⟨hne, mem_of_lookup hne h, hfile⟩⟩

/-- A file can be written below a directory, where no directory is in its
place. -/
theorem exists_write {p : List κ} {k : κ} {c : β} (hdir : t.isDir p = true)
    (hfree : t.isDir (p ++ [k]) = false) : ∃ t', t.write (p ++ [k]) c = some t' := by
  have hpar : IsDirIn t.nodes (p ++ [k]).dropLast := by
    rw [List.dropLast_concat]
    exact of_decide_eq_true hdir
  exact ⟨_, dif_pos ⟨by simp, hpar, of_decide_eq_false hfree⟩⟩

theorem mem_children {p : List κ} {k : κ} {node : Node β}
    (h : t.lookup (p ++ [k]) = some node) : k ∈ t.children p := by
  have hmem := mem_of_lookup (by simp) h
  exact List.mem_filterMap.mpr ⟨p ++ [k], hmem, by simp⟩

theorem exists_of_mem_children {p : List κ} {k : κ} (h : k ∈ t.children p) :
    ∃ node, t.lookup (p ++ [k]) = some node := by
  obtain ⟨q, hq, hk⟩ := List.mem_filterMap.mp h
  split at hk
  · rename_i hp
    obtain rfl : q = p ++ [k] := by
      rw [← hp]
      exact (List.dropLast_append_getLast? k hk).symm
    refine Option.isSome_iff_exists.mp ?_
    rw [lookup, if_neg (by simp)]
    exact AList.lookup_isSome.mpr hq
  · cases hk

/-- A move takes the file to its new path and leaves the rest. -/
theorem lookup_rename {t' : FileTree κ β} {p q : List κ} (h : t.rename p q = some t') :
    ∃ c, t.lookup p = some (.file c) ∧ ∀ r, t'.lookup r =
      if r = q then some (.file c) else if r = p then none else t.lookup r := by
  unfold rename at h
  cases hp : t.lookup p with
  | none => rw [hp] at h; simp at h
  | some n =>
    cases n with
    | dir => rw [hp] at h; simp at h
    | file c =>
      rw [hp] at h
      refine ⟨c, rfl, ?_⟩
      intro r
      by_cases hpq : p = q
      · simp only [if_pos hpq] at h
        obtain rfl := Option.some.inj h
        by_cases hr : r = q
        · rw [if_pos hr, hr, ← hpq, hp]
        · rw [if_neg hr, if_neg (by rwa [hpq])]
      · simp only [if_neg hpq] at h
        obtain ⟨t₁, h₁, h₂⟩ := Option.bind_eq_some_iff.mp h
        rw [lookup_write h₂, lookup_remove h₁]

theorem lookup_mkdir {t' : FileTree κ β} {p : List κ} (h : t.mkdir p = some t') (q : List κ) :
    t'.lookup q = if q = p then some .dir else t.lookup q := by
  unfold mkdir at h
  split at h
  · rename_i hd
    obtain rfl := Option.some.inj h
    by_cases hqp : q = p
    · rw [if_pos hqp, hqp, (t.isDir_iff).mp hd]
    · rw [if_neg hqp]
  · split at h
    · rename_i hp
      obtain rfl := Option.some.inj h
      exact lookup_of_insert hp.1 rfl q
    · simp at h

/-- Creating a directory path changes nothing but that path. -/
theorem lookup_mkdirs {ks : List κ} : ∀ {t t' : FileTree κ β} {p : List κ},
    t.mkdirs p ks = some t' → ∀ q, ¬ q <+: p ++ ks → t'.lookup q = t.lookup q := by
  induction ks with
  | nil => intro t t' p h q _; obtain rfl := Option.some.inj h; rfl
  | cons k ks ih =>
    intro t t' p h q hq
    obtain ⟨t₁, h₁, h₂⟩ := Option.bind_eq_some_iff.mp h
    have hne : q ≠ p ++ [k] := by
      intro he
      apply hq
      rw [he]
      exact ⟨ks, by simp⟩
    have hq' : ¬ q <+: (p ++ [k]) ++ ks := by simpa using hq
    rw [ih h₂ q hq', lookup_mkdir h₁, if_neg hne]

theorem isDir_mkdirs {ks : List κ} : ∀ {t t' : FileTree κ β} {p : List κ},
    t.isDir p = true → t.mkdirs p ks = some t' → t'.isDir (p ++ ks) = true := by
  induction ks with
  | nil =>
    intro t t' p hp h
    obtain rfl := Option.some.inj h
    rwa [List.append_nil]
  | cons k ks ih =>
    intro t t' p hp h
    obtain ⟨t₁, h₁, h₂⟩ := Option.bind_eq_some_iff.mp h
    have hk : t₁.isDir (p ++ [k]) = true := by
      rw [isDir_iff, lookup_mkdir h₁, if_pos rfl]
    have := ih hk h₂
    rwa [List.append_assoc] at this

theorem isDir_root (t : FileTree κ β) : t.isDir [] = true := by
  rw [isDir_iff]; rfl

/-- What lies above a directory is a directory. -/
theorem isDir_of_append {ks : List κ} : ∀ {p : List κ},
    t.isDir (p ++ ks) = true → t.isDir p = true := by
  induction ks with
  | nil =>
    intro p h
    rwa [List.append_nil] at h
  | cons k ks ih =>
    intro p h
    rw [← List.singleton_append, ← List.append_assoc] at h
    exact isDir_of_child t ((isDir_iff t).mp (ih h))

/-- Nothing has to be created where the directories are. -/
theorem mkdirs_self {ks : List κ} : ∀ {p : List κ},
    t.isDir (p ++ ks) = true → t.mkdirs p ks = some t := by
  induction ks with
  | nil => exact fun _ => rfl
  | cons k ks ih =>
    intro p h
    rw [← List.singleton_append, ← List.append_assoc] at h
    have hk : t.mkdir (p ++ [k]) = some t := by
      rw [mkdir, if_pos (isDir_of_append h)]
    rw [mkdirs, hk]
    exact ih h

/-! ## Files apart from directories -/

/-- The content of the file at a path. -/
def file? (t : FileTree κ β) (p : List κ) : Option β :=
  match t.lookup p with
  | some (.file c) => some c
  | _ => none

/-- A path where a file can be put: in a directory, and no directory itself. -/
def Place (t : FileTree κ β) (p : List κ) : Prop :=
  t.isDir p.dropLast = true ∧ t.isDir p = false

/-- Both trees have the same directories. -/
def SameDirs (t t' : FileTree κ β) : Prop := ∀ p, t'.isDir p = t.isDir p

/-- Both trees have the same entries in the same order, and the same directories. -/
structure Alike (t t' : FileTree κ β) : Prop where
  keys : t'.nodes.keys = t.nodes.keys
  dirs : SameDirs t t'

/-- Both trees have the same files at the paths outside a set. -/
def KeptOutside (Own : List κ → Prop) (t t' : FileTree κ β) : Prop :=
  ∀ p, ¬ Own p → t'.file? p = t.file? p

section Files

variable {t' t'' : FileTree κ β} {p q : List κ} {c : β} {Own : List κ → Prop}

theorem SameDirs.refl (t : FileTree κ β) : SameDirs t t := fun _ => rfl

theorem SameDirs.trans (h : SameDirs t t') (h' : SameDirs t' t'') : SameDirs t t'' :=
  fun p => (h' p).trans (h p)

theorem SameDirs.place (h : SameDirs t t') : t'.Place p ↔ t.Place p := by
  rw [Place, Place, h, h]

theorem KeptOutside.refl (t : FileTree κ β) : KeptOutside Own t t := fun _ _ => rfl

theorem KeptOutside.trans (h : KeptOutside Own t t') (h' : KeptOutside Own t' t'') :
    KeptOutside Own t t'' :=
  fun p hp => (h' p hp).trans (h p hp)

theorem file?_of_lookup (h : t.lookup p = some (.file c)) : t.file? p = some c := by
  simp [file?, h]

theorem file?_congr (h : t'.lookup p = t.lookup p) : t'.file? p = t.file? p := by
  simp [file?, h]

theorem file?_remove (h : t.remove p = some t') (r : List κ) :
    t'.file? r = if r = p then none else t.file? r := by
  by_cases hr : r = p
  · rw [if_pos hr, file?, lookup_remove h, if_pos hr]
  · rw [if_neg hr]
    exact file?_congr (by rw [lookup_remove h, if_neg hr])

/-- A file lies at a place for one. -/
theorem place_of_lookup (h : t.lookup p = some (.file c)) : t.Place p := by
  have hne : p ≠ [] := by
    rintro rfl
    simp [lookup] at h
  refine ⟨?_, ?_⟩
  · rw [← List.dropLast_concat_getLast hne] at h
    exact t.isDir_of_child h
  · rw [Bool.eq_false_iff, ne_eq, isDir_iff, h]
    simp

theorem write_iff_place : (∃ t', t.write p c = some t') ↔ t.Place p := by
  have hplace : t.Place p ↔ p ≠ [] ∧ IsDirIn t.nodes p.dropLast ∧ ¬ IsDirIn t.nodes p := by
    simp only [Place, isDir, decide_eq_true_eq, decide_eq_false_iff_not]
    exact ⟨fun h => ⟨fun he => h.2 (Or.inl he), h⟩, fun h => h.2⟩
  rw [hplace, write]
  split
  · rename_i h
    exact iff_of_true ⟨_, rfl⟩ h
  · rename_i h
    exact iff_of_false (by simp) h

theorem sameDirs_write (h : t.write p c = some t') : SameDirs t t' := by
  intro q
  rw [Bool.eq_iff_iff, isDir_iff, isDir_iff, lookup_write h]
  split
  · rename_i hq
    have hplace := write_iff_place.mp ⟨t', h⟩
    rw [hq, ← isDir_iff, hplace.2]
    simp
  · rfl

/-- What is removed is a file. -/
theorem place_of_remove (h : t.remove p = some t') : t.Place p := by
  unfold remove at h
  split at h
  · rename_i hp
    obtain ⟨hne, hmem, hnd⟩ := hp
    refine ⟨?_, decide_eq_false hnd⟩
    rw [← List.dropLast_concat_getLast hne] at hmem
    exact decide_eq_true (t.closed _ _ hmem)
  · cases h

theorem sameDirs_remove (h : t.remove p = some t') : SameDirs t t' := by
  intro q
  rw [Bool.eq_iff_iff, isDir_iff, isDir_iff, lookup_remove h]
  split
  · rename_i hq
    rw [hq, ← isDir_iff, (place_of_remove h).2]
    simp
  · rfl

theorem rename_iff_place (h : t.lookup p = some (.file c)) :
    (∃ t', t.rename p q = some t') ↔ t.Place q := by
  simp only [rename, h]
  split
  · rename_i hpq
    exact iff_of_true ⟨_, rfl⟩ (hpq ▸ place_of_lookup h)
  · obtain ⟨t₁, h₁⟩ := exists_remove h
    rw [h₁, Option.bind_some, write_iff_place, (sameDirs_remove h₁).place]

theorem sameDirs_rename (h : t.rename p q = some t') : SameDirs t t' := by
  obtain ⟨c, hc, -⟩ := lookup_rename h
  simp only [rename, hc] at h
  split at h
  · obtain rfl := Option.some.inj h
    exact SameDirs.refl t
  · obtain ⟨t₁, h₁, h₂⟩ := Option.bind_eq_some_iff.mp h
    exact (sameDirs_remove h₁).trans (sameDirs_write h₂)

/-! Trees that are alike stay alike when both are changed in one way. -/

theorem Alike.refl (t : FileTree κ β) : Alike t t := ⟨rfl, .refl t⟩

theorem Alike.children (h : Alike t t') (p : List κ) : t'.children p = t.children p := by
  simp only [FileTree.children, h.keys]

/-- A file has a file in its place. -/
theorem Alike.file (h : Alike t t') (hp : t.lookup p = some (.file c)) :
    ∃ c', t'.lookup p = some (.file c') := by
  have hne : p ≠ [] := by
    rintro rfl
    simp [lookup] at hp
  have hmem : p ∈ t'.nodes := by
    rw [AList.mem_keys, h.keys]
    exact mem_of_lookup hne hp
  obtain ⟨node, hnode⟩ := Option.isSome_iff_exists.mp (AList.lookup_isSome.mpr hmem)
  have hlook : t'.lookup p = some node := by rw [lookup, if_neg hne, hnode]
  cases node with
  | file c' => exact ⟨c', hlook⟩
  | dir =>
    have hdir := (h.dirs p).symm.trans ((isDir_iff _).mpr hlook)
    rw [isDir_iff, hp] at hdir
    cases hdir

theorem nodes_write (h : t.write p c = some t') : t'.nodes = t.nodes.insert p (.file c) := by
  unfold write at h
  split at h
  · exact (congrArg nodes (Option.some.inj h)).symm
  · cases h

theorem nodes_remove (h : t.remove p = some t') : t'.nodes = t.nodes.erase p := by
  unfold remove at h
  split at h
  · exact (congrArg nodes (Option.some.inj h)).symm
  · cases h

theorem Alike.write {s s' : FileTree κ β} {c' : β} (h : Alike t s) (ht : t.write p c = some t')
    (hs : s.write p c' = some s') : Alike t' s' where
  keys := by rw [nodes_write ht, nodes_write hs, AList.keys_insert, AList.keys_insert, h.keys]
  dirs := fun q => by rw [sameDirs_write hs, h.dirs, sameDirs_write ht]

theorem Alike.remove {s s' : FileTree κ β} (h : Alike t s) (ht : t.remove p = some t')
    (hs : s.remove p = some s') : Alike t' s' where
  keys := by rw [nodes_remove ht, nodes_remove hs, AList.keys_erase, AList.keys_erase, h.keys]
  dirs := fun q => by rw [sameDirs_remove hs, h.dirs, sameDirs_remove ht]

theorem Alike.rename {s s' : FileTree κ β} (h : Alike t s) (ht : t.rename p q = some t')
    (hs : s.rename p q = some s') : Alike t' s' := by
  obtain ⟨c, hc, -⟩ := lookup_rename ht
  obtain ⟨c', hc', -⟩ := lookup_rename hs
  simp only [FileTree.rename, hc] at ht
  simp only [FileTree.rename, hc'] at hs
  by_cases hpq : p = q
  · rw [if_pos hpq] at ht hs
    rwa [← Option.some.inj ht, ← Option.some.inj hs]
  · rw [if_neg hpq] at ht hs
    obtain ⟨t₁, ht₁, ht₂⟩ := Option.bind_eq_some_iff.mp ht
    obtain ⟨s₁, hs₁, hs₂⟩ := Option.bind_eq_some_iff.mp hs
    exact (h.remove ht₁ hs₁).write ht₂ hs₂

omit [DecidableEq κ] in
theorem ne_of_outside {r : List κ} (hr : ¬ Own r) (hp : Own p) : r ≠ p := by
  rintro rfl
  exact hr hp

theorem keptOutside_write (hp : Own p) (h : t.write p c = some t') : KeptOutside Own t t' := by
  intro r hr
  refine file?_congr ?_
  rw [lookup_write h, if_neg (ne_of_outside hr hp)]

theorem keptOutside_remove (hp : Own p) (h : t.remove p = some t') : KeptOutside Own t t' := by
  intro r hr
  refine file?_congr ?_
  rw [lookup_remove h, if_neg (ne_of_outside hr hp)]

theorem keptOutside_rename (hp : Own p) (hq : Own q) (h : t.rename p q = some t') :
    KeptOutside Own t t' := by
  obtain ⟨c, -, hlook⟩ := lookup_rename h
  intro r hr
  refine file?_congr ?_
  rw [hlook, if_neg (ne_of_outside hr hq), if_neg (ne_of_outside hr hp)]

/-- Creating directories changes no file. -/
theorem keptOutside_mkdir (h : t.mkdir p = some t') : KeptOutside Own t t' := by
  intro r _
  have hlook := lookup_mkdir h r
  by_cases hr : r = p
  · have hnone : t.file? p = none := by
      unfold mkdir at h
      split at h
      · rename_i hd
        simp [file?, (t.isDir_iff).mp hd]
      · split at h
        · rename_i hnew
          rw [file?, lookup, if_neg hnew.1, AList.lookup_eq_none.mpr hnew.2.2]
        · cases h
    rw [if_pos hr] at hlook
    rw [hr, hnone, file?, ← hr, hlook]
  · exact file?_congr (hlook.trans (if_neg hr))

theorem keptOutside_mkdirs {ks : List κ} (h : t.mkdirs p ks = some t') : KeptOutside Own t t' := by
  induction ks generalizing t p with
  | nil =>
    obtain rfl := Option.some.inj h
    exact KeptOutside.refl t
  | cons k ks ih =>
    obtain ⟨t₁, h₁, h₂⟩ := Option.bind_eq_some_iff.mp h
    exact (keptOutside_mkdir h₁).trans (ih h₂)

end Files

/-! ## What holds of every file -/

/-- Every file of the tree has the property, wherever it lies. -/
def EveryFile (F : β → Prop) (t : FileTree κ β) : Prop :=
  ∀ p c, t.lookup p = some (.file c) → F c

namespace EveryFile

variable {F : β → Prop} {t' : FileTree κ β} {p q : List κ}

theorem write {c : β} (ht : EveryFile F t) (hc : F c) (h : t.write p c = some t') :
    EveryFile F t' := by
  intro r body hr
  rw [lookup_write h] at hr
  split at hr
  · obtain rfl : c = body := by simpa using hr
    exact hc
  · exact ht r body hr

theorem remove (ht : EveryFile F t) (h : t.remove p = some t') : EveryFile F t' := by
  intro r body hr
  rw [lookup_remove h] at hr
  split at hr
  · cases hr
  · exact ht r body hr

theorem rename (ht : EveryFile F t) (h : t.rename p q = some t') : EveryFile F t' := by
  obtain ⟨c, hc, hlook⟩ := lookup_rename h
  intro r body hr
  rw [hlook] at hr
  split at hr
  · obtain rfl : c = body := by simpa using hr
    exact ht p c hc
  · split at hr
    · cases hr
    · exact ht r body hr

theorem mkdirs (ht : EveryFile F t) {ks : List κ} (h : t.mkdirs p ks = some t') :
    EveryFile F t' := by
  induction ks generalizing t p with
  | nil =>
    obtain rfl := Option.some.inj h
    exact ht
  | cons k ks ih =>
    obtain ⟨t₁, h₁, h₂⟩ := Option.bind_eq_some_iff.mp h
    refine ih ?_ h₂
    intro r body hr
    rw [lookup_mkdir h₁] at hr
    split at hr
    · cases hr
    · exact ht r body hr

end EveryFile

end FileTree

end TrustModelEdge.Lib
