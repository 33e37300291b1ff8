/-
TrustModelEdge.Lib.LastWins — filling a map from a list, where a later
element replaces an earlier one of its key.

`lastWith` is the declarative side: the last element of a list with a
given key. A left fold of insertions looks up exactly that element.
-/
import Mathlib.Data.List.AList
import Mathlib.Data.List.Dedup

namespace TrustModelEdge.Lib

variable {α β κ : Type} [DecidableEq κ]

/-- The last element with key `k`. -/
def lastWith (key : α → κ) (k : κ) (l : List α) : Option α :=
  l.reverse.find? (fun a => decide (key a = k))

theorem lastWith_cons (key : α → κ) (k : κ) (a : α) (l : List α) :
    lastWith key k (a :: l) = (lastWith key k l).or (if key a = k then some a else none) := by
  unfold lastWith
  rw [List.reverse_cons, List.find?_append]
  by_cases h : key a = k <;> simp [h]

theorem lastWith_append (key : α → κ) (k : κ) (l l' : List α) :
    lastWith key k (l ++ l') = (lastWith key k l').or (lastWith key k l) := by
  unfold lastWith
  rw [List.reverse_append, List.find?_append]

theorem lastWith_map (key : β → κ) (f : α → β) (k : κ) (l : List α) :
    lastWith key k (l.map f) = (lastWith (fun a => key (f a)) k l).map f := by
  unfold lastWith
  rw [← List.map_reverse, List.find?_map]
  rfl

theorem lastWith_eq_some {key : α → κ} {k : κ} {l : List α} {a : α}
    (h : lastWith key k l = some a) : a ∈ l ∧ key a = k := by
  refine ⟨List.mem_reverse.mp (List.mem_of_find?_eq_some h), ?_⟩
  simpa using List.find?_some h

theorem lastWith_eq_none {key : α → κ} {k : κ} {l : List α} :
    lastWith key k l = none ↔ ∀ a ∈ l, key a ≠ k := by
  simp [lastWith]

/-- A key that occurs has a last element. -/
theorem exists_lastWith (key : α → κ) {l : List α} {a : α} (h : a ∈ l) :
    ∃ b, lastWith key (key a) l = some b := by
  cases hb : lastWith key (key a) l with
  | none => exact absurd rfl (lastWith_eq_none.mp hb a h)
  | some b => exact ⟨b, rfl⟩

/-- The last element of the whole list is the last of its key. -/
theorem lastWith_getLast? (key : α → κ) {l : List α} {a : α} (h : l.getLast? = some a) :
    lastWith key (key a) l = some a := by
  obtain ⟨init, rfl⟩ : ∃ init, l = init ++ [a] := List.getLast?_eq_some_iff.mp h
  simp [lastWith]

/-- The last element of a coarser key is the last of its own. -/
theorem lastWith_of_coarser {μ : Type} [DecidableEq μ] {key : α → κ} {f : κ → μ} {l : List α}
    {a : α} (h : lastWith (fun b => f (key b)) (f (key a)) l = some a) :
    lastWith key (key a) l = some a := by
  induction l with
  | nil => simp [lastWith] at h
  | cons b l ih =>
    rw [lastWith_cons] at h ⊢
    cases hl : lastWith (fun b => f (key b)) (f (key a)) l with
    | some c =>
      rw [hl, Option.some_or] at h
      rw [ih (hl.trans h), Option.some_or]
    | none =>
      rw [hl, Option.none_or] at h
      have hnone : lastWith key (key a) l = none :=
        lastWith_eq_none.mpr fun c hc he => lastWith_eq_none.mp hl c hc (congrArg f he)
      split at h
      · obtain rfl := Option.some.inj h
        rw [hnone, Option.none_or, if_pos rfl]
      · cases h

/-- **A fold of insertions** looks up the last element of each key. -/
theorem lookup_foldl_insert (key : α → κ) (k : κ) (l : List α) :
    ∀ m : AList (fun _ : κ => α),
      (l.foldl (fun m a => m.insert (key a) a) m).lookup k =
        (lastWith key k l).or (m.lookup k) := by
  induction l with
  | nil => intro m; rfl
  | cons a l ih =>
    intro m
    rw [List.foldl_cons, ih, lastWith_cons]
    by_cases h : key a = k
    · subst h
      rw [AList.lookup_insert]
      cases lastWith key (key a) l <;> simp
    · rw [AList.lookup_insert_ne (Ne.symm h)]
      cases lastWith key k l <;> simp [h]

theorem mem_foldl_insert (key : α → κ) (k : κ) (l : List α) :
    k ∈ l.foldl (fun m a => m.insert (key a) a) (∅ : AList (fun _ : κ => α)) ↔
      ∃ a ∈ l, key a = k := by
  rw [← AList.lookup_isSome, lookup_foldl_insert]
  cases h : lastWith key k l with
  | none =>
    have hno := lastWith_eq_none.mp h
    simp only [AList.lookup_empty, Option.or_none, Option.isSome_none, Bool.false_eq_true,
      false_iff, not_exists, not_and]
    exact hno
  | some a => simpa using ⟨a, (lastWith_eq_some h).1, (lastWith_eq_some h).2⟩

/-- The fold has as many keys as the list has different ones. -/
theorem length_foldl_insert (key : α → κ) (l : List α) :
    (l.foldl (fun m a => m.insert (key a) a) (∅ : AList (fun _ : κ => α))).entries.length =
      (l.map key).dedup.length := by
  have hperm : (l.foldl (fun m a => m.insert (key a) a) (∅ : AList (fun _ : κ => α))).keys.Perm
      (l.map key).dedup := by
    refine (List.perm_ext_iff_of_nodup (AList.keys_nodup _) (List.nodup_dedup _)).mpr fun k => ?_
    rw [List.mem_dedup, List.mem_map, ← AList.mem_keys]
    exact mem_foldl_insert key k l
  rw [← hperm.length_eq]
  exact (List.length_map _).symm

/-- Where no key occurs twice, each element is the last of its key. -/
theorem lastWith_of_nodup {key : α → κ} {l : List α} (h : (l.map key).Nodup) {a : α}
    (ha : a ∈ l) : lastWith key (key a) l = some a := by
  obtain ⟨b, hb⟩ := exists_lastWith key ha
  obtain ⟨hmem, hkey⟩ := lastWith_eq_some hb
  rw [hb, List.inj_on_of_nodup_map h hmem ha hkey]

end TrustModelEdge.Lib
