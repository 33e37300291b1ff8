/-
TrustModelEdge.Lib.Tally — counters by key.

A tally is a finite map to numbers, and counting a key once more is its only
operation. What it stands for is the list of the keys that were counted: `count`
is the multiplicity there (`count_incAll`), and the keys of the tally are those of
the list, each once, so that a bound on the distinct keys bounds the tally
(`length_keys_le`).
-/
import Mathlib.Data.List.AList
import Mathlib.Data.List.Dedup

namespace TrustModelEdge.Lib

theorem countP_cons_toNat {α : Type} (p : α → Bool) (a : α) (as : List α) :
    (a :: as).countP p = (p a).toNat + as.countP p := by
  rw [List.countP_cons, Nat.add_comm]
  cases p a <;> rfl

abbrev Tally (κ : Type*) := AList (fun _ : κ => Nat)

namespace Tally

variable {κ : Type*} [DecidableEq κ]

def count (t : Tally κ) (k : κ) : Nat := (t.lookup k).getD 0

/-- Count the key once more; a new key begins at zero. -/
def inc (t : Tally κ) (k : κ) : Tally κ := t.insert k (t.count k + 1)

def incAll (t : Tally κ) (ks : List κ) : Tally κ := ks.foldl inc t

@[simp] theorem count_empty (k : κ) : count (∅ : Tally κ) k = 0 := rfl

theorem count_inc (t : Tally κ) (k j : κ) :
    (t.inc k).count j = t.count j + if k = j then 1 else 0 := by
  unfold inc
  by_cases h : k = j
  · subst h
    simp [count, AList.lookup_insert]
  · simp [count, AList.lookup_insert_ne (Ne.symm h), h]

theorem count_incAll [BEq κ] [LawfulBEq κ] (t : Tally κ) (ks : List κ) (j : κ) :
    (t.incAll ks).count j = t.count j + ks.count j := by
  induction ks generalizing t with
  | nil => simp [incAll]
  | cons k ks ih =>
    have hstep : t.incAll (k :: ks) = (t.inc k).incAll ks := rfl
    rw [hstep, ih, count_inc, List.count_cons]
    simp only [beq_iff_eq]
    omega

theorem mem_incAll {t : Tally κ} {ks : List κ} {j : κ} : j ∈ t.incAll ks ↔ j ∈ t ∨ j ∈ ks := by
  induction ks generalizing t with
  | nil => simp [incAll]
  | cons k ks ih =>
    have hstep : t.incAll (k :: ks) = (t.inc k).incAll ks := rfl
    rw [hstep, ih, inc, AList.mem_insert, List.mem_cons]
    tauto

/-- A tally whose keys are among these has at most as many as are distinct. -/
theorem length_keys_le {t : Tally κ} {ks : List κ} (h : ∀ k ∈ t, k ∈ ks) :
    t.keys.length ≤ ks.dedup.length := by
  refine (List.subperm_of_subset t.keys_nodup fun k hk => ?_).length_le
  exact List.mem_dedup.mpr (h k (AList.mem_keys.mpr hk))

end Tally

end TrustModelEdge.Lib
