/-
TrustModelEdge.Lib.SerialTable — a table with an auto-increment key.

Rows are kept in key order. The table remembers the largest key it ever
issued, so a key is never issued twice, deleted rows included. Both facts
are fields of the structure: a table that breaks them cannot be built,
and the operations carry the proofs along.
-/
import Mathlib.Data.List.Pairwise
import Mathlib.Data.List.TakeDrop

namespace TrustModelEdge.Lib

/-- Rows in key order, and the largest key issued so far. -/
structure SerialTable (α : Type*) where
  rows : List (Nat × α)
  seq : Nat
  sorted : rows.Pairwise (fun r s => r.1 < s.1)
  bounded : ∀ r ∈ rows, r.1 ≤ seq

namespace SerialTable

variable {α : Type*}

def empty : SerialTable α where
  rows := []
  seq := 0
  sorted := .nil
  bounded := by simp

/-- Append a row under the next key. -/
def insert (t : SerialTable α) (a : α) : SerialTable α where
  rows := t.rows ++ [(t.seq + 1, a)]
  seq := t.seq + 1
  sorted := by
    rw [List.pairwise_append]
    refine ⟨t.sorted, List.pairwise_singleton _ _, ?_⟩
    intro r hr s hs
    have := t.bounded r hr
    simp only [List.mem_singleton] at hs
    subst hs
    simp only; omega
  bounded := by
    intro r hr
    rcases List.mem_append.mp hr with h | h
    · have := t.bounded r h; omega
    · simp only [List.mem_singleton] at h
      subst h; exact Nat.le_refl _

/-- The first `limit` rows in key order; with a negative limit all rows. -/
def first (t : SerialTable α) (limit : Int) : List (Nat × α) :=
  if limit < 0 then t.rows else t.rows.take limit.toNat

/-- Delete the rows with the given keys. -/
def delete (t : SerialTable α) (ids : List Nat) : SerialTable α where
  rows := t.rows.filter (fun r => r.1 ∉ ids)
  seq := t.seq
  sorted := t.sorted.filter _
  bounded := fun r hr => t.bounded r (List.mem_filter.mp hr |>.1)

/-- Change the rows with the given keys, not their keys. -/
def update (t : SerialTable α) (ids : List Nat) (f : α → α) : SerialTable α where
  rows := t.rows.map (fun r => if r.1 ∈ ids then (r.1, f r.2) else r)
  seq := t.seq
  sorted := by
    rw [List.pairwise_map]
    refine t.sorted.imp ?_
    intro r s h
    by_cases hr : r.1 ∈ ids <;> by_cases hs : s.1 ∈ ids <;> simp [hr, hs, h]
  bounded := by
    intro r hr
    obtain ⟨s, hs, rfl⟩ := List.mem_map.mp hr
    have := t.bounded s hs
    by_cases h : s.1 ∈ ids <;> simp [h, this]

@[simp] theorem insert_rows (t : SerialTable α) (a : α) :
    (t.insert a).rows = t.rows ++ [(t.seq + 1, a)] := rfl

@[simp] theorem delete_nil (t : SerialTable α) : t.delete [] = t := by
  cases t
  simp [delete]

@[simp] theorem update_nil (t : SerialTable α) (f : α → α) : t.update [] f = t := by
  cases t
  simp [update]

@[simp] theorem length_update (t : SerialTable α) (ids : List Nat) (f : α → α) :
    (t.update ids f).rows.length = t.rows.length :=
  List.length_map _

theorem length_delete_le (t : SerialTable α) (ids : List Nat) :
    (t.delete ids).rows.length ≤ t.rows.length :=
  List.length_filter_le _ _

/-- The keys of an updated table are those of the table. -/
theorem key_of_mem_update {t : SerialTable α} {ids : List Nat} {f : α → α} {r : Nat × α}
    (h : r ∈ (t.update ids f).rows) : ∃ s ∈ t.rows, s.1 = r.1 := by
  obtain ⟨s, hs, rfl⟩ := List.mem_map.mp h
  refine ⟨s, hs, ?_⟩
  by_cases hk : s.1 ∈ ids <;> simp [hk]

/-- The first rows are a front part of the table. -/
theorem exists_first_append (t : SerialTable α) (limit : Int) :
    ∃ rest, t.rows = t.first limit ++ rest := by
  unfold first
  split
  · exact ⟨[], by simp⟩
  · exact ⟨t.rows.drop limit.toNat, (List.take_append_drop _ _).symm⟩

/-- In a list with increasing keys, dropping the keys of a front part leaves
exactly the rest. -/
theorem filter_front {β : Type*} {front rest : List (Nat × β)}
    (hs : (front ++ rest).Pairwise (fun r s => r.1 < s.1)) :
    (front ++ rest).filter (fun r => r.1 ∉ front.map Prod.fst) = rest := by
  rw [List.pairwise_append] at hs
  obtain ⟨-, -, hlt⟩ := hs
  rw [List.filter_append]
  have hfront : front.filter (fun r => r.1 ∉ front.map Prod.fst) = [] := by
    rw [List.filter_eq_nil_iff]
    intro r hr
    have : r.1 ∈ front.map Prod.fst := List.mem_map.mpr ⟨r, hr, rfl⟩
    simp [this]
  have hrest : rest.filter (fun r => r.1 ∉ front.map Prod.fst) = rest := by
    rw [List.filter_eq_self]
    intro r hr
    have : r.1 ∉ front.map Prod.fst := by
      intro hm
      obtain ⟨s, hs, he⟩ := List.mem_map.mp hm
      have := hlt s hs r hr
      omega
    simp [this]
  rw [hfront, hrest, List.nil_append]

/-- Deleting the keys of a front part leaves exactly the rest. -/
theorem delete_front {t : SerialTable α} {front rest : List (Nat × α)}
    (h : t.rows = front ++ rest) : (t.delete (front.map Prod.fst)).rows = rest := by
  have hs := t.sorted
  rw [h] at hs
  unfold delete
  simp only [h]
  exact filter_front hs

/-- An update that keeps an attribute of rows keeps the column of that
attribute. -/
theorem update_column {β : Type*} (t : SerialTable α) (ids : List Nat) {f : α → α} {col : α → β}
    (hf : ∀ a, col (f a) = col a) :
    (t.update ids f).rows.map (fun r => (r.1, col r.2)) = t.rows.map (fun r => (r.1, col r.2)) := by
  unfold update
  rw [List.map_map]
  apply List.map_congr_left
  intro r _
  by_cases h : r.1 ∈ ids <;> simp [h, hf]

end SerialTable

end TrustModelEdge.Lib
