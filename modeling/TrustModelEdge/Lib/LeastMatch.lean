/-
TrustModelEdge.Lib.LeastMatch — scanning a stably sorted list for its
first match, against the unsorted list.

`IsLeastMatch` is the declarative side: the element of a list that
matches and is least among all matches, by key and then by position.
`find?_insertionSort_iff` says the scan of the sorted list finds exactly
that element. Stability is what makes the position the tie break, and it
enters through `find?_orderedInsert`: an inserted element goes in front
of the elements of its own key.
-/
import Mathlib.Data.List.Sort
import Mathlib.Data.Prod.Lex

namespace TrustModelEdge.Lib

variable {α κ : Type*} [LinearOrder κ]

/-- `a`, at position `i`, matches, and no match has a smaller pair of key
and position. -/
def IsLeastMatch (key : α → κ) (p : α → Bool) (l : List α) (i : Nat) (a : α) : Prop :=
  l[i]? = some a ∧ p a = true ∧
    ∀ j b, l[j]? = some b → p b = true → toLex (key a, i) ≤ toLex (key b, j)

variable {key : α → κ} {p : α → Bool}

theorem IsLeastMatch.unique {l : List α} {i j : Nat} {a b : α}
    (ha : IsLeastMatch key p l i a) (hb : IsLeastMatch key p l j b) : i = j ∧ a = b := by
  obtain ⟨hai, hap, hal⟩ := ha
  obtain ⟨hbj, hbp, hbl⟩ := hb
  have he : toLex (key a, i) = toLex (key b, j) := le_antisymm (hal j b hbj hbp) (hbl i a hai hap)
  have hij : i = j := congrArg (fun x => (ofLex x).2) he
  subst hij
  exact ⟨rfl, Option.some.inj (hai.symm.trans hbj)⟩

/-- The head of a list is its least match when its key is minimal. -/
theorem isLeastMatch_cons_zero {l : List α} {x a : α} :
    IsLeastMatch key p (x :: l) 0 a ↔
      a = x ∧ p x = true ∧ ∀ b ∈ l, p b = true → key x ≤ key b := by
  constructor
  · rintro ⟨h0, hp, hl⟩
    obtain rfl : x = a := by simpa using h0
    refine ⟨rfl, hp, fun b hb hpb => ?_⟩
    obtain ⟨j, hj⟩ := List.getElem?_of_mem hb
    have := hl (j + 1) b (by simpa using hj) hpb
    rw [Prod.Lex.toLex_le_toLex] at this
    rcases this with h | h
    · exact h.le
    · exact h.1.le
  · rintro ⟨rfl, hp, hl⟩
    refine ⟨rfl, hp, fun j b hj hpb => ?_⟩
    rw [Prod.Lex.toLex_le_toLex]
    cases j with
    | zero =>
      obtain rfl : a = b := by simpa using hj
      exact Or.inr ⟨rfl, le_rfl⟩
    | succ j =>
      have hb : b ∈ l := List.mem_of_getElem? (by simpa using hj)
      rcases (hl b hb hpb).lt_or_eq with h | h
      · exact Or.inl h
      · exact Or.inr ⟨h, Nat.zero_le _⟩

/-- A later element is the least match when it is so in the tail and beats
the head strictly. -/
theorem isLeastMatch_cons_succ {l : List α} {x a : α} {i : Nat} :
    IsLeastMatch key p (x :: l) (i + 1) a ↔
      IsLeastMatch key p l i a ∧ (p x = true → key a < key x) := by
  constructor
  · rintro ⟨hi, hp, hl⟩
    refine ⟨⟨by simpa using hi, hp, fun j b hj hpb => ?_⟩, fun hpx => ?_⟩
    · have := hl (j + 1) b (by simpa using hj) hpb
      rw [Prod.Lex.toLex_le_toLex] at this ⊢
      rcases this with h | ⟨h, hij⟩
      · exact Or.inl h
      · exact Or.inr ⟨h, by simpa using hij⟩
    · have := hl 0 x rfl hpx
      rw [Prod.Lex.toLex_le_toLex] at this
      rcases this with h | ⟨_, h⟩
      · exact h
      · simp at h
  · rintro ⟨⟨hi, hp, hl⟩, hx⟩
    refine ⟨by simpa using hi, hp, fun j b hj hpb => ?_⟩
    rw [Prod.Lex.toLex_le_toLex]
    cases j with
    | zero =>
      obtain rfl : x = b := by simpa using hj
      exact Or.inl (hx hpb)
    | succ j =>
      have := hl j b (by simpa using hj) hpb
      rw [Prod.Lex.toLex_le_toLex] at this
      rcases this with h | ⟨h, hij⟩
      · exact Or.inl h
      · exact Or.inr ⟨h, by simpa using hij⟩

/-- Least matches of a mapped list are images of least matches. -/
theorem isLeastMatch_map {β : Type*} {f : β → α} {l : List β} {i : Nat} {a : α} :
    IsLeastMatch key p (l.map f) i a ↔
      ∃ b, f b = a ∧ IsLeastMatch (fun b => key (f b)) (fun b => p (f b)) l i b := by
  simp only [IsLeastMatch, List.getElem?_map, Option.map_eq_some_iff]
  constructor
  · rintro ⟨⟨b, hb, rfl⟩, hp, hl⟩
    exact ⟨b, rfl, hb, hp, fun j c hc hpc => hl j (f c) ⟨c, hc, rfl⟩ hpc⟩
  · rintro ⟨b, rfl, hb, hp, hl⟩
    refine ⟨⟨b, hb, rfl⟩, hp, ?_⟩
    rintro j _ ⟨c, hc, rfl⟩ hpc
    exact hl j c hc hpc

/-- Scanning after an insertion: the new element wins against the first
match of the rest exactly when its key is at most that match's key. -/
theorem find?_orderedInsert (x : α) : ∀ s : List α, s.Pairwise (key · ≤ key ·) →
    (s.orderedInsert (key · ≤ key ·) x).find? p =
      if p x = true then
        match s.find? p with
        | some y => if key x ≤ key y then some x else some y
        | none => some x
      else s.find? p
  | [], _ => by cases h : p x <;> simp [h]
  | y :: t, hs => by
      obtain ⟨hy, ht⟩ := List.pairwise_cons.mp hs
      by_cases hxy : key x ≤ key y
      · have hle : ∀ z, (y :: t).find? p = some z → key x ≤ key z := fun z hz => by
          rcases List.mem_cons.mp (List.mem_of_find?_eq_some hz) with rfl | hzt
          · exact hxy
          · exact hxy.trans (hy z hzt)
        rw [List.orderedInsert_cons_of_le (key · ≤ key ·) t hxy, List.find?_cons]
        cases hpx : p x with
        | false => simp
        | true =>
          cases hf : (y :: t).find? p with
          | none => simp
          | some z => simp [hle z hf]
      · rw [List.orderedInsert_of_not_le (key · ≤ key ·) t hxy, List.find?_cons, List.find?_cons]
        cases hpy : p y with
        | true => simp [hxy]
        | false => simpa using find?_orderedInsert x t ht

theorem exists_isLeastMatch_of_find? : ∀ (l : List α) {a : α},
    (l.insertionSort (key · ≤ key ·)).find? p = some a → ∃ i, IsLeastMatch key p l i a
  | [], a, h => by simp at h
  | x :: l, a, h => by
      have hsorted : (l.insertionSort (key · ≤ key ·)).Pairwise (key · ≤ key ·) :=
        List.pairwise_insertionSort _ l
      rw [List.insertionSort_cons, find?_orderedInsert x _ hsorted] at h
      have hmem : ∀ {b}, b ∈ l → b ∈ l.insertionSort (key · ≤ key ·) :=
        fun hb => (List.mem_insertionSort _).mpr hb
      cases hf : (l.insertionSort (key · ≤ key ·)).find? p with
      | none =>
        -- no match in the tail: the head is the only candidate
        have hno := List.find?_eq_none.mp hf
        rw [hf] at h
        by_cases hpx : p x = true
        · obtain rfl : x = a := by simpa [hpx] using h
          exact ⟨0, isLeastMatch_cons_zero.mpr
            ⟨rfl, hpx, fun b hb hpb => absurd hpb (hno b (hmem hb))⟩⟩
        · simp [hpx] at h
      | some y =>
        obtain ⟨i, hy⟩ := exists_isLeastMatch_of_find? l hf
        rw [hf] at h
        by_cases hpx : p x = true
        · by_cases hxy : key x ≤ key y
          · obtain rfl : x = a := by simpa [hpx, hxy] using h
            refine ⟨0, isLeastMatch_cons_zero.mpr ⟨rfl, hpx, fun b hb hpb => ?_⟩⟩
            obtain ⟨j, hj⟩ := List.getElem?_of_mem hb
            have := hy.2.2 j b hj hpb
            rw [Prod.Lex.toLex_le_toLex] at this
            rcases this with h' | h'
            · exact hxy.trans h'.le
            · exact hxy.trans h'.1.le
          · obtain rfl : y = a := by simpa [hpx, hxy] using h
            exact ⟨i + 1, isLeastMatch_cons_succ.mpr ⟨hy, fun _ => not_le.mp hxy⟩⟩
        · obtain rfl : y = a := by simpa [hpx] using h
          exact ⟨i + 1, isLeastMatch_cons_succ.mpr ⟨hy, fun h' => absurd h' hpx⟩⟩

/-- **First match after a stable sort**: the scan returns exactly the least
match of the unsorted list. -/
theorem find?_insertionSort_iff {l : List α} {a : α} :
    (l.insertionSort (key · ≤ key ·)).find? p = some a ↔ ∃ i, IsLeastMatch key p l i a := by
  constructor
  · exact exists_isLeastMatch_of_find? l
  · rintro ⟨i, hi⟩
    cases hf : (l.insertionSort (key · ≤ key ·)).find? p with
    | none =>
      have hmem : a ∈ l.insertionSort (key · ≤ key ·) :=
        (List.mem_insertionSort _).mpr (List.mem_of_getElem? hi.1)
      exact absurd hi.2.1 (List.find?_eq_none.mp hf a hmem)
    | some b =>
      obtain ⟨j, hj⟩ := exists_isLeastMatch_of_find? l hf
      rw [(hi.unique hj).2]

/-- The scan finds nothing exactly when nothing matches. -/
theorem find?_insertionSort_eq_none {l : List α} :
    (l.insertionSort (key · ≤ key ·)).find? p = none ↔ ∀ a ∈ l, p a = false := by
  simp [List.find?_eq_none, List.mem_insertionSort]

/-! ## Scans of a list in parts -/

/-- The better of two candidates, the first being in front. -/
def least (key : α → κ) : Option α → Option α → Option α
  | some a, some b => if key a ≤ key b then some a else some b
  | some a, none => some a
  | none, b => b

@[simp] theorem least_none_left (b : Option α) : least key none b = b := by
  cases b <;> rfl

@[simp] theorem least_none_right (a : Option α) : least key a none = a := by
  cases a <;> rfl

theorem least_assoc (a b c : Option α) :
    least key (least key a b) c = least key a (least key b c) := by
  cases a with
  | none => simp
  | some a =>
    cases b with
    | none => simp
    | some b =>
      cases c with
      | none => simp
      | some c =>
        by_cases hab : key a ≤ key b <;> by_cases hbc : key b ≤ key c
        · have hac : key a ≤ key c := hab.trans hbc
          simp [least, hab, hbc, hac]
        · simp [least, hab, hbc]
        · simp [least, hab, hbc]
        · have hac : ¬ key a ≤ key c := fun h => hab (h.trans (not_le.mp hbc).le)
          simp [least, hab, hbc, hac]

theorem find?_insertionSort_cons (x : α) (l : List α) :
    ((x :: l).insertionSort (key · ≤ key ·)).find? p =
      least key (if p x = true then some x else none)
        ((l.insertionSort (key · ≤ key ·)).find? p) := by
  have hsorted : (l.insertionSort (key · ≤ key ·)).Pairwise (key · ≤ key ·) :=
    List.pairwise_insertionSort _ l
  rw [List.insertionSort_cons, find?_orderedInsert x _ hsorted]
  by_cases hpx : p x = true
  · simp only [hpx, if_true]
    cases (l.insertionSort (key · ≤ key ·)).find? p <;> rfl
  · simp only [hpx, if_false, Bool.false_eq_true, least_none_left]

/-- **The scan of a list in two parts** takes the better of the two. -/
theorem find?_insertionSort_append (l l' : List α) :
    ((l ++ l').insertionSort (key · ≤ key ·)).find? p =
      least key ((l.insertionSort (key · ≤ key ·)).find? p)
        ((l'.insertionSort (key · ≤ key ·)).find? p) := by
  induction l with
  | nil => simp
  | cons x l ih =>
    rw [List.cons_append, find?_insertionSort_cons, ih, find?_insertionSort_cons, least_assoc]

/-- The scan finds an element that no match of the list beats. -/
theorem find?_insertionSort_le {l : List α} {a : α}
    (h : (l.insertionSort (key · ≤ key ·)).find? p = some a) {b : α} (hb : b ∈ l)
    (hpb : p b = true) : key a ≤ key b := by
  obtain ⟨i, -, -, hleast⟩ := find?_insertionSort_iff.mp h
  obtain ⟨j, hj⟩ := List.getElem?_of_mem hb
  have hle := hleast j b hj hpb
  rw [Prod.Lex.toLex_le_toLex] at hle
  exact hle.elim le_of_lt (fun hle => hle.1.le)

theorem mem_of_find?_insertionSort {l : List α} {a : α}
    (h : (l.insertionSort (key · ≤ key ·)).find? p = some a) : a ∈ l ∧ p a = true := by
  obtain ⟨i, hget, hpa, -⟩ := find?_insertionSort_iff.mp h
  exact ⟨List.mem_of_getElem? hget, hpa⟩

/-- Between `l` and `l'` the element `x` is the least match. -/
def Beats (key : α → κ) (p : α → Bool) (l : List α) (x : α) (l' : List α) : Prop :=
  p x = true ∧ (∀ a ∈ l, p a = true → key x < key a) ∧ ∀ b ∈ l', p b = true → key x ≤ key b

/-- **An element put into a list** is found if it is the least match there. -/
theorem find?_insertionSort_of_beats {l l' : List α} {x : α} (h : Beats key p l x l') :
    ((l ++ x :: l').insertionSort (key · ≤ key ·)).find? p = some x := by
  obtain ⟨hpx, hfront, hback⟩ := h
  rw [find?_insertionSort_append, find?_insertionSort_cons, if_pos hpx]
  have hrest : least key (some x) ((l'.insertionSort (key · ≤ key ·)).find? p) = some x := by
    cases hf : (l'.insertionSort (key · ≤ key ·)).find? p with
    | none => rfl
    | some b =>
      obtain ⟨hb, hpb⟩ := mem_of_find?_insertionSort hf
      exact if_pos (hback b hb hpb)
  rw [hrest]
  cases hf : (l.insertionSort (key · ≤ key ·)).find? p with
  | none => rfl
  | some a =>
    obtain ⟨ha, hpa⟩ := mem_of_find?_insertionSort hf
    exact if_neg (not_le.mpr (hfront a ha hpa))

/-- Otherwise it makes no difference. -/
theorem find?_insertionSort_of_not_beats {l l' : List α} {x : α} (h : ¬ Beats key p l x l') :
    ((l ++ x :: l').insertionSort (key · ≤ key ·)).find? p =
      ((l ++ l').insertionSort (key · ≤ key ·)).find? p := by
  rw [find?_insertionSort_append, find?_insertionSort_append, find?_insertionSort_cons]
  by_cases hpx : p x = true
  · rw [if_pos hpx]
    by_cases hfront : ∀ a ∈ l, p a = true → key x < key a
    · -- a match behind has a smaller key
      obtain ⟨b, hb, hpb, hlt⟩ : ∃ b ∈ l', p b = true ∧ key b < key x := by
        by_contra hno
        refine h ⟨hpx, hfront, fun b hb hpb => ?_⟩
        by_contra hle
        exact hno ⟨b, hb, hpb, not_le.mp hle⟩
      cases hf : (l'.insertionSort (key · ≤ key ·)).find? p with
      | none =>
        have hnone := find?_insertionSort_eq_none.mp hf b hb
        rw [hpb] at hnone
        cases hnone
      | some c =>
        have hc : ¬ key x ≤ key c :=
          not_le.mpr ((find?_insertionSort_le hf hb hpb).trans_lt hlt)
        simp only [least, hc, if_false]
    · -- a match in front has a key that is no larger
      obtain ⟨a, ha, hpa, hle⟩ : ∃ a ∈ l, p a = true ∧ key a ≤ key x := by
        by_contra hno
        refine hfront fun a ha hpa => ?_
        by_contra hlt
        exact hno ⟨a, ha, hpa, not_lt.mp hlt⟩
      cases hf : (l.insertionSort (key · ≤ key ·)).find? p with
      | none =>
        have hnone := find?_insertionSort_eq_none.mp hf a ha
        rw [hpa] at hnone
        cases hnone
      | some c =>
        have hc : key c ≤ key x := (find?_insertionSort_le hf ha hpa).trans hle
        rw [← least_assoc]
        simp only [least, hc, if_true]
  · rw [if_neg hpx, least_none_left]

/-- The elements with one key, in their order. -/
def ofKey (key : α → κ) (k : κ) (l : List α) : List α := l.filter (fun a => decide (key a = k))

/-- What the scan finds is the first match of its key. -/
theorem find?_ofKey {l : List α} {a : α}
    (h : (l.insertionSort (key · ≤ key ·)).find? p = some a) :
    (ofKey key (key a) l).find? p = some a := by
  induction l with
  | nil => simp at h
  | cons x l ih =>
    rw [find?_insertionSort_cons] at h
    by_cases hpx : p x = true
    · rw [if_pos hpx] at h
      cases hf : (l.insertionSort (key · ≤ key ·)).find? p with
      | none =>
        rw [hf] at h
        obtain rfl : x = a := Option.some.inj h
        simp [ofKey, hpx]
      | some c =>
        rw [hf] at h
        by_cases hle : key x ≤ key c
        · obtain rfl : x = a := Option.some.inj ((if_pos hle).symm.trans h)
          simp [ofKey, hpx]
        · obtain rfl : c = a := Option.some.inj ((if_neg hle).symm.trans h)
          have hne : key x ≠ key c := fun he => hle he.le
          simpa [ofKey, hne] using ih hf
    · rw [if_neg hpx, least_none_left] at h
      by_cases hk : key x = key a
      · simpa [ofKey, hk, hpx] using ih h
      · simpa [ofKey, hk] using ih h

theorem find?_insertionSort_of_ofKey {l l' : List α} (h : ∀ k, ofKey key k l = ofKey key k l')
    {a : α} (ha : (l.insertionSort (key · ≤ key ·)).find? p = some a) :
    (l'.insertionSort (key · ≤ key ·)).find? p = some a := by
  have hmem : ∀ {b}, b ∈ l ↔ b ∈ l' := by
    intro b
    have hb : ∀ m : List α, b ∈ m ↔ b ∈ ofKey key (key b) m := fun m => by simp [ofKey]
    rw [hb l, hb l', h]
  obtain ⟨hal, hpa⟩ := mem_of_find?_insertionSort ha
  cases hf : (l'.insertionSort (key · ≤ key ·)).find? p with
  | none =>
    have hnone := find?_insertionSort_eq_none.mp hf a (hmem.mp hal)
    rw [hpa] at hnone
    cases hnone
  | some c =>
    obtain ⟨hcl, hpc⟩ := mem_of_find?_insertionSort hf
    have hk : key a = key c :=
      le_antisymm (find?_insertionSort_le ha (hmem.mpr hcl) hpc)
        (find?_insertionSort_le hf (hmem.mp hal) hpa)
    rw [← find?_ofKey ha, ← find?_ofKey hf, hk, h]

/-- **The scan sees the elements of each key in their order**, and no more: lists that
agree on these are scanned alike. -/
theorem find?_insertionSort_congr {l l' : List α} (h : ∀ k, ofKey key k l = ofKey key k l') :
    (l.insertionSort (key · ≤ key ·)).find? p = (l'.insertionSort (key · ≤ key ·)).find? p := by
  cases hf : (l.insertionSort (key · ≤ key ·)).find? p with
  | some a => exact (find?_insertionSort_of_ofKey h hf).symm
  | none =>
    cases hf' : (l'.insertionSort (key · ≤ key ·)).find? p with
    | none => rfl
    | some a =>
      rw [find?_insertionSort_of_ofKey (fun k => (h k).symm) hf'] at hf
      cases hf

end TrustModelEdge.Lib
