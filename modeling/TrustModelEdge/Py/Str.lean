/-
TrustModelEdge.Py.Str — Python text, as far as the program uses it.

A `str` is a list of code points, lone surrogates included: `json.loads`
builds one from an escape such as `\ud800`, nothing in the program
rejects it, and only `.encode("utf-8")` raises on it. Lean's `Char`
excludes surrogates, so text is a list of code points here rather than
`String`; string literals coerce.

Library calls follow CPython: `split` and `strip` with the white space
of `str.isspace`, `repr` with its quote choice and escapes. What the
Unicode database and the float printer decide is a parameter
(`PyRuntime`): no result of the development depends on it. The level of
the loggers is one as well, since making a log record can raise.
-/
import Mathlib.Data.List.DropRight
import Mathlib.Data.List.Sort

namespace TrustModelEdge.Py

/-- A code point of a Python `str`, surrogates included. -/
abbrev CodePoint := Fin 0x110000

abbrev Str := List CodePoint

abbrev Bytes := List UInt8

theorem char_toNat_lt (c : Char) : c.toNat < 0x110000 := by
  have hv : c.val.toNat.isValidChar := c.valid
  have hn : c.toNat = c.val.toNat := rfl
  rcases hv with hv | ⟨_, hv⟩ <;> omega

/-- The code points that files and paths treat apart. -/
def CodePoint.nul : CodePoint := 0
def CodePoint.lf : CodePoint := 10
def CodePoint.cr : CodePoint := 13

instance decidableMemStr (c : CodePoint) (s : Str) : Decidable (c ∈ s) := inferInstance

instance decidableMemStrs (s : Str) (l : List Str) : Decidable (s ∈ l) := inferInstance

def CodePoint.ofChar (c : Char) : CodePoint := ⟨c.toNat, char_toNat_lt c⟩

def Str.ofString (s : String) : Str := s.toList.map CodePoint.ofChar

instance : Coe String Str := ⟨Str.ofString⟩

/-- What the interpreter's tables contribute to printing and parsing:
`str.isprintable` and `unicodedata.decimal` on one code point beyond
ASCII, and `repr` of the float with the given bits. And whether
`logger.warning` makes a record, which the configured level decides. -/
class PyRuntime where
  isPrintable : CodePoint → Bool
  decimal : CodePoint → Option (Fin 10)
  reprFloat : BitVec 64 → Str
  logsWarnings : Bool

/-- Printing tables that answer as Python does on ASCII text, the only text
the concrete runs of this development print, at the default log level. -/
@[reducible] def asciiRuntime : PyRuntime where
  isPrintable := fun _ => false
  decimal := fun _ => none
  reprFloat := fun _ => []
  logsWarnings := true

/-! ## Searching and splitting -/

/-- `str.isspace` on one code point. -/
def isSpace (c : CodePoint) : Bool :=
  (9 ≤ c.val && c.val ≤ 13) || (28 ≤ c.val && c.val ≤ 32) || c.val == 0x85
    || c.val == 0xa0 || c.val == 0x1680 || (0x2000 ≤ c.val && c.val ≤ 0x200a)
    || c.val == 0x2028 || c.val == 0x2029 || c.val == 0x202f || c.val == 0x205f
    || c.val == 0x3000

/-- `s.startswith(p)`. -/
def startsWith (s p : Str) : Bool := p.isPrefixOf s

/-- `s.removeprefix(p)`. -/
def removePrefix (s p : Str) : Str :=
  if startsWith s p then s.drop p.length else s

/-- `s.strip()`. -/
def strip (s : Str) : Str := (s.dropWhile isSpace).rdropWhile isSpace

/-- `s.split(sep)` for a one-character separator. -/
def split (sep : CodePoint) (s : Str) : List Str := s.splitOn sep

/-- `s.split(sep, n)`: at most `n` cuts, from the left. -/
def splitMax (sep : CodePoint) : Nat → Str → List Str
  | 0, s => [s]
  | n + 1, s =>
      if sep ∈ s then
        s.takeWhile (· ≠ sep) :: splitMax sep n ((s.dropWhile (· ≠ sep)).drop 1)
      else [s]

theorem splitMax_of_not_mem {sep : CodePoint} {s : Str} (h : sep ∉ s) (n : Nat) :
    splitMax sep n s = [s] := by
  cases n with
  | zero => rfl
  | succ n => simp [splitMax, h]

/-- The first cut is at the first separator. -/
theorem splitMax_append {sep : CodePoint} {a : Str} (h : sep ∉ a) (n : Nat) (b : Str) :
    splitMax sep (n + 1) (a ++ sep :: b) = a :: splitMax sep n b := by
  have hne : ∀ c ∈ a, (decide (c ≠ sep)) = true := by
    intro c hc
    rw [decide_eq_true_iff]
    rintro rfl
    exact h hc
  have htake : (a ++ sep :: b).takeWhile (· ≠ sep) = a := by
    rw [List.takeWhile_append_of_pos hne]
    simp
  have hdrop : (a ++ sep :: b).dropWhile (· ≠ sep) = sep :: b := by
    rw [List.dropWhile_append_of_pos hne]
    simp
  have hmem : sep ∈ a ++ sep :: b := List.mem_append_right _ List.mem_cons_self
  rw [splitMax, if_pos hmem, htake, hdrop]
  rfl

/-- What a cut gives back: a piece without separators, and the split of the rest. -/
theorem splitMax_eq_cons_iff {sep : CodePoint} {n : Nat} {s a p : Str} {ps : List Str} :
    splitMax sep (n + 1) s = a :: p :: ps ↔
      ∃ b, sep ∉ a ∧ s = a ++ sep :: b ∧ splitMax sep n b = p :: ps := by
  constructor
  · intro h
    by_cases hmem : sep ∈ s
    · obtain ⟨front, b, rfl, hfront⟩ := List.eq_append_cons_of_mem hmem
      rw [splitMax_append hfront, List.cons.injEq] at h
      obtain ⟨rfl, hrest⟩ := h
      exact ⟨b, hfront, rfl, hrest⟩
    · rw [splitMax_of_not_mem hmem] at h
      cases h
  · rintro ⟨b, ha, rfl, hrest⟩
    rw [splitMax_append ha, hrest]

/-- `s.split()`: the maximal runs of non-space characters. -/
def words (s : Str) : List Str := (s.splitOnP isSpace).filter (· ≠ [])

/-- `sep.join(parts)`. -/
def join (sep : Str) (parts : List Str) : Str := sep.intercalate parts

/-- `s <= t`: by code point. -/
def leStr : Str → Str → Bool
  | [], _ => true
  | _ :: _, [] => false
  | a :: s, b :: t => a.val < b.val || (a == b && leStr s t)

/-- `sorted(strs)`. -/
def sorted (strs : List Str) : List Str := strs.insertionSort (leStr · ·)

theorem mem_sorted {s : Str} {strs : List Str} : s ∈ sorted strs ↔ s ∈ strs :=
  List.mem_insertionSort _

theorem leStr_cons {a b : CodePoint} {s t : Str} :
    leStr (a :: s) (b :: t) = true ↔ a < b ∨ a = b ∧ leStr s t = true := by
  simp [leStr]

theorem leStr_total (s t : Str) : leStr s t = true ∨ leStr t s = true := by
  induction s generalizing t with
  | nil => exact Or.inl rfl
  | cons a s ih =>
    cases t with
    | nil => exact Or.inr rfl
    | cons b t =>
      rw [leStr_cons, leStr_cons]
      rcases lt_trichotomy a b with h | rfl | h
      · exact Or.inl (Or.inl h)
      · exact (ih t).imp (fun h => Or.inr ⟨rfl, h⟩) (fun h => Or.inr ⟨rfl, h⟩)
      · exact Or.inr (Or.inl h)

theorem leStr_trans {s t u : Str} (hst : leStr s t = true) (htu : leStr t u = true) :
    leStr s u = true := by
  induction s generalizing t u with
  | nil => rfl
  | cons a s ih =>
    cases t with
    | nil => cases hst
    | cons b t =>
      cases u with
      | nil => cases htu
      | cons c u =>
        rw [leStr_cons] at hst htu ⊢
        rcases hst with hab | ⟨rfl, hst⟩ <;> rcases htu with hbc | ⟨rfl, htu⟩
        · exact Or.inl (hab.trans hbc)
        · exact Or.inl hab
        · exact Or.inl hbc
        · exact Or.inr ⟨rfl, ih hst htu⟩

theorem leStr_antisymm {s t : Str} (hst : leStr s t = true) (hts : leStr t s = true) : s = t := by
  induction s generalizing t with
  | nil =>
    cases t with
    | nil => rfl
    | cons b t => cases hts
  | cons a s ih =>
    cases t with
    | nil => cases hst
    | cons b t =>
      rw [leStr_cons] at hst hts
      rcases hst with hab | ⟨rfl, hst⟩
      · rcases hts with hba | ⟨rfl, -⟩
        · exact absurd hba hab.asymm
        · exact absurd hab (lt_irrefl b)
      · rcases hts with hba | ⟨-, hts⟩
        · exact absurd hba (lt_irrefl a)
        · rw [ih hst hts]

/-- The same strings, each once, are sorted into one list. -/
theorem sorted_congr {l l' : List Str} (h : l.Nodup) (h' : l'.Nodup)
    (hmem : ∀ s, s ∈ l ↔ s ∈ l') : sorted l = sorted l' := by
  have : Std.Total (fun s t : Str => leStr s t = true) := ⟨leStr_total⟩
  have : IsTrans Str (fun s t => leStr s t = true) := ⟨fun _ _ _ => leStr_trans⟩
  have hperm : (sorted l).Perm (sorted l') :=
    (List.perm_insertionSort _ l).trans
      (((List.perm_ext_iff_of_nodup h h').mpr hmem).trans (List.perm_insertionSort _ l').symm)
  exact hperm.eq_of_pairwise (fun s t _ _ hst hts => leStr_antisymm hst hts)
    (List.pairwise_insertionSort _ l) (List.pairwise_insertionSort _ l')

/-- `s.lower()` on text decoded as latin-1, which HTTP header values are:
below 256, lower case shifts `A`–`Z` and `À`–`Þ` (save `×`) by 32 and
fixes the rest. -/
def lowerLatin1 (s : Str) : Str :=
  s.map fun c =>
    if (65 ≤ c.val ∧ c.val ≤ 90) ∨ (0xc0 ≤ c.val ∧ c.val ≤ 0xde ∧ c.val ≠ 0xd7)
    then c + 32 else c

/-- A word: non-empty text without white space, what `split()` returns. -/
def IsWord (w : Str) : Prop := w ≠ [] ∧ ∀ c ∈ w, isSpace c = false

theorem mem_splitOnP {α : Type} (p : α → Bool) : ∀ (s : List α) {w : List α},
    w ∈ s.splitOnP p → ∀ c ∈ w, p c = false
  | [], w, h, c, hc => by
      rw [List.splitOnP_nil, List.mem_singleton] at h
      subst h; simp at hc
  | a :: s, w, h, c, hc => by
      rw [List.splitOnP_cons_eq_if_modifyHead] at h
      split at h
      · rcases List.mem_cons.mp h with rfl | h
        · simp at hc
        · exact mem_splitOnP p s h c hc
      · rename_i ha
        cases hs : s.splitOnP p with
        | nil => exact absurd hs (List.splitOnP_ne_nil p s)
        | cons w' ws =>
          rw [hs, List.modifyHead_cons] at h
          rcases List.mem_cons.mp h with rfl | h
          · rcases List.mem_cons.mp hc with rfl | hc
            · simpa using ha
            · exact mem_splitOnP p s (by rw [hs]; exact List.mem_cons_self) c hc
          · exact mem_splitOnP p s (by rw [hs]; exact List.mem_cons_of_mem _ h) c hc

theorem isWord_of_mem_words {s w : Str} (h : w ∈ words s) : IsWord w := by
  obtain ⟨hw, hne⟩ := List.mem_filter.mp h
  exact ⟨by simpa using hne, mem_splitOnP isSpace s hw⟩

/-- Splitting undoes joining with a blank, on lists of words. -/
theorem words_join {ws : List Str} (h : ∀ w ∈ ws, IsWord w) :
    words (join (" " : Str) ws) = ws := by
  induction ws with
  | nil => rfl
  | cons w ws ih =>
    obtain ⟨hw, hns⟩ := h w List.mem_cons_self
    have hws := ih fun v hv => h v (List.mem_cons_of_mem _ hv)
    cases ws with
    | nil =>
      have hw1 : w.splitOnP isSpace = [w] :=
        List.splitOnP_eq_singleton hns
      simp [join, words, hw1, hw]
    | cons v vs =>
      have hcut : (join (" " : Str) (w :: v :: vs)).splitOnP isSpace
          = w :: (join (" " : Str) (v :: vs)).splitOnP isSpace := by
        have hsp : isSpace (CodePoint.ofChar ' ') = true := by decide
        exact List.splitOnP_append_cons_of_forall_mem hns _ hsp _
      rw [words] at hws ⊢
      rw [hcut, List.filter_cons_of_pos (by simpa using hw), hws]

/-! ## Encoding -/

def isSurrogate (c : CodePoint) : Bool := 0xd800 ≤ c.val && c.val ≤ 0xdfff

/-- The UTF-8 bytes of one code point. -/
def utf8Bytes (c : CodePoint) : Bytes :=
  let n := c.val
  if n < 0x80 then [.ofNat n]
  else if n < 0x800 then [.ofNat (0xc0 + n / 64), .ofNat (0x80 + n % 64)]
  else if n < 0x10000 then
    [.ofNat (0xe0 + n / 4096), .ofNat (0x80 + n / 64 % 64), .ofNat (0x80 + n % 64)]
  else
    [.ofNat (0xf0 + n / 262144), .ofNat (0x80 + n / 4096 % 64),
     .ofNat (0x80 + n / 64 % 64), .ofNat (0x80 + n % 64)]

/-- `s.encode("utf-8")`; `none` is the `UnicodeEncodeError` that a lone
surrogate raises. -/
def encodeUtf8 (s : Str) : Option Bytes :=
  if s.any isSurrogate then none else some (s.flatMap utf8Bytes)

/-- One digit of base64. -/
def b64Digit (n : Nat) : CodePoint :=
  if n < 26 then Fin.ofNat _ (65 + n)
  else if n < 52 then Fin.ofNat _ (97 + (n - 26))
  else if n < 62 then Fin.ofNat _ (48 + (n - 52))
  else if n = 62 then 0x2b
  else 0x2f

/-- `base64.b64encode(data).decode("ascii")`. -/
def b64encode : Bytes → Str
  | [] => []
  | [a] => [b64Digit (a.toNat / 4), b64Digit (a.toNat % 4 * 16), 0x3d, 0x3d]
  | [a, b] =>
      [b64Digit (a.toNat / 4), b64Digit (a.toNat % 4 * 16 + b.toNat / 16),
       b64Digit (b.toNat % 16 * 4), 0x3d]
  | a :: b :: c :: rest =>
      b64Digit (a.toNat / 4) :: b64Digit (a.toNat % 4 * 16 + b.toNat / 16)
        :: b64Digit (b.toNat % 16 * 4 + c.toNat / 64) :: b64Digit (c.toNat % 64)
        :: b64encode rest

/-- A printable character of ASCII that is no space. -/
def isGraphic (c : CodePoint) : Bool := 33 ≤ c.val && c.val ≤ 126

theorem isGraphic_b64Digit (n : Nat) : isGraphic (b64Digit n) = true := by
  unfold b64Digit isGraphic
  split_ifs
  all_goals simp [Fin.ofNat]
  all_goals omega

theorem isGraphic_b64encode (data : Bytes) : ∀ c ∈ b64encode data, isGraphic c = true := by
  have hpad : isGraphic 0x3d = true := rfl
  fun_induction b64encode data with
  | case1 => simp
  | case2 a => simp [isGraphic_b64Digit, hpad]
  | case3 a b => simp [isGraphic_b64Digit, hpad]
  | case4 a b c rest ih => simpa [isGraphic_b64Digit] using ih

def isAscii (s : Str) : Bool := s.all (fun c => c.val < 128)

theorem isAscii_of_graphic {s : Str} (h : ∀ c ∈ s, isGraphic c = true) : isAscii s = true := by
  rw [isAscii, List.all_eq_true]
  intro c hc
  have := h c hc
  simp only [isGraphic, Bool.and_eq_true, decide_eq_true_eq] at this ⊢
  omega

theorem isSpace_of_graphic {c : CodePoint} (h : isGraphic c = true) : isSpace c = false := by
  simp only [isGraphic, Bool.and_eq_true, decide_eq_true_eq] at h
  simp [isSpace]
  omega

theorem strip_of_graphic {s : Str} (h : ∀ c ∈ s, isGraphic c = true) : strip s = s := by
  have hkeep : ∀ {l : Str}, (∀ c ∈ l, isGraphic c = true) → l.dropWhile isSpace = l := by
    intro l hl
    cases l with
    | nil => rfl
    | cons c l => simp [isSpace_of_graphic (hl c List.mem_cons_self)]
  unfold strip
  rw [hkeep h, List.rdropWhile, hkeep (by simpa using h), List.reverse_reverse]

/-! ## `int` of a text -/

/-- White space that `int` strips: that of C, and on text with a character
beyond ASCII every `isspace` character beyond ASCII too. -/
def isIntSpace (c : CodePoint) : Bool :=
  (9 ≤ c.val && c.val ≤ 13) || c.val == 32 || (127 ≤ c.val && isSpace c)

/-- The digit a character stands for in `int(s)`. -/
def intDigit [PyRuntime] (c : CodePoint) : Option Nat :=
  if 48 ≤ c.val ∧ c.val ≤ 57 then some (c.val - 48)
  else if c.val < 127 then none
  else (PyRuntime.decimal c).map (·.val)

/-- `sys.int_info.default_max_str_digits`. -/
def maxStrDigits : Nat := 4300

/-- The digits of an unsigned literal, single underscores between digits. -/
def intDigits [PyRuntime] (s : Str) : Option (List Nat) :=
  let groups := split 0x5f s
  if groups.any List.isEmpty then none else groups.flatten.mapM intDigit

/-- The value of `int(s)` in base ten; `none` is its `ValueError`. -/
def parseInt? [PyRuntime] (s : Str) : Option Int :=
  let t := (s.dropWhile isIntSpace).rdropWhile isIntSpace
  let negative := t.head? == some 0x2d
  let body := if negative || t.head? == some 0x2b then t.drop 1 else t
  match intDigits body with
  | none => none
  | some ds =>
      if ds.length > maxStrDigits then none
      else
        let n : Nat := ds.foldl (fun acc d => acc * 10 + d) 0
        some (if negative then -n else n)

/-! ## `repr` -/

def hexDigit (n : Nat) : CodePoint :=
  if n % 16 < 10 then Fin.ofNat _ (48 + n % 16) else Fin.ofNat _ (87 + n % 16)

/-- The last `width` hexadecimal digits of `n`. -/
def hex : Nat → Nat → Str
  | 0, _ => []
  | w + 1, n => hex w (n / 16) ++ [hexDigit n]

/-- One character of `repr(s)` inside the quotes `q`. -/
def reprChar [PyRuntime] (q c : CodePoint) : Str :=
  if c = q ∨ c = 0x5c then [0x5c, c]
  else if c = 9 then "\\t"
  else if c = 10 then "\\n"
  else if c = 13 then "\\r"
  else if c.val < 32 ∨ c.val = 0x7f then ("\\x" : Str) ++ hex 2 c.val
  else if c.val < 0x7f then [c]
  else if PyRuntime.isPrintable c then [c]
  else if c.val ≤ 0xff then ("\\x" : Str) ++ hex 2 c.val
  else if c.val ≤ 0xffff then ("\\u" : Str) ++ hex 4 c.val
  else ("\\U" : Str) ++ hex 8 c.val

/-- `repr(s)`: single quotes unless the text holds one and no double quote. -/
def reprText [PyRuntime] (s : Str) : Str :=
  let q : CodePoint := if 0x27 ∈ s ∧ 0x22 ∉ s then 0x22 else 0x27
  q :: s.flatMap (reprChar q) ++ [q]

def reprNat (n : Nat) : Str := Str.ofString (toString n)

/-- `str(n)` of an integer. -/
def reprInt (n : Int) : Str :=
  if n < 0 then ("-" : Str) ++ reprNat n.natAbs else reprNat n.natAbs

end TrustModelEdge.Py
