/-
TrustModelEdge.Engine.ConditionTheorems — what the entries of a `when` map
ask of an input.

`Conditions` is the reading of the map as a policy author has it, with the
equality of JSON values (`jsonEq`). The matcher is looser in three places:
an absent argument reads as null, the host language takes a boolean for a
number and the `nan` in a container for its equal, and a tool that is no text
is compared by its print. So an entry is
met, met only loosely, or not met; one entry that is not met refuses the
input whatever the others are.
-/
import TrustModelEdge.Engine.EvaluatorTheorems

namespace TrustModelEdge.Py.Json

mutual

/-- Equality of JSON values: numbers by value, and a boolean only with itself. -/
def jsonEq : Json → Json → Bool
  | .null, .null => true
  | .bool a, .bool b => a == b
  | .str s, .str t => s == t
  | .arr xs, .arr ys => jsonEqItems xs ys
  | .obj fs, .obj gs => fs.length == gs.length && jsonEqFields fs gs
  | .bool _, _ => false
  | _, .bool _ => false
  | a, b =>
      match num? a, num? b with
      | some x, some y => x.eq y
      | _, _ => false

def jsonEqItems : List Json → List Json → Bool
  | [], [] => true
  | x :: xs, y :: ys => jsonEq x y && jsonEqItems xs ys
  | _, _ => false

def jsonEqFields : List (Str × Json) → List (Str × Json) → Bool
  | [], _ => true
  | (k, v) :: fs, gs =>
      (match gs.lookup k with
        | some w => jsonEq v w
        | none => false) && jsonEqFields fs gs

end

mutual

theorem pyEq_of_jsonEq : ∀ {a b : Json}, jsonEq a b = true → pyEq a b = true
  | .arr _, .arr _, h => by
      simp only [jsonEq, pyEq] at h ⊢
      exact pyEqItems_of_jsonEqItems h
  | .obj _, .obj _, h => by
      simp only [jsonEq, pyEq, Bool.and_eq_true] at h ⊢
      exact ⟨h.1, pyEqFields_of_jsonEqFields h.2⟩
  | .null, b, h => by cases b <;> simp_all [jsonEq, pyEq, num?]
  | .bool _, b, h => by cases b <;> simp_all [jsonEq, pyEq, num?, Num.eq]
  | .int _, b, h => by cases b <;> simp_all [jsonEq, pyEq, num?]
  | .float _, b, h => by cases b <;> simp_all [jsonEq, pyEq, num?]
  | .str _, b, h => by cases b <;> simp_all [jsonEq, pyEq, num?]

theorem pyEqItems_of_jsonEqItems : ∀ {xs ys : List Json},
    jsonEqItems xs ys = true → pyEqItems xs ys = true
  | [], [], _ => rfl
  | _ :: _, _ :: _, h => by
      simp only [jsonEqItems, pyEqItems, Bool.and_eq_true, Bool.or_eq_true] at h ⊢
      exact ⟨Or.inr (pyEq_of_jsonEq h.1), pyEqItems_of_jsonEqItems h.2⟩

theorem pyEqFields_of_jsonEqFields : ∀ {fs gs : List (Str × Json)},
    jsonEqFields fs gs = true → pyEqFields fs gs = true
  | [], _, _ => rfl
  | (k, _) :: _, gs, h => by
      simp only [jsonEqFields, pyEqFields, Bool.and_eq_true] at h ⊢
      refine ⟨?_, pyEqFields_of_jsonEqFields h.2⟩
      cases hk : gs.lookup k with
      | none => simp [hk] at h
      | some w =>
        simp only [hk, Bool.or_eq_true] at h ⊢
        exact Or.inr (pyEq_of_jsonEq h.1)

end
end TrustModelEdge.Py.Json

namespace TrustModelEdge.Engine
open Py Policy

/-! ## The compiled conditions -/

theorem startsWith_iff {k p : Str} : startsWith k p = true ↔ ∃ key, k = p ++ key := by
  rw [startsWith, List.isPrefixOf_iff_prefix]
  exact ⟨fun ⟨key, h⟩ => ⟨key, h.symm⟩, fun ⟨key, h⟩ => ⟨key, h.symm⟩⟩

theorem removePrefix_append (p key : Str) : removePrefix (p ++ key) p = key := by
  have h : startsWith (p ++ key) p = true := startsWith_iff.mpr ⟨key, rfl⟩
  simp [removePrefix, h]

theorem addCondition_true (acc : Finset Str × Dict Json) (key : Str) :
    addCondition acc (argsDot ++ key) (.bool true) = (insert key acc.1, acc.2) := by
  have h : startsWith (argsDot ++ key) argsDot = true := startsWith_iff.mpr ⟨key, rfl⟩
  rw [addCondition, if_pos h, removePrefix_append]

theorem addCondition_value (acc : Finset Str × Dict Json) (key : Str) {v : Json}
    (hv : v ≠ .bool true) :
    addCondition acc (argsDot ++ key) v = (acc.1, acc.2.insert key v) := by
  have h : startsWith (argsDot ++ key) argsDot = true := startsWith_iff.mpr ⟨key, rfl⟩
  unfold addCondition
  rw [if_pos h, removePrefix_append]
  split
  · exact absurd rfl hv
  · rfl

theorem addCondition_other {acc : Finset Str × Dict Json} {k : Str} {v : Json}
    (h : ∀ key, k ≠ argsDot ++ key) : addCondition acc k v = acc := by
  have hk : ¬ startsWith k argsDot = true := by
    rw [startsWith_iff]
    rintro ⟨key, hkey⟩
    exact h key hkey
  unfold addCondition
  rw [if_neg hk]

/-- What an entry of `when` is to the loop. -/
inductive Condition : Str → Json → Prop where
  | present (key : Str) : Condition (argsDot ++ key) (.bool true)
  | equal (key : Str) (v : Json) (hv : v ≠ .bool true) : Condition (argsDot ++ key) v
  | other (k : Str) (v : Json) (h : ∀ key, k ≠ argsDot ++ key) : Condition k v

theorem condition (k : Str) (v : Json) : Condition k v := by
  by_cases hk : ∃ key, k = argsDot ++ key
  · obtain ⟨key, rfl⟩ := hk
    by_cases hv : v = .bool true
    · rw [hv]
      exact .present key
    · exact .equal key v hv
  · exact .other k v fun key h => hk ⟨key, h⟩

/-- The loop over entries of `when`, from what was collected before. -/
def collect (entries : List (Sigma fun _ : Str => Json)) (acc : Finset Str × Dict Json) :
    Finset Str × Dict Json :=
  entries.foldl (fun acc e => addCondition acc e.1 e.2) acc

theorem mem_collect {entries : List (Sigma fun _ : Str => Json)} {acc : Finset Str × Dict Json}
    {key : Str} : key ∈ (collect entries acc).1 ↔
      key ∈ acc.1 ∨ (⟨argsDot ++ key, .bool true⟩ : Sigma fun _ : Str => Json) ∈ entries := by
  induction entries generalizing acc with
  | nil => simp [collect]
  | cons e entries ih =>
    obtain ⟨k, v⟩ := e
    have hstep : collect (⟨k, v⟩ :: entries) acc = collect entries (addCondition acc k v) := rfl
    rw [hstep, ih, List.mem_cons]
    cases condition k v with
    | present key' => 
      rw [addCondition_true]
      simp [or_assoc, or_left_comm]
    | equal key' v hv =>
      rw [addCondition_value _ _ hv]
      have hne : ¬ Json.bool true = v := fun h => hv h.symm
      simp [hne]
    | other k v h =>
      rw [addCondition_other h]
      have hne : ∀ key, ¬ argsDot ++ key = k := fun key heq => h key heq.symm
      simp [hne]

theorem lookup_collect {entries : List (Sigma fun _ : Str => Json)}
    (hnodup : entries.NodupKeys) {acc : Finset Str × Dict Json} {key : Str} {v : Json} :
    (collect entries acc).2.lookup key = some v ↔
      ((⟨argsDot ++ key, v⟩ : Sigma fun _ : Str => Json) ∈ entries ∧ v ≠ .bool true) ∨
        ((∀ w, (⟨argsDot ++ key, w⟩ : Sigma fun _ : Str => Json) ∈ entries → w = .bool true) ∧
          acc.2.lookup key = some v) := by
  induction entries generalizing acc with
  | nil => simp [collect]
  | cons e entries ih =>
    obtain ⟨k, u⟩ := e
    obtain ⟨hfresh, hrest⟩ := List.nodupKeys_cons.mp hnodup
    have hstep : collect (⟨k, u⟩ :: entries) acc = collect entries (addCondition acc k u) := rfl
    rw [hstep, ih hrest]
    simp only [List.mem_cons, Sigma.mk.injEq, heq_eq_eq]
    cases condition k u with
    | present key' =>
      rw [addCondition_true]
      -- a condition of presence is not looked at by either side
      have hvalue : ((argsDot ++ key = argsDot ++ key' ∧ v = .bool true ∨
          ⟨argsDot ++ key, v⟩ ∈ entries) ∧ v ≠ .bool true) ↔
            ⟨argsDot ++ key, v⟩ ∈ entries ∧ v ≠ .bool true := by tauto
      have hpresent : (∀ w, argsDot ++ key = argsDot ++ key' ∧ w = .bool true ∨
          ⟨argsDot ++ key, w⟩ ∈ entries → w = .bool true) ↔
            ∀ w, ⟨argsDot ++ key, w⟩ ∈ entries → w = .bool true :=
        forall_congr' fun w => by tauto
      rw [hvalue, hpresent]
    | equal key' u hu =>
      rw [addCondition_value _ _ hu]
      by_cases hkey : key = key'
      · subst hkey
        have hno : ∀ w, (⟨argsDot ++ key, w⟩ : Sigma fun _ : Str => Json) ∉ entries :=
          fun w hw => hfresh (List.mem_keys.mpr ⟨w, hw⟩)
        rw [AList.lookup_insert]
        constructor
        · rintro (⟨h, -⟩ | ⟨-, h⟩)
          · exact absurd h (hno v)
          · obtain rfl := Option.some.inj h
            exact Or.inl ⟨Or.inl ⟨rfl, rfl⟩, hu⟩
        · rintro (⟨⟨-, rfl⟩ | h, -⟩ | ⟨h, -⟩)
          · exact Or.inr ⟨fun w h => absurd h (hno w), rfl⟩
          · exact absurd h (hno v)
          · exact absurd (h u (Or.inl ⟨rfl, rfl⟩)) hu
      · simp [AList.lookup_insert_ne hkey, hkey]
    | other k u h =>
      rw [addCondition_other h]
      have hne : ∀ key, ¬ argsDot ++ key = k := fun key heq => h key heq.symm
      simp [hne]

/-- The two halves of the compiled conditions, entry by entry. -/
theorem mem_compileConditions {when : Dict Json} {key : Str} :
    key ∈ (compileConditions when).1 ↔ when.lookup (argsDot ++ key) = some (.bool true) := by
  have h : key ∈ (compileConditions when).1 ↔ key ∈ (∅ : Finset Str) ∨ _ :=
    @mem_collect when.entries (∅, ∅) key
  rw [h, ← Option.mem_def, AList.mem_lookup_iff]
  simp

theorem lookup_compileConditions {when : Dict Json} {key : Str} {v : Json} :
    (compileConditions when).2.lookup key = some v ↔
      when.lookup (argsDot ++ key) = some v ∧ v ≠ .bool true := by
  have h : (compileConditions when).2.lookup key = some v ↔ _ ∨ _ ∧
      (∅ : Dict Json).lookup key = some v :=
    @lookup_collect when.entries when.nodupKeys (∅, ∅) key v
  rw [h, ← Option.mem_def (a := v), ← AList.mem_lookup_iff]
  simp

/-! ## The meaning of the entries -/

section Meaning

variable [PyRuntime]

/-- What the entries of `when` say of an input. -/
structure Conditions (when : Dict Json) (inp : EvaluationInput) : Prop where
  tool : ∀ v, when.lookup ("tool" : Str) = some v →
    v = .null ∨ v = .str "*" ∨ v = .str inp.tool
  present : ∀ key, when.lookup (argsDot ++ key) = some (.bool true) → key ∈ inp.args
  equal : ∀ key v, when.lookup (argsDot ++ key) = some v → v ≠ .bool true →
    ∃ w, inp.args.lookup key = some w ∧ w.jsonEq v = true
  subject : ∀ v, when.lookup ("subject_attr" : Str) = some v → v.truthy = true →
    ∃ attrs, inp.subjectAttrs = some attrs ∧ v.toStr ∈ attrs

/-- An entry is met by the matcher's reading and not by its meaning. -/
inductive MetLoosely (when : Dict Json) (inp : EvaluationInput) : Prop where
  /-- A tool that is no text prints as the input's tool. -/
  | toolPrint (v : Json) (h : when.lookup ("tool" : Str) = some v) (hnull : v ≠ .null)
      (htext : ∀ s, v ≠ .str s) (hprint : v.toStr = inp.tool)
  /-- The argument is absent, the entry null. -/
  | absentNull (key : Str) (h : when.lookup (argsDot ++ key) = some .null)
      (habsent : key ∉ inp.args)
  /-- The argument and the entry are equal to the host language only: one has a boolean
  where the other has a number, or both have `nan` in a container. -/
  | hostEqual (key : Str) (v w : Json) (h : when.lookup (argsDot ++ key) = some v)
      (hv : v ≠ .bool true) (hw : inp.args.lookup key = some w) (heq : w.pyEq v = true)
      (hne : w.jsonEq v = false)

/-- An entry is not met, however it is read. -/
inductive Refused (when : Dict Json) (inp : EvaluationInput) : Prop where
  | tool (v : Json) (h : when.lookup ("tool" : Str) = some v) (hnull : v ≠ .null)
      (hstar : v ≠ .str "*") (hprint : v.toStr ≠ inp.tool)
  | absent (key : Str) (h : when.lookup (argsDot ++ key) = some (.bool true))
      (habsent : key ∉ inp.args)
  | unequal (key : Str) (v : Json) (h : when.lookup (argsDot ++ key) = some v)
      (hv : v ≠ .bool true) (hne : (inp.arg key).pyEq v = false)
  | subject (v : Json) (h : when.lookup ("subject_attr" : Str) = some v)
      (htruthy : v.truthy = true)
      (hnone : ∀ attrs, inp.subjectAttrs = some attrs → v.toStr ∉ attrs)

variable {when : Dict Json} {inp : EvaluationInput}

/-! ## The matcher, entry by entry -/

theorem toolMatches_iff {o : Option Json} {tool : Str} :
    (match compileTool o with
      | none => true
      | some t => t == tool) = true ↔
      ∀ v, o = some v → v = .null ∨ v = .str "*" ∨ v.toStr = tool := by
  cases o with
  | none => simp [compileTool]
  | some v =>
    cases v with
    | str s =>
      by_cases hs : s = ("*" : Str)
      · simp [compileTool, hs]
      · simp [compileTool, hs, Json.toStr]
    | _ => simp [compileTool]

theorem subjectMatches_iff {o : Option Json} :
    (match compileSubjectAttr o with
      | none => true
      | some a => inp.hasSubjectAttr a) = true ↔
      ∀ v, o = some v → v.truthy = true →
        ∃ attrs, inp.subjectAttrs = some attrs ∧ v.toStr ∈ attrs := by
  cases o with
  | none => simp [compileSubjectAttr]
  | some v =>
    cases ht : v.truthy with
    | false => simp [compileSubjectAttr, ht]
    | true =>
      cases hs : inp.subjectAttrs <;>
        simp [compileSubjectAttr, ht, EvaluationInput.hasSubjectAttr, hs]

omit [PyRuntime] in
theorem equalsMatch_iff :
    (compileConditions when).2.entries.all (fun e => (inp.arg e.1).pyEq e.2) = true ↔
      ∀ key v, when.lookup (argsDot ++ key) = some v → v ≠ .bool true →
        (inp.arg key).pyEq v = true := by
  rw [List.all_eq_true]
  constructor
  · intro h key v hv hne
    exact h ⟨key, v⟩ (AList.mem_lookup_iff.mp (lookup_compileConditions.mpr ⟨hv, hne⟩))
  · rintro h ⟨key, v⟩ he
    obtain ⟨hv, hne⟩ := lookup_compileConditions.mp (AList.mem_lookup_iff.mpr he)
    exact h key v hv hne

/-- **The matcher** refuses an input exactly when an entry refuses it. -/
theorem patternMatches_iff (raw : PolicyRule) :
    patternMatches (compileRule raw).pattern inp = true ↔ ¬ Refused raw.when inp := by
  have hpresent : (decide (∀ k ∈ (compileConditions raw.when).1, k ∈ inp.args) = true) ↔
      ∀ key, raw.when.lookup (argsDot ++ key) = some (.bool true) → key ∈ inp.args := by
    rw [decide_eq_true_iff]
    exact forall_congr' fun key => imp_congr_left mem_compileConditions
  unfold patternMatches
  simp only [Bool.and_eq_true]
  refine (and_congr (and_congr (and_congr toolMatches_iff hpresent) equalsMatch_iff)
    subjectMatches_iff).trans ?_
  constructor
  · rintro ⟨⟨⟨htool, hkeys⟩, hequal⟩, hsubject⟩ hrefused
    cases hrefused with
    | tool v h hnull hstar hprint =>
      rcases htool v h with rfl | rfl | hv
      · exact hnull rfl
      · exact hstar rfl
      · exact hprint hv
    | absent key h habsent => exact habsent (hkeys key h)
    | unequal key v h hv hne =>
      rw [hequal key v h hv] at hne
      cases hne
    | subject v h htruthy hnone =>
      obtain ⟨attrs, hattrs, hmem⟩ := hsubject v h htruthy
      exact hnone attrs hattrs hmem
  · intro hno
    refine ⟨⟨⟨?_, ?_⟩, ?_⟩, ?_⟩
    · intro v h
      by_contra hall
      simp only [not_or] at hall
      exact hno (.tool v h hall.1 hall.2.1 hall.2.2)
    · intro key h
      by_contra habsent
      exact hno (.absent key h habsent)
    · intro key v h hv
      by_contra hne
      exact hno (.unequal key v h hv (by simpa using hne))
    · intro v h htruthy
      by_contra hnone
      exact hno (.subject v h htruthy fun attrs hattrs hmem => hnone ⟨attrs, hattrs, hmem⟩)

omit [PyRuntime] in
/-- Only null equals null. -/
theorem eq_null_of_pyEq {v : Json} (h : Json.null.pyEq v = true) : v = .null := by
  cases v <;> simp [Json.pyEq, Json.num?] at h ⊢

theorem not_refused_of_conditions (h : Conditions when inp) : ¬ Refused when inp := by
  intro hrefused
  cases hrefused with
  | tool v hv hnull hstar hprint =>
    rcases h.tool v hv with rfl | rfl | rfl
    · exact hnull rfl
    · exact hstar rfl
    · exact hprint rfl
  | absent key hv habsent => exact habsent (h.present key hv)
  | unequal key v hv hne hpy =>
    obtain ⟨w, hw, heq⟩ := h.equal key v hv hne
    rw [EvaluationInput.arg, hw, Option.getD_some, Json.pyEq_of_jsonEq heq] at hpy
    cases hpy
  | subject v hv htruthy hnone =>
    obtain ⟨attrs, hattrs, hmem⟩ := h.subject v hv htruthy
    exact hnone attrs hattrs hmem

theorem not_metLoosely_of_conditions (h : Conditions when inp) :
    ¬ MetLoosely when inp := by
  intro hloose
  cases hloose with
  | toolPrint v hv hnull htext hprint =>
    rcases h.tool v hv with rfl | rfl | rfl
    · exact hnull rfl
    · exact htext _ rfl
    · exact htext _ rfl
  | absentNull key hv habsent =>
    obtain ⟨w, hw, -⟩ := h.equal key .null hv (by simp)
    rw [AList.lookup_eq_none.mpr habsent] at hw
    cases hw
  | hostEqual key v w hv hne hw heq hjson =>
    obtain ⟨w', hw', hjson'⟩ := h.equal key v hv hne
    rw [hw] at hw'
    obtain rfl := Option.some.inj hw'
    rw [hjson] at hjson'
    cases hjson'

/-- An entry that does not refuse the input is met as it means, or loosely. -/
theorem conditions_of_not (hno : ¬ Refused when inp) (hexact : ¬ MetLoosely when inp) :
    Conditions when inp := by
  refine ⟨?_, ?_, ?_, ?_⟩
  · intro v hv
    by_contra hall
    simp only [not_or] at hall
    obtain ⟨hnull, hstar, htool⟩ := hall
    by_cases hprint : v.toStr = inp.tool
    · refine hexact (.toolPrint v hv hnull ?_ hprint)
      rintro s rfl
      exact htool (congrArg Json.str hprint)
    · exact hno (.tool v hv hnull hstar hprint)
  · intro key hv
    by_contra habsent
    exact hno (.absent key hv habsent)
  · intro key v hv hne
    have hpy : (inp.arg key).pyEq v = true := by
      by_contra hpy
      exact hno (.unequal key v hv hne (by simpa using hpy))
    cases hw : inp.args.lookup key with
    | none =>
      rw [EvaluationInput.arg, hw, Option.getD_none] at hpy
      obtain rfl := eq_null_of_pyEq hpy
      exact (hexact (.absentNull key hv (AList.lookup_eq_none.mp hw))).elim
    | some w =>
      rw [EvaluationInput.arg, hw, Option.getD_some] at hpy
      refine ⟨w, rfl, ?_⟩
      by_contra hjson
      exact hexact (.hostEqual key v w hv hne hw hpy (by simpa using hjson))
  · intro v hv htruthy
    by_contra hnone
    exact hno (.subject v hv htruthy fun attrs hattrs hmem => hnone ⟨attrs, hattrs, hmem⟩)

theorem conditions_iff : Conditions when inp ↔ ¬ Refused when inp ∧ ¬ MetLoosely when inp :=
  ⟨fun h => ⟨not_refused_of_conditions h, not_metLoosely_of_conditions h⟩,
    fun h => conditions_of_not h.1 h.2⟩

/-- **Conditions mean what they say**, of a rule and an input, exactly unless some
entry is met only loosely and no other entry refuses the input. -/
theorem conditions_mean_iff (raw : PolicyRule) (inp : EvaluationInput) :
    (patternMatches (compileRule raw).pattern inp = true ↔ Conditions raw.when inp) ↔
      (MetLoosely raw.when inp → Refused raw.when inp) := by
  rw [patternMatches_iff, conditions_iff]
  tauto

end Meaning

/-! A rule that asks for null, and one that asks for the number one. -/

def argRule (key : Str) (v : Json) : PolicyRule where
  ruleId := "r-1"
  when := AList.singleton (argsDot ++ key) v
  then_ := "allow"

def argInput (args : Dict Json) : EvaluationInput where
  tool := "mail.send"
  args := args

/-- The first matches a call without the argument, the second a call with `true`
there; neither entry means that. -/
theorem conditions_met_loosely :
    (@patternMatches (@compileRule asciiRuntime (argRule "k" .null)).pattern (argInput ∅) = true ∧
        ¬ @Conditions asciiRuntime (argRule "k" .null).when (argInput ∅)) ∧
      (@patternMatches (@compileRule asciiRuntime (argRule "k" (.int 1))).pattern
          (argInput (AList.singleton "k" (.bool true))) = true ∧
        ¬ @Conditions asciiRuntime (argRule "k" (.int 1)).when
          (argInput (AList.singleton "k" (.bool true)))) := by
  refine ⟨⟨by decide, fun h => ?_⟩, ⟨by decide, fun h => ?_⟩⟩
  · obtain ⟨w, hw, -⟩ := @Conditions.equal asciiRuntime _ _ h "k" .null rfl (by simp)
    cases hw
  · obtain ⟨w, hw, heq⟩ := @Conditions.equal asciiRuntime _ _ h "k" (.int 1) rfl (by simp)
    obtain rfl := Option.some.inj hw
    cases heq

end TrustModelEdge.Engine
