/-
TrustModelEdge.Py.Json — the values `json.loads` builds, with the host
language's equality, truth and printing on them.

Numbers keep Python's split: an `int` is unbounded, a `float` is a double
(kept as its 64 bits), `True` and `False` are the integers 1 and 0 under
`==`. The keys of an object are distinct, as `json.loads` makes them
(the last of two equal keys wins there); their order is never observed.
-/
import TrustModelEdge.Py.Str
import Mathlib.Algebra.Order.Ring.Rat
import Mathlib.Data.List.AList

namespace TrustModelEdge.Py

/-- A `dict` with text keys. -/
abbrev Dict (α : Type) := AList (fun _ : Str => α)

/-- A `float`: the bits of its double. -/
abbrev Float64 := BitVec 64

inductive Json where
  | null
  | bool (b : Bool)
  | int (n : Int)
  | float (bits : Float64)
  | str (s : Str)
  | arr (items : List Json)
  | obj (fields : List (Str × Json))

instance : Inhabited Json := ⟨.null⟩

/-! ## Numbers -/

/-- The value of a number, exactly. -/
inductive Num where
  | nan
  | inf (negative : Bool)
  | fin (value : Rat)

/-- Numbers compare by value; `nan` differs from everything. -/
def Num.eq : Num → Num → Bool
  | .inf a, .inf b => a == b
  | .fin p, .fin q => p == q
  | _, _ => false

/-- The value of the double with the given bits. -/
def floatNum (bits : Float64) : Num :=
  let e : Nat := bits.toNat / 2 ^ 52 % 2 ^ 11
  let m : Nat := bits.toNat % 2 ^ 52
  let negative := bits.toNat / 2 ^ 63 == 1
  if e = 2047 then
    if m = 0 then .inf negative else .nan
  else
    let mag : Rat :=
      if e = 0 then (m : Rat) / 2 ^ 1074
      else ((2 ^ 52 + m) * 2 ^ e : Nat) / 2 ^ 1075
    .fin (if negative then -mag else mag)

namespace Json

def num? : Json → Option Num
  | .bool b => some (.fin (if b then 1 else 0))
  | .int n => some (.fin n)
  | .float bits => some (floatNum bits)
  | _ => none

/-- The one `nan` object that `json.loads` makes. -/
def isNan (v : Json) : Bool :=
  match num? v with
  | some .nan => true
  | _ => false

/-! ## `==`, truth, lookup -/

mutual

/-- `a == b`. Containers look at the identity of their items first, so that `nan`
equals itself there. -/
def pyEq : Json → Json → Bool
  | .null, .null => true
  | .str s, .str t => s == t
  | .arr xs, .arr ys => pyEqItems xs ys
  | .obj fs, .obj gs => fs.length == gs.length && pyEqFields fs gs
  | a, b =>
      match num? a, num? b with
      | some x, some y => x.eq y
      | _, _ => false

def pyEqItems : List Json → List Json → Bool
  | [], [] => true
  | x :: xs, y :: ys => (isNan x && isNan y || pyEq x y) && pyEqItems xs ys
  | _, _ => false

/-- Every field on the left has an equal one under its key on the right. -/
def pyEqFields : List (Str × Json) → List (Str × Json) → Bool
  | [], _ => true
  | (k, v) :: fs, gs =>
      (match gs.lookup k with
        | some w => isNan v && isNan w || pyEq v w
        | none => false) && pyEqFields fs gs

end

/-- `bool(v)`. -/
def truthy : Json → Bool
  | .null => false
  | .bool b => b
  | .int n => n != 0
  | .float bits => !(floatNum bits).eq (.fin 0)
  | .str s => !s.isEmpty
  | .arr xs => !xs.isEmpty
  | .obj fs => !fs.isEmpty

/-- `v.get(key)` where `v` is an object; `none` for any other value or an
absent key. -/
def field? (v : Json) (key : Str) : Option Json :=
  match v with
  | .obj fs => fs.lookup key
  | _ => none

/-! ## `repr` and `str` -/

mutual

/-- `repr(v)`. -/
def repr [PyRuntime] : Json → Str
  | .null => "None"
  | .bool b => if b then "True" else "False"
  | .int n => reprInt n
  | .float bits => PyRuntime.reprFloat bits
  | .str s => reprText s
  | .arr xs => ("[" : Str) ++ join (", " : Str) (reprItems xs) ++ ("]" : Str)
  | .obj fs => ("\x7b" : Str) ++ join (", " : Str) (reprFields fs) ++ ("\x7d" : Str)

def reprItems [PyRuntime] : List Json → List Str
  | [] => []
  | x :: xs => repr x :: reprItems xs

def reprFields [PyRuntime] : List (Str × Json) → List Str
  | [] => []
  | (k, v) :: fs => (reprText k ++ (": " : Str) ++ repr v) :: reprFields fs

end

/-- `str(v)`: text stands for itself, everything else prints as `repr`. -/
def toStr [PyRuntime] : Json → Str
  | .str s => s
  | v => repr v

end Json

end TrustModelEdge.Py
