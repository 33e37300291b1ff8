/-
TrustModelEdge.Py.Exc — the exceptions the modelled calls raise, and the
two calls of the `json` module.

Handlers in the program select by class, so an exception is its class;
messages are kept only where a reply carries them.
-/
import TrustModelEdge.Py.Json

namespace TrustModelEdge.Py

inductive Exc where
  | valueError
  | jsonDecodeError
  | unicodeDecodeError
  | unicodeEncodeError
  /-- pydantic's `ValidationError`. -/
  | validationError
  | typeError
  | attributeError
  | keyError
  | overflowError
  | recursionError
  | assertionError
  | osError
  /-- The subclass of `OSError` for an absent file. -/
  | fileNotFoundError
  /-- `sqlite3.DatabaseError` and its subclasses. -/
  | databaseError
deriving DecidableEq

/-- `isinstance(exc, ValueError)`. -/
def Exc.isValueError : Exc → Bool
  | .valueError | .jsonDecodeError | .unicodeDecodeError | .unicodeEncodeError
  | .validationError => true
  | _ => false

/-- `isinstance(exc, OSError)`. -/
def Exc.isOsError : Exc → Bool
  | .osError | .fileNotFoundError => true
  | _ => false

/-- `int(q)` of a number: towards zero. -/
def truncate (q : Rat) : Int := if q < 0 then -(-q).floor else q.floor

/-- `int(v)` of a JSON value. -/
def jsonInt [PyRuntime] : Json → Except Exc Int
  | .int n => .ok n
  | .bool b => .ok (if b then 1 else 0)
  | .float bits =>
      match floatNum bits with
      | .fin q => .ok (truncate q)
      | .inf _ => .error .overflowError
      | .nan => .error .valueError
  | .str s => (parseInt? s).elim (.error .valueError) .ok
  | _ => .error .typeError

/-- A block of calls returns only when each call in it does. -/
theorem bind_eq_ok {ε α β : Type} {x : Except ε α} {f : α → Except ε β} {b : β} :
    x >>= f = .ok b ↔ ∃ a, x = .ok a ∧ f a = .ok b := by
  cases x <;> simp [bind, Except.bind]

theorem toOption_eq_some {ε α : Type} {r : Except ε α} {a : α} :
    r.toOption = some a ↔ r = .ok a := by
  cases r <;> simp [Except.toOption]

theorem isSome_toOption {ε α : Type} {r : Except ε α} :
    r.toOption.isSome = true ↔ ∃ a, r = .ok a := by
  cases r <;> simp [Except.toOption]

/-- `json.loads` and `json.dumps` (with `default=str` where the program
passes it). Which texts parse to what is the library's business; a result
that needs the two to be inverse on some values assumes it of those. -/
structure JsonText where
  loads : Str → Except Exc Json
  dumps : Json → Str

end TrustModelEdge.Py
