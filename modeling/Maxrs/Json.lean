import Mathlib.Tactic.Ring
set_option autoImplicit false

namespace Maxrs

/-- `serde_json::Value`. A number is an integer or a float, whose text nothing here reads. -/
inductive Value where
  | null
  | bool (b : Bool)
  | int (n : Int)
  | float (text : String)
  | string (s : String)
  | array (items : List Value)
  | object (entries : List (String × Value))

namespace Value

/-- `value[key]`: `Null` when the value is no object or has no such entry. -/
def get (v : Value) (key : String) : Value :=
  match v with
  | .object entries => ((entries.find? fun e => e.1 == key).map Prod.snd).getD .null
  | _ => .null

/-- `value.get(index)`. -/
def at? (v : Value) (index : Nat) : Option Value :=
  match v with
  | .array items => items[index]?
  | _ => none

/-- Integers that `as_i64` accepts. -/
def fitsI64 (n : Int) : Bool := -(2 ^ 63) ≤ n && n < 2 ^ 63

def asI64 : Value → Option Int
  | .int n => if fitsI64 n then some n else none
  | _ => none

def asU64 : Value → Option Nat
  | .int n => if 0 ≤ n ∧ n < 2 ^ 64 then some n.toNat else none
  | _ => none

def asStr : Value → Option String
  | .string s => some s
  | _ => none

def asBool : Value → Option Bool
  | .bool b => some b
  | _ => none

def asArray : Value → Option (List Value)
  | .array items => some items
  | _ => none

def isObject : Value → Bool
  | .object _ => true
  | _ => false

@[simp] theorem asI64_int (n : Int) (h : fitsI64 n) : asI64 (.int n) = some n := by
  simp [asI64, h]

theorem asI64_fits {v : Value} {n : Int} (h : v.asI64 = some n) : fitsI64 n := by
  cases v with
  | int m =>
    simp only [asI64, Option.ite_none_right_eq_some, Option.some.injEq] at h
    exact h.2 ▸ h.1
  | _ => simp [asI64] at h

end Value

/-- The result of an `i64` operation that does not overflow. -/
def checkedI64 (x : Int) : Option Int := if Value.fitsI64 x then some x else none

end Maxrs
