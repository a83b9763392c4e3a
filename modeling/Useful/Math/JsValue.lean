/-
# JSON values in JavaScript

What JavaScript does with a parsed document: reading a member, testing for truth, comparing
numbers, walking over a list. Absent is `none`. How arrays and objects turn into texts and
numbers is a parameter.
-/

import Useful.Math.JsonSchema
import Useful.Math.Unicode

namespace Useful.Math.Js

open Useful.Math

inductive Error
  | typeError
  | thrown (message : String)
  deriving DecidableEq, Repr

inductive Number
  | nan
  | finite (q : ℚ)
  | infinite (negative : Bool)
  deriving DecidableEq

/-- The conversions that depend on more than the kind of a value. -/
structure Conversions where
  text : JsonValue → Except Error String
  number : JsonValue → Except Error Number
  /-- `x < y`. -/
  less : Option JsonValue → Option JsonValue → Except Error Bool

/-- `value.key`, for a key that no prototype has. -/
def read (value : Option JsonValue) (key : String) : Except Error (Option JsonValue) :=
  match value with
  | none | some .null => .error .typeError
  | some v => .ok (v.get key)

/-- `value ?? []`. -/
def orEmpty (value : Option JsonValue) : JsonValue :=
  match value with
  | none | some .null => .arr []
  | some v => v

/-- The equality of `includes`, for values of different documents: two objects are never the
same one. -/
def sameValue (v : JsonValue) (w : Option JsonValue) : Bool :=
  match v, w with
  | .null, some .null => true
  | .bool b, some (.bool c) => b == c
  | .num q, some (.num r) => q == r
  | .str s, some (.str t) => s == t
  | _, _ => false

section

variable (env : Conversions)

/-- `String(value)`. -/
def toText (value : Option JsonValue) : Except Error String :=
  match value with
  | none => .ok "undefined"
  | some .null => .ok "null"
  | some (.bool b) => .ok (if b then "true" else "false")
  | some (.str s) => .ok s
  | some v => env.text v

/-- `Number(value)`. -/
def toNumber (value : Option JsonValue) : Except Error Number :=
  match value with
  | none => .ok .nan
  | some .null => .ok (.finite 0)
  | some (.bool b) => .ok (.finite (if b then 1 else 0))
  | some (.num q) => .ok (.finite q)
  | some v => env.number v

/-- `value.includes(item)`. -/
def includes (value : JsonValue) (item : Option JsonValue) : Except Error Bool :=
  match value with
  | .arr items => .ok (items.any (sameValue · item))
  | .str s => do
      let part ← toText env item
      return decide (part.toList <:+: s.toList)
  | _ => .error .typeError

end

/-- `n < x`. -/
def Number.isAbove (x : Number) (n : Nat) : Bool :=
  match x with
  | .nan => false
  | .finite q => (n : ℚ) < q
  | .infinite negative => !negative

/-- `n >= x`. -/
def Number.isWithin (x : Number) (n : Nat) : Bool :=
  match x with
  | .nan => false
  | .finite q => q ≤ (n : ℚ)
  | .infinite negative => negative

/-- The two comparisons are each other's negation for everything but `NaN`. -/
theorem Number.isWithin_iff {x : Number} {n : Nat} :
    x.isWithin n = true ↔ x ≠ .nan ∧ x.isAbove n = false := by
  cases x with
  | nan => simp [Number.isWithin]
  | finite q => simp [Number.isWithin, Number.isAbove]
  | infinite negative => simp [Number.isWithin, Number.isAbove]

end Useful.Math.Js
