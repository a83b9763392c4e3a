/-
# Plain JavaScript data

Values that are not live objects: what `structuredClone` copies and what a message or a
request consists of. An array may lack elements, and binary data is known by its length.
-/

import Useful.Math.JsValue

namespace Useful.Math.Js

inductive Data
  | undefined
  | null
  | bool (b : Bool)
  | num (x : Number)
  | str (s : String)
  | bytes (length : Nat)
  | arr (items : List Data)
  | obj (members : List (String × Data))
  /-- A missing element of an array. -/
  | hole

namespace Data

/-- `value.key`, for a key that no prototype has. -/
def get (value : Data) (key : String) : Data :=
  match value with
  | .obj members => (members.lookup key).getD .undefined
  | _ => .undefined

/-- `Object.keys(value)` of an object that is not an array. -/
def keys (value : Data) : List String :=
  match value with
  | .obj members => members.map Prod.fst
  | _ => []

/-- An object that is not an array. -/
def isObject : Data → Bool
  | .obj _ | .bytes _ => true
  | _ => false

def isUndefined : Data → Bool
  | .undefined => true
  | _ => false

def isHole : Data → Bool
  | .hole => true
  | _ => false

/-- The value of a number that passes `Number.isInteger`. -/
def integer? : Data → Option Int
  | .num (.finite q) => if q.den = 1 then some q.num else none
  | _ => none

/-- `Number.isInteger(value) && value >= minimum && value <= maximum`. -/
def isIntegerIn (value : Data) (minimum maximum : Int) : Bool :=
  match value.integer? with
  | some n => minimum ≤ n && n ≤ maximum
  | none => false

/-- The length of a text, in UTF-16 units. -/
def textLength (s : String) : Nat := (utf16 s.toList).length

/-- A text whose length lies between two bounds. -/
def isTextIn (value : Data) (minimum maximum : Nat) : Bool :=
  match value with
  | .str s => minimum ≤ textLength s && textLength s ≤ maximum
  | _ => false

/-- `values.includes(value)`, for texts. -/
def isOneOf (value : Data) (values : List String) : Bool :=
  match value with
  | .str s => values.contains s
  | _ => false

end Data

end Useful.Math.Js
