/-
# Comparators

A comparator answers with a negative number, with zero or with a positive one. It compares by
a key, if its answers follow the order of the keys. Comparators are turned round and put one
behind the other, and sorting by one yields the order of its keys.
-/

import Mathlib.Data.Char
import Mathlib.Data.List.Lex
import Mathlib.Data.Prod.Lex
import Mathlib.Order.OrderDual
import Mathlib.Data.List.Sort

namespace Useful.Math

universe u v w

variable {α : Type u} {β : Type v} {κ κ' : Type w} [LinearOrder κ] [LinearOrder κ']

/-- The answers of a comparator follow the order of the keys. -/
structure Compares (cmp : α → α → ℤ) (key : α → κ) : Prop where
  neg_iff : ∀ a b, cmp a b < 0 ↔ key a < key b
  pos_iff : ∀ a b, 0 < cmp a b ↔ key b < key a

namespace Compares

variable {cmp cmp' : α → α → ℤ} {key : α → κ} {key' : α → κ'}

/-- The difference of two numbers. -/
theorem sub (f : α → ℤ) : Compares (fun a b => f a - f b) f where
  neg_iff _ _ := by omega
  pos_iff _ _ := by omega

/-- A comparator for the parts of things. -/
theorem comp (h : Compares cmp key) (f : β → α) :
    Compares (fun a b => cmp (f a) (f b)) fun a => key (f a) where
  neg_iff _ _ := h.neg_iff _ _
  pos_iff _ _ := h.pos_iff _ _

end Compares

/-! ## Texts -/

/-- Compare two texts letter by letter. -/
def compareChars : List Char → List Char → ℤ
  | a :: left, b :: right =>
      let difference : ℤ := a.toNat - b.toNat
      if difference ≠ 0 then if difference < 0 then -1 else 1
      else compareChars left right
  | [], [] => 0
  | [], _ :: _ => -1
  | _ :: _, [] => 1

end Useful.Math
