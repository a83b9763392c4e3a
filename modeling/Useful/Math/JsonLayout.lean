/-
# JSON texts with line breaks

A writer that puts every item on a line of its own differs from a compact one in what stands
before an item and after a colon. The size of either text in bytes is computed from the value,
without writing it.
-/

import Useful.Math.Json
import Useful.Math.Unicode

namespace Useful.Math.Json

universe u

variable {ν : Type u}

section Layout

variable (newline : Nat → List Char) (colon : List Char) (quote : String → List Char)
  (number : ν → List Char)

mutual

/-- The text of a value that stands in so many arrays and objects. -/
def layout : Nat → Json ν → List Char
  | _, .null => ['n', 'u', 'l', 'l']
  | _, .bool b => if b then ['t', 'r', 'u', 'e'] else ['f', 'a', 'l', 's', 'e']
  | _, .num n => number n
  | _, .str s => quote s
  | depth, .arr items =>
      '[' :: (joinWith ',' (layoutItems (depth + 1) items) ++
        (if items.isEmpty then [] else newline depth) ++ [']'])
  | depth, .obj members =>
      '{' :: (joinWith ',' (layoutMembers (depth + 1) members) ++
        (if members.isEmpty then [] else newline depth) ++ ['}'])

def layoutItems : Nat → List (Json ν) → List (List Char)
  | _, [] => []
  | depth, v :: items => (newline depth ++ layout depth v) :: layoutItems depth items

def layoutMembers : Nat → List (String × Json ν) → List (List Char)
  | _, [] => []
  | depth, (key, v) :: members =>
      (newline depth ++ quote key ++ colon ++ layout depth v) :: layoutMembers depth members

end

end Layout

/-- The size of texts with a separator between them. -/
def joinedSize (sizes : List Nat) : Nat := sizes.sum + (sizes.length - 1)

section Size

variable (newline : Nat → Nat) (colon : Nat) (quote : String → Nat) (number : ν → Nat)

mutual

def layoutSize : Nat → Json ν → Nat
  | _, .null => 4
  | _, .bool b => if b then 4 else 5
  | _, .num n => number n
  | _, .str s => quote s
  | depth, .arr items =>
      joinedSize (layoutItemSizes (depth + 1) items) + (if items.isEmpty then 0 else newline depth) + 2
  | depth, .obj members =>
      joinedSize (layoutMemberSizes (depth + 1) members) +
        (if members.isEmpty then 0 else newline depth) + 2

def layoutItemSizes : Nat → List (Json ν) → List Nat
  | _, [] => []
  | depth, v :: items => (newline depth + layoutSize depth v) :: layoutItemSizes depth items

def layoutMemberSizes : Nat → List (String × Json ν) → List Nat
  | _, [] => []
  | depth, (key, v) :: members =>
      (newline depth + quote key + colon + layoutSize depth v) :: layoutMemberSizes depth members

end

end Size

section

variable (quote : String → List Char) (number : ν → List Char)

mutual

/-- Without line breaks the text is the compact one. -/
theorem layout_eq_render (depth : Nat) : ∀ v : Json ν,
    layout (fun _ => []) [':'] quote number depth v = render quote number v
  | .null | .bool _ | .num _ | .str _ => by rw [layout, render]
  | .arr items => by
      rw [layout, render, layoutItems_eq_renderItems, ite_self, List.append_nil]
  | .obj members => by
      rw [layout, render, layoutMembers_eq_renderMembers, ite_self, List.append_nil]

theorem layoutItems_eq_renderItems (depth : Nat) : ∀ items : List (Json ν),
    layoutItems (fun _ => []) [':'] quote number depth items = renderItems quote number items
  | [] => by rw [layoutItems, renderItems]
  | v :: items => by
      rw [layoutItems, renderItems, layout_eq_render, layoutItems_eq_renderItems, List.nil_append]

theorem layoutMembers_eq_renderMembers (depth : Nat) : ∀ members : List (String × Json ν),
    layoutMembers (fun _ => []) [':'] quote number depth members =
      renderMembers quote number members
  | [] => by rw [layoutMembers, renderMembers]
  | (key, v) :: members => by
      rw [layoutMembers, renderMembers, layout_eq_render, layoutMembers_eq_renderMembers,
        List.nil_append, List.append_assoc, List.singleton_append]

end

end

/-! ## Sizes of texts -/

/-- The size of a text in bytes. -/
def byteSize (text : List Char) : Nat := (utf8 text).length

@[simp]
theorem byteSize_nil : byteSize [] = 0 := rfl

theorem byteSize_append (xs ys : List Char) : byteSize (xs ++ ys) = byteSize xs + byteSize ys := by
  rw [byteSize, utf8, List.flatMap_append, List.length_append]
  rfl

theorem byteSize_cons (c : Char) (text : List Char) :
    byteSize (c :: text) = (utf8Char c).length + byteSize text := by
  rw [byteSize, utf8_cons, List.length_append]
  rfl

theorem byteSize_joinWith (texts : List (List Char)) :
    byteSize (joinWith ',' texts) = joinedSize (texts.map byteSize) := by
  induction texts with
  | nil => rfl
  | cons text texts ih =>
      cases texts with
      | nil => simp [joinWith, joinedSize]
      | cons text' texts =>
          have hcomma : (utf8Char ',').length = 1 := by decide
          rw [joinWith, byteSize_append, byteSize_cons, ih, hcomma]
          simp only [joinedSize, List.map_cons, List.sum_cons, List.length_cons]
          omega

section

variable (newline : Nat → List Char) (colon : List Char) (quote : String → List Char)
  (number : ν → List Char)

mutual

/-- The size of a text is the size computed from the value. -/
theorem byteSize_layout (depth : Nat) : ∀ v : Json ν,
    byteSize (layout newline colon quote number depth v) =
      layoutSize (fun d => byteSize (newline d)) (byteSize colon) (fun s => byteSize (quote s))
        (fun n => byteSize (number n)) depth v
  | .null => by rw [layout, layoutSize]; decide
  | .bool b => by rw [layout, layoutSize]; cases b <;> decide
  | .num n => by rw [layout, layoutSize]
  | .str s => by rw [layout, layoutSize]
  | .arr items => by
      have hopen : (utf8Char '[').length = 1 := by decide
      have hclose : byteSize [']'] = 1 := by decide
      rw [layout, layoutSize, byteSize_cons, byteSize_append, byteSize_append, byteSize_joinWith,
        byteSize_layoutItems, hopen, hclose, apply_ite byteSize, byteSize_nil]
      omega
  | .obj members => by
      have hopen : (utf8Char '{').length = 1 := by decide
      have hclose : byteSize ['}'] = 1 := by decide
      rw [layout, layoutSize, byteSize_cons, byteSize_append, byteSize_append, byteSize_joinWith,
        byteSize_layoutMembers, hopen, hclose, apply_ite byteSize, byteSize_nil]
      omega

theorem byteSize_layoutItems (depth : Nat) : ∀ items : List (Json ν),
    (layoutItems newline colon quote number depth items).map byteSize =
      layoutItemSizes (fun d => byteSize (newline d)) (byteSize colon)
        (fun s => byteSize (quote s)) (fun n => byteSize (number n)) depth items
  | [] => by rw [layoutItems, layoutItemSizes, List.map_nil]
  | v :: items => by
      rw [layoutItems, layoutItemSizes, List.map_cons, byteSize_append, byteSize_layout,
        byteSize_layoutItems]

theorem byteSize_layoutMembers (depth : Nat) : ∀ members : List (String × Json ν),
    (layoutMembers newline colon quote number depth members).map byteSize =
      layoutMemberSizes (fun d => byteSize (newline d)) (byteSize colon)
        (fun s => byteSize (quote s)) (fun n => byteSize (number n)) depth members
  | [] => by rw [layoutMembers, layoutMemberSizes, List.map_nil]
  | (key, v) :: members => by
      rw [layoutMembers, layoutMemberSizes, List.map_cons, byteSize_append, byteSize_append,
        byteSize_append, byteSize_layout, byteSize_layoutMembers]

end

end

end Useful.Math.Json
