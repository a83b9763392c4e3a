/-
# Slices over an array

A slice is a part of an array from its start, with room for more behind it. Appending
writes into that room and moves to a new array only when there is none. The idiom that
filters a slice in place appends to a second slice over the same array while the first
is still being read; what it leaves is the filtered list.
-/

import Mathlib.Data.List.TakeDrop
import Mathlib.Tactic.Common

namespace Useful.Math

universe u

/-- A slice: the array behind it, as far as the slice may grow, and its length. -/
structure Slice (α : Type u) where
  cells : List α
  len : Nat
  len_le : len ≤ cells.length

namespace Slice

variable {α : Type u} {s : Slice α} {p : α → Bool}

/-- The nil slice. -/
def empty : Slice α := ⟨[], 0, Nat.le_refl _⟩

instance : Inhabited (Slice α) := ⟨empty⟩

/-- What the slice holds. -/
def items (s : Slice α) : List α := s.cells.take s.len

/-- `s[:0]`: the same array, and nothing of it. -/
def cleared (s : Slice α) : Slice α := ⟨s.cells, 0, Nat.zero_le _⟩

/-- `append(s, a)`: into the array while there is room, else into a new one. -/
def append (s : Slice α) (a : α) : Slice α :=
  if h : s.len < s.cells.length then
    ⟨s.cells.set s.len a, s.len + 1, by rw [List.length_set]; exact h⟩
  else
    ⟨s.items ++ [a], s.len + 1, by
      rw [items, List.length_append, List.length_take, Nat.min_eq_left s.len_le]
      exact Nat.le_refl _⟩

/-- The last element. -/
def last? (s : Slice α) : Option α := s.items.getLast?

theorem items_empty : (empty : Slice α).items = [] :=
  rfl

theorem items_cleared : s.cleared.items = [] :=
  rfl

theorem length_items : s.items.length = s.len := by
  rw [items, List.length_take, Nat.min_eq_left s.len_le]

theorem items_append (s : Slice α) (a : α) : (s.append a).items = s.items ++ [a] := by
  unfold append
  split_ifs with h
  · rw [items, items, List.take_add_one, List.take_set_of_le (Nat.le_refl _),
      List.getElem?_set_self h]
    rfl
  · refine List.take_of_length_le ?_
    show (s.items ++ [a]).length ≤ s.len + 1
    rw [List.length_append, length_items]
    exact Nat.le_refl _

theorem cells_append {a : α} (h : s.len < s.cells.length) :
    (s.append a).cells = s.cells.set s.len a ∧ (s.append a).len = s.len + 1 := by
  unfold append
  rw [dif_pos h]
  exact ⟨rfl, rfl⟩

/-! ## Filtering in place -/

/-- The loop over the next `n` cells from `i` on, which appends what it keeps to a slice
over the array it reads. -/
def retainLoop (p : α → Bool) : Nat → Nat → Slice α → Slice α
  | 0, _, kept => kept
  | n + 1, i, kept =>
      match kept.cells[i]? with
      | some a => retainLoop p n (i + 1) (if p a then kept.append a else kept)
      | none => kept

/-- The elements with a property, collected in the slice's own array. -/
def retain (p : α → Bool) (s : Slice α) : Slice α := retainLoop p s.len 0 s.cleared

/-- What is kept is written behind the place that is read, so the loop reads what was there
before it began. -/
theorem items_retainLoop (n i : Nat) (kept : Slice α) (hbehind : kept.len ≤ i)
    (hroom : i + n ≤ kept.cells.length) :
    (retainLoop p n i kept).items = kept.items ++ ((kept.cells.drop i).take n).filter p := by
  induction n generalizing i kept with
  | zero => rw [retainLoop, List.take_zero, List.filter_nil, List.append_nil]
  | succ n ih =>
      have hi : i < kept.cells.length := by omega
      have hcells : (kept.cells.drop i).take (n + 1) =
          kept.cells[i] :: (kept.cells.drop (i + 1)).take n := by
        rw [List.drop_eq_getElem_cons hi, List.take_succ_cons]
      rw [retainLoop, List.getElem?_eq_getElem hi, hcells]
      by_cases hp : p kept.cells[i] = true
      · obtain ⟨hset, hlen⟩ := cells_append (a := kept.cells[i]) (Nat.lt_of_le_of_lt hbehind hi)
        have hread : (kept.append kept.cells[i]).cells.drop (i + 1) = kept.cells.drop (i + 1) := by
          rw [hset, List.drop_set_of_lt (by omega)]
        simp only [hp, if_true, List.filter_cons_of_pos]
        rw [ih _ _ (by omega) (by rw [hset, List.length_set]; omega), items_append, hread,
          List.append_assoc, List.singleton_append]
      · simp only [hp, Bool.false_eq_true, if_false, List.filter_cons_of_neg, not_false_eq_true]
        exact ih _ _ (by omega) (by omega)

theorem items_retain (p : α → Bool) (s : Slice α) : (s.retain p).items = s.items.filter p := by
  have hloop := items_retainLoop (p := p) s.len 0 s.cleared (Nat.le_refl _) (by
    rw [Nat.zero_add]
    exact s.len_le)
  rw [items_cleared, List.nil_append, List.drop_zero] at hloop
  exact hloop

end Slice

end Useful.Math
