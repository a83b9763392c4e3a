/-
# Tables with a key

A table is a list of rows of which no two have the same key. Rows are found by key,
and putting a row replaces the one with its key or comes last. What a table holds after
that is said once, row by row.
-/

import Mathlib.Data.List.Induction
import Mathlib.Data.List.Nodup
import Mathlib.Data.List.Perm.Basic
import Mathlib.Tactic.Common

namespace Useful.Math

universe u v

/-- Rows with pairwise different keys. -/
structure Table (ρ : Type u) {κ : Type v} (key : ρ → κ) where
  rows : List ρ
  nodup : (rows.map key).Nodup

namespace Table

variable {ρ : Type u} {κ : Type v} {key : ρ → κ}

def empty : Table ρ key := ⟨[], List.nodup_nil⟩

instance : EmptyCollection (Table ρ key) := ⟨empty⟩

/-- Two rows with one key are the same row. -/
theorem eq_of_key_eq {table : Table ρ key} {row r : ρ} (hrow : row ∈ table.rows)
    (hr : r ∈ table.rows) (h : key row = key r) : row = r :=
  List.inj_on_of_nodup_map table.nodup hrow hr h

variable [DecidableEq κ]

/-- The row with a key. -/
def find (table : Table ρ key) (k : κ) : Option ρ :=
  table.rows.find? fun row => key row = k

/-- Rows with another key in place, a row with the key replaced or added at the end. -/
@[grind =]
def putRows (row : ρ) : List ρ → List ρ
  | [] => [row]
  | r :: rest => if key r = key row then row :: rest else r :: putRows row rest

theorem mem_putRows {row r : ρ} {rows : List ρ} (h : (rows.map key).Nodup) :
    r ∈ @putRows ρ κ key _ row rows ↔ r = row ∨ (r ∈ rows ∧ key r ≠ key row) := by
  induction rows with
  | nil => simp [putRows]
  | cons first rest ih =>
      rw [List.map_cons, List.nodup_cons] at h
      unfold putRows
      by_cases hkey : key first = key row
      · rw [if_pos hkey, List.mem_cons, List.mem_cons]
        have hrest : r ∈ rest → key r ≠ key row := by
          intro hmem heq
          exact h.1 (hkey ▸ heq ▸ List.mem_map_of_mem hmem)
        constructor
        · intro hr
          exact hr.imp id fun hmem => ⟨.inr hmem, hrest hmem⟩
        · intro hr
          apply hr.imp id
          intro hmem
          apply hmem.1.resolve_left
          intro heq
          exact hmem.2 (heq ▸ hkey)
      · rw [if_neg hkey, List.mem_cons, List.mem_cons, ih h.2]
        constructor
        · intro hr
          cases hr with
          | inl heq => exact .inr ⟨.inl heq, heq ▸ hkey⟩
          | inr hr => exact hr.imp id fun hmem => ⟨.inr hmem.1, hmem.2⟩
        · intro hr
          cases hr with
          | inl heq => exact .inr (.inl heq)
          | inr hr => exact hr.1.imp id fun hmem => .inr ⟨hmem, hr.2⟩

theorem nodup_putRows {row : ρ} {rows : List ρ} (h : (rows.map key).Nodup) :
    ((@putRows ρ κ key _ row rows).map key).Nodup := by
  induction rows with
  | nil => simp [putRows]
  | cons first rest ih =>
      rw [List.map_cons, List.nodup_cons] at h
      unfold putRows
      by_cases hkey : key first = key row
      · rw [if_pos hkey, List.map_cons, List.nodup_cons, ← hkey]
        exact h
      · rw [if_neg hkey, List.map_cons, List.nodup_cons]
        refine ⟨?_, ih h.2⟩
        intro hmem
        obtain ⟨r, hr, heq⟩ := List.mem_map.mp hmem
        cases (mem_putRows h.2).mp hr with
        | inl hrow => exact hkey (heq ▸ hrow ▸ rfl)
        | inr hrest => exact h.1 (heq ▸ List.mem_map_of_mem hrest.1)

/-- Replace the row with the same key, or add one. -/
def put (table : Table ρ key) (row : ρ) : Table ρ key :=
  ⟨putRows row table.rows, nodup_putRows table.nodup⟩

variable {table : Table ρ key} {row r : ρ} {k : κ}

theorem find_eq_some : table.find k = some row ↔ row ∈ table.rows ∧ key row = k := by
  constructor
  · intro h
    exact ⟨List.mem_of_find?_eq_some h, by simpa using List.find?_some h⟩
  · intro h
    cases hfind : table.find k with
    | none =>
        have hnone := List.find?_eq_none.mp hfind row h.1
        exact absurd (decide_eq_true h.2) hnone
    | some r =>
        have hkey : key r = k := by simpa using List.find?_some hfind
        rw [eq_of_key_eq (List.mem_of_find?_eq_some hfind) h.1 (hkey.trans h.2.symm)]

theorem find_eq_none : table.find k = none ↔ ∀ row ∈ table.rows, key row ≠ k := by
  simp [find, List.find?_eq_none]

theorem mem_put : r ∈ (table.put row).rows ↔ r = row ∨ (r ∈ table.rows ∧ key r ≠ key row) :=
  mem_putRows table.nodup

/-- A row with a new key joins the others. -/
theorem mem_put_of_find_eq_none (h : table.find (key row) = none) :
    r ∈ (table.put row).rows ↔ r = row ∨ r ∈ table.rows := by
  rw [mem_put]
  exact or_congr_right (and_iff_left_of_imp fun hr => find_eq_none.mp h r hr)

theorem find_put_self : (table.put row).find (key row) = some row :=
  find_eq_some.mpr ⟨mem_put.mpr (.inl rfl), rfl⟩

theorem find_put_of_ne (h : key row ≠ k) : (table.put row).find k = table.find k := by
  apply Option.ext
  intro r
  rw [find_eq_some, find_eq_some, mem_put]
  constructor
  · intro hr
    cases hr.1 with
    | inl heq => exact absurd (heq ▸ hr.2) h
    | inr hmem => exact ⟨hmem.1, hr.2⟩
  · intro hr
    exact ⟨.inr ⟨hr.1, fun heq => h (heq ▸ hr.2)⟩, hr.2⟩

theorem find_put (table : Table ρ key) (row : ρ) (k : κ) :
    (table.put row).find k = if key row = k then some row else table.find k := by
  by_cases h : key row = k
  · rw [if_pos h, ← h, find_put_self]
  · rw [if_neg h, find_put_of_ne h]

/-- The table without the row that has a key. -/
def erase (table : Table ρ key) (k : κ) : Table ρ key :=
  ⟨table.rows.filter fun row => key row ≠ k, table.nodup.sublist (List.filter_sublist.map key)⟩

theorem mem_erase : r ∈ (table.erase k).rows ↔ r ∈ table.rows ∧ key r ≠ k := by
  simp [erase, List.mem_filter]

theorem find_erase (table : Table ρ key) (k k' : κ) :
    (table.erase k).find k' = if k = k' then none else table.find k' := by
  apply Option.ext
  intro r
  rw [find_eq_some, mem_erase]
  by_cases h : k = k'
  · rw [if_pos h]
    simp [h]
  · rw [if_neg h, find_eq_some]
    constructor
    · intro hr
      exact ⟨hr.1.1, hr.2⟩
    · intro hr
      exact ⟨⟨hr.1, fun heq => h (heq.symm.trans hr.2)⟩, hr.2⟩

/-- Many rows put in turn are found, if no two of them have one key. -/
theorem find_foldl_put_of_mem {rows : List ρ} (hnodup : (rows.map key).Nodup) (hmem : row ∈ rows)
    (table : Table ρ key) : (rows.foldl put table).find (key row) = some row := by
  induction rows using List.reverseRecOn with
  | nil => cases hmem
  | append_singleton rows last ih =>
      rw [List.foldl_append, List.foldl_cons, List.foldl_nil, find_put]
      rw [List.map_append] at hnodup
      cases List.mem_append.mp hmem with
      | inr heq => rw [List.mem_singleton.mp heq, if_pos rfl]
      | inl hrest =>
          have hne : key last ≠ key row := fun heq =>
            (List.nodup_append.mp hnodup).2.2 _ (List.mem_map_of_mem hrest) _
              (List.mem_singleton_self _) heq.symm
          rw [if_neg hne, ih hnodup.of_append_left hrest]

theorem find_foldl_put_of_notMem {rows : List ρ} (h : k ∉ rows.map key) (table : Table ρ key) :
    (rows.foldl put table).find k = table.find k := by
  induction rows generalizing table with
  | nil => rfl
  | cons first rest ih =>
      rw [List.map_cons, List.mem_cons, not_or] at h
      rw [List.foldl_cons, ih h.2, find_put, if_neg fun heq => h.1 heq.symm]

theorem find_foldl_erase (ks : List κ) (table : Table ρ key) :
    (ks.foldl erase table).find k = if k ∈ ks then none else table.find k := by
  induction ks generalizing table with
  | nil => simp
  | cons first rest ih =>
      rw [List.foldl_cons, ih, find_erase]
      by_cases hrest : k ∈ rest
      · rw [if_pos hrest, if_pos (List.mem_cons_of_mem _ hrest)]
      · rw [if_neg hrest]
        by_cases hfirst : first = k
        · rw [if_pos hfirst, if_pos (hfirst ▸ List.mem_cons_self)]
        · rw [if_neg hfirst, if_neg (List.not_mem_cons_of_ne_of_not_mem (Ne.symm hfirst) hrest)]

/-- Tables in which the same is found hold the same rows. -/
theorem perm_of_find_eq {other : Table ρ key} (h : ∀ k, table.find k = other.find k) :
    table.rows.Perm other.rows := by
  refine (List.perm_ext_iff_of_nodup (table.nodup.of_map _) (other.nodup.of_map _)).mpr ?_
  intro r
  have hiff : ∀ t : Table ρ key, r ∈ t.rows ↔ t.find (key r) = some r := by
    intro t
    rw [find_eq_some]
    exact (and_iff_left rfl).symm
  rw [hiff, hiff, h]

theorem find_eq_of_perm {other : Table ρ key} (h : table.rows.Perm other.rows) (k : κ) :
    table.find k = other.find k := by
  apply Option.ext
  intro r
  rw [find_eq_some, find_eq_some, h.mem_iff]

/-- A row that does not count takes the place of one that does not count either. -/
theorem filter_put_of_not {p : ρ → Bool} (hrow : p row = false)
    (hold : ∀ r ∈ table.rows, key r = key row → p r = false) :
    (table.put row).rows.filter p = table.rows.filter p := by
  show (putRows row table.rows).filter p = table.rows.filter p
  obtain ⟨rows, _⟩ := table
  simp only at hold ⊢
  induction rows with
  | nil => simp [putRows, hrow]
  | cons first rest ih =>
      have hrest := ih (List.nodup_cons.mp ‹_›).2 fun r hr => hold r (List.mem_cons_of_mem _ hr)
      unfold putRows
      by_cases hkey : key first = key row
      · rw [if_pos hkey, List.filter_cons_of_neg (by simp [hrow]),
          List.filter_cons_of_neg (by simp [hold first List.mem_cons_self hkey])]
      · rw [if_neg hkey, List.filter_cons, List.filter_cons, hrest]

/-- The only row that counts. -/
theorem filter_put_eq_singleton {p : ρ → Bool} (hrow : p row = true)
    (hnone : ∀ r ∈ table.rows, p r = false) : (table.put row).rows.filter p = [row] := by
  show (putRows row table.rows).filter p = [row]
  obtain ⟨rows, _⟩ := table
  simp only at hnone ⊢
  induction rows with
  | nil => simp [putRows, hrow]
  | cons first rest ih =>
      have hothers : ∀ r ∈ rest, p r = false := fun r hr => hnone r (List.mem_cons_of_mem _ hr)
      have hrest := ih (List.nodup_cons.mp ‹_›).2 hothers
      unfold putRows
      by_cases hkey : key first = key row
      · rw [if_pos hkey, List.filter_cons_of_pos hrow, List.filter_eq_nil_iff.mpr]
        intro r hr
        simp [hothers r hr]
      · rw [if_neg hkey, List.filter_cons_of_neg (by simp [hnone first List.mem_cons_self]), hrest]

end Table

end Useful.Math
