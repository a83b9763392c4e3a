/-
# Items in groups

A list is split by a key into groups, in the order of the keys. The groups of some keys
depend on the items with these keys alone, and not on where the others stand.
-/

import Mathlib.Data.List.Dedup
import Mathlib.Data.List.Sort
import Mathlib.Tactic.Common

namespace Useful.Math

universe u v

variable {α : Type u} {κ : Type v} [DecidableEq κ] (le : κ → κ → Prop) [DecidableRel le]
  (key : α → κ)

/-- The keys of some items, each once and in order. -/
def groupKeys (items : List α) : List κ := (items.map key).dedup.insertionSort le

/-- The items with a key. -/
def groupOf (items : List α) (k : κ) : List α := items.filter fun a => key a = k

/-- The keys with their items. -/
def groups (items : List α) : List (κ × List α) :=
  (groupKeys le key items).map fun k => (k, groupOf key items k)

variable {le key} {items items' : List α} {k : κ}

theorem mem_groupKeys : k ∈ groupKeys le key items ↔ ∃ a ∈ items, key a = k := by
  rw [groupKeys, List.mem_insertionSort, List.mem_dedup, List.mem_map]

theorem pairwise_groupKeys [Std.Total le] [IsTrans κ le] : (groupKeys le key items).Pairwise le :=
  List.pairwise_insertionSort _ _

theorem nodup_groupKeys : (groupKeys le key items).Nodup :=
  (List.perm_insertionSort _ _).nodup_iff.mpr (List.nodup_dedup _)

theorem mem_groupOf {a : α} : a ∈ groupOf key items k ↔ a ∈ items ∧ key a = k := by
  simp [groupOf]

/-- The items with one of some keys, key by key. -/
theorem flatten_groupOf_perm {keys : List κ} (hnodup : keys.Nodup) :
    (keys.map (groupOf key items)).flatten.Perm (items.filter fun a => key a ∈ keys) := by
  induction keys with
  | nil => simp
  | cons k keys ih =>
      rw [List.nodup_cons] at hnodup
      have hfirst : (items.filter fun a => key a ∈ k :: keys).filter (fun a => key a = k) =
          groupOf key items k := by
        rw [List.filter_filter]
        refine List.filter_congr fun a _ => ?_
        by_cases h : key a = k <;> simp [h]
      have hrest : (items.filter fun a => key a ∈ k :: keys).filter (fun a => !decide (key a = k)) =
          items.filter fun a => key a ∈ keys := by
        rw [List.filter_filter]
        refine List.filter_congr fun a _ => ?_
        by_cases h : key a = k
        · simp [h, hnodup.1]
        · simp [h]
      have hsplit := List.filter_append_perm (fun a => decide (key a = k))
        (items.filter fun a => key a ∈ k :: keys)
      rw [hfirst, hrest] at hsplit
      rw [List.map_cons, List.flatten_cons]
      exact ((ih hnodup.2).append_left _).trans hsplit

/-- Every item is in its group, and in no other. -/
theorem flatten_groups_perm : ((groups le key items).map Prod.snd).flatten.Perm items := by
  have hall : items.filter (fun a => key a ∈ groupKeys le key items) = items := by
    rw [List.filter_eq_self]
    intro a ha
    exact decide_eq_true (mem_groupKeys.mpr ⟨a, ha, rfl⟩)
  have hperm := @flatten_groupOf_perm _ _ _ key items _ (@nodup_groupKeys _ _ _ le _ key items)
  rw [hall] at hperm
  rwa [groups, List.map_map]

/-- What holds of any two items of a group holds of any two items with one key. -/
theorem pairwise_groupOf_iff {R : α → α → Prop} :
    (∀ k, (groupOf key items k).Pairwise R) ↔ items.Pairwise fun a b => key a = key b → R a b := by
  simp only [groupOf, List.pairwise_filter, decide_eq_true_eq]
  constructor
  · intro h
    rw [List.pairwise_iff_getElem]
    intro i j hi hj hij heq
    exact List.pairwise_iff_getElem.mp (h (key items[j])) i j hi hj hij heq rfl
  · intro h k
    exact h.imp fun hab ha hb => hab (ha.trans hb.symm)

section

variable [Std.Total le] [IsTrans κ le] [Std.Antisymm le]

/-- Lists of keys in order are told apart by what is in them. -/
theorem groupKeys_eq_of_mem_iff {keys : List κ} (hsorted : keys.Pairwise le) (hnodup : keys.Nodup)
    (h : ∀ k, k ∈ keys ↔ ∃ a ∈ items, key a = k) : keys = groupKeys le key items := by
  have hperm : keys.Perm (groupKeys le key items) := by
    apply (List.perm_ext_iff_of_nodup hnodup nodup_groupKeys).mpr
    intro k
    rw [h k, mem_groupKeys]
  apply List.Perm.eq_of_pairwise _ hsorted (List.pairwise_insertionSort _ _) hperm
  exact fun a b _ _ => antisymm

theorem groupKeys_perm (h : items.Perm items') : groupKeys le key items = groupKeys le key items' := by
  apply groupKeys_eq_of_mem_iff pairwise_groupKeys nodup_groupKeys
  intro k
  rw [mem_groupKeys]
  simp only [h.mem_iff]

theorem filter_groupKeys (p : κ → Bool) : (groupKeys le key items).filter p =
    groupKeys le key (items.filter fun a => p (key a)) := by
  apply groupKeys_eq_of_mem_iff (pairwise_groupKeys.filter p) (nodup_groupKeys.filter p)
  intro k
  rw [List.mem_filter, mem_groupKeys]
  constructor
  · rintro ⟨⟨a, ha, rfl⟩, hp⟩
    exact ⟨a, List.mem_filter.mpr ⟨ha, hp⟩, rfl⟩
  · rintro ⟨a, ha, rfl⟩
    obtain ⟨hmem, hp⟩ := List.mem_filter.mp ha
    exact ⟨⟨a, hmem, rfl⟩, hp⟩

/-- The groups of some keys are the groups of the items with these keys. -/
theorem filter_groups (p : κ → Bool) : (groups le key items).filter (fun g => p g.1) =
    groups le key (items.filter fun a => p (key a)) := by
  unfold groups
  rw [List.filter_map, ← filter_groupKeys]
  apply List.map_congr_left
  intro k hk
  have hp : p k = true := (List.mem_filter.mp hk).2
  unfold groupOf
  rw [List.filter_filter]
  congr 1
  apply List.filter_congr
  intro a _
  by_cases hkey : key a = k
  · simp [hkey, hp]
  · simp [hkey]

/-- What is made of each group depends on the order of the items only within the groups. -/
theorem filterMap_groups_congr {γ : Type*} {f : κ × List α → Option γ} (h : items.Perm items')
    (hf : ∀ k, f (k, groupOf key items k) = f (k, groupOf key items' k)) :
    (groups le key items).filterMap f = (groups le key items').filterMap f := by
  unfold groups
  rw [List.filterMap_map, List.filterMap_map, ← groupKeys_perm h]
  exact List.filterMap_congr fun k _ => hf k

end

/-- Results that are all there stand one by one next to what they come from. -/
theorem forall₂_filterMap {β γ : Type*} {keys : List κ} {g : κ → β} {f : κ → Option γ}
    {R : β → γ → Prop} (h : ∀ k ∈ keys, ∃ c, f k = some c ∧ R (g k) c) :
    List.Forall₂ R (keys.map g) (keys.filterMap f) := by
  induction keys with
  | nil => exact .nil
  | cons first rest ih =>
      obtain ⟨c, hc, hR⟩ := h first List.mem_cons_self
      rw [List.map_cons, List.filterMap_cons_some hc]
      exact .cons hR (ih fun k hk => h k (List.mem_cons_of_mem _ hk))

/-- A list of results that are all there determines each of them. -/
theorem eq_of_filterMap_eq {γ : Type*} {keys : List κ} {f g : κ → Option γ}
    (h : keys.filterMap f = keys.filterMap g) (hf : ∀ k ∈ keys, (f k).isSome = true)
    (hg : ∀ k ∈ keys, (g k).isSome = true) : ∀ k ∈ keys, f k = g k := by
  induction keys with
  | nil =>
      intro k hk
      cases hk
  | cons first rest ih =>
      obtain ⟨a, ha⟩ := Option.isSome_iff_exists.mp (hf first List.mem_cons_self)
      obtain ⟨b, hb⟩ := Option.isSome_iff_exists.mp (hg first List.mem_cons_self)
      rw [List.filterMap_cons_some ha, List.filterMap_cons_some hb, List.cons.injEq] at h
      have hrest := ih h.2 (fun k hk => hf k (List.mem_cons_of_mem _ hk))
        fun k hk => hg k (List.mem_cons_of_mem _ hk)
      intro k hk
      cases List.mem_cons.mp hk with
      | inl heq => rw [heq, ha, hb, h.1]
      | inr hmem => exact hrest k hmem

/-- Results picked out by where they come from. -/
theorem filter_filterMap_eq {γ : Type*} {l : List α} {f : α → Option γ} {p : α → Bool}
    {q : γ → Bool} (h : ∀ a ∈ l, ∀ b, f a = some b → q b = p a) :
    (l.filterMap f).filter q = (l.filter p).filterMap f := by
  rw [List.filter_filterMap, List.filterMap_filter]
  apply List.filterMap_congr
  intro a ha
  cases hfa : f a with
  | none => simp
  | some b =>
      rw [Option.filter_some, h a ha b hfa]

/-- Sorting forgets the order, if no two items are equivalent. -/
theorem insertionSort_eq_of_perm {r : α → α → Prop} [DecidableRel r] [Std.Total r] [IsTrans α r]
    (h : items.Perm items') (hanti : ∀ a ∈ items, ∀ b ∈ items, r a b → r b a → a = b) :
    items.insertionSort r = items'.insertionSort r := by
  have hperm := ((List.perm_insertionSort r items).trans h).trans (List.perm_insertionSort r items').symm
  apply List.Perm.eq_of_pairwise _ (List.pairwise_insertionSort _ _) (List.pairwise_insertionSort _ _)
    hperm
  intro a b ha hb
  rw [List.mem_insertionSort] at ha hb
  exact hanti a ha b (h.mem_iff.mpr hb)

/-- An item that comes before all others in the order comes first when sorted. -/
theorem insertionSort_cons_of_le {r : α → α → Prop} [DecidableRel r] {a : α}
    (h : ∀ b ∈ items, r a b) : (a :: items).insertionSort r = a :: items.insertionSort r := by
  rw [List.insertionSort_cons]
  cases hsorted : items.insertionSort r with
  | nil => rfl
  | cons b rest =>
      have hb : b ∈ items := by
        rw [← List.mem_insertionSort r, hsorted]
        exact List.mem_cons_self
      exact List.orderedInsert_cons_of_le _ _ (h b hb)

end Useful.Math
