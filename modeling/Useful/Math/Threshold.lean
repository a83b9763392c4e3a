/-
# Thresholds over distinct labels

A sweep over signed entries counts an entry when it passes and its label has not
been counted before. The count is the number of distinct labels that pass. Where
labels have owners, `threshold_image_iff` says when a threshold over labels is
one over owners: exactly when different labels have different owners, unless one
label is enough.
-/

import Mathlib.Data.Finset.Card
import Mathlib.Data.Finset.Dedup

namespace Useful.Math

universe u v w

section Count

variable {α : Type u} {κ : Type v} [DecidableEq κ] (label : α → κ) (pass : α → Bool)

/-- Count the entries that pass and whose label was not counted before. -/
def countDistinct : List α → List κ → Nat
  | [], _ => 0
  | x :: xs, seen =>
      if pass x = true ∧ label x ∉ seen then countDistinct xs (label x :: seen) + 1
      else countDistinct xs seen

/-- The labels of the entries that pass. -/
def passing (xs : List α) : Finset κ := ((xs.filter pass).map label).toFinset

theorem mem_passing {xs : List α} {k : κ} :
    k ∈ passing label pass xs ↔ ∃ x ∈ xs, pass x = true ∧ label x = k := by
  simp [passing, and_assoc]

theorem passing_cons_of_pass {x : α} (h : pass x = true) (xs : List α) :
    passing label pass (x :: xs) = insert (label x) (passing label pass xs) := by
  simp [passing, h]

theorem passing_cons_of_not_pass {x : α} (h : ¬ pass x = true) (xs : List α) :
    passing label pass (x :: xs) = passing label pass xs := by
  simp [passing, h]

/-- The sweep counts the labels that pass and were not counted before. -/
theorem countDistinct_eq_card (xs : List α) (seen : List κ) :
    countDistinct label pass xs seen = (passing label pass xs \ seen.toFinset).card := by
  induction xs generalizing seen with
  | nil => simp [countDistinct, passing]
  | cons x xs ih =>
      by_cases hpass : pass x = true
      · rw [passing_cons_of_pass label pass hpass]
        by_cases hseen : label x ∈ seen
        · have hmem : label x ∈ seen.toFinset := List.mem_toFinset.mpr hseen
          rw [countDistinct, if_neg (fun h => h.2 hseen), ih,
            Finset.insert_sdiff_of_mem _ hmem]
        · have hmem : label x ∉ seen.toFinset := fun h => hseen (List.mem_toFinset.mp h)
          have hsplit : insert (label x) (passing label pass xs) \ seen.toFinset =
              insert (label x)
                (passing label pass xs \ insert (label x) seen.toFinset) := by
            ext k
            by_cases hk : k = label x <;> simp [hk, hseen]
          rw [countDistinct, if_pos ⟨hpass, hseen⟩, ih, List.toFinset_cons, hsplit,
            Finset.card_insert_of_notMem (by simp)]
      · rw [countDistinct, if_neg (fun h => hpass h.1), ih,
          passing_cons_of_not_pass label pass hpass]

end Count

/-- A threshold over labels is a threshold over the owners of the labels exactly
when the labels have different owners or one label is enough. -/
theorem threshold_image_iff {κ : Type v} {β : Type w} [DecidableEq κ] [DecidableEq β]
    (owner : κ → β) {labels : Finset κ} {threshold : Nat}
    (hreachable : threshold ≤ labels.card) :
    (∀ signers ⊆ labels, threshold ≤ signers.card →
      threshold ≤ (signers.image owner).card) ↔
      threshold ≤ 1 ∨ Set.InjOn owner labels := by
  constructor
  · intro hcarries
    by_contra hnot
    obtain ⟨hmany, hclash⟩ := not_or.mp hnot
    simp only [Set.InjOn, not_forall] at hclash
    obtain ⟨k, hk, k', hk', hsame, hne⟩ := hclash
    -- Take a smallest set of signers that contains both of the clashing labels.
    have hpair : ({k, k'} : Finset κ) ⊆ labels := by
      intro x hx
      rcases Finset.mem_insert.mp hx with rfl | hx
      · exact hk
      · exact Finset.mem_singleton.mp hx ▸ hk'
    have hcard : ({k, k'} : Finset κ).card ≤ threshold := by
      rw [Finset.card_pair hne]
      omega
    obtain ⟨signers, hsub, hsuper, hsigners⟩ :=
      Finset.exists_subsuperset_card_eq hpair hcard hreachable
    have hkin : k ∈ signers := hsub (Finset.mem_insert_self _ _)
    have hkin' : k' ∈ signers.erase k :=
      Finset.mem_erase.mpr ⟨Ne.symm hne, hsub (by simp)⟩
    have himage : signers.image owner = (signers.erase k).image owner := by
      rw [← Finset.insert_erase hkin, Finset.image_insert, Finset.erase_insert_eq_erase,
        Finset.erase_idem]
      exact Finset.insert_eq_of_mem (hsame ▸ Finset.mem_image_of_mem owner hkin')
    have hle := hcarries signers hsuper hsigners.ge
    rw [himage] at hle
    have hsmall := hle.trans Finset.card_image_le
    rw [Finset.card_erase_of_mem hkin] at hsmall
    omega
  · rintro (hone | hinj) signers hsub hsigners
    · rcases Nat.eq_zero_or_pos threshold with hzero | hpos
      · omega
      · have hnonempty : signers.Nonempty := Finset.card_pos.mp (by omega)
        have himage := Finset.card_pos.mpr (hnonempty.image owner)
        omega
    · rwa [Finset.card_image_of_injOn (hinj.mono (by exact_mod_cast hsub))]

end Useful.Math
