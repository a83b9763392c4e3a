/-
# Trees of files

A tree gives the entry at each path. Removing a directory and moving one change what
lies below it, and nothing else; what happens elsewhere is said once here.
-/

import Mathlib.Data.List.Infix

namespace Useful.Math

universe u

/-- The entries of a file system, by path. -/
abbrev FileTree (α : Type u) := List String → Option α

namespace FileTree

variable {α : Type u} {tree tree' tree'' : FileTree α} {dir source target path : List String}

/-- Remove a directory and what lies below it, but for what is left over. -/
def removeAll (dir : List String) (kept : List String → Bool) (tree : FileTree α) : FileTree α :=
  fun path => if dir <+: path ∧ kept path = false then none else tree path

/-- Move a directory to a path below which nothing lies, and rename its entry. -/
def move (source target : List String) (rename : α → α) (tree : FileTree α) : FileTree α :=
  if source = target then tree
  else fun path =>
    if target <+: path then
      let entry := tree (source ++ path.drop target.length)
      if path = target then entry.map rename else entry
    else if source <+: path then none
    else tree path

/-- The trees agree outside the directories. -/
def AgreeOutside (dirs : List (List String)) (tree tree' : FileTree α) : Prop :=
  ∀ path, (∀ dir ∈ dirs, ¬ dir <+: path) → tree' path = tree path

namespace AgreeOutside

theorem refl (dirs : List (List String)) (tree : FileTree α) : AgreeOutside dirs tree tree :=
  fun _ _ => rfl

theorem trans {dirs : List (List String)} (h : AgreeOutside dirs tree tree')
    (h' : AgreeOutside dirs tree' tree'') : AgreeOutside dirs tree tree'' :=
  fun path hpath => (h' path hpath).trans (h path hpath)

end AgreeOutside

theorem removeAll_agree {dirs : List (List String)} (hdir : dir ∈ dirs)
    (kept : List String → Bool) : AgreeOutside dirs tree (tree.removeAll dir kept) := by
  intro path hpath
  exact if_neg fun h => hpath dir hdir h.1

theorem move_agree {dirs : List (List String)} (hsource : source ∈ dirs) (htarget : target ∈ dirs)
    (rename : α → α) : AgreeOutside dirs tree (tree.move source target rename) := by
  intro path hpath
  unfold move
  split_ifs with heq
  · rfl
  · simp only [if_neg (hpath target htarget), if_neg (hpath source hsource)]

theorem removeAll_self (dir : List String) (tree : FileTree α) :
    tree.removeAll dir (fun _ => false) dir = none :=
  if_pos ⟨List.prefix_rfl, rfl⟩

theorem removeAll_of_eq_none {kept : List String → Bool} (h : tree path = none) :
    tree.removeAll dir kept path = none := by
  unfold removeAll
  split_ifs
  · rfl
  · exact h

/-- A directory that was moved elsewhere is gone from its place. -/
theorem move_source {rename : α → α} (hne : source ≠ target) (htarget : ¬ target <+: source) :
    tree.move source target rename source = none := by
  unfold move
  rw [if_neg hne]
  simp only [if_neg htarget, if_pos List.prefix_rfl]

end FileTree

end Useful.Math
