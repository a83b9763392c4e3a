/-
# Templates with named places

A template is text with places that are written as names in braces. Replacing the written form of
one place by a text fills that place and leaves the others as they are, provided that nothing else
in the template has an opening brace.
-/

import Mathlib.Algebra.Order.BigOperators.Group.List
import Mathlib.Algebra.Order.Group.Nat
import Mathlib.Data.List.Infix
import Mathlib.Tactic.Common

namespace Useful.Math

variable {α : Type} [DecidableEq α]

/-! ## Replacing text -/

/-- Replace a pattern in a text whose first elements may still belong to the last match. -/
@[grind =]
def replaceTextFrom (pattern new : List α) : Nat → List α → List α
  | _, [] => []
  | skip + 1, _ :: rest => replaceTextFrom pattern new skip rest
  | 0, a :: rest =>
      if pattern <+: a :: rest then new ++ replaceTextFrom pattern new (pattern.length - 1) rest
      else a :: replaceTextFrom pattern new 0 rest

/-- Replace the matches of a pattern from left to right. -/
def replaceText (pattern new text : List α) : List α := replaceTextFrom pattern new 0 text

section Replace

variable {pattern new : List α}

theorem replaceTextFrom_eq_drop (skip : Nat) (text : List α) :
    replaceTextFrom pattern new skip text = replaceText pattern new (text.drop skip) := by
  induction text generalizing skip with
  | nil => cases skip <;> simp [replaceTextFrom, replaceText]
  | cons a rest ih =>
      cases skip with
      | zero => rfl
      | succ skip => rw [replaceTextFrom, ih, List.drop_succ_cons]

@[simp]
theorem replaceText_nil : replaceText pattern new [] = [] := rfl

theorem replaceText_cons_of_not_prefix {a : α} {rest : List α} (h : ¬ pattern <+: a :: rest) :
    replaceText pattern new (a :: rest) = a :: replaceText pattern new rest := by
  rw [replaceText, replaceTextFrom, if_neg h, replaceText]

/-- A match at the beginning is replaced first. -/
theorem replaceText_append_self (hne : pattern ≠ []) (rest : List α) :
    replaceText pattern new (pattern ++ rest) = new ++ replaceText pattern new rest := by
  obtain ⟨a, tail, rfl⟩ := List.exists_cons_of_ne_nil hne
  have hprefix : a :: tail <+: a :: (tail ++ rest) := ⟨rest, rfl⟩
  rw [List.cons_append, replaceText, replaceTextFrom, if_pos hprefix, replaceTextFrom_eq_drop]
  simp

/-- What the pattern does not begin with is passed over. -/
theorem replaceText_append_of_not_mem {first : α} {tail text : List α}
    (hfirst : first ∉ text) (rest : List α) :
    replaceText (first :: tail) new (text ++ rest) = text ++ replaceText (first :: tail) new rest := by
  induction text with
  | nil => rfl
  | cons a text ih =>
      rw [List.mem_cons, not_or] at hfirst
      have hprefix : ¬ first :: tail <+: a :: (text ++ rest) := fun h =>
        hfirst.1 (List.cons_prefix_cons.mp h).1
      rw [List.cons_append, replaceText_cons_of_not_prefix hprefix, ih hfirst.2, List.cons_append]

end Replace

/-! ## Pieces of a template -/

/-- A template is made of literal text and of places that have a name. -/
inductive Piece
  | literal (text : List Char)
  | place (name : List Char)
  deriving DecidableEq

/-- How a place is written. -/
def placeText (name : List Char) : List Char := '{' :: (name ++ ['}'])

/-- A piece where the places have been filled. -/
def Piece.render (fill : List Char → List Char) : Piece → List Char
  | .literal text => text
  | .place name => fill name

/-- A template where the places have been filled. -/
def renderPieces (fill : List Char → List Char) (pieces : List Piece) : List Char :=
  pieces.flatMap (Piece.render fill)

/-- Literal text has no opening brace, and the names are of a given kind. -/
def Piece.IsPlain (isName : List Char → Bool) : Piece → Prop
  | .literal text => '{' ∉ text
  | .place name => isName name = true

theorem renderPieces_cons (fill : List Char → List Char) (piece : Piece) (pieces : List Piece) :
    renderPieces fill (piece :: pieces) = piece.render fill ++ renderPieces fill pieces := rfl

theorem renderPieces_congr {fill fill' : List Char → List Char} {pieces : List Piece}
    (h : ∀ name, .place name ∈ pieces → fill name = fill' name) :
    renderPieces fill pieces = renderPieces fill' pieces := by
  refine List.flatMap_congr fun piece hpiece => ?_
  cases piece with
  | literal text => rfl
  | place name => exact h name hpiece

section Fill

/-- Names are told apart by how they are written. -/
theorem not_placeText_prefix {name other : List Char} (hname : '}' ∉ name) (hother : '}' ∉ other)
    (hne : name ≠ other) (rest : List Char) : ¬ placeText name <+: placeText other ++ rest := by
  intro h
  obtain ⟨suffix, hsuffix⟩ := h
  simp only [placeText, List.cons_append, List.append_assoc, List.nil_append, List.cons.injEq,
    true_and] at hsuffix
  refine hne ?_
  clear hne
  induction name generalizing other with
  | nil =>
      cases other with
      | nil => rfl
      | cons c other =>
          rw [List.nil_append, List.cons_append, List.cons.injEq] at hsuffix
          exact absurd (hsuffix.1 ▸ List.mem_cons_self) hother
  | cons c name ih =>
      cases other with
      | nil =>
          rw [List.nil_append, List.cons_append, List.cons.injEq] at hsuffix
          exact absurd (hsuffix.1 ▸ List.mem_cons_self) hname
      | cons d other =>
          rw [List.cons_append, List.cons_append, List.cons.injEq] at hsuffix
          obtain ⟨rfl, htail⟩ := hsuffix
          rw [ih (fun h => hname (List.mem_cons_of_mem _ h))
            (fun h => hother (List.mem_cons_of_mem _ h)) htail]

/-- What the pattern does not begin with has no match that begins in it. -/
theorem infix_append_iff_of_not_mem {first : Char} {tail text rest : List Char}
    (hfirst : first ∉ text) : first :: tail <:+: text ++ rest ↔ first :: tail <:+: rest := by
  induction text with
  | nil => rfl
  | cons a text ih =>
      rw [List.mem_cons, not_or] at hfirst
      rw [List.cons_append, List.infix_cons_iff, ih hfirst.2, List.cons_prefix_cons]
      exact or_iff_right fun h => hfirst.1 h.1

variable {isName : List Char → Bool} {pieces : List Piece}

/-- The written form of a place occurs where the place does. -/
theorem placeText_infix_iff {name : List Char} (hpieces : ∀ piece ∈ pieces, piece.IsPlain isName)
    (hbrace : ∀ other, isName other = true → '{' ∉ other ∧ '}' ∉ other)
    (hname : isName name = true) :
    placeText name <:+: renderPieces placeText pieces ↔ .place name ∈ pieces := by
  induction pieces with
  | nil => simp [renderPieces, placeText]
  | cons piece pieces ih =>
      obtain ⟨hpiece, hrest⟩ := List.forall_mem_cons.mp hpieces
      rw [renderPieces_cons, List.mem_cons, ← ih hrest]
      cases piece with
      | literal text =>
          have hskip := @infix_append_iff_of_not_mem _ (name ++ ['}']) _ (renderPieces placeText pieces)
            hpiece
          exact hskip.trans (by simp [placeText])
      | place other =>
          by_cases hother : name = other
          · subst hother
            exact iff_of_true (List.infix_append' [] _ _) (.inl rfl)
          have hinner : '{' ∉ other ++ ['}'] := by
            simpa using (hbrace other hpiece).1
          have hskip := not_placeText_prefix (hbrace name hname).2 (hbrace other hpiece).2 hother
            (renderPieces placeText pieces)
          calc placeText name <:+: '{' :: ((other ++ ['}']) ++ renderPieces placeText pieces)
              ↔ placeText name <+: '{' :: ((other ++ ['}']) ++ renderPieces placeText pieces) ∨
                  placeText name <:+: (other ++ ['}']) ++ renderPieces placeText pieces :=
                List.infix_cons_iff
            _ ↔ placeText name <:+: (other ++ ['}']) ++ renderPieces placeText pieces :=
                or_iff_right hskip
            _ ↔ placeText name <:+: renderPieces placeText pieces :=
                infix_append_iff_of_not_mem hinner
            _ ↔ .place name = Piece.place other ∨
                  placeText name <:+: renderPieces placeText pieces := by
                simp [hother]

/-- Replacing the written form of one place fills that place: what the others hold has no opening
brace, or is how they are written. -/
theorem replaceText_renderPieces {fill : List Char → List Char} {name : List Char}
    (new : List Char) (hpieces : ∀ piece ∈ pieces, piece.IsPlain isName)
    (hbrace : ∀ other, isName other = true → '{' ∉ other ∧ '}' ∉ other)
    (hname : isName name = true) (hself : fill name = placeText name)
    (hfill : ∀ other, isName other = true → other ≠ name →
      fill other = placeText other ∨ '{' ∉ fill other) :
    replaceText (placeText name) new (renderPieces fill pieces) =
      renderPieces (fun other => if other = name then new else fill other) pieces := by
  induction pieces with
  | nil => rfl
  | cons piece pieces ih =>
      obtain ⟨hpiece, hrest⟩ := List.forall_mem_cons.mp hpieces
      rw [renderPieces_cons, renderPieces_cons, ← ih hrest]
      cases piece with
      | literal text => exact replaceText_append_of_not_mem hpiece _
      | place other =>
          by_cases hother : other = name
          · subst hother
            simp only [Piece.render, hself, if_true]
            exact replaceText_append_self (by simp [placeText]) _
          simp only [Piece.render, if_neg hother]
          rcases hfill other hpiece hother with heq | hfree
          · rw [heq]
            have hskip := not_placeText_prefix (hbrace name hname).2 (hbrace other hpiece).2
              (fun h => hother h.symm) (renderPieces fill pieces)
            have hinner : '{' ∉ other ++ ['}'] := by
              simpa using (hbrace other hpiece).1
            calc replaceText (placeText name) new ('{' :: ((other ++ ['}']) ++ renderPieces fill pieces))
                = '{' :: replaceText (placeText name) new
                    ((other ++ ['}']) ++ renderPieces fill pieces) :=
                  replaceText_cons_of_not_prefix hskip
              _ = '{' :: ((other ++ ['}']) ++
                    replaceText (placeText name) new (renderPieces fill pieces)) :=
                  congrArg _ (replaceText_append_of_not_mem hinner _)
          · exact replaceText_append_of_not_mem hfree _

/-- Filled places leave no opening brace. -/
theorem not_mem_renderPieces {fill : List Char → List Char}
    (hpieces : ∀ piece ∈ pieces, piece.IsPlain isName)
    (hfill : ∀ name, isName name = true → '{' ∉ fill name) : '{' ∉ renderPieces fill pieces := by
  intro hmem
  obtain ⟨piece, hpiece, hc⟩ := List.mem_flatMap.mp hmem
  cases piece with
  | literal text => exact hpieces _ hpiece hc
  | place name => exact hfill name (hpieces _ hpiece) hc

/-- A template that is written without an opening brace has no places. -/
theorem mem_renderPieces_placeText {name : List Char} (h : .place name ∈ pieces) :
    '{' ∈ renderPieces placeText pieces :=
  List.mem_flatMap.mpr ⟨_, h, by simp [Piece.render, placeText]⟩

/-- A place that occurs is told from the length of the text, when what another filling puts there is
longer and nothing else is shorter. -/
theorem length_renderPieces_lt {fill fill' : List Char → List Char} {name : List Char}
    (hle : ∀ other, (fill other).length ≤ (fill' other).length)
    (hlt : (fill name).length < (fill' name).length) (hmem : .place name ∈ pieces) :
    (renderPieces fill pieces).length < (renderPieces fill' pieces).length := by
  have hpiece : ∀ piece : Piece, (piece.render fill).length ≤ (piece.render fill').length := by
    intro piece
    cases piece with
    | literal text => exact Nat.le_refl _
    | place other => exact hle other
  simp only [renderPieces, List.length_flatMap]
  exact List.sum_lt_sum _ _ (fun piece _ => hpiece piece) ⟨_, hmem, hlt⟩

end Fill

end Useful.Math
