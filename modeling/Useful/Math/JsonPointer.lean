/-
# JSON Pointers

A pointer is a text of tokens, each after a slash. In a token, a slash and a tilde are
written as a tilde and a digit. Evaluating a pointer takes one step down the tree for each
token: into an object by name, into an array by a numeral without leading zeros. Nothing
else has a step.
-/

import Useful.Math.JsonSchema
import Useful.Math.Text

namespace Useful.Math

namespace JsonPointer

/-! ## Texts -/

/-- Replace two characters in a row by one, from left to right. -/
@[grind =]
def replacePair (first second by' : Char) : List Char → List Char
  | c :: d :: rest =>
      if c = first ∧ d = second then by' :: replacePair first second by' rest
      else c :: replacePair first second by' (d :: rest)
  | text => text

/-- A token with its slashes and tildes restored. -/
def unescape (token : List Char) : List Char :=
  replacePair '~' '0' '~' (replacePair '~' '1' '/' token)

/-- `/~(?:[^01]|$)/` -/
@[grind =]
def badEscape : List Char → Bool
  | '~' :: rest => !(rest.head?.any fun c => c = '0' || c = '1') || badEscape rest
  | _ :: rest => badEscape rest
  | [] => false

/-- The tokens of a text, which come after its slashes. -/
def tokens (pointer : List Char) : List (List Char) := (pointer.splitOn '/').drop 1

/-- `/^(?:0|[1-9]\d*)$/`, with the number it stands for. -/
def arrayIndex (token : List Char) : Option Nat :=
  if token ≠ [] ∧ token.all Char.isDigit ∧ (token = ['0'] ∨ token.head? ≠ some '0') then
    some (token.foldl (fun n c => n * 10 + (c.toNat - 48)) 0)
  else none

/-! ## Evaluation -/

/-- An item of an array; an array has no index from `2 ^ 32 - 1` on. -/
def itemAt {α : Type*} (items : List α) (n : Nat) : Option α :=
  if n < 2 ^ 32 - 1 then items[n]? else none

variable {ν : Type*}

/-- One step down. -/
def child (v : Json ν) (token : String) : Option (Json ν) :=
  match v with
  | .arr items => (arrayIndex token.toList).bind (itemAt items)
  | v => v.get token

/-- The value that some tokens lead to. -/
def evaluate (root : Json ν) (path : List String) : Option (Json ν) := path.foldlM child root

theorem evaluate_append (root : Json ν) (path path' : List String) :
    evaluate root (path ++ path') = (evaluate root path).bind fun v => evaluate v path' :=
  List.foldlM_append

theorem arrayIndex_eq_none {token : List Char} {c : Char} (hmem : c ∈ token)
    (hc : c.isDigit = false) : arrayIndex token = none := by
  refine if_neg fun h => ?_
  rw [List.all_eq_true.mp h.2.1 c hmem] at hc
  cases hc

theorem badEscape_cons_of_ne {c : Char} (hc : c ≠ '~') (rest : List Char) :
    badEscape (c :: rest) = badEscape rest := by
  rw [badEscape]
  exact fun heq => hc heq

/-- Well escaped texts one after another. -/
theorem badEscape_append {text more : List Char} (htext : badEscape text = false)
    (hmore : badEscape more = false) : badEscape (text ++ more) = false := by
  induction text with
  | nil => exact hmore
  | cons c text ih =>
      by_cases hc : c = '~'
      · subst hc
        rw [badEscape, Bool.or_eq_false_iff] at htext
        rw [List.cons_append, badEscape, Bool.or_eq_false_iff]
        refine ⟨?_, ih htext.2⟩
        cases text with
        | nil => exact absurd htext.1 (by decide)
        | cons d text => exact htext.1
      · rw [badEscape_cons_of_ne hc] at htext
        rw [List.cons_append, badEscape_cons_of_ne hc]
        exact ih htext

theorem badEscape_flatten {parts : List (List Char)} (h : ∀ part ∈ parts, badEscape part = false) :
    badEscape parts.flatten = false := by
  induction parts with
  | nil => rfl
  | cons part parts ih =>
      rw [List.forall_mem_cons] at h
      exact badEscape_append h.1 (ih h.2)

theorem badEscape_of_not_mem {text : List Char} (h : '~' ∉ text) : badEscape text = false := by
  induction text with
  | nil => rfl
  | cons c text ih =>
      rw [List.mem_cons, not_or] at h
      rw [badEscape_cons_of_ne (Ne.symm h.1)]
      exact ih h.2

/-- What comes first in a well escaped text is well escaped, if something else than a digit
follows. -/
theorem badEscape_of_append {text more : List Char}
    (hmore : ∀ c, more.head? = some c → c ≠ '0' ∧ c ≠ '1')
    (h : badEscape (text ++ more) = false) : badEscape text = false ∧ badEscape more = false := by
  induction text with
  | nil => exact ⟨rfl, h⟩
  | cons c text ih =>
      by_cases hc : c = '~'
      · subst hc
        rw [List.cons_append, badEscape, Bool.or_eq_false_iff] at h
        obtain ⟨hrest, hmore'⟩ := ih h.2
        refine ⟨?_, hmore'⟩
        rw [badEscape, Bool.or_eq_false_iff]
        refine ⟨?_, hrest⟩
        cases text with
        | nil =>
            rw [List.nil_append] at h
            cases hhead : more.head? with
            | none =>
                rw [hhead] at h
                exact absurd h.1 (by decide)
            | some d =>
                rw [hhead] at h
                have hd := hmore d hhead
                simp [hd] at h
        | cons d text => exact h.1
      · rw [List.cons_append, badEscape_cons_of_ne hc] at h
        rw [badEscape_cons_of_ne hc]
        exact ih h

/-- The parts of a well escaped text are well escaped. -/
theorem badEscape_of_mem_splitOn {part : List Char} (text : List Char) (h : badEscape text = false)
    (hpart : part ∈ text.splitOn '/') : badEscape part = false := by
  by_cases hslash : '/' ∈ text
  · obtain ⟨before, after, htext, hbefore⟩ := List.eq_append_cons_of_mem hslash
    have hlength : after.length < text.length := by
      rw [htext, List.length_append, List.length_cons]
      omega
    rw [htext] at h hpart
    rw [List.splitOn_append_cons_self_of_not_mem hbefore] at hpart
    obtain ⟨hfirst, hrest⟩ := badEscape_of_append (by simp) h
    rw [badEscape_cons_of_ne (by decide)] at hrest
    cases List.mem_cons.mp hpart with
    | inl heq => exact heq ▸ hfirst
    | inr hmem => exact badEscape_of_mem_splitOn after hrest hmem
  · rw [List.splitOn_eq_singleton hslash, List.mem_singleton] at hpart
    exact hpart ▸ h
termination_by text.length

/-- A text that begins with a slash has the tokens of what follows. -/
theorem tokens_cons (text : List Char) : tokens ('/' :: text) = text.splitOn '/' := by
  rw [tokens, List.splitOn_cons_eq_if_modifyHead, if_pos (by decide)]
  rfl

end JsonPointer

end Useful.Math
