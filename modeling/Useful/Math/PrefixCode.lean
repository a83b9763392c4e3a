/-
# Texts that can be read back from the front

An encoder is usable inside a larger text when a reader who meets an encoded
value at the front of that text can tell both which value it was and where it
ended. Self-delimiting encoders need nothing more; an encoder such as decimal
notation also needs to know that the text after it does not begin with another
digit. `Readable` states this relative to a condition on the remaining text,
and the lemmas below compose it over concatenation and separated lists.

Nothing here parses. Unique reading is a property of the encoder alone, so it
holds for whatever parser a consumer later uses.
-/

import Mathlib.Data.List.Basic

namespace Useful.Math

universe u v w

variable {α : Type u} {β : Type v} {σ : Type w}

/-- The code of `a` can be read from the front of any text whose remainder
satisfies `stop`: no other value with an admissible remainder gives the same
text. -/
def Readable (stop : List σ → Prop) (code : α → List σ) (a : α) : Prop :=
  ∀ (b : α) (rest rest' : List σ), stop rest → stop rest' →
    code a ++ rest = code b ++ rest' → a = b ∧ rest = rest'

/-- The remainder is unconstrained. -/
def anyRest : List σ → Prop := fun _ => True

/-- The remainder, if there is any, does not begin with a symbol of `bad`. -/
def RestAvoids (bad : σ → Prop) (rest : List σ) : Prop :=
  ∀ c ∈ rest.head?, ¬ bad c

@[simp]
theorem restAvoids_nil (bad : σ → Prop) : RestAvoids bad [] := by
  simp [RestAvoids]

@[simp]
theorem restAvoids_cons (bad : σ → Prop) (c : σ) (rest : List σ) :
    RestAvoids bad (c :: rest) ↔ ¬ bad c := by
  simp [RestAvoids]

/-- A code that is readable before every remainder is readable before the
admissible ones. -/
theorem Readable.mono {stop stop' : List σ → Prop} {code : α → List σ} {a : α}
    (himp : ∀ rest, stop' rest → stop rest) (h : Readable stop code a) :
    Readable stop' code a :=
  fun b rest rest' hrest hrest' heq =>
    h b rest rest' (himp _ hrest) (himp _ hrest') heq

/-- Every value whose code is readable before the empty remainder is determined
by its code. -/
theorem Readable.eq_of_code_eq {stop : List σ → Prop} {code : α → List σ} {a b : α}
    (h : Readable stop code a) (hnil : stop []) (heq : code a = code b) : a = b :=
  (h b [] [] hnil hnil (by simpa using heq)).1

/-- Fixed text in front of a readable code keeps it readable. -/
theorem Readable.prepend {stop : List σ → Prop} {code : α → List σ} {a : α}
    (front : List σ) (h : Readable stop code a) :
    Readable stop (fun b => front ++ code b) a := by
  intro b rest rest' hrest hrest' heq
  simp only [List.append_assoc, List.append_cancel_left_eq] at heq
  exact h b rest rest' hrest hrest' heq

/-- A symbol that closes the code makes the remainder irrelevant. -/
theorem Readable.close {stop : List σ → Prop} {code : α → List σ} {a : α}
    (last : σ) (hstop : ∀ rest, stop (last :: rest)) (h : Readable stop code a) :
    Readable anyRest (fun b => code b ++ [last]) a := by
  intro b rest rest' _ _ heq
  simp only [List.append_assoc, List.singleton_append] at heq
  obtain ⟨hab, hrest⟩ := h b _ _ (hstop rest) (hstop rest') heq
  exact ⟨hab, (List.cons.inj hrest).2⟩

/-- Two readable codes, one after the other, read a pair. -/
theorem Readable.pair {stop stop' : List σ → Prop} {code : α → List σ}
    {code' : β → List σ} {a : α} {b : β}
    (hbridge : ∀ b' rest, stop' rest → stop (code' b' ++ rest))
    (ha : Readable stop code a) (hb : Readable stop' code' b) :
    Readable stop' (fun p : α × β => code p.1 ++ code' p.2) (a, b) := by
  rintro ⟨a', b'⟩ rest rest' hrest hrest' heq
  simp only [List.append_assoc] at heq
  obtain ⟨rfl, htail⟩ :=
    ha a' _ _ (hbridge b rest hrest) (hbridge b' rest' hrest') heq
  obtain ⟨rfl, hend⟩ := hb b' rest rest' hrest hrest' htail
  exact ⟨rfl, hend⟩

/-! ## Separated lists -/

/-- The texts of a list with `sep` between neighbours. -/
@[grind =]
def joinWith (sep : σ) : List (List σ) → List σ
  | [] => []
  | [text] => text
  | text :: next :: texts => text ++ sep :: joinWith sep (next :: texts)

/-- The part of a separated list after its first element. -/
@[grind =]
def joinTail (sep : σ) : List (List σ) → List σ
  | [] => []
  | text :: texts => sep :: text ++ joinTail sep texts

theorem joinWith_cons (sep : σ) (text : List σ) (texts : List (List σ)) :
    joinWith sep (text :: texts) = text ++ joinTail sep texts := by
  induction texts generalizing text with
  | nil => simp [joinWith, joinTail]
  | cons next texts ih => simp [joinWith, joinTail, ih next]

/-- Reading the later elements of a separated list: the separator announces
another element and the closing symbol announces the end. -/
theorem joinTail_readable {stop : List σ → Prop} {code : α → List σ} {sep last : σ}
    (hsep : ∀ rest, stop (sep :: rest)) (hlast : ∀ rest, stop (last :: rest))
    (hne : sep ≠ last) :
    ∀ {as : List α} (_ : ∀ a ∈ as, Readable stop code a) (bs : List α)
      (rest rest' : List σ),
      joinTail sep (as.map code) ++ last :: rest =
        joinTail sep (bs.map code) ++ last :: rest' →
      as = bs ∧ rest = rest' := by
  intro as
  induction as with
  | nil =>
      intro _ bs rest rest' heq
      cases bs with
      | nil => simpa [joinTail] using heq
      | cons b bs =>
          simp only [List.map_nil, joinTail, List.nil_append, List.map_cons,
            List.cons_append, List.cons.injEq] at heq
          exact absurd heq.1.symm hne
  | cons a as ih =>
      intro hall bs rest rest' heq
      cases bs with
      | nil =>
          simp only [List.map_nil, joinTail, List.nil_append, List.map_cons,
            List.cons_append, List.cons.injEq] at heq
          exact absurd heq.1 hne
      | cons b bs =>
          simp only [List.map_cons, joinTail, List.cons_append, List.append_assoc,
            List.cons.injEq, true_and] at heq
          -- What follows an element is a separator or the closing symbol.
          have hnext : ∀ (cs : List α) (r : List σ),
              stop (joinTail sep (cs.map code) ++ last :: r) := by
            intro cs r
            cases cs with
            | nil => simpa [joinTail] using hlast r
            | cons c cs => simpa [joinTail] using hsep _
          obtain ⟨rfl, htail⟩ :=
            hall a (by simp) b _ _ (hnext as rest) (hnext bs rest') heq
          obtain ⟨rfl, hend⟩ :=
            ih (fun c hc => hall c (by simp [hc])) bs rest rest' htail
          exact ⟨rfl, hend⟩

/-- A separated list between brackets is readable when its elements are and no
element begins with the closing symbol. -/
theorem joinWith_readable {stop : List σ → Prop} {code : α → List σ} {sep last : σ}
    (hsep : ∀ rest, stop (sep :: rest)) (hlast : ∀ rest, stop (last :: rest))
    (hne : sep ≠ last) (hhead : ∀ a, ∃ c text, code a = c :: text ∧ c ≠ last)
    {as : List α} (hall : ∀ a ∈ as, Readable stop code a) :
    Readable anyRest (fun bs : List α => joinWith sep (bs.map code) ++ [last]) as := by
  intro bs rest rest' _ _ heq
  simp only [List.append_assoc, List.singleton_append] at heq
  cases as with
  | nil =>
      cases bs with
      | nil => simpa [joinWith] using heq
      | cons b bs =>
          obtain ⟨c, text, hcode, hc⟩ := hhead b
          simp only [List.map_nil, List.map_cons, joinWith_cons, hcode, joinWith,
            List.nil_append, List.cons_append, List.cons.injEq] at heq
          exact absurd heq.1.symm hc
  | cons a as =>
      cases bs with
      | nil =>
          obtain ⟨c, text, hcode, hc⟩ := hhead a
          simp only [List.map_nil, List.map_cons, joinWith_cons, hcode, joinWith,
            List.nil_append, List.cons_append, List.cons.injEq] at heq
          exact absurd heq.1 hc
      | cons b bs =>
          have hlead : joinTail sep ((a :: as).map code) ++ last :: rest =
              joinTail sep ((b :: bs).map code) ++ last :: rest' := by
            simp only [List.map_cons, joinWith_cons] at heq
            simpa [joinTail] using heq
          exact joinTail_readable hsep hlast hne hall (b :: bs) rest rest' hlead

end Useful.Math
