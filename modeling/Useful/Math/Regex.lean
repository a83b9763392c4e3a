/-
# Regular expressions over character classes

The patterns of a program are written as they stand in its source and are tested by
derivatives: what is left of a pattern after its first letter. The language of a pattern
says what it matches, and a test succeeds exactly on the words of that language.
-/

import Mathlib.Computability.Language
import Mathlib.Tactic.Common

namespace Useful.Math

open scoped Computability

universe u

/-- Patterns whose letters are classes of letters. -/
inductive Regex (α : Type u) : Type u
  | empty
  | eps
  | cls (p : α → Bool)
  | alt (r s : Regex α)
  | seq (r s : Regex α)
  | star (r : Regex α)

namespace Regex

variable {α : Type u}

/-! ## Testing -/

/-- The pattern matches the empty word. -/
def nullable : Regex α → Bool
  | empty => false
  | eps => true
  | cls _ => false
  | alt r s => r.nullable || s.nullable
  | seq r s => r.nullable && s.nullable
  | star _ => true

/-- An alternative, without alternatives that match nothing. -/
def alt' : Regex α → Regex α → Regex α
  | empty, s => s
  | r, empty => r
  | r, s => alt r s

/-- A sequence, without parts that match nothing or only the empty word. -/
def seq' : Regex α → Regex α → Regex α
  | empty, _ => empty
  | eps, s => s
  | r, s => seq r s

/-- What is left of a pattern after one letter. -/
def deriv (a : α) : Regex α → Regex α
  | empty => empty
  | eps => empty
  | cls p => if p a then eps else empty
  | alt r s => alt' (r.deriv a) (s.deriv a)
  | seq r s =>
      if r.nullable then alt' (seq' (r.deriv a) s) (s.deriv a) else seq' (r.deriv a) s
  | star r => seq' (r.deriv a) (star r)

/-- The pattern matches the whole word. -/
def test : Regex α → List α → Bool
  | r, [] => r.nullable
  | r, a :: w => (r.deriv a).test w

/-- `r{n}`. -/
def times (r : Regex α) : Nat → Regex α
  | 0 => eps
  | n + 1 => seq r (r.times n)

/-- `r{0,n}`. -/
def upTo (r : Regex α) : Nat → Regex α
  | 0 => eps
  | n + 1 => alt eps (seq r (r.upTo n))

/-- `r+`. -/
def plus (r : Regex α) : Regex α := seq r (star r)

/-- `r?`. -/
def opt (r : Regex α) : Regex α := alt eps r

/-- One letter. -/
def letter [DecidableEq α] (a : α) : Regex α := cls fun b => decide (b = a)

/-- A fixed word. -/
@[grind =]
def word [DecidableEq α] : List α → Regex α
  | [] => eps
  | a :: w => seq (letter a) (word w)

/-- Any letters. -/
def any : Regex α := star (cls fun _ => true)

/-! ## The language of a pattern -/

def lang : Regex α → Language α
  | empty => 0
  | eps => 1
  | cls p => {w | ∃ a, p a = true ∧ w = [a]}
  | alt r s => r.lang + s.lang
  | seq r s => r.lang * s.lang
  | star r => r.lang∗

theorem mem_empty {w : List α} : w ∈ (empty : Regex α).lang ↔ False :=
  Iff.rfl

theorem mem_eps {w : List α} : w ∈ (eps : Regex α).lang ↔ w = [] :=
  Iff.rfl

theorem mem_cls {p : α → Bool} {w : List α} : w ∈ (cls p).lang ↔ ∃ a, p a = true ∧ w = [a] :=
  Iff.rfl

theorem mem_alt {r s : Regex α} {w : List α} : w ∈ (alt r s).lang ↔ w ∈ r.lang ∨ w ∈ s.lang :=
  Iff.rfl

theorem mem_seq {r s : Regex α} {w : List α} :
    w ∈ (seq r s).lang ↔ ∃ u ∈ r.lang, ∃ v ∈ s.lang, u ++ v = w :=
  Language.mem_mul

theorem mem_star {r : Regex α} {w : List α} :
    w ∈ (star r).lang ↔ ∃ parts : List (List α), w = parts.flatten ∧ ∀ u ∈ parts, u ∈ r.lang :=
  Language.mem_kstar

theorem nil_mem_star (r : Regex α) : [] ∈ (star r).lang :=
  Language.nil_mem_kstar r.lang

theorem nullable_iff (r : Regex α) : r.nullable = true ↔ [] ∈ r.lang := by
  induction r with
  | empty | eps => simp [nullable, mem_empty, mem_eps]
  | cls p => simp [nullable, mem_cls]
  | alt r s ihr ihs => simp [nullable, mem_alt, ihr, ihs]
  | seq r s ihr ihs => simp [nullable, mem_seq, ihr, ihs]
  | star r _ => simp [nullable, nil_mem_star]

theorem lang_alt' (r s : Regex α) : (alt' r s).lang = (alt r s).lang := by
  unfold alt'
  split
  · exact (zero_add _).symm
  · exact (add_zero _).symm
  · rfl

theorem lang_seq' (r s : Regex α) : (seq' r s).lang = (seq r s).lang := by
  unfold seq'
  split
  · exact (zero_mul _).symm
  · exact (one_mul _).symm
  · rfl

/-- A word that begins with a letter is split after the first part or inside it. -/
theorem cons_mem_seq {r s : Regex α} {a : α} {w : List α} :
    a :: w ∈ (seq r s).lang ↔
      (∃ u v, a :: u ∈ r.lang ∧ v ∈ s.lang ∧ u ++ v = w) ∨ [] ∈ r.lang ∧ a :: w ∈ s.lang := by
  rw [mem_seq]
  constructor
  · rintro ⟨u, hu, v, hv, heq⟩
    cases u with
    | nil => exact .inr ⟨hu, by simpa using heq ▸ hv⟩
    | cons b u =>
        obtain ⟨rfl, rfl⟩ : b = a ∧ u ++ v = w := by simpa using heq
        exact .inl ⟨u, v, hu, hv, rfl⟩
  · rintro (⟨u, v, hu, hv, rfl⟩ | ⟨hr, hs⟩)
    · exact ⟨a :: u, hu, v, hv, rfl⟩
    · exact ⟨[], hr, a :: w, hs, rfl⟩

/-- A repetition that begins with a letter begins with a part that does. -/
theorem cons_mem_star {r : Regex α} {a : α} {w : List α} :
    a :: w ∈ (star r).lang ↔ ∃ u v, a :: u ∈ r.lang ∧ v ∈ (star r).lang ∧ u ++ v = w := by
  constructor
  · intro h
    obtain ⟨parts, heq, hparts⟩ := mem_star.mp h
    induction parts with
    | nil => cases heq
    | cons part parts ih =>
        cases part with
        | nil => exact ih heq fun u hu => hparts u (List.mem_cons_of_mem _ hu)
        | cons b u =>
            obtain ⟨rfl, rfl⟩ : a = b ∧ w = u ++ parts.flatten := by simpa using heq
            have hrest : parts.flatten ∈ (star r).lang :=
              mem_star.mpr ⟨parts, rfl, fun v hv => hparts v (List.mem_cons_of_mem _ hv)⟩
            exact ⟨u, parts.flatten, hparts _ List.mem_cons_self, hrest, rfl⟩
  · rintro ⟨u, v, hu, hv, rfl⟩
    obtain ⟨parts, rfl, hparts⟩ := mem_star.mp hv
    refine mem_star.mpr ⟨(a :: u) :: parts, rfl, ?_⟩
    intro part hpart
    rcases List.mem_cons.mp hpart with rfl | hpart
    · exact hu
    · exact hparts part hpart

theorem mem_deriv {r : Regex α} {a : α} {w : List α} :
    w ∈ (r.deriv a).lang ↔ a :: w ∈ r.lang := by
  induction r generalizing w with
  | empty => simp [deriv, mem_empty]
  | eps => simp [deriv, mem_empty, mem_eps]
  | cls p =>
      unfold deriv
      split_ifs with hp
      · simp [mem_eps, mem_cls, hp]
      · simp [mem_empty, mem_cls, hp]
  | alt r s ihr ihs => rw [deriv, lang_alt', mem_alt, mem_alt, ihr, ihs]
  | seq r s ihr ihs =>
      have hseq : w ∈ (seq (r.deriv a) s).lang ↔
          ∃ u v, a :: u ∈ r.lang ∧ v ∈ s.lang ∧ u ++ v = w := by
        rw [mem_seq]
        constructor
        · rintro ⟨u, hu, v, hv, heq⟩
          exact ⟨u, v, ihr.mp hu, hv, heq⟩
        · rintro ⟨u, v, hu, hv, heq⟩
          exact ⟨u, ihr.mpr hu, v, hv, heq⟩
      rw [deriv, cons_mem_seq, ← nullable_iff]
      split_ifs with hnull
      · rw [lang_alt', mem_alt, lang_seq', hseq, ihs]
        simp [hnull]
      · rw [lang_seq', hseq]
        simp [hnull]
  | star r ih =>
      rw [deriv, lang_seq', cons_mem_star, mem_seq]
      constructor
      · rintro ⟨u, hu, v, hv, heq⟩
        exact ⟨u, v, ih.mp hu, hv, heq⟩
      · rintro ⟨u, v, hu, hv, heq⟩
        exact ⟨u, ih.mpr hu, v, hv, heq⟩

/-- A test succeeds on the words of the language. -/
theorem test_iff {r : Regex α} {w : List α} : r.test w = true ↔ w ∈ r.lang := by
  induction w generalizing r with
  | nil => exact nullable_iff r
  | cons a w ih => rw [test, ih, mem_deriv]

/-! ## What the words look like -/

theorem mem_letter [DecidableEq α] {a : α} {w : List α} : w ∈ (letter a).lang ↔ w = [a] := by
  simp [letter, mem_cls]

theorem mem_word [DecidableEq α] {u w : List α} : w ∈ (word u).lang ↔ w = u := by
  induction u generalizing w with
  | nil => exact mem_eps
  | cons a u ih => simp [word, mem_seq, mem_letter, ih, eq_comm]

theorem mem_opt {r : Regex α} {w : List α} : w ∈ r.opt.lang ↔ w = [] ∨ w ∈ r.lang :=
  Iff.rfl

/-- A repeated class is the words of its letters. -/
theorem mem_star_cls {p : α → Bool} {w : List α} :
    w ∈ (star (cls p)).lang ↔ ∀ a ∈ w, p a = true := by
  induction w with
  | nil => simp [nil_mem_star]
  | cons a w ih => simp [cons_mem_star, mem_cls, ih]

theorem mem_plus_cls {p : α → Bool} {w : List α} :
    w ∈ (plus (cls p)).lang ↔ w ≠ [] ∧ ∀ a ∈ w, p a = true := by
  rw [plus, mem_seq]
  constructor
  · rintro ⟨_, ⟨a, ha, rfl⟩, v, hv, rfl⟩
    simpa using And.intro ha (mem_star_cls.mp hv)
  · rintro ⟨hne, hall⟩
    cases w with
    | nil => exact absurd rfl hne
    | cons a w =>
        rw [List.forall_mem_cons] at hall
        exact ⟨[a], ⟨a, hall.1, rfl⟩, w, mem_star_cls.mpr hall.2, rfl⟩

theorem mem_times_cls {p : α → Bool} {n : Nat} {w : List α} :
    w ∈ ((cls p).times n).lang ↔ w.length = n ∧ ∀ a ∈ w, p a = true := by
  induction n generalizing w with
  | zero =>
      rw [times, mem_eps]
      constructor
      · rintro rfl
        simp
      · exact fun h => List.length_eq_zero_iff.mp h.1
  | succ n ih =>
      rw [times, mem_seq]
      constructor
      · rintro ⟨_, ⟨a, ha, rfl⟩, v, hv, rfl⟩
        obtain ⟨rfl, hall⟩ := ih.mp hv
        simpa using And.intro ha hall
      · rintro ⟨hlength, hall⟩
        cases w with
        | nil => cases hlength
        | cons a w =>
            rw [List.forall_mem_cons] at hall
            exact ⟨[a], ⟨a, hall.1, rfl⟩, w, ih.mpr ⟨Nat.succ.inj hlength, hall.2⟩, rfl⟩

theorem mem_upTo_cls {p : α → Bool} {n : Nat} {w : List α} :
    w ∈ ((cls p).upTo n).lang ↔ w.length ≤ n ∧ ∀ a ∈ w, p a = true := by
  induction n generalizing w with
  | zero =>
      rw [upTo, mem_eps, Nat.le_zero, List.length_eq_zero_iff]
      constructor
      · rintro rfl
        simp
      · exact fun h => h.1
  | succ n ih =>
      rw [upTo, mem_alt, mem_eps, mem_seq]
      constructor
      · rintro (rfl | ⟨_, ⟨a, ha, rfl⟩, v, hv, rfl⟩)
        · simp
        · obtain ⟨hlength, hall⟩ := ih.mp hv
          simpa using And.intro hlength (And.intro ha hall)
      · rintro ⟨hlength, hall⟩
        cases w with
        | nil => exact .inl rfl
        | cons a w =>
            rw [List.forall_mem_cons] at hall
            exact .inr ⟨[a], ⟨a, hall.1, rfl⟩, w, ih.mpr ⟨Nat.le_of_succ_le_succ hlength, hall.2⟩,
              rfl⟩

/-- What begins with a fixed word. -/
theorem mem_word_any [DecidableEq α] {u w : List α} :
    w ∈ (seq (word u) any).lang ↔ u <+: w := by
  rw [mem_seq]
  constructor
  · rintro ⟨v, hv, rest, -, rfl⟩
    exact ⟨rest, by rw [mem_word.mp hv]⟩
  · rintro ⟨rest, rfl⟩
    exact ⟨u, mem_word.mpr rfl, rest, mem_star_cls.mpr fun _ _ => rfl, rfl⟩

/-- Parts one after another. -/
theorem append_mem_seq {r s : Regex α} {u v : List α} (hu : u ∈ r.lang) (hv : v ∈ s.lang) :
    u ++ v ∈ (seq r s).lang :=
  mem_seq.mpr ⟨u, hu, v, hv, rfl⟩

theorem letter_mem_seq [DecidableEq α] {s : Regex α} {a : α} {v : List α} (hv : v ∈ s.lang) :
    a :: v ∈ (seq (letter a) s).lang :=
  append_mem_seq (mem_letter.mpr rfl) hv

/-- All letters of a pattern have a property. -/
def Letters (P : α → Prop) : Regex α → Prop
  | empty | eps => True
  | cls p => ∀ a, p a = true → P a
  | alt r s | seq r s => r.Letters P ∧ s.Letters P
  | star r => r.Letters P

theorem Letters.times {P : α → Prop} {r : Regex α} (h : r.Letters P) (n : Nat) :
    (r.times n).Letters P := by
  induction n with
  | zero => trivial
  | succ n ih => exact ⟨h, ih⟩

/-- Then all letters of its words have it. -/
theorem Letters.forall_mem {P : α → Prop} {r : Regex α} (h : r.Letters P) {w : List α}
    (hw : w ∈ r.lang) : ∀ a ∈ w, P a := by
  induction r generalizing w with
  | empty => cases hw
  | eps =>
      rw [mem_eps.mp hw]
      simp
  | cls p =>
      obtain ⟨a, ha, rfl⟩ := hw
      simpa using h a ha
  | alt r s ihr ihs =>
      rcases mem_alt.mp hw with hw | hw
      · exact ihr h.1 hw
      · exact ihs h.2 hw
  | seq r s ihr ihs =>
      obtain ⟨u, hu, v, hv, rfl⟩ := mem_seq.mp hw
      exact List.forall_mem_append.mpr ⟨ihr h.1 hu, ihs h.2 hv⟩
  | star r ih =>
      obtain ⟨parts, rfl, hparts⟩ := mem_star.mp hw
      intro a ha
      obtain ⟨u, hu, hau⟩ := List.mem_flatten.mp ha
      exact ih h (hparts u hu) a hau

end Regex

end Useful.Math
