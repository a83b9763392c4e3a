/-
# Two orders on Unicode text

A text can be compared by the bytes of its UTF-8 form or by the code units of
its UTF-16 form. The first agrees with comparing code points. The second does
not: a supplementary character is written with surrogates, which are smaller
than the code points from `U+E000` to `U+FFFF` although the character itself is
larger. This module writes both encodings out and shows that this is the only
disagreement.
-/

import Mathlib.Data.List.Lex
import Mathlib.Data.List.Flatten
import Mathlib.Data.Nat.Basic
import Mathlib.Tactic.NormNum

namespace Useful.Math

universe u

/-! ## Comparing concatenated codes -/

/-- At the first place where the two codes differ, the first one is smaller. -/
def Diverges (xs ys : List Nat) : Prop :=
  ∃ (front : List Nat) (x y : Nat) (xs' ys' : List Nat),
    xs = front ++ x :: xs' ∧ ys = front ++ y :: ys' ∧ x < y

theorem Diverges.of_head {x y : Nat} {xs ys : List Nat} (h : x < y) :
    Diverges (x :: xs) (y :: ys) :=
  ⟨[], x, y, xs, ys, rfl, rfl, h⟩

theorem Diverges.cons (x : Nat) {xs ys : List Nat} (h : Diverges xs ys) :
    Diverges (x :: xs) (x :: ys) := by
  obtain ⟨front, a, b, xs', ys', rfl, rfl, hlt⟩ := h
  exact ⟨x :: front, a, b, xs', ys', rfl, rfl, hlt⟩

/-- A divergence decides the comparison, whatever follows the two codes. -/
theorem Diverges.append_lt {xs ys : List Nat} (h : Diverges xs ys)
    (rest rest' : List Nat) : xs ++ rest < ys ++ rest' := by
  obtain ⟨front, x, y, xs', ys', rfl, rfl, hlt⟩ := h
  simp only [List.append_assoc, List.cons_append]
  exact List.append_left_lt (List.cons_lt_cons_iff.mpr (.inl hlt))

/-- A shared front does not change the comparison. -/
theorem append_lt_append_iff (front xs ys : List Nat) :
    front ++ xs < front ++ ys ↔ xs < ys := by
  induction front with
  | nil => simp
  | cons x front ih =>
      rw [List.cons_append, List.cons_append, List.cons_lt_cons_iff]
      simp [ih]

/-! ## The two encodings of a character -/

/-- The UTF-8 bytes of a character. -/
def utf8Char (c : Char) : List Nat :=
  let n := c.toNat
  if n < 0x80 then [n]
  else if n < 0x800 then [0xC0 + n / 0x40, 0x80 + n % 0x40]
  else if n < 0x10000 then [0xE0 + n / 0x1000, 0x80 + n / 0x40 % 0x40, 0x80 + n % 0x40]
  else [0xF0 + n / 0x40000, 0x80 + n / 0x1000 % 0x40, 0x80 + n / 0x40 % 0x40,
    0x80 + n % 0x40]

/-- The UTF-16 code units of a character. -/
def utf16Char (c : Char) : List Nat :=
  let n := c.toNat
  if n < 0x10000 then [n]
  else [0xD800 + (n - 0x10000) / 0x400, 0xDC00 + (n - 0x10000) % 0x400]

def utf8 (text : List Char) : List Nat := text.flatMap utf8Char

def utf16 (text : List Char) : List Nat := text.flatMap utf16Char

@[simp]
theorem utf8_cons (c : Char) (text : List Char) :
    utf8 (c :: text) = utf8Char c ++ utf8 text := by
  simp [utf8]

@[simp]
theorem utf16_cons (c : Char) (text : List Char) :
    utf16 (c :: text) = utf16Char c ++ utf16 text := by
  simp [utf16]

theorem utf8Char_ne_nil (c : Char) : utf8Char c ≠ [] := by
  unfold utf8Char
  dsimp only
  split_ifs <;> simp

theorem utf16Char_ne_nil (c : Char) : utf16Char c ≠ [] := by
  unfold utf16Char
  dsimp only
  split_ifs <;> simp

/-- Characters of the basic plane are single code units. -/
theorem length_utf16 {text : List Char} (h : ∀ c ∈ text, c.toNat < 0x10000) :
    (utf16 text).length = text.length := by
  induction text with
  | nil => rfl
  | cons c text ih =>
      rw [List.forall_mem_cons] at h
      rw [utf16_cons, List.length_append, ih h.2, List.length_cons, utf16Char, if_pos h.1,
        List.length_singleton, Nat.add_comm]

/-- UTF-8 writes bytes. -/
theorem lt_of_mem_utf8Char {c : Char} {b : Nat} (h : b ∈ utf8Char c) : b < 256 := by
  have hc : c.toNat < 0x110000 := by
    have hvalid := c.valid
    simp only [UInt32.isValidChar, Nat.isValidChar] at hvalid
    have hval : c.toNat = c.val.toNat := rfl
    omega
  unfold utf8Char at h
  generalize c.toNat = n at *
  dsimp only at h
  split_ifs at h <;> simp only [List.mem_cons, List.not_mem_nil, or_false] at h <;> omega

/-- A character is a Unicode scalar value: surrogates are not characters. -/
theorem Char.toNat_scalar (c : Char) :
    c.toNat < 0xD800 ∨ 0xE000 ≤ c.toNat ∧ c.toNat < 0x110000 := by
  have h := c.valid
  simp only [UInt32.isValidChar, Nat.isValidChar] at h
  have hval : c.toNat = c.val.toNat := rfl
  omega

/-- UTF-8 preserves the order of code points. -/
theorem utf8Char_diverges {c d : Char} (h : c.toNat < d.toNat) :
    Diverges (utf8Char c) (utf8Char d) := by
  have hd := Char.toNat_scalar d
  unfold utf8Char
  generalize c.toNat = m at *
  generalize d.toNat = n at *
  dsimp only
  split_ifs <;> try omega
  -- Different lengths are told apart by the leading byte.
  all_goals try exact Diverges.of_head (by omega)
  -- Equal lengths compare the base-64 digits of the code points.
  · rcases Nat.lt_or_ge (m / 0x40) (n / 0x40) with hlead | hlead
    · exact Diverges.of_head (by omega)
    · have hsame : m / 0x40 = n / 0x40 := by omega
      rw [hsame]
      exact (Diverges.of_head (by omega)).cons _
  · rcases Nat.lt_or_ge (m / 0x1000) (n / 0x1000) with hlead | hlead
    · exact Diverges.of_head (by omega)
    · have hsame : m / 0x1000 = n / 0x1000 := by omega
      rw [hsame]
      refine Diverges.cons _ ?_
      rcases Nat.lt_or_ge (m / 0x40 % 0x40) (n / 0x40 % 0x40) with hmid | hmid
      · exact Diverges.of_head (by omega)
      · have hmid' : m / 0x40 % 0x40 = n / 0x40 % 0x40 := by omega
        rw [hmid']
        exact (Diverges.of_head (by omega)).cons _
  · rcases Nat.lt_or_ge (m / 0x40000) (n / 0x40000) with hlead | hlead
    · exact Diverges.of_head (by omega)
    · have hsame : m / 0x40000 = n / 0x40000 := by omega
      rw [hsame]
      refine Diverges.cons _ ?_
      rcases Nat.lt_or_ge (m / 0x1000 % 0x40) (n / 0x1000 % 0x40) with hmid | hmid
      · exact Diverges.of_head (by omega)
      · have hmid' : m / 0x1000 % 0x40 = n / 0x1000 % 0x40 := by omega
        rw [hmid']
        refine Diverges.cons _ ?_
        rcases Nat.lt_or_ge (m / 0x40 % 0x40) (n / 0x40 % 0x40) with hlow | hlow
        · exact Diverges.of_head (by omega)
        · have hlow' : m / 0x40 % 0x40 = n / 0x40 % 0x40 := by omega
          rw [hlow']
          exact (Diverges.of_head (by omega)).cons _

/-- A character between the surrogates and the end of the basic plane. -/
def AboveSurrogates (c : Char) : Prop := 0xE000 ≤ c.toNat ∧ c.toNat < 0x10000

/-- A character outside the basic plane. -/
def Supplementary (c : Char) : Prop := 0x10000 ≤ c.toNat

instance (c : Char) : Decidable (AboveSurrogates c) :=
  inferInstanceAs (Decidable (_ ∧ _))

instance (c : Char) : Decidable (Supplementary c) :=
  inferInstanceAs (Decidable (_ ≤ _))

/-- UTF-16 preserves the order of code points except below a supplementary
character. -/
theorem utf16Char_diverges {c d : Char} (h : c.toNat < d.toNat)
    (hno : ¬ (AboveSurrogates c ∧ Supplementary d)) :
    Diverges (utf16Char c) (utf16Char d) := by
  have hc := Char.toNat_scalar c
  have hd := Char.toNat_scalar d
  simp only [AboveSurrogates, Supplementary] at hno
  unfold utf16Char
  generalize c.toNat = m at *
  generalize d.toNat = n at *
  dsimp only
  split_ifs <;> try omega
  · exact Diverges.of_head h
  · exact Diverges.of_head (by omega)
  · rcases Nat.lt_or_ge ((m - 0x10000) / 0x400) ((n - 0x10000) / 0x400) with hlead | hlead
    · exact Diverges.of_head (by omega)
    · have hsame : (m - 0x10000) / 0x400 = (n - 0x10000) / 0x400 := by omega
      rw [hsame]
      exact (Diverges.of_head (by omega)).cons _

/-- Below a supplementary character, UTF-16 reverses the order. -/
theorem utf16Char_diverges_of_aboveSurrogates {c d : Char} (hc : AboveSurrogates c)
    (hd : Supplementary d) : Diverges (utf16Char d) (utf16Char c) := by
  have hd' := Char.toNat_scalar d
  simp only [AboveSurrogates, Supplementary] at hc hd
  unfold utf16Char
  rw [if_pos hc.2, if_neg (by omega)]
  exact Diverges.of_head (by omega)

/-! ## Where the two orders disagree -/

/-- At the first character where the texts differ, one has a character from
`U+E000` to `U+FFFF` and the other a supplementary character. -/
@[grind =]
def OrderConflict : List Char → List Char → Prop
  | c :: s, d :: t =>
      if c = d then OrderConflict s t
      else AboveSurrogates c ∧ Supplementary d ∨ Supplementary c ∧ AboveSurrogates d
  | _, _ => False

instance decidableOrderConflict : ∀ s t, Decidable (OrderConflict s t)
  | [], [] => .isFalse id
  | [], _ :: _ => .isFalse id
  | _ :: _, [] => .isFalse id
  | c :: s, d :: t =>
      if h : c = d then
        @decidable_of_iff _ (OrderConflict s t) (by simp [OrderConflict, h])
          (decidableOrderConflict s t)
      else
        decidable_of_iff
          (AboveSurrogates c ∧ Supplementary d ∨ Supplementary c ∧ AboveSurrogates d)
          (by simp [OrderConflict, h])

theorem Char.toNat_lt_or_lt_of_ne {c d : Char} (h : c ≠ d) :
    c.toNat < d.toNat ∨ d.toNat < c.toNat := by
  have hne : c.toNat ≠ d.toNat := fun heq => h (Char.toNat_inj.mp heq)
  omega

/-- A first difference in two texts is decided by the codes of its characters. -/
theorem utf8_lt_iff_of_ne {c d : Char} (h : c ≠ d) (s t : List Char) :
    utf8 (c :: s) < utf8 (d :: t) ↔ c.toNat < d.toNat := by
  rw [utf8_cons, utf8_cons]
  constructor
  · intro hlt
    rcases Char.toNat_lt_or_lt_of_ne h with hcd | hdc
    · exact hcd
    · exact absurd hlt (lt_asymm ((utf8Char_diverges hdc).append_lt _ _))
  · exact fun hcd => (utf8Char_diverges hcd).append_lt _ _

/-- Comparing the bytes is comparing the characters. -/
theorem utf8_lt_iff {s t : List Char} : utf8 s < utf8 t ↔ s < t := by
  induction s generalizing t with
  | nil =>
      cases t with
      | nil => exact iff_of_false (List.not_lt_nil _) (List.not_lt_nil _)
      | cons d t =>
          refine iff_of_true ?_ (List.nil_lt_cons d t)
          rw [utf8_cons]
          cases hd : utf8Char d with
          | nil => exact absurd hd (utf8Char_ne_nil d)
          | cons x xs => exact List.nil_lt_cons _ _
  | cons c s ih =>
      cases t with
      | nil => exact iff_of_false (List.not_lt_nil _) (List.not_lt_nil _)
      | cons d t =>
          rw [List.cons_lt_cons_iff]
          by_cases hcd : c = d
          · subst hcd
            rw [utf8_cons, utf8_cons, append_lt_append_iff, ih]
            exact ⟨fun h => .inr ⟨rfl, h⟩, fun h => h.elim (fun hlt => absurd hlt (Nat.lt_irrefl c.toNat)) And.right⟩
          · rw [utf8_lt_iff_of_ne hcd]
            exact ⟨fun h => .inl h, fun h => h.elim id fun heq => absurd heq.1 hcd⟩

/-- UTF-8 keeps different texts apart. -/
theorem utf8_injective : Function.Injective utf8 := by
  intro s
  induction s with
  | nil =>
      intro t heq
      cases t with
      | nil => rfl
      | cons d t => simp [utf8, utf8Char_ne_nil] at heq
  | cons c s ih =>
      intro t heq
      cases t with
      | nil => simp [utf8, utf8Char_ne_nil] at heq
      | cons d t =>
          by_cases hcd : c = d
          · subst hcd
            rw [utf8_cons, utf8_cons, List.append_cancel_left_eq] at heq
            rw [ih heq]
          · exfalso
            rcases Char.toNat_lt_or_lt_of_ne hcd with hlt | hlt
            · exact absurd heq (ne_of_lt ((utf8_lt_iff_of_ne hcd s t).mpr hlt))
            · exact absurd heq.symm
                (ne_of_lt ((utf8_lt_iff_of_ne (Ne.symm hcd) t s).mpr hlt))

/-- UTF-16 keeps different texts apart. -/
theorem utf16_injective : Function.Injective utf16 := by
  -- Different first characters diverge, in one direction or the other.
  have hlt : ∀ {c d : Char}, c.toNat < d.toNat → ∀ s t, utf16 (c :: s) ≠ utf16 (d :: t) := by
    intro c d hcd s t
    rw [utf16_cons, utf16_cons]
    by_cases hconflict : AboveSurrogates c ∧ Supplementary d
    · exact ne_of_gt ((utf16Char_diverges_of_aboveSurrogates hconflict.1
        hconflict.2).append_lt _ _)
    · exact ne_of_lt ((utf16Char_diverges hcd hconflict).append_lt _ _)
  intro s
  induction s with
  | nil =>
      intro t heq
      cases t with
      | nil => rfl
      | cons d t => simp [utf16, utf16Char_ne_nil] at heq
  | cons c s ih =>
      intro t heq
      cases t with
      | nil => simp [utf16, utf16Char_ne_nil] at heq
      | cons d t =>
          by_cases hcd : c = d
          · subst hcd
            rw [utf16_cons, utf16_cons, List.append_cancel_left_eq] at heq
            rw [ih heq]
          · rcases Char.toNat_lt_or_lt_of_ne hcd with h | h
            · exact absurd heq (hlt h s t)
            · exact absurd heq.symm (hlt h t s)

/-- Without a conflict the two orders agree. -/
theorem utf16_lt_iff_of_not_orderConflict {s t : List Char} (h : ¬ OrderConflict s t) :
    utf16 s < utf16 t ↔ utf8 s < utf8 t := by
  induction s generalizing t with
  | nil =>
      cases t with
      | nil => simp [utf8, utf16]
      | cons d t =>
          have h16 : ([] : List Nat) < utf16 (d :: t) := by
            rw [utf16_cons]
            cases hd : utf16Char d with
            | nil => exact absurd hd (utf16Char_ne_nil d)
            | cons x xs => exact List.nil_lt_cons _ _
          have h8 : ([] : List Nat) < utf8 (d :: t) := by
            rw [utf8_cons]
            cases hd : utf8Char d with
            | nil => exact absurd hd (utf8Char_ne_nil d)
            | cons x xs => exact List.nil_lt_cons _ _
          exact ⟨fun _ => h8, fun _ => h16⟩
  | cons c s ih =>
      cases t with
      | nil => simp [utf8, utf16]
      | cons d t =>
          by_cases hcd : c = d
          · subst hcd
            rw [utf16_cons, utf16_cons, utf8_cons, utf8_cons, append_lt_append_iff,
              append_lt_append_iff]
            exact ih (by simpa [OrderConflict] using h)
          · simp only [OrderConflict, if_neg hcd, not_or] at h
            rw [utf8_lt_iff_of_ne hcd, utf16_cons, utf16_cons]
            rcases Char.toNat_lt_or_lt_of_ne hcd with hlt | hlt
            · exact iff_of_true ((utf16Char_diverges hlt h.1).append_lt _ _) hlt
            · have hdiv := utf16Char_diverges hlt (fun hdc => h.2 ⟨hdc.2, hdc.1⟩)
              exact iff_of_false (lt_asymm (hdiv.append_lt _ _)) (by omega)

/-- In a conflict the two orders are opposite. -/
theorem utf16_lt_iff_of_orderConflict {s t : List Char} (h : OrderConflict s t) :
    utf16 s < utf16 t ↔ utf8 t < utf8 s := by
  induction s generalizing t with
  | nil => cases t <;> exact h.elim
  | cons c s ih =>
      cases t with
      | nil => exact h.elim
      | cons d t =>
          by_cases hcd : c = d
          · subst hcd
            rw [utf16_cons, utf16_cons, utf8_cons, utf8_cons, append_lt_append_iff,
              append_lt_append_iff]
            exact ih (by simpa [OrderConflict] using h)
          · simp only [OrderConflict, if_neg hcd] at h
            rw [utf8_lt_iff_of_ne (Ne.symm hcd), utf16_cons, utf16_cons]
            rcases h with ⟨hc, hd⟩ | ⟨hc, hd⟩
            · have hdiv := utf16Char_diverges_of_aboveSurrogates hc hd
              simp only [AboveSurrogates, Supplementary] at hc hd
              exact iff_of_false (lt_asymm (hdiv.append_lt _ _)) (by omega)
            · have hdiv := utf16Char_diverges_of_aboveSurrogates hd hc
              simp only [AboveSurrogates, Supplementary] at hc hd
              exact iff_of_true (hdiv.append_lt _ _) (by omega)

theorem OrderConflict.ne {s t : List Char} (h : OrderConflict s t) : s ≠ t := by
  induction s generalizing t with
  | nil => cases t <;> exact h.elim
  | cons c s ih =>
      rintro rfl
      exact ih (by simpa [OrderConflict] using h) rfl

theorem OrderConflict.symm {s t : List Char} (h : OrderConflict s t) : OrderConflict t s := by
  induction s generalizing t with
  | nil => cases t <;> exact h.elim
  | cons c s ih =>
      cases t with
      | nil => exact h.elim
      | cons d t =>
          by_cases hcd : c = d
          · subst hcd
            simpa [OrderConflict] using ih (by simpa [OrderConflict] using h)
          · simp only [OrderConflict, if_neg hcd, if_neg (Ne.symm hcd)] at h ⊢
            rcases h with ⟨hc, hd⟩ | ⟨hc, hd⟩
            · exact .inr ⟨hd, hc⟩
            · exact .inl ⟨hd, hc⟩

end Useful.Math
