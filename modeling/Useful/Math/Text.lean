/-
# Readable numerals and quoted strings

Decimal numerals are readable before anything but a digit, and strings between
quotation marks are self-delimiting when backslashes and quotation marks are
escaped. Control characters need no escape for that: only the closing mark has
to be recognizable.
-/

import Useful.Math.Json
import Mathlib.Data.Nat.Digits.Defs

namespace Useful.Math

/-! ## Decimal numerals -/

/-- The decimal numeral of a natural number. -/
def decimalNat (n : Nat) : List Char := Nat.toDigits 10 n

/-- The decimal numeral of an integer. -/
def decimal : Int → List Char
  | .ofNat n => decimalNat n
  | .negSucc n => '-' :: decimalNat (n + 1)

theorem isDigit_of_mem_decimalNat {n : Nat} {c : Char} (h : c ∈ decimalNat n) :
    c.isDigit = true :=
  Nat.isDigit_of_mem_toDigits (by decide) (by decide) h

/-- Numerals have no leading zeros. -/
theorem head?_decimalNat {n : Nat} (hn : n ≠ 0) : (decimalNat n).head? ≠ some '0' := by
  induction n using Nat.strongRecOn with
  | ind n ih =>
      rw [decimalNat, Nat.toDigits_eq_if (by decide)]
      split
      · rename_i hlt
        have hdigit : ∀ m < 10, m ≠ 0 → Nat.digitChar m ≠ '0' := by decide
        exact fun heq => hdigit n hlt hn (Option.some.inj heq)
      · rename_i hle
        rw [List.head?_append_of_ne_nil _ Nat.toDigits_ne_nil]
        exact ih (n / 10) (by omega) (by omega)

theorem decimalNat_injective : Function.Injective decimalNat := by
  intro m n heq
  have hvalue := congrArg (fun text => Nat.ofDigitChars 10 text 0) heq
  simpa [decimalNat, Nat.ofDigitChars_ten_toDigits] using hvalue

/-- Runs of digits that are followed by something else are equal when the texts
are. -/
theorem digits_append_inj {xs ys rest rest' : List Char}
    (hx : ∀ c ∈ xs, c.isDigit = true) (hy : ∀ c ∈ ys, c.isDigit = true)
    (hrest : RestAvoids (fun c => c.isDigit = true) rest)
    (hrest' : RestAvoids (fun c => c.isDigit = true) rest')
    (heq : xs ++ rest = ys ++ rest') : xs = ys ∧ rest = rest' := by
  induction xs generalizing ys with
  | nil =>
      cases ys with
      | nil => exact ⟨rfl, by simpa using heq⟩
      | cons y ys =>
          rw [List.nil_append, List.cons_append] at heq
          rw [heq, restAvoids_cons] at hrest
          exact absurd (hy y (by simp)) hrest
  | cons x xs ih =>
      cases ys with
      | nil =>
          rw [List.nil_append, List.cons_append] at heq
          rw [← heq, restAvoids_cons] at hrest'
          exact absurd (hx x (by simp)) hrest'
      | cons y ys =>
          rw [List.cons_append, List.cons_append, List.cons.injEq] at heq
          obtain ⟨rfl, htail⟩ := heq
          obtain ⟨rfl, hend⟩ := ih (fun c hc => hx c (by simp [hc]))
            (fun c hc => hy c (by simp [hc])) htail
          exact ⟨rfl, hend⟩

/-- A numeral begins with a digit or a sign. -/
theorem decimal_head (i : Int) :
    ∃ c text, decimal i = c :: text ∧ (c = '-' ∨ c.isDigit = true) := by
  cases i with
  | ofNat n =>
      cases hn : decimalNat n with
      | nil => exact absurd hn Nat.toDigits_ne_nil
      | cons c text =>
          exact ⟨c, text, hn, .inr (isDigit_of_mem_decimalNat (n := n) (by simp [hn]))⟩
  | negSucc n => exact ⟨'-', _, rfl, .inl rfl⟩

/-- A numeral without a sign is not one with a sign. -/
theorem decimalNat_append_ne_minus (n : Nat) (rest text : List Char) :
    decimalNat n ++ rest ≠ '-' :: text := by
  intro heq
  cases hn : decimalNat n with
  | nil => exact Nat.toDigits_ne_nil hn
  | cons c digits =>
      have hdigit : c.isDigit = true := isDigit_of_mem_decimalNat (n := n) (by simp [hn])
      rw [hn, List.cons_append, List.cons.injEq] at heq
      rw [heq.1] at hdigit
      exact absurd hdigit (by decide)

theorem decimal_readable (i : Int) :
    Readable (RestAvoids fun c => c.isDigit = true) decimal i := by
  have hnat : ∀ {m n : Nat} {rest rest' : List Char},
      RestAvoids (fun c => c.isDigit = true) rest →
      RestAvoids (fun c => c.isDigit = true) rest' →
      decimalNat m ++ rest = decimalNat n ++ rest' → m = n ∧ rest = rest' := by
    intro m n rest rest' hrest hrest' heq
    obtain ⟨hdigits, hend⟩ := digits_append_inj (fun _ => isDigit_of_mem_decimalNat)
      (fun _ => isDigit_of_mem_decimalNat) hrest hrest' heq
    exact ⟨decimalNat_injective hdigits, hend⟩
  intro j rest rest' hrest hrest' heq
  cases i with
  | ofNat m =>
      cases j with
      | ofNat n =>
          obtain ⟨rfl, hend⟩ := hnat hrest hrest' heq
          exact ⟨rfl, hend⟩
      | negSucc n => exact absurd heq (decimalNat_append_ne_minus m rest _)
  | negSucc m =>
      cases j with
      | ofNat n => exact absurd heq.symm (decimalNat_append_ne_minus n rest' _)
      | negSucc n =>
          simp only [decimal, List.cons_append, List.cons.injEq, true_and] at heq
          obtain ⟨hmn, hend⟩ := hnat hrest hrest' heq
          exact ⟨by rw [Nat.succ.inj hmn], hend⟩

/-! ## Quoted strings -/

/-- Backslashes and quotation marks are written with a backslash in front. -/
def escapeChar (c : Char) : List Char :=
  if c = '\\' then ['\\', '\\'] else if c = '"' then ['\\', '"'] else [c]

/-- A string between quotation marks. -/
def quoted (s : String) : List Char :=
  '"' :: (s.toList.flatMap escapeChar ++ ['"'])

/-- An escaped character can be told from the closing mark. -/
theorem escapeChar_append_ne_mark (c : Char) (rest text : List Char) :
    escapeChar c ++ rest ≠ '"' :: text := by
  unfold escapeChar
  split_ifs with hback hmark
  · simp
  · simp
  · simpa using fun heq => absurd heq hmark

/-- An escaped character is self-delimiting. -/
theorem escapeChar_append_inj {c d : Char} {rest rest' : List Char}
    (heq : escapeChar c ++ rest = escapeChar d ++ rest') : c = d ∧ rest = rest' := by
  unfold escapeChar at heq
  split_ifs at heq with hc hd hmark hc' hd' hmark' hd'' hmark'' <;>
    simp only [List.cons_append, List.nil_append, List.cons.injEq] at heq <;> grind

/-- Escaped characters up to the closing mark are recovered one by one. -/
theorem escape_append_inj {xs ys rest rest' : List Char}
    (heq : xs.flatMap escapeChar ++ '"' :: rest = ys.flatMap escapeChar ++ '"' :: rest') :
    xs = ys ∧ rest = rest' := by
  induction xs generalizing ys with
  | nil =>
      cases ys with
      | nil => exact ⟨rfl, by simpa using heq⟩
      | cons y ys =>
          rw [List.flatMap_nil, List.nil_append, List.flatMap_cons, List.append_assoc] at heq
          exact absurd heq.symm (escapeChar_append_ne_mark y _ _)
  | cons x xs ih =>
      cases ys with
      | nil =>
          rw [List.flatMap_nil, List.nil_append, List.flatMap_cons, List.append_assoc] at heq
          exact absurd heq (escapeChar_append_ne_mark x _ _)
      | cons y ys =>
          simp only [List.flatMap_cons, List.append_assoc] at heq
          obtain ⟨rfl, htail⟩ := escapeChar_append_inj heq
          obtain ⟨rfl, hend⟩ := ih htail
          exact ⟨rfl, hend⟩

theorem quoted_readable (s : String) : Readable anyRest quoted s := by
  intro t rest rest' _ _ heq
  simp only [quoted, List.cons_append, List.append_assoc, List.nil_append,
    List.cons.injEq, true_and] at heq
  obtain ⟨hchars, hend⟩ := escape_append_inj heq
  exact ⟨String.toList_inj.mp hchars, hend⟩

namespace Json

/-- Quoted strings and any injective reading of numbers as integers make trees
readable. -/
theorem readableParts_quoted_decimal {ν : Type*} {value : ν → Int}
    (hvalue : Function.Injective value) :
    ReadableParts quoted fun n => decimal (value n) where
  quote_head s := ⟨_, rfl⟩
  quote_readable := quoted_readable
  number_head n := by
    obtain ⟨c, text, hc, hhead⟩ := decimal_head (value n)
    refine ⟨c, text, hc, ?_⟩
    rcases hhead with rfl | hdigit
    · decide
    · refine ⟨?_, ?_, ?_⟩
      · have hne : ∀ d : Char, d.isDigit = false → c ≠ d := by
          rintro d hd rfl
          rw [hdigit] at hd
          cases hd
        simp [Kind.ofHead, hne 'n' (by decide), hne 't' (by decide), hne 'f' (by decide),
          hne '"' (by decide), hne '[' (by decide), hne '{' (by decide)]
      · rintro rfl
        exact absurd hdigit (by decide)
      · rintro rfl
        exact absurd hdigit (by decide)
  number_readable n := by
    intro m rest rest' hrest hrest' heq
    obtain ⟨hnm, hend⟩ := decimal_readable (value n) (value m) rest rest' hrest hrest' heq
    exact ⟨hvalue hnm, hend⟩

end Json

/-! ## Trimming -/

/-- Unicode white space. -/
def isWhitespace (c : Char) : Bool :=
  let n := c.toNat
  (9 ≤ n && n ≤ 13) || (0x2000 ≤ n && n ≤ 0x200A) ||
    [0x20, 0x85, 0xA0, 0x1680, 0x2028, 0x2029, 0x202F, 0x205F, 0x3000].contains n

/-- A text without the white space at its ends. -/
def trim (text : List Char) : List Char :=
  ((text.dropWhile isWhitespace).reverse.dropWhile isWhitespace).reverse

end Useful.Math
