/-
# Texts of JavaScript

A text is a list of UTF-16 code units. It is well formed when it encodes characters; a surrogate
may also stand alone. The classes of code units are those of regular expressions, and replacing
all matches of one goes from left to right and leaves what it wrote alone.
-/

import Useful.Math.Checks
import Useful.Math.Unicode
import Mathlib.Data.List.DropRight

namespace Useful.Math

/-- UTF-16 code units. -/
abbrev JsText := List Nat

namespace JsText

/-- The code units of a literal. -/
def ofString (s : String) : JsText := utf16 s.toList

/-- `\d` -/
def isDigit (unit : Nat) : Bool := 48 ≤ unit && unit ≤ 57

/-- `[0-9a-fA-F]` -/
def isHexDigit (unit : Nat) : Bool :=
  isDigit unit || (65 ≤ unit && unit ≤ 70) || (97 ≤ unit && unit ≤ 102)

/-- `\s`, which is also what `trim` removes. -/
def isSpace (unit : Nat) : Bool :=
  (9 ≤ unit && unit ≤ 13) || (0x2000 ≤ unit && unit ≤ 0x200A) ||
    [0x20, 0xA0, 0x1680, 0x2028, 0x2029, 0x202F, 0x205F, 0x3000, 0xFEFF].contains unit

def trim (text : JsText) : JsText :=
  ((text.dropWhile isSpace).reverse.dropWhile isSpace).reverse

theorem isDigit_iff {unit : Nat} : isDigit unit = true ↔ 48 ≤ unit ∧ unit ≤ 57 := by
  simp [isDigit]

theorem isSpace_of_isDigit {unit : Nat} (h : isDigit unit = true) : isSpace unit = false := by
  rw [isDigit_iff] at h
  have hall : ∀ n < 10, isSpace (48 + n) = false := by decide
  have hunit := hall (unit - 48) (by omega)
  rwa [Nat.add_sub_cancel' h.1] at hunit

/-- Nothing is trimmed where nothing is white space. -/
theorem trim_eq_self {text : JsText} (h : ∀ unit ∈ text, isSpace unit = false) :
    trim text = text := by
  have hkeep (text : JsText) (h : ∀ unit ∈ text, isSpace unit = false) :
      text.dropWhile isSpace = text := by
    cases text with
    | nil => rfl
    | cons unit rest => rw [List.dropWhile_cons_of_neg (by simp [h unit List.mem_cons_self])]
  rw [trim, hkeep text h, hkeep _ fun unit hunit => h unit (List.mem_reverse.mp hunit),
    List.reverse_reverse]

theorem trim_eq (text : JsText) : trim text = (text.dropWhile isSpace).rdropWhile isSpace := rfl

theorem trim_cons_space {unit : Nat} {text : JsText} (h : isSpace unit = true) :
    trim (unit :: text) = trim text := by
  rw [trim, List.dropWhile_cons_of_pos h, trim]

theorem trim_append_space {unit : Nat} {text : JsText} (h : isSpace unit = true) :
    trim (text ++ [unit]) = trim text := by
  simp only [trim_eq, List.dropWhile_append]
  split_ifs with hall
  · rw [List.isEmpty_iff] at hall
    rw [hall, List.dropWhile_cons_of_pos h, List.dropWhile_nil]
  · exact List.rdropWhile_concat_pos _ _ _ h

/-- Text that begins and ends with something else than white space is kept. -/
theorem trim_eq_self_of_ends {first last : Nat} {text : JsText} (hhead : text.head? = some first)
    (hlast : text.getLast? = some last) (hfirst : isSpace first = false)
    (hend : isSpace last = false) : trim text = text := by
  have hne : text ≠ [] := by
    rintro rfl
    simp at hhead
  have hdrop : text.dropWhile isSpace = text := by
    cases text with
    | nil => rfl
    | cons unit text =>
        rw [List.head?_cons, Option.some.injEq] at hhead
        rw [List.dropWhile_cons_of_neg (by simp [hhead, hfirst])]
  rw [trim_eq, hdrop, List.rdropWhile_eq_self_iff]
  intro hl
  rw [List.getLast?_eq_getLast_of_ne_nil hl, Option.some.injEq] at hlast
  simp [hlast, hend]

/-- Trimmed text stays as it is. -/
theorem trim_trim (text : JsText) : trim (trim text) = trim text := by
  have hfront : (trim text).dropWhile isSpace = trim text := by
    rw [List.dropWhile_eq_self_iff]
    intro hl
    have hprefix : trim text <+: text.dropWhile isSpace := List.rdropWhile_prefix _ _
    obtain ⟨suffix, hsuffix⟩ := hprefix
    have hpos : 0 < (text.dropWhile isSpace).length := by
      rw [← hsuffix, List.length_append]
      omega
    have hhead := (List.dropWhile_eq_self_iff.mp (List.dropWhile_idempotent isSpace text)) hpos
    simpa only [← hsuffix, List.getElem_append_left hl] using hhead
  rw [trim_eq (trim text), hfront, trim_eq, List.rdropWhile_idempotent]

theorem mem_of_mem_trim {unit : Nat} {text : JsText} (h : unit ∈ trim text) : unit ∈ text :=
  (List.dropWhile_suffix _).mem ((List.rdropWhile_prefix _ _).mem h)

/-! ## Characters -/

def isHighSurrogate (unit : Nat) : Bool := 0xD800 ≤ unit && unit < 0xDC00

def isLowSurrogate (unit : Nat) : Bool := 0xDC00 ≤ unit && unit < 0xE000

/-- `for (const character of text)`: a surrogate without its partner counts as one. -/
@[grind =]
def characters : JsText → List JsText
  | [] => []
  | [unit] => [[unit]]
  | high :: low :: rest =>
      if isHighSurrogate high && isLowSurrogate low then [high, low] :: characters rest
      else [high] :: characters (low :: rest)

/-- `character.codePointAt(0)` -/
def codePoint : JsText → Nat
  | [] => 0
  | [unit] => unit
  | high :: low :: _ =>
      if isHighSurrogate high && isLowSurrogate low then
        0x10000 + (high - 0xD800) * 0x400 + (low - 0xDC00)
      else high

/-- `String.fromCodePoint(value)`, which throws a `RangeError` beyond the last code point. -/
def fromCodePoint (value : Nat) : Option JsText :=
  if 0x10FFFF < value then none
  else if value < 0x10000 then some [value]
  else some [0xD800 + (value - 0x10000) / 0x400, 0xDC00 + (value - 0x10000) % 0x400]

theorem flatten_characters (text : JsText) : (characters text).flatten = text := by
  induction text using characters.induct with
  | case1 => rfl
  | case2 unit => rfl
  | case3 high low rest hpair ih =>
      rw [characters, if_pos hpair, List.flatten_cons, ih]
      rfl
  | case4 high low rest hpair ih =>
      rw [characters, if_neg hpair, List.flatten_cons, ih]
      rfl

/-- A character; a surrogate without its partner becomes the replacement character. -/
def scalar (value : Nat) : Char :=
  if isHighSurrogate value || isLowSurrogate value then '\uFFFD' else Char.ofNat value

/-- The characters of a text, as an encoder reads it. -/
def scalars (text : JsText) : List Char := (characters text).map fun part => scalar (codePoint part)

theorem characters_utf16Char (c : Char) (rest : JsText) :
    characters (utf16Char c ++ rest) = utf16Char c :: characters rest ∧
      codePoint (utf16Char c) = c.toNat := by
  have hscalar := Char.toNat_scalar c
  unfold utf16Char
  generalize c.toNat = n at *
  dsimp only
  split_ifs with h
  · refine ⟨?_, rfl⟩
    cases rest with
    | nil => rfl
    | cons low rest =>
        have hhigh : isHighSurrogate n = false := by
          rw [isHighSurrogate, Bool.and_eq_false_iff, decide_eq_false_iff_not,
            decide_eq_false_iff_not]
          omega
        simp [characters, hhigh]
  · have hhigh : isHighSurrogate (0xD800 + (n - 0x10000) / 0x400) = true := by
      rw [isHighSurrogate, Bool.and_eq_true, decide_eq_true_eq, decide_eq_true_eq]
      omega
    have hlow : isLowSurrogate (0xDC00 + (n - 0x10000) % 0x400) = true := by
      rw [isLowSurrogate, Bool.and_eq_true, decide_eq_true_eq, decide_eq_true_eq]
      omega
    refine ⟨by simp [characters, hhigh, hlow], ?_⟩
    simp only [codePoint, hhigh, hlow, Bool.and_true, if_true]
    omega

/-- Characters are read back from their code units. -/
theorem scalars_utf16 (text : List Char) : scalars (utf16 text) = text := by
  induction text with
  | nil => rfl
  | cons c text ih =>
      obtain ⟨hcharacters, hvalue⟩ := characters_utf16Char c (utf16 text)
      have hscalar := Char.toNat_scalar c
      have hplain : (isHighSurrogate c.toNat || isLowSurrogate c.toNat) = false := by
        simp only [isHighSurrogate, isLowSurrogate, Bool.or_eq_false_iff, Bool.and_eq_false_iff,
          decide_eq_false_iff_not]
        omega
      have hc : scalar c.toNat = c := by
        rw [scalar, hplain, if_neg (by decide), Char.ofNat_toNat]
      rw [utf16_cons, scalars, hcharacters, List.map_cons, hvalue, hc]
      exact congrArg (c :: ·) ih

/-! ## Hexadecimal numerals -/

/-- A hexadecimal digit, in lower case. -/
def hexUnit (digit : Nat) : Nat := digit.digitChar.toNat

/-- `n.toString(16)` -/
def toHex (n : Nat) : JsText := (Nat.toDigits 16 n).map Char.toNat

/-- `text.padStart(width, fill)` -/
def padStart (width fill : Nat) (text : JsText) : JsText :=
  List.replicate (width - text.length) fill ++ text

/-- The value of a hexadecimal digit of either case. -/
def hexDigitValue (unit : Nat) : Nat :=
  if isDigit unit then unit - 48 else if 97 ≤ unit then unit - 87 else unit - 55

/-- `parseInt(text, 16)` of hexadecimal digits. -/
def parseHex (text : JsText) : Nat := text.foldl (fun value unit => value * 16 + hexDigitValue unit) 0

theorem hexUnit_spec : ∀ digit < 16,
    isHexDigit (hexUnit digit) = true ∧ hexDigitValue (hexUnit digit) = digit := by
  decide

theorem toHex_eq (n : Nat) :
    toHex n = if n < 16 then [hexUnit n] else toHex (n / 16) ++ [hexUnit (n % 16)] := by
  rw [toHex, Nat.toDigits_eq_if (by decide)]
  split_ifs with h
  · rfl
  · rw [List.map_append]
    rfl

theorem isHexDigit_of_mem_toHex {n unit : Nat} (h : unit ∈ toHex n) : isHexDigit unit = true := by
  induction n using Nat.strongRecOn with
  | ind n ih =>
      rw [toHex_eq] at h
      split_ifs at h with hlt
      · rw [List.mem_singleton.mp h]
        exact (hexUnit_spec n hlt).1
      · rcases List.mem_append.mp h with h | h
        · exact ih (n / 16) (by omega) h
        · rw [List.mem_singleton.mp h]
          exact (hexUnit_spec _ (Nat.mod_lt _ (by decide))).1

theorem length_toHex_le {n width : Nat} (hwidth : 0 < width) (h : n < 16 ^ width) :
    (toHex n).length ≤ width := by
  induction n using Nat.strongRecOn generalizing width with
  | ind n ih =>
      rw [toHex_eq]
      split_ifs with hlt
      · exact hwidth
      · obtain ⟨width, rfl⟩ := Nat.exists_eq_succ_of_ne_zero hwidth.ne'
        rw [Nat.pow_succ] at h
        have hpos : 0 < width := by
          rcases Nat.eq_zero_or_pos width with rfl | hpos
          · exact absurd h (by omega)
          · exact hpos
        have hlength := ih (n / 16) (by omega) hpos (by omega)
        rw [List.length_append, List.length_singleton]
        omega

theorem parseHex_append_singleton (text : JsText) (unit : Nat) :
    parseHex (text ++ [unit]) = parseHex text * 16 + hexDigitValue unit := by
  rw [parseHex, List.foldl_append]
  rfl

theorem parseHex_toHex (n : Nat) : parseHex (toHex n) = n := by
  induction n using Nat.strongRecOn with
  | ind n ih =>
      rw [toHex_eq]
      split_ifs with hlt
      · show 0 * 16 + hexDigitValue (hexUnit n) = n
        rw [(hexUnit_spec n hlt).2]
        omega
      · rw [parseHex_append_singleton, ih (n / 16) (by omega),
          (hexUnit_spec _ (Nat.mod_lt _ (by decide))).2]
        omega

/-- Zeros in front do not change the value. -/
theorem parseHex_padStart (width : Nat) (text : JsText) :
    parseHex (padStart width 48 text) = parseHex text := by
  rw [parseHex, padStart, List.foldl_append]
  have hzeros (count : Nat) : (List.replicate count 48).foldl
      (fun value unit => value * 16 + hexDigitValue unit) 0 = 0 := by
    induction count with
    | zero => rfl
    | succ count ih => rw [List.replicate_succ, List.foldl_cons]; exact ih
  rw [hzeros]
  rfl

/-- A numeral of fixed width consists of that many digits, and its value is the number. -/
theorem padStart_toHex {n width : Nat} (hwidth : 0 < width) (h : n < 16 ^ width) :
    (padStart width 48 (toHex n)).length = width ∧
      (∀ unit ∈ padStart width 48 (toHex n), isHexDigit unit = true) ∧
      parseHex (padStart width 48 (toHex n)) = n := by
  have hlength := length_toHex_le hwidth h
  refine ⟨?_, ?_, ?_⟩
  · rw [padStart, List.length_append, List.length_replicate]
    omega
  · intro unit hunit
    rcases List.mem_append.mp hunit with hunit | hunit
    · rw [List.eq_of_mem_replicate hunit]
      rfl
    · exact isHexDigit_of_mem_toHex hunit
  · rw [parseHex_padStart, parseHex_toHex]

/-! ## Replacing matches -/

section Replace

variable {ε : Type} (rule : JsText → Option (Nat × Except ε JsText))

/-- Replace the matches in a text, whose first code units may still belong to the last match. A
match is found at the beginning of a text; it has a length and what is put in its place. -/
@[grind =]
def replaceFrom : Nat → JsText → Except ε JsText
  | _, [] => .ok []
  | skip + 1, _ :: rest => replaceFrom skip rest
  | 0, unit :: rest =>
      match rule (unit :: rest) with
      | none => do
          let rest ← replaceFrom 0 rest
          return unit :: rest
      | some (length, replacement) => do
          let new ← replacement
          let rest ← replaceFrom (length - 1) rest
          return new ++ rest

/-- `text.replace(pattern, replacement)` for a pattern that is global. -/
def replaceAll (text : JsText) : Except ε JsText := replaceFrom rule 0 text

variable {rule}

theorem replaceFrom_eq_drop (skip : Nat) (text : JsText) :
    replaceFrom rule skip text = replaceAll rule (text.drop skip) := by
  induction text generalizing skip with
  | nil => cases skip <;> simp [replaceFrom, replaceAll]
  | cons unit rest ih =>
      cases skip with
      | zero => rfl
      | succ skip => rw [replaceFrom, ih, List.drop_succ_cons]

@[simp]
theorem replaceAll_nil : replaceAll rule [] = .ok [] := rfl

theorem replaceAll_of_none {unit : Nat} {rest : JsText} (h : rule (unit :: rest) = none) :
    replaceAll rule (unit :: rest) = (replaceAll rule rest).map (unit :: ·) := by
  rw [replaceAll, replaceFrom, h, replaceFrom_eq_drop]
  rfl

theorem replaceAll_of_some {text : JsText} {length : Nat} {replacement : Except ε JsText}
    (hpos : 0 < length) (hlength : length ≤ text.length)
    (h : rule text = some (length, replacement)) : replaceAll rule text =
      replacement.bind fun new => (replaceAll rule (text.drop length)).map (new ++ ·) := by
  cases text with
  | nil => exact absurd (hpos.trans_le hlength) (by simp)
  | cons unit rest =>
      obtain ⟨length, rfl⟩ := Nat.exists_eq_succ_of_ne_zero hpos.ne'
      rw [replaceAll, replaceFrom, h]
      simp only [replaceFrom_eq_drop, Nat.succ_eq_add_one, Nat.add_sub_cancel,
        List.drop_succ_cons]
      rfl

/-- A match that is at the beginning goes first. -/
theorem replaceAll_append {front back new : JsText} (hne : front ≠ [])
    (h : rule (front ++ back) = some (front.length, .ok new)) :
    replaceAll rule (front ++ back) = (replaceAll rule back).map (new ++ ·) := by
  rw [replaceAll_of_some (List.length_pos_of_ne_nil hne) (by simp) h, List.drop_left]
  rfl

variable (rule) in
/-- What is found is at the beginning of the text and is not longer than it. -/
def IsMatcher : Prop :=
  ∀ text length replacement, rule text = some (length, replacement) →
    0 < length ∧ length ≤ text.length

/-- Something that holds of the end of a text and survives every step from right to left holds
of the whole. -/
theorem replaceAll_induct (hrule : IsMatcher rule) {R : JsText → JsText → Prop} (hnil : R [] [])
    (hskip : ∀ unit rest new, rule (unit :: rest) = none → R rest new →
      R (unit :: rest) (unit :: new))
    (hmatch : ∀ text length replacement new, length ≤ text.length →
      rule text = some (length, .ok replacement) → R (text.drop length) new →
      R text (replacement ++ new))
    {text new : JsText} (hrun : replaceAll rule text = .ok new) : R text new := by
  induction hlength : text.length using Nat.strongRecOn generalizing text new with
  | ind n ih =>
      subst hlength
      cases text with
      | nil =>
          cases hrun
          exact hnil
      | cons unit rest =>
          cases hfound : rule (unit :: rest) with
          | none =>
              rw [replaceAll_of_none hfound, map_eq_ok] at hrun
              obtain ⟨restNew, hrest, rfl⟩ := hrun
              exact hskip _ _ _ hfound (ih _ (by simp) hrest rfl)
          | some found =>
              obtain ⟨length, replacement⟩ := found
              obtain ⟨hpos, hle⟩ := hrule _ _ _ hfound
              rw [replaceAll_of_some hpos hle hfound] at hrun
              obtain ⟨first, rfl, hrun⟩ := bind_eq_ok.mp hrun
              obtain ⟨restNew, hrest, rfl⟩ := map_eq_ok.mp hrun
              exact hmatch _ _ _ _ hle hfound (ih _ (by rw [List.length_drop]; omega) hrest rfl)

/-- What has no match stays as it is. -/
theorem replaceAll_of_forall_none {text : JsText} (h : ∀ part, part <:+ text → rule part = none) :
    replaceAll rule text = .ok text := by
  induction text with
  | nil => rfl
  | cons unit rest ih =>
      rw [replaceAll_of_none (h _ List.suffix_rfl),
        ih fun part hpart => h part (hpart.trans (List.suffix_cons unit rest))]
      rfl

variable (rule) in
/-- Every match is longer than what is put in its place. -/
def Shortens : Prop :=
  ∀ text length replacement, rule text = some (length, .ok replacement) →
    replacement.length < length

theorem length_replaceAll_le (hrule : IsMatcher rule) (hshort : Shortens rule) {text new : JsText}
    (hrun : replaceAll rule text = .ok new) : new.length ≤ text.length := by
  refine replaceAll_induct hrule (R := fun text new => new.length ≤ text.length) ?_ ?_ ?_ hrun
  · exact Nat.le_refl _
  · intro unit rest new _ ih
    exact Nat.succ_le_succ ih
  · intro text length replacement new hle hfound ih
    have hlength := hshort _ _ _ hfound
    rw [List.length_drop] at ih
    rw [List.length_append]
    omega

/-- Where every match shortens the text, only a text without one keeps its length. -/
theorem forall_none_of_length_replaceAll (hrule : IsMatcher rule) (hshort : Shortens rule)
    {text new : JsText} (hrun : replaceAll rule text = .ok new)
    (hlength : text.length ≤ new.length) : ∀ part, part <:+ text → rule part = none := by
  have hboth : new.length ≤ text.length ∧
      (text.length ≤ new.length → ∀ part, part <:+ text → rule part = none) := by
    refine replaceAll_induct hrule (R := fun text new => new.length ≤ text.length ∧
      (text.length ≤ new.length → ∀ part, part <:+ text → rule part = none)) ?_ ?_ ?_ hrun
    · refine ⟨Nat.le_refl _, fun _ part hpart => ?_⟩
      rw [List.suffix_nil.mp hpart]
      by_contra hsome
      obtain ⟨found, hfound⟩ := Option.ne_none_iff_exists'.mp hsome
      obtain ⟨hpos, hle⟩ := hrule _ _ _ hfound
      exact absurd (hpos.trans_le hle) (by simp)
    · intro unit rest new hfound ⟨hle, ih⟩
      refine ⟨Nat.succ_le_succ hle, fun hlength part hpart => ?_⟩
      rcases List.suffix_cons_iff.mp hpart with rfl | hpart
      · exact hfound
      · exact ih (Nat.le_of_succ_le_succ hlength) part hpart
    · intro text length replacement new hle hfound ⟨hdrop, _⟩
      have hshorter := hshort _ _ _ hfound
      rw [List.length_drop] at hdrop
      rw [List.length_append]
      exact ⟨by omega, fun hlength => absurd hlength (by omega)⟩
  exact hboth.2 hlength

theorem eq_self_of_length_replaceAll (hrule : IsMatcher rule) (hshort : Shortens rule)
    {text new : JsText} (hrun : replaceAll rule text = .ok new)
    (hlength : text.length ≤ new.length) : new = text := by
  have hself := replaceAll_of_forall_none
    (forall_none_of_length_replaceAll hrule hshort hrun hlength)
  rw [hrun] at hself
  exact Except.ok.inj hself

/-- A text stays the same exactly when it has no match. -/
theorem replaceAll_eq_self_iff (hrule : IsMatcher rule) (hshort : Shortens rule) {text : JsText} :
    replaceAll rule text = .ok text ↔ ∀ part, part <:+ text → rule part = none :=
  ⟨fun hrun => forall_none_of_length_replaceAll hrule hshort hrun (Nat.le_refl _),
    replaceAll_of_forall_none⟩

/-- What matches and their replacements keep is kept in the whole text. -/
theorem filter_replaceAll (hrule : IsMatcher rule) {keep : Nat → Bool}
    (hkeep : ∀ text length replacement, rule text = some (length, .ok replacement) →
      replacement.filter keep = (text.take length).filter keep) {text new : JsText}
    (hrun : replaceAll rule text = .ok new) : new.filter keep = text.filter keep := by
  refine replaceAll_induct hrule (R := fun text new => new.filter keep = text.filter keep)
    ?_ ?_ ?_ hrun
  · rfl
  · intro unit rest new _ ih
    rw [List.filter_cons, List.filter_cons, ih]
  · intro text length replacement new _ hfound ih
    rw [List.filter_append, ih, hkeep _ _ _ hfound, ← List.filter_append,
      List.take_append_drop]

end Replace

end JsText

end Useful.Math
