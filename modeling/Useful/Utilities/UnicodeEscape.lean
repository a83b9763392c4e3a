/-
# Unicode escapes

Escaping writes a code unit as `\u` and four hexadecimal digits, and may leave ASCII characters as
they are. A backslash is one of these, so that an escape that is already in the text is not told
apart from one that was written.
-/

import Useful.Utilities.Input

namespace Useful.Utilities

open Useful.Math JsText

/-! ## The handler -/

/-- `/\\u([0-9a-fA-F]{4})/` -/
def unescapeRule : JsText → Option (Nat × Except String JsText)
  | 92 :: 117 :: a :: b :: c :: d :: _ =>
      if [a, b, c, d].all isHexDigit then some (6, .ok [parseHex [a, b, c, d]]) else none
  | _ => none

/-- A code unit behind `\u`. -/
def escapedUnit (unit : Nat) : JsText := [92, 117] ++ padStart 4 48 (toHex unit)

def escapeText (asciiOnly : Bool) (text : JsText) : JsText :=
  (characters text).flatMap fun character =>
    if asciiOnly && codePoint character < 128 then character
    else character.flatMap escapedUnit

def unicodeHandler (input : Input) : Except String JsText := do
  input.assertExactObject ["operation", "text"] ["asciiOnly"]
  let asciiOnly : Option (Option Bool) :=
    match input.get "asciiOnly" with
    | .undefined => some none
    | .bool b => some (some b)
    | _ => none
  match (input.get "text").text?, (input.get "operation").isOneOf ["escape", "unescape"],
      asciiOnly with
  | some text, true, some asciiOnly =>
      if (input.get "operation").is "unescape" then replaceAll unescapeRule text
      else return escapeText (asciiOnly.getD true) text
  | _, _, _ => throw "Unicode 输入不符合契约"

/-! ## Escaping unit by unit -/

/-- What one code unit of a text becomes. -/
def unitPiece (asciiOnly : Bool) (unit : Nat) : JsText :=
  if asciiOnly && unit < 128 then [unit] else escapedUnit unit

theorem unitPiece_of_le {unit : Nat} (h : 128 ≤ unit) (asciiOnly : Bool) :
    unitPiece asciiOnly unit = escapedUnit unit := by
  rw [unitPiece, decide_eq_false (by omega), Bool.and_false, if_neg (by decide)]

theorem unitPiece_of_lt {unit : Nat} (h : unit < 128) : unitPiece true unit = [unit] := by
  rw [unitPiece, decide_eq_true h, Bool.and_true, if_pos rfl]

/-- The surrogates of a pair are both escaped, as the character is. -/
theorem escapeText_eq (asciiOnly : Bool) (text : JsText) :
    escapeText asciiOnly text = text.flatMap (unitPiece asciiOnly) := by
  unfold escapeText
  induction text using characters.induct with
  | case1 => rfl
  | case2 unit => simp [characters, codePoint, unitPiece]
  | case3 high low rest hpair ih =>
      have hunits := hpair
      simp only [isHighSurrogate, isLowSurrogate, Bool.and_eq_true, decide_eq_true_eq] at hunits
      have hlarge : ¬ codePoint [high, low] < 128 := by
        rw [codePoint, if_pos hpair]
        omega
      rw [characters, if_pos hpair, List.flatMap_cons, ih, decide_eq_false hlarge,
        Bool.and_false, if_neg (by decide)]
      simp [unitPiece_of_le (by omega : 128 ≤ high), unitPiece_of_le (by omega : 128 ≤ low)]
  | case4 high low rest hpair ih =>
      have hpiece : [high].flatMap escapedUnit = escapedUnit high := by simp
      rw [characters, if_neg hpair, List.flatMap_cons, ih, hpiece]
      rfl

/-- An escaped code unit is read back as itself. -/
theorem unescapeRule_escapedUnit {unit : Nat} (h : unit < 65536) (rest : JsText) :
    unescapeRule (escapedUnit unit ++ rest) = some (6, .ok [unit]) ∧
      (escapedUnit unit).length = 6 := by
  obtain ⟨hlength, hdigits, hvalue⟩ := padStart_toHex (by decide : 0 < 4) (by omega : unit < 16 ^ 4)
  rw [escapedUnit]
  match hpad : padStart 4 48 (toHex unit), hlength with
  | [a, b, c, d], _ =>
      rw [hpad] at hdigits hvalue
      have hall : [a, b, c, d].all isHexDigit = true := List.all_eq_true.mpr hdigits
      refine ⟨?_, rfl⟩
      show (if [a, b, c, d].all isHexDigit = true then some (6, Except.ok [parseHex [a, b, c, d]])
        else none) = _
      rw [if_pos hall, hvalue]

theorem replaceAll_escapedUnit {unit : Nat} (h : unit < 65536) (rest : JsText) :
    replaceAll unescapeRule (escapedUnit unit ++ rest) =
      (replaceAll unescapeRule rest).map (unit :: ·) := by
  obtain ⟨hrule, hlength⟩ := unescapeRule_escapedUnit h rest
  rw [← hlength] at hrule
  exact replaceAll_append (by rw [escapedUnit]; simp) hrule

theorem isMatcher_unescapeRule : IsMatcher unescapeRule := by
  intro text length replacement h
  unfold unescapeRule at h
  split at h
  · split_ifs at h
    cases h
    exact ⟨by decide, by simp⟩
  · cases h

theorem shortens_unescapeRule : Shortens unescapeRule := by
  intro text length replacement h
  unfold unescapeRule at h
  split at h
  · split_ifs at h
    cases h
    show 1 < 6
    decide
  · cases h

/-- What is not a backslash in an escaped text was there before. -/
theorem eq_cons_of_flatMap_unitPiece {text rest : JsText} {unit : Nat} (hne : unit ≠ 92)
    (h : text.flatMap (unitPiece true) = unit :: rest) :
    ∃ tail, text = unit :: tail ∧ rest = tail.flatMap (unitPiece true) := by
  cases text with
  | nil => cases h
  | cons first tail =>
      rw [List.flatMap_cons] at h
      rcases Nat.lt_or_ge first 128 with hfirst | hfirst
      · rw [unitPiece_of_lt hfirst] at h
        cases h
        exact ⟨tail, rfl, rfl⟩
      · rw [unitPiece_of_le hfirst] at h
        cases h
        exact absurd rfl hne

theorem isHexDigit_lt {unit : Nat} (h : isHexDigit unit = true) : unit ≠ 92 ∧ unit < 128 := by
  simp only [isHexDigit, isDigit, Bool.or_eq_true, Bool.and_eq_true, decide_eq_true_eq] at h
  omega

/-- Escaping makes no new matches out of the ASCII characters it leaves. -/
theorem unescapeRule_cons_flatMap {unit : Nat} (text : JsText) (hlt : unit < 128)
    (hnone : unescapeRule (unit :: text) = none) :
    unescapeRule (unit :: text.flatMap (unitPiece true)) = none := by
  by_contra hsome
  unfold unescapeRule at hsome
  split at hsome
  case h_2 => exact hsome rfl
  case h_1 a b c d back heq =>
    split_ifs at hsome with hall
    · rw [List.cons.injEq] at heq
      obtain ⟨rfl, heq⟩ := heq
      simp only [List.all_cons, List.all_nil, Bool.and_true, Bool.and_eq_true] at hall
      obtain ⟨ha, hb, hc, hd⟩ := hall
      obtain ⟨t1, rfl, h1⟩ := eq_cons_of_flatMap_unitPiece (by decide) heq
      obtain ⟨t2, rfl, h2⟩ := eq_cons_of_flatMap_unitPiece (isHexDigit_lt ha).1 h1.symm
      obtain ⟨t3, rfl, h3⟩ := eq_cons_of_flatMap_unitPiece (isHexDigit_lt hb).1 h2.symm
      obtain ⟨t4, rfl, h4⟩ := eq_cons_of_flatMap_unitPiece (isHexDigit_lt hc).1 h3.symm
      obtain ⟨t5, rfl, -⟩ := eq_cons_of_flatMap_unitPiece (isHexDigit_lt hd).1 h4.symm
      rw [unescapeRule, if_pos (by simp [ha, hb, hc, hd])] at hnone
      cases hnone
    · exact hsome rfl

/-- Escapes that are already in the text are read together with those that were written. -/
theorem unescape_escape_ascii {text : JsText} (hunits : ∀ unit ∈ text, unit < 65536) :
    replaceAll unescapeRule (text.flatMap (unitPiece true)) = replaceAll unescapeRule text := by
  induction hlength : text.length using Nat.strongRecOn generalizing text with
  | ind n ih =>
      subst hlength
      cases text with
      | nil => rfl
      | cons unit rest =>
          have hrest : ∀ u ∈ rest, u < 65536 := fun u hu => hunits u (List.mem_cons_of_mem _ hu)
          rw [List.flatMap_cons]
          rcases Nat.lt_or_ge unit 128 with hlt | hge
          · rw [unitPiece_of_lt hlt, List.singleton_append]
            cases hfound : unescapeRule (unit :: rest) with
            | none =>
                rw [replaceAll_of_none hfound,
                  replaceAll_of_none (unescapeRule_cons_flatMap rest hlt hfound),
                  ih _ (by simp) hrest rfl]
            | some found =>
                have hmatch := hfound
                unfold unescapeRule at hmatch
                split at hmatch
                case h_2 => cases hmatch
                case h_1 a b c d back heq =>
                  split_ifs at hmatch with hall
                  cases heq
                  simp only [List.all_cons, List.all_nil, Bool.and_true, Bool.and_eq_true] at hall
                  obtain ⟨ha, hb, hc, hd⟩ := hall
                  have hpieces : (117 :: a :: b :: c :: d :: back).flatMap (unitPiece true) =
                      [117, a, b, c, d] ++ back.flatMap (unitPiece true) := by
                    simp only [List.flatMap_cons, unitPiece_of_lt (by decide : 117 < 128),
                      unitPiece_of_lt (isHexDigit_lt ha).2, unitPiece_of_lt (isHexDigit_lt hb).2,
                      unitPiece_of_lt (isHexDigit_lt hc).2, unitPiece_of_lt (isHexDigit_lt hd).2]
                    rfl
                  have hrule (tail : JsText) :
                      unescapeRule ([92, 117, a, b, c, d] ++ tail) =
                        some ([92, 117, a, b, c, d].length, .ok [parseHex [a, b, c, d]]) := by
                    show unescapeRule (92 :: 117 :: a :: b :: c :: d :: tail) = _
                    rw [unescapeRule, if_pos (by simp [ha, hb, hc, hd])]
                    rfl
                  rw [hpieces]
                  have hleft := replaceAll_append (by simp) (hrule (back.flatMap (unitPiece true)))
                  have hright := replaceAll_append (by simp) (hrule back)
                  have hback : ∀ u ∈ back, u < 65536 := fun u hu => hrest u (by simp [hu])
                  rw [ih back.length (by simp; omega) hback rfl] at hleft
                  exact hleft.trans hright.symm
          · have hnone : unescapeRule (unit :: rest) = none := by
              unfold unescapeRule
              split
              case h_1 heq =>
                cases heq
                exact absurd hge (by decide)
              case h_2 => rfl
            rw [unitPiece_of_le hge, replaceAll_escapedUnit (hunits unit List.mem_cons_self),
              replaceAll_of_none hnone, ih _ (by simp) hrest rfl]

theorem unescape_escape_all {text : JsText} (hunits : ∀ unit ∈ text, unit < 65536) :
    replaceAll unescapeRule (text.flatMap (unitPiece false)) = .ok text := by
  induction text with
  | nil => rfl
  | cons unit rest ih =>
      rw [List.flatMap_cons]
      have hpiece : unitPiece false unit = escapedUnit unit := rfl
      rw [hpiece, replaceAll_escapedUnit (hunits unit List.mem_cons_self),
        ih fun u hu => hunits u (List.mem_cons_of_mem _ hu)]
      rfl

/-! ## The round trip -/

/-- The text has a backslash and `u` with four hexadecimal digits after them. -/
def HasEscape (text : JsText) : Prop :=
  ∃ front digits back, text = front ++ [92, 117] ++ digits ++ back ∧ digits.length = 4 ∧
    ∀ unit ∈ digits, isHexDigit unit = true

theorem exists_unescapeRule_iff (text : JsText) :
    (∃ part, part <:+ text ∧ unescapeRule part ≠ none) ↔ HasEscape text := by
  constructor
  · rintro ⟨part, ⟨front, rfl⟩, hsome⟩
    unfold unescapeRule at hsome
    split at hsome
    case h_2 => exact absurd rfl hsome
    case h_1 a b c d back =>
      split_ifs at hsome with hall
      · exact ⟨front, [a, b, c, d], back, by simp, rfl, List.all_eq_true.mp hall⟩
      · exact absurd rfl hsome
  · rintro ⟨front, digits, back, rfl, hlength, hdigits⟩
    match digits, hlength with
    | [a, b, c, d], _ =>
        refine ⟨92 :: 117 :: a :: b :: c :: d :: back, ⟨front, by simp⟩, ?_⟩
        rw [unescapeRule, if_pos (List.all_eq_true.mpr hdigits)]
        exact Option.some_ne_none _

/-- The input of an operation on a text. -/
def unicodeRequest (operation : String) (text : JsText) (asciiOnly : List (String × Field)) : Input :=
  .object ([("operation", .str (ofString operation)), ("text", .str text)] ++ asciiOnly)

theorem unicodeHandler_escape (text : JsText) (asciiOnly : Bool) :
    unicodeHandler (unicodeRequest "escape" text [("asciiOnly", .bool asciiOnly)]) =
      .ok (escapeText asciiOnly text) := rfl

theorem unicodeHandler_unescape (text : JsText) :
    unicodeHandler (unicodeRequest "unescape" text []) = replaceAll unescapeRule text := rfl

/-- Unescaping the output of the escape operation returns the text. -/
def UnescapesTo (text : JsText) (asciiOnly : Bool) : Prop :=
  ∃ escaped,
    unicodeHandler (unicodeRequest "escape" text [("asciiOnly", .bool asciiOnly)]) = .ok escaped ∧
    unicodeHandler (unicodeRequest "unescape" escaped []) = .ok text

theorem utf16_lt {text : List Char} {unit : Nat} (h : unit ∈ utf16 text) : unit < 65536 := by
  obtain ⟨c, -, hc⟩ := List.mem_flatMap.mp h
  have hscalar := Char.toNat_scalar c
  unfold utf16Char at hc
  generalize c.toNat = n at *
  dsimp only at hc
  split_ifs at hc <;> simp only [List.mem_cons, List.not_mem_nil, or_false] at hc <;> omega

/-- Escapes come back as the text when ASCII characters are escaped too, and otherwise when the
text has no escape of its own. -/
theorem unescape_escape_iff (text : List Char) (asciiOnly : Bool) :
    UnescapesTo (utf16 text) asciiOnly ↔ asciiOnly = false ∨ ¬ HasEscape (utf16 text) := by
  have hunits : ∀ unit ∈ utf16 text, unit < 65536 := fun unit => utf16_lt
  unfold UnescapesTo
  simp only [unicodeHandler_escape, unicodeHandler_unescape, Except.ok.injEq, exists_eq_left',
    escapeText_eq]
  cases asciiOnly with
  | false => simp [unescape_escape_all hunits]
  | true =>
      rw [unescape_escape_ascii hunits,
        replaceAll_eq_self_iff isMatcher_unescapeRule shortens_unescapeRule,
        ← exists_unescapeRule_iff]
      simp

/-- The letter `A`, written as an escape, is a text that does not come back. -/
theorem unescape_escape_written_escape :
    ¬ ∀ (text : List Char) (asciiOnly : Bool), UnescapesTo (utf16 text) asciiOnly := by
  intro h
  obtain ⟨escaped, hescape, hunescape⟩ := h "\\u0041".toList true
  have hescaped : escaped = utf16 "\\u0041".toList := by
    rw [unicodeHandler_escape, Except.ok.injEq] at hescape
    rw [← hescape]
    decide
  rw [hescaped] at hunescape
  exact absurd hunescape (by decide)

end Useful.Utilities
