/-
# HTML entities

Decoding makes three passes: over the named entities, over decimal and over hexadecimal code
points. The first undoes encoding; the other two also rewrite what the first has decoded. Stripping
decodes, drops everything between angle brackets and collapses white space.
-/

import Mathlib.Data.List.TakeWhile
import Useful.Utilities.Input

namespace Useful.Utilities

open Useful.Math JsText

/-! ## The handler -/

/-- `HTML_ESCAPE` -/
def htmlEscape (unit : Nat) : JsText :=
  if unit = 38 then ofString "&amp;"
  else if unit = 60 then ofString "&lt;"
  else if unit = 62 then ofString "&gt;"
  else if unit = 34 then ofString "&quot;"
  else if unit = 39 then ofString "&#39;"
  else [unit]

/-- `HTML_UNESCAPE`, with the marks around the names. -/
def htmlUnescape : List (JsText × Nat) :=
  [(ofString "&amp;", 38), (ofString "&lt;", 60), (ofString "&gt;", 62), (ofString "&quot;", 34),
    (ofString "&apos;", 39), (ofString "&nbsp;", 32), (ofString "&#39;", 39)]

/-- `/&(amp|lt|gt|quot|apos|nbsp|#39);/` -/
def namedRule (text : JsText) : Option (Nat × Except String JsText) :=
  htmlUnescape.findSome? fun entity =>
    if entity.1.isPrefixOf text then some (entity.1.length, .ok [entity.2]) else none

/-- A mark, digits and a semicolon. A value that is no code point is a `RangeError`, which becomes
the error of the action. -/
def numericRule (mark : JsText) (isDigit : Nat → Bool) (value : JsText → Nat) (text : JsText) :
    Option (Nat × Except String JsText) :=
  if mark.isPrefixOf text then
    let digits := (text.drop mark.length).takeWhile isDigit
    match (text.drop mark.length).dropWhile isDigit with
    | 59 :: _ =>
        if digits.isEmpty then none
        else some (mark.length + digits.length + 1, orFail "HTML 实体非法" (fromCodePoint (value digits)))
    | _ => none
  else none

/-- `Number(value)` of decimal digits, as far as it decides about code points. -/
def parseDecimal (digits : JsText) : Nat :=
  digits.foldl (fun value unit => value * 10 + (unit - 48)) 0

/-- `/&#(\d+);/` -/
def decimalRule : JsText → Option (Nat × Except String JsText) :=
  numericRule (ofString "&#") JsText.isDigit parseDecimal

/-- `/&#x([0-9a-fA-F]+);/` -/
def hexRule : JsText → Option (Nat × Except String JsText) :=
  numericRule (ofString "&#x") isHexDigit parseHex

def decodeHtml (text : JsText) : Except String JsText := do
  let text ← replaceAll namedRule text
  let text ← replaceAll decimalRule text
  replaceAll hexRule text

/-- The loop of `stripTagLikeSegments`, over what comes after the cursor. -/
def stripTagLikeSegments (text : JsText) : JsText :=
  match _htail : text.dropWhile (· != 60) with
  | [] => text
  | _ :: tail =>
      match _hafter : tail.dropWhile (· != 62) with
      | [] => text
      | _ :: after => text.takeWhile (· != 60) ++ stripTagLikeSegments after
termination_by text.length
decreasing_by
  have hlength := congrArg List.length _htail
  have hlength' := congrArg List.length _hafter
  have hle := (List.dropWhile_sublist (l := text) (· != 60)).length_le
  have hle' := (List.dropWhile_sublist (l := tail) (· != 62)).length_le
  rw [List.length_cons] at hlength hlength'
  omega

/-- `/\s+/`, replaced by a space. -/
def spaceRule (text : JsText) : Option (Nat × Except String JsText) :=
  let spaces := text.takeWhile isSpace
  if spaces.isEmpty then none else some (spaces.length, .ok [32])

def htmlHandler (input : Input) : Except String JsText := do
  input.assertExactObject ["operation", "text"] []
  match (input.get "text").text?, (input.get "operation").isOneOf ["encode", "decode", "strip"] with
  | some text, true =>
      if (input.get "operation").is "encode" then return text.flatMap htmlEscape
      else if (input.get "operation").is "decode" then decodeHtml text
      else do
        let text ← decodeHtml text
        let text ← replaceAll spaceRule (stripTagLikeSegments text)
        return trim text
  | _, _ => throw "HTML action 输入不符合契约"

/-! ## The named entities -/

theorem namedRule_append : ∀ entity ∈ htmlUnescape, ∀ rest,
    namedRule (entity.1 ++ rest) = some (entity.1.length, .ok [entity.2]) := by
  intro entity hmem rest
  simp only [htmlUnescape, List.mem_cons, List.not_mem_nil, or_false] at hmem
  rcases hmem with rfl | rfl | rfl | rfl | rfl | rfl | rfl <;> rfl

/-- Every entity begins with an ampersand. -/
theorem namedRule_of_ne {unit : Nat} (h : unit ≠ 38) (rest : JsText) :
    namedRule (unit :: rest) = none := by
  rw [namedRule, List.findSome?_eq_none_iff]
  intro entity hmem
  have hheads : ∀ e ∈ htmlUnescape, e.1.head? = some 38 := by decide
  have hhead := hheads entity hmem
  rw [if_neg]
  intro hpre
  cases hmark : entity.1 with
  | nil =>
      rw [hmark] at hhead
      cases hhead
  | cons first tail =>
      rw [hmark, List.head?_cons, Option.some.injEq] at hhead
      rw [hmark, List.isPrefixOf_cons_cons, Bool.and_eq_true, beq_iff_eq] at hpre
      exact h (hpre.1.symm.trans hhead)

/-- What is escaped is one of the entities. -/
theorem htmlEscape_cases (unit : Nat) :
    (htmlEscape unit, unit) ∈ htmlUnescape ∨ unit ≠ 38 ∧ htmlEscape unit = [unit] := by
  unfold htmlEscape
  split_ifs with hamp hlt hgt hquot hapos
  · exact .inl (by rw [hamp]; decide)
  · exact .inl (by rw [hlt]; decide)
  · exact .inl (by rw [hgt]; decide)
  · exact .inl (by rw [hquot]; decide)
  · exact .inl (by rw [hapos]; decide)
  · exact .inr ⟨hamp, rfl⟩

theorem replaceAll_htmlEscape (unit : Nat) (rest : JsText) :
    replaceAll namedRule (htmlEscape unit ++ rest) =
      (replaceAll namedRule rest).map (unit :: ·) := by
  rcases htmlEscape_cases unit with hmem | ⟨hne, heq⟩
  · have hnonempty : ∀ entity ∈ htmlUnescape, entity.1 ≠ [] := by decide
    exact replaceAll_append (hnonempty _ hmem) (namedRule_append _ hmem rest)
  · rw [heq, List.singleton_append, replaceAll_of_none (namedRule_of_ne hne rest)]

/-- The first pass undoes encoding. -/
theorem replaceAll_namedRule_encode (text : JsText) :
    replaceAll namedRule (text.flatMap htmlEscape) = .ok text := by
  induction text with
  | nil => rfl
  | cons unit rest ih =>
      rw [List.flatMap_cons, replaceAll_htmlEscape, ih]
      rfl

/-! ## The numeric entities -/

section Numeric

variable {mark : JsText} {isDigit : Nat → Bool} {value : JsText → Nat}

/-- What a numeric rule finds. -/
theorem numericRule_eq_some {text : JsText} {length : Nat} {replacement : Except String JsText}
    (h : numericRule mark isDigit value text = some (length, replacement)) :
    ∃ digits back, text = mark ++ digits ++ 59 :: back ∧ digits ≠ [] ∧
      (∀ unit ∈ digits, isDigit unit = true) ∧ length = mark.length + digits.length + 1 ∧
      replacement = orFail "HTML 实体非法" (fromCodePoint (value digits)) := by
  unfold numericRule at h
  split_ifs at h with hmark
  obtain ⟨tail, rfl⟩ := List.isPrefixOf_iff_prefix.mp hmark
  simp only [List.drop_left] at h
  split at h
  case h_2 => cases h
  case h_1 back hback =>
    split_ifs at h with hempty
    cases h
    refine ⟨tail.takeWhile isDigit, back, ?_, ?_, ?_, rfl, rfl⟩
    · rw [List.append_assoc, ← hback, List.takeWhile_append_dropWhile]
    · exact fun hnil => hempty (by rw [hnil]; rfl)
    · exact fun unit hunit => List.mem_takeWhile_imp hunit

/-- Digits between a mark and a semicolon are found. -/
theorem numericRule_append (hsemicolon : isDigit 59 = false) {digits : JsText} (back : JsText)
    (hne : digits ≠ []) (hdigits : ∀ unit ∈ digits, isDigit unit = true) :
    numericRule mark isDigit value (mark ++ digits ++ 59 :: back) ≠ none := by
  have hpre : mark.isPrefixOf (mark ++ digits ++ 59 :: back) = true := by
    rw [List.isPrefixOf_iff_prefix, List.append_assoc]
    exact List.prefix_append _ _
  have hdrop : (mark ++ digits ++ 59 :: back).drop mark.length = digits ++ 59 :: back := by
    rw [List.append_assoc, List.drop_left]
  have htake : (digits ++ 59 :: back).takeWhile isDigit = digits := by
    rw [List.takeWhile_append_of_pos hdigits, List.takeWhile_cons_of_neg (by simp [hsemicolon]),
      List.append_nil]
  have hrest : (digits ++ 59 :: back).dropWhile isDigit = 59 :: back := by
    rw [List.dropWhile_append_of_pos hdigits, List.dropWhile_cons_of_neg (by simp [hsemicolon])]
  have hempty : digits.isEmpty = false := List.isEmpty_eq_false_iff.mpr hne
  unfold numericRule
  simp only [hpre, hdrop, htake, hrest, hempty, if_true, Bool.false_eq_true, if_false]
  exact Option.some_ne_none _

theorem isMatcher_numericRule : IsMatcher (numericRule mark isDigit value) := by
  intro text length replacement h
  obtain ⟨digits, back, rfl, -, -, rfl, -⟩ := numericRule_eq_some h
  simp only [List.length_append, List.length_cons]
  omega

/-- A code point takes at most two code units, an entity at least four. -/
theorem shortens_numericRule (hmark : 2 ≤ mark.length) : Shortens (numericRule mark isDigit value) := by
  intro text length replacement h
  obtain ⟨digits, back, -, hne, -, rfl, hvalue⟩ := numericRule_eq_some h
  have hpos := List.length_pos_of_ne_nil hne
  have hreplacement := orFail_eq_ok.mp hvalue.symm
  unfold fromCodePoint at hreplacement
  split_ifs at hreplacement <;> cases hreplacement <;>
    simp only [List.length_cons, List.length_nil] <;> omega

/-- The text has an entity of the kind. -/
def HasNumeric (mark : JsText) (isDigit : Nat → Bool) (text : JsText) : Prop :=
  ∃ front digits back, text = front ++ mark ++ digits ++ 59 :: back ∧ digits ≠ [] ∧
    ∀ unit ∈ digits, isDigit unit = true

theorem replaceAll_numericRule_eq_self_iff (hmark : 2 ≤ mark.length) (hsemicolon : isDigit 59 = false)
    (text : JsText) : replaceAll (numericRule mark isDigit value) text = .ok text ↔
      ¬ HasNumeric mark isDigit text := by
  rw [replaceAll_eq_self_iff isMatcher_numericRule (shortens_numericRule hmark)]
  constructor
  · rintro hnone ⟨front, digits, back, rfl, hne, hdigits⟩
    refine numericRule_append hsemicolon back hne hdigits (hnone _ ⟨front, ?_⟩)
    simp only [List.append_assoc]
  · rintro hno part ⟨front, rfl⟩
    by_contra hsome
    obtain ⟨found, hfound⟩ := Option.ne_none_iff_exists'.mp hsome
    obtain ⟨digits, back, rfl, hne, hdigits, -⟩ := numericRule_eq_some hfound
    exact hno ⟨front, digits, back, by simp only [List.append_assoc], hne, hdigits⟩

end Numeric

/-- The text has a decimal or a hexadecimal entity. -/
def HasNumericEntity (text : JsText) : Prop :=
  HasNumeric (ofString "&#") JsText.isDigit text ∨ HasNumeric (ofString "&#x") isHexDigit text

/-- Both numeric passes only shorten, so neither repairs what the other has changed. -/
theorem decodeHtml_encode_iff (text : JsText) :
    decodeHtml (text.flatMap htmlEscape) = .ok text ↔ ¬ HasNumericEntity text := by
  have hdecimal : replaceAll decimalRule text = .ok text ↔ _ :=
    replaceAll_numericRule_eq_self_iff (by decide) (by decide) text
  have hhex : replaceAll hexRule text = .ok text ↔ _ :=
    replaceAll_numericRule_eq_self_iff (by decide) (by decide) text
  have hdecode : decodeHtml (text.flatMap htmlEscape) =
      (replaceAll decimalRule text).bind (replaceAll hexRule) := by
    unfold decodeHtml
    rw [replaceAll_namedRule_encode]
    rfl
  rw [hdecode, HasNumericEntity, not_or, ← hdecimal, ← hhex]
  constructor
  · intro hrun
    obtain ⟨between, hfirst, hsecond⟩ := bind_eq_ok.mp hrun
    have hle : between.length ≤ text.length :=
      length_replaceAll_le isMatcher_numericRule (shortens_numericRule (by decide)) hfirst
    have hge : text.length ≤ between.length :=
      length_replaceAll_le isMatcher_numericRule (shortens_numericRule (by decide)) hsecond
    have hsame : between = text := eq_self_of_length_replaceAll isMatcher_numericRule
      (shortens_numericRule (by decide)) hfirst hge
    rw [hsame] at hfirst hsecond
    exact ⟨hfirst, hsecond⟩
  · rintro ⟨hfirst, hsecond⟩
    rw [hfirst]
    exact hsecond

/-! ## Stripping -/

/-- No opening angle bracket is followed by a closing one. -/
def NoTag (text : JsText) : Prop := ¬ List.Sublist [60, 62] text

theorem noTag_append {front back : JsText} (hfront : 60 ∉ front) (hback : NoTag back) :
    NoTag (front ++ back) := by
  intro hsub
  obtain ⟨first, second, heq, hfirst, hsecond⟩ := List.sublist_append_iff.mp hsub
  cases first with
  | nil =>
      rw [List.nil_append] at heq
      exact hback (heq ▸ hsecond)
  | cons unit first =>
      rw [List.cons_append, List.cons.injEq] at heq
      exact hfront (heq.1 ▸ hfirst.subset List.mem_cons_self)

/-- What comes before the first bracket that opens has none. -/
theorem not_mem_takeWhile (text : JsText) : 60 ∉ text.takeWhile (· != 60) :=
  fun hmem => absurd (List.mem_takeWhile_imp hmem) (by decide)

/-- A text in which nothing closes after the first bracket that opens. -/
theorem noTag_of_not_mem {text : JsText} (h : 62 ∉ (text.dropWhile (· != 60)).tail) :
    NoTag text := by
  rw [← List.takeWhile_append_dropWhile (p := (· != 60)) (l := text)]
  apply noTag_append (not_mem_takeWhile text)
  intro hsub
  cases hdrop : text.dropWhile (· != 60) with
  | nil =>
      rw [hdrop] at hsub
      cases hsub
  | cons unit tail =>
      rw [hdrop] at hsub h
      have hclose : List.Sublist [62] tail := by
        rcases List.sublist_cons_iff.mp hsub with hsub | ⟨rest, heq, hrest⟩
        · exact (List.sublist_cons_self 60 [62]).trans hsub
        · cases heq
          exact hrest
      exact h (List.singleton_sublist.mp hclose)

theorem noTag_stripTagLikeSegments (text : JsText) : NoTag (stripTagLikeSegments text) := by
  induction hlength : text.length using Nat.strongRecOn generalizing text with
  | ind n ih =>
      subst hlength
      unfold stripTagLikeSegments
      split
      · rename_i htail
        apply noTag_of_not_mem
        rw [htail]
        simp
      · rename_i opening tail htail
        split
        · rename_i hafter
          apply noTag_of_not_mem
          rw [htail, List.tail_cons]
          intro hmem
          exact absurd (List.dropWhile_eq_nil_iff.mp hafter 62 hmem) (by decide)
        · rename_i closing after hafter
          apply noTag_append (not_mem_takeWhile text)
          apply ih _ _ _ rfl
          have hle := (List.dropWhile_sublist (l := text) (· != 60)).length_le
          have hle' := (List.dropWhile_sublist (l := tail) (· != 62)).length_le
          rw [htail, List.length_cons] at hle
          rw [hafter, List.length_cons] at hle'
          omega

/-- White space is the only thing that collapsing changes. -/
theorem filter_spaceRule {text new : JsText} (hrun : replaceAll spaceRule text = .ok new) :
    new.filter (!isSpace ·) = text.filter (!isSpace ·) := by
  refine filter_replaceAll ?_ ?_ hrun
  · intro text length replacement h
    unfold spaceRule at h
    dsimp only at h
    split_ifs at h with hempty
    cases h
    exact ⟨List.length_pos_of_ne_nil (List.isEmpty_eq_false_iff.mp (by simpa using hempty)),
      (List.takeWhile_sublist _).length_le⟩
  · intro text length replacement h
    unfold spaceRule at h
    dsimp only at h
    split_ifs at h
    cases h
    have htake : text.take (text.takeWhile isSpace).length = text.takeWhile isSpace :=
      (List.prefix_iff_eq_take.mp (List.takeWhile_prefix _)).symm
    rw [htake]
    have hspaces : (text.takeWhile isSpace).filter (!isSpace ·) = [] := by
      rw [List.filter_eq_nil_iff]
      intro unit hunit
      simp [List.mem_takeWhile_imp hunit]
    rw [hspaces]
    rfl

theorem noTag_iff_filter (text : JsText) : NoTag text ↔ NoTag (text.filter (!isSpace ·)) := by
  constructor
  · exact fun h hsub => h (hsub.trans List.filter_sublist)
  · intro h hsub
    exact h (hsub.filter (!isSpace ·))

theorem noTag_trim {text : JsText} (h : NoTag text) : NoTag (trim text) := by
  intro hsub
  apply h
  refine hsub.trans ?_
  have hback := (List.dropWhile_sublist (l := (text.dropWhile isSpace).reverse) isSpace).reverse
  rw [List.reverse_reverse] at hback
  exact hback.trans (List.dropWhile_sublist isSpace)

/-! ## Both properties -/

/-- The input of an operation on a text. -/
def htmlRequest (operation : String) (text : JsText) : Input :=
  .object [("operation", .str (ofString operation)), ("text", .str text)]

theorem htmlHandler_encode (text : JsText) :
    htmlHandler (htmlRequest "encode" text) = .ok (text.flatMap htmlEscape) := rfl

theorem htmlHandler_decode (text : JsText) :
    htmlHandler (htmlRequest "decode" text) = decodeHtml text := rfl

theorem htmlHandler_strip (text : JsText) : htmlHandler (htmlRequest "strip" text) =
    (decodeHtml text).bind fun decoded =>
      (replaceAll spaceRule (stripTagLikeSegments decoded)).map JsText.trim := rfl

theorem noTag_of_strip {text stripped : JsText}
    (h : htmlHandler (htmlRequest "strip" text) = .ok stripped) : NoTag stripped := by
  rw [htmlHandler_strip] at h
  obtain ⟨decoded, -, h⟩ := bind_eq_ok.mp h
  obtain ⟨collapsed, hcollapsed, rfl⟩ := map_eq_ok.mp h
  apply noTag_trim
  rw [noTag_iff_filter, filter_spaceRule hcollapsed, ← noTag_iff_filter]
  exact noTag_stripTagLikeSegments decoded

/-- Decoding what encoding made of the text gives it back, and stripping leaves no tag in it. -/
def DecodesAndStrips (text : JsText) : Prop :=
  (∃ encoded, htmlHandler (htmlRequest "encode" text) = .ok encoded ∧
    htmlHandler (htmlRequest "decode" encoded) = .ok text) ∧
  ∀ stripped, htmlHandler (htmlRequest "strip" text) = .ok stripped → NoTag stripped

/-- Tags are always stripped; encoding is undone on the texts without a numeric entity. -/
theorem decodesAndStrips_iff (text : JsText) :
    DecodesAndStrips text ↔ ¬ HasNumericEntity text := by
  unfold DecodesAndStrips
  simp only [htmlHandler_encode, htmlHandler_decode, Except.ok.injEq, exists_eq_left',
    decodeHtml_encode_iff]
  exact and_iff_left fun stripped => noTag_of_strip

/-- An entity in the text is encoded, decoded as a text, and then decoded once more. -/
theorem not_decodesAndStrips_entity : ¬ ∀ text : JsText, DecodesAndStrips text := by
  intro h
  obtain ⟨⟨encoded, hencode, hdecode⟩, -⟩ := h (ofString "&#65;")
  have hencoded : encoded = ofString "&amp;#65;" := by
    rw [htmlHandler_encode, Except.ok.injEq] at hencode
    rw [← hencode]
    decide
  rw [hencoded] at hdecode
  exact absurd hdecode (by decide)

end Useful.Utilities
