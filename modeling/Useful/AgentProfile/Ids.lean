/-
# Ids on both sides

The desktop walks over the letters of an id, a version or an alias, and the browser matches
them against a pattern and counts UTF-16 units. What passes the walk matches the pattern.
-/

import Useful.AgentProfile.Desktop

namespace Useful.AgentProfile

open Useful.Math
open Useful.Actions (isLower isUpper isDigit isIdRest utf16Length)
open Regex

variable {ν : Type}

/-! ## Lengths -/

theorem length_utf16Char_le (c : Char) : (utf16Char c).length ≤ (utf8Char c).length := by
  unfold utf16Char utf8Char
  dsimp only
  split_ifs <;> simp <;> omega

/-- A text has no more UTF-16 units than bytes. -/
theorem utf16Length_le_len (value : String) : utf16Length value ≤ len value := by
  unfold utf16Length len Json.byteSize
  induction value.toList with
  | nil => exact le_rfl
  | cons c text ih =>
      rw [utf16_cons, utf8_cons, List.length_append, List.length_append]
      exact Nat.add_le_add (length_utf16Char_le c) ih

/-- In ASCII every letter is one byte. -/
theorem len_of_ascii {value : String} (h : value.toList.all isAscii = true) :
    len value = utf16Length value := by
  unfold utf16Length len Json.byteSize
  generalize value.toList = text at h
  induction text with
  | nil => rfl
  | cons c text ih =>
      rw [List.all_cons, Bool.and_eq_true] at h
      have hc : c.toNat < 128 := of_decide_eq_true h.1
      have hutf8 : (utf8Char c).length = 1 := by
        unfold utf8Char
        rw [if_pos hc]
        rfl
      have hutf16 : (utf16Char c).length = 1 := by
        unfold utf16Char
        rw [if_pos (by omega)]
        rfl
      rw [utf16_cons, utf8_cons, List.length_append, List.length_append, ih h.2, hutf8, hutf16]

theorem utf16Length_pos {value : String} (h : value.toList ≠ []) : 0 < utf16Length value := by
  unfold utf16Length
  cases htext : value.toList with
  | nil => exact absurd htext h
  | cons c text =>
      rw [utf16_cons, List.length_append]
      exact Nat.add_pos_left (List.length_pos_iff.mpr (utf16Char_ne_nil c)) _

theorem toList_ne_nil_of_len {value : String} (h : 0 < len value) : value.toList ≠ [] := by
  intro hnil
  rw [len, hnil] at h
  exact absurd h (Nat.lt_irrefl 0)

/-! ## Separators -/

/-- What follows the first letter of an id. -/
def idRest (separator : Char → Bool) : Regex Char := star (seq (cls separator) (plus (cls isAlnum)))

/-- The walk after a letter, and the walk after a separator. -/
theorem separated_mem {separator : Char → Bool} {word : List Char}
    (hsep : ∀ c ∈ word, (c = '.' ∨ c = '_' ∨ c = '-') → separator c = true) :
    (separated false word = true →
      word ∈ (seq (star (cls isAlnum)) (idRest separator)).lang) ∧
    (separated true word = true →
      word ∈ (seq (plus (cls isAlnum)) (idRest separator)).lang) := by
  induction word with
  | nil => exact ⟨fun _ => mem_seq.mpr ⟨[], nil_mem_star _, [], nil_mem_star _, rfl⟩, nofun⟩
  | cons c word ih =>
      rw [List.forall_mem_cons] at hsep
      obtain ⟨ihLetter, ihSeparator⟩ := ih hsep.2
      cases hc : isAlnum c with
      | true =>
          simp only [separated, hc, if_true]
          constructor
          · intro h
            obtain ⟨u, hu, v, hv, rfl⟩ := mem_seq.mp (ihLetter h)
            have hcu : c :: u ∈ (star (cls isAlnum)).lang :=
              mem_star_cls.mpr (List.forall_mem_cons.mpr ⟨hc, mem_star_cls.mp hu⟩)
            exact append_mem_seq hcu hv
          · intro h
            obtain ⟨u, hu, v, hv, rfl⟩ := mem_seq.mp (ihLetter h)
            have hcu : c :: u ∈ (plus (cls isAlnum)).lang :=
              mem_plus_cls.mpr ⟨List.cons_ne_nil c u,
                List.forall_mem_cons.mpr ⟨hc, mem_star_cls.mp hu⟩⟩
            exact append_mem_seq hcu hv
      | false =>
          simp only [separated, hc, Bool.false_eq_true, if_false]
          constructor
          · intro h
            split_ifs at h with hpunct
            obtain ⟨u, hu, v, hv, rfl⟩ := mem_seq.mp (ihSeparator h)
            have hpart : c :: u ∈ (seq (cls separator) (plus (cls isAlnum))).lang :=
              append_mem_seq (mem_cls.mpr ⟨c, hsep.1 hpunct.1, rfl⟩) hu
            have hrest : c :: (u ++ v) ∈ (idRest separator).lang :=
              cons_mem_star.mpr ⟨u, v, hpart, hv, rfl⟩
            exact append_mem_seq (nil_mem_star _) hrest
          · intro h
            simp at h

/-- An id that passes the walk matches the pattern of its separators. -/
theorem test_idPattern {separator : Char → Bool} {value : String} {max : Nat}
    (h : is_stable_id value max = true)
    (hsep : ∀ c ∈ value.toList, (c = '.' ∨ c = '_' ∨ c = '-') → separator c = true) :
    (idPattern separator).test value.toList = true := by
  simp only [is_stable_id, Bool.and_eq_true, decide_eq_true_eq] at h
  obtain ⟨⟨⟨-, -⟩, hhead⟩, hwalk⟩ := h
  rw [test_iff]
  cases htext : value.toList with
  | nil =>
      rw [htext] at hhead
      cases hhead
  | cons c word =>
      rw [htext] at hhead hwalk hsep
      have hlower : isLower c = true := by simpa using hhead
      have hword : separated false word = true := by
        simpa [separated, isAlnum, hlower] using hwalk
      exact append_mem_seq (mem_cls.mpr ⟨c, hlower, rfl⟩)
        ((separated_mem (List.forall_mem_cons.mp hsep).2).1 hword)

theorem length_of_is_stable_id {value : String} {max : Nat} (h : is_stable_id value max = true) :
    0 < utf16Length value ∧ utf16Length value ≤ max ∧ len value = utf16Length value := by
  simp only [is_stable_id, Bool.and_eq_true, decide_eq_true_eq] at h
  obtain ⟨⟨⟨⟨hpos, hmax⟩, hascii⟩, -⟩, -⟩ := h
  have heq := len_of_ascii hascii
  exact ⟨heq ▸ hpos, heq ▸ hmax, heq⟩

/-! ## Errors of single values -/

theorem validatePattern_eq_nil {min max : Nat} {pattern : Regex Char} {message path value : String}
    (hmin : min ≤ utf16Length value) (hmax : utf16Length value ≤ max)
    (htest : pattern.test value.toList = true) :
    validatePattern min max pattern message (.str value : Json ν) path = [] := by
  rw [validatePattern, errorIf_eq_nil, not_not]
  exact ⟨by simp [stringInRange, hmin, hmax], htest⟩

theorem validateStableId_eq_nil {value path : String} (h : is_stable_id value 64 = true) :
    validateStableId (.str value : Json ν) path = [] := by
  obtain ⟨hpos, hmax, -⟩ := length_of_is_stable_id h
  exact validatePattern_eq_nil hpos hmax (test_idPattern h fun c _ hc => by simpa [or_assoc] using hc)

theorem validateAlias_eq_nil {value path : String} (h : is_alias value = true) :
    validateAlias (.str value : Json ν) path = [] := by
  simp only [is_alias, Bool.and_eq_true, decide_eq_true_eq] at h
  obtain ⟨⟨⟨hmin, hid⟩, hdot⟩, hunderscore⟩ := h
  obtain ⟨-, hmax, heq⟩ := length_of_is_stable_id hid
  refine validatePattern_eq_nil (heq ▸ hmin) hmax (test_idPattern hid fun c hc hpunct => ?_)
  rcases hpunct with rfl | rfl | rfl
  · exact absurd hc hdot
  · exact absurd hc hunderscore
  · rfl

/-! ## Action ids -/

/-- Parts with a separator in front of each. -/
theorem intercalate_cons (separator : Char) (part : List Char) (parts : List (List Char)) :
    List.intercalate [separator] (part :: parts) =
      part ++ (parts.map (separator :: ·)).flatten := by
  induction parts generalizing part with
  | nil => simp
  | cons next parts ih => rw [List.intercalate_cons_cons, ih, List.map_cons, List.flatten_cons]; simp

/-- An upper case letter may not stand in a segment. -/
theorem isIdRest_of_isUpper {c : Char} (h : isUpper c = true) : isIdRest c = false := by
  simp only [isUpper, Bool.and_eq_true, decide_eq_true_eq, Char.le_def,
    UInt32.le_iff_toNat_le] at h
  have hrange : 65 ≤ c.toNat ∧ c.toNat ≤ 90 := h
  have hne : ∀ d : Char, (d.toNat < 65 ∨ 90 < d.toNat) → c ≠ d := by
    rintro d hd rfl
    omega
  have hlower : ¬ 'a' ≤ c := fun hle => by
    have hle : 97 ≤ c.toNat := UInt32.le_iff_toNat_le.mp (Char.le_def.mp hle)
    omega
  have hdigit : ¬ c ≤ '9' := fun hle => by
    have hle : c.toNat ≤ 57 := UInt32.le_iff_toNat_le.mp (Char.le_def.mp hle)
    omega
  simp [isIdRest, isLower, isDigit, hlower, hdigit, hne '_' (by decide), hne '-' (by decide)]

theorem isSegment_mem {segment : List Char} (h : isSegment false segment = true) :
    segment ∈ (seq (cls isAlnum) (star (cls isIdRest))).lang := by
  cases segment with
  | nil => cases h
  | cons c rest =>
      simp only [isSegment, Bool.and_eq_true, List.all_cons, List.all_eq_true, Bool.or_eq_true] at h
      obtain ⟨⟨hfirst, -⟩, hc, hrest⟩ := h
      have halnum : isAlnum c = true := by
        rcases hfirst with halnum | hupper
        · exact halnum
        · rw [isIdRest_of_isUpper hupper] at hc
          cases hc
      exact append_mem_seq (mem_cls.mpr ⟨c, halnum, rfl⟩) (mem_star_cls.mpr hrest)

theorem isSegment_first_mem {segment : List Char} (h : isSegment true segment = true) :
    segment ∈ (seq (cls isLower) (star (cls isIdRest))).lang := by
  cases segment with
  | nil => cases h
  | cons c rest =>
      simp only [isSegment, Bool.not_true, Bool.false_or, Bool.and_eq_true, List.all_cons,
        List.all_eq_true] at h
      obtain ⟨⟨-, hlower⟩, -, hrest⟩ := h
      exact append_mem_seq (mem_cls.mpr ⟨c, hlower, rfl⟩) (mem_star_cls.mpr hrest)

theorem validateActionId_eq_nil {value path : String} (h : is_action_id value = true) :
    validateActionId (.str value : Json ν) path = [] := by
  simp only [is_action_id, Bool.and_eq_true, decide_eq_true_eq] at h
  obtain ⟨⟨⟨hmin, hmax⟩, hascii⟩, hsegments⟩ := h
  have heq := len_of_ascii hascii
  refine validatePattern_eq_nil (heq ▸ hmin) (heq ▸ hmax) ?_
  have hjoin : List.intercalate ['.'] (value.toList.splitOn '.') = value.toList :=
    List.intercalate_splitOn '.'
  rw [test_iff, ← hjoin]
  cases hsplit : value.toList.splitOn '.' with
  | nil =>
      rw [hsplit] at hsegments
      cases hsegments
  | cons first segments =>
      rw [hsplit] at hsegments
      simp only [Bool.and_eq_true, List.all_eq_true, ne_eq, decide_not, Bool.not_eq_true',
        decide_eq_false_iff_not] at hsegments
      obtain ⟨⟨hne, hfirst⟩, hrest⟩ := hsegments
      have hparts : ∀ u ∈ segments.map ('.' :: ·),
          u ∈ (seq (letter '.') (seq (cls isAlnum) (star (cls isIdRest)))).lang := by
        intro u hu
        obtain ⟨segment, hmem, rfl⟩ := List.mem_map.mp hu
        exact letter_mem_seq (isSegment_mem (hrest segment hmem))
      have hplus : (segments.map ('.' :: ·)).flatten ∈
          (plus (seq (letter '.') (seq (cls isAlnum) (star (cls isIdRest))))).lang := by
        cases segments with
        | nil => exact absurd rfl hne
        | cons segment segments =>
            rw [List.map_cons, List.forall_mem_cons] at hparts
            rw [List.map_cons, List.flatten_cons]
            exact append_mem_seq hparts.1 (mem_star.mpr ⟨_, rfl, hparts.2⟩)
      obtain ⟨u, hu, v, hv, hfirstEq⟩ := mem_seq.mp (isSegment_first_mem hfirst)
      rw [intercalate_cons, ← hfirstEq, List.append_assoc]
      exact append_mem_seq hu (append_mem_seq hv hplus)

/-! ## Versions -/

theorem validateSemver_eq_nil {value path : String} (h : is_semver value = true) :
    validateSemver (.str value : Json ν) path = [] := by
  simp only [is_semver, Bool.and_eq_true, decide_eq_true_eq, List.all_eq_true] at h
  obtain ⟨⟨⟨⟨hmax, -⟩, hthree⟩, hparts⟩, hprerelease⟩ := h
  obtain ⟨major, minor, patch, hsplit⟩ := List.length_eq_three.mp hthree
  have hdigits : ∀ part ∈ [major, minor, patch], part ∈ (plus (cls isDigit)).lang := by
    intro part hpart
    have hpart := hparts part (hsplit ▸ hpart)
    simp only [Bool.not_eq_true', List.isEmpty_eq_false_iff, ne_eq] at hpart
    exact mem_plus_cls.mpr hpart
  have hcore : value.toList.takeWhile (· ≠ '-') = major ++ '.' :: (minor ++ '.' :: patch) := by
    have hjoin : List.intercalate ['.'] ((value.toList.takeWhile (· ≠ '-')).splitOn '.') =
        value.toList.takeWhile (· ≠ '-') :=
      List.intercalate_splitOn '.'
    rw [← hjoin, hsplit, intercalate_cons]
    simp
  have hsuffix : value.toList.dropWhile (· ≠ '-') ∈
      (opt (seq (letter '-') (plus (cls isPrerelease)))).lang := by
    cases hdrop : value.toList.dropWhile (· ≠ '-') with
    | nil => exact mem_opt.mpr (.inl rfl)
    | cons dash part =>
        have hdash : dash = '-' := by
          have hhead := List.head?_dropWhile_not (fun c => decide (c ≠ '-')) value.toList
          rw [hdrop] at hhead
          simpa using hhead
        rw [hdrop] at hprerelease
        simp only [Bool.and_eq_true, Bool.not_eq_true', List.isEmpty_eq_false_iff,
          List.all_eq_true] at hprerelease
        subst hdash
        exact mem_opt.mpr (.inr (letter_mem_seq (mem_plus_cls.mpr hprerelease)))
  have hne : value.toList ≠ [] := by
    intro hnil
    rw [hnil] at hcore
    simp at hcore
  refine validatePattern_eq_nil (utf16Length_pos hne) ((utf16Length_le_len value).trans hmax) ?_
  rw [test_iff, ← List.takeWhile_append_dropWhile (p := fun c => decide (c ≠ '-')) (l := value.toList),
    hcore]
  simp only [List.append_assoc, List.cons_append]
  simp only [List.mem_cons, List.not_mem_nil, or_false, forall_eq_or_imp, forall_eq] at hdigits
  exact append_mem_seq hdigits.1 (letter_mem_seq (append_mem_seq hdigits.2.1
    (letter_mem_seq (append_mem_seq hdigits.2.2 hsuffix))))

end Useful.AgentProfile
