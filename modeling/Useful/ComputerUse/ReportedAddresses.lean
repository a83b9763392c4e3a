/-
# Reported addresses

Which texts `parseIpv4` and `parseIpv6` read, and which addresses pass the screening.
-/

import Useful.ComputerUse.NetworkEvidence

namespace Useful.ComputerUse

open Useful.Math Useful.Math.Js

/-! ## IPv4 -/

theorem isDecimalPart_iff {part : List Char} : isDecimalPart part = true ↔
    1 ≤ part.length ∧ part.length ≤ 3 ∧ ∀ c ∈ part, c.isDigit = true := by
  rw [isDecimalPart, Bool.and_eq_true, Bool.and_eq_true, decide_eq_true_eq, decide_eq_true_eq,
    List.all_eq_true, and_assoc]

/-- A part that passes, of a value below 256, is the numeral of an octet. -/
theorem exists_octet {part : List Char} (hpart : isDecimalPart part = true)
    (hzero : ¬ (1 < part.length ∧ part.head? = some '0')) (hvalue : Nat.ofDigitChars 10 part 0 ≤ 255) :
    ∃ o : UInt8, part = decimalNat o.toNat ∧ Nat.ofDigitChars 10 part 0 = o.toNat := by
  obtain ⟨hpos, -, hdigits⟩ := isDecimalPart_iff.mp hpart
  have hlt : Nat.ofDigitChars 10 part 0 < 256 := by omega
  refine ⟨UInt8.ofNat (Nat.ofDigitChars 10 part 0), ?_, ?_⟩
  · rw [UInt8.toNat_ofNat_of_lt' hlt, decimalNat_ofDigitChars hdigits]
    · exact List.length_pos_iff.mp hpos
    · intro hhead
      have : ¬ 1 < part.length := fun h => hzero ⟨h, hhead⟩
      omega
  · rw [UInt8.toNat_ofNat_of_lt' hlt]

/-- The numeral of an octet passes. -/
theorem octet_passes (o : UInt8) : isDecimalPart (decimalNat o.toNat) = true ∧
    ¬ (1 < (decimalNat o.toNat).length ∧ (decimalNat o.toNat).head? = some '0') ∧
    Nat.ofDigitChars 10 (decimalNat o.toNat) 0 = o.toNat := by
  have hlt := o.toNat_lt
  refine ⟨isDecimalPart_iff.mpr ⟨Nat.length_toDigits_pos, ?_, fun c => isDigit_of_mem_decimalNat⟩, ?_,
    Nat.ofDigitChars_ten_toDigits⟩
  · exact (Nat.length_toDigits_le_iff (by decide) (by decide)).mpr (by omega)
  · rintro ⟨hlength, hhead⟩
    rcases Nat.eq_zero_or_pos o.toNat with h0 | hpos
    · rw [h0] at hlength
      exact absurd hlength (by decide)
    · exact head?_decimalNat hpos.ne' hhead

/-- Exactly the dotted quads are read. -/
theorem parseIpv4_eq_some {text : List Char} {numbers : List Nat} :
    parseIpv4 text = some numbers ↔
      ∃ ip : Ipv4Addr, text = ip.text ∧ numbers = ip.octets.map UInt8.toNat := by
  unfold parseIpv4
  constructor
  · intro h
    dsimp only at h
    split_ifs at h with hparts hnumbers
    rw [not_or, not_not] at hparts
    obtain ⟨hlength, hgood⟩ := hparts
    have htext : ['.'].intercalate (text.splitOn '.') = text := List.intercalate_splitOn '.'
    match hsplit : text.splitOn '.', hlength with
    | [p, q, r, s], _ =>
      rw [hsplit] at h hgood hnumbers htext
      simp only [List.mem_cons, List.not_mem_nil, or_false, exists_eq_or_imp, exists_eq_left, not_or,
        not_not, List.map_cons, List.map_nil, not_lt] at hgood hnumbers
      obtain ⟨⟨hp, hp0⟩, ⟨hq, hq0⟩, ⟨hr, hr0⟩, hs, hs0⟩ := hgood
      obtain ⟨a, ha, hav⟩ := exists_octet hp hp0 hnumbers.1
      obtain ⟨b, hb, hbv⟩ := exists_octet hq hq0 hnumbers.2.1
      obtain ⟨c, hc, hcv⟩ := exists_octet hr hr0 hnumbers.2.2.1
      obtain ⟨d, hd, hdv⟩ := exists_octet hs hs0 hnumbers.2.2.2
      refine ⟨⟨a, b, c, d⟩, ?_, ?_⟩
      · rw [← htext, ha, hb, hc, hd]
        rfl
      · rw [← Option.some.inj h, List.map_cons, List.map_cons, List.map_cons, List.map_cons, hav, hbv,
          hcv, hdv]
        rfl
  · rintro ⟨ip, rfl, rfl⟩
    have hgood : ∀ o : UInt8, ¬ (¬ isDecimalPart (decimalNat o.toNat) = true ∨
        1 < (decimalNat o.toNat).length ∧ (decimalNat o.toNat).head? = some '0') := fun o =>
      not_or.mpr ⟨not_not.mpr (octet_passes o).1, (octet_passes o).2.1⟩
    have hnumbers : (ip.octets.map fun o => decimalNat o.toNat).map (Nat.ofDigitChars 10 · 0) =
        ip.octets.map UInt8.toNat := by
      rw [List.map_map]
      exact List.map_congr_left fun o _ => (octet_passes o).2.2
    dsimp only
    rw [Ipv4Addr.splitOn_text, if_neg, hnumbers, if_neg]
    · rintro ⟨n, hn, hlt⟩
      obtain ⟨o, -, rfl⟩ := List.mem_map.mp hn
      have := o.toNat_lt
      omega
    · rw [not_or]
      refine ⟨by simp [Ipv4Addr.octets], ?_⟩
      rintro ⟨part, hpart, hbad⟩
      obtain ⟨o, -, rfl⟩ := List.mem_map.mp hpart
      exact hgood o hbad

/-! ## Pairs of colons -/

theorem hasPair_cons {c : Char} {text : List Char} :
    hasPair (c :: text) ↔ c = ':' ∧ text.head? = some ':' ∨ hasPair text := by
  rw [hasPair, List.infix_cons_iff, List.cons_prefix_cons]
  cases text with
  | nil => simp [hasPair]
  | cons d text => simp [hasPair, eq_comm]

theorem splitPairs_ne_nil (text : List Char) : splitPairs text ≠ [] := by
  fun_induction splitPairs text with
  | case1 rest ih => exact List.cons_ne_nil _ _
  | case2 c rest _ ih => simpa using ih
  | case3 => exact List.cons_ne_nil _ _

/-- Joined again, the parts are the text. -/
theorem intercalate_splitPairs (text : List Char) : [':', ':'].intercalate (splitPairs text) = text := by
  fun_induction splitPairs text with
  | case1 rest ih =>
      obtain ⟨part, parts, hparts⟩ := List.exists_cons_of_ne_nil (splitPairs_ne_nil rest)
      rw [hparts] at ih ⊢
      rw [List.intercalate_cons_cons, ih]
      rfl
  | case2 c rest _ ih =>
      obtain ⟨part, parts, hparts⟩ := List.exists_cons_of_ne_nil (splitPairs_ne_nil rest)
      rw [hparts] at ih ⊢
      rw [List.modifyHead_cons]
      cases parts with
      | nil => rw [List.intercalate_singleton] at ih ⊢; rw [ih]
      | cons q parts => rw [List.intercalate_cons_cons] at ih ⊢; rw [← ih]; rfl
  | case3 => rfl

theorem splitPairs_cons {c : Char} {rest : List Char} (h : ¬ (c = ':' ∧ rest.head? = some ':')) :
    splitPairs (c :: rest) = (splitPairs rest).modifyHead (c :: ·) := by
  rw [splitPairs]
  rintro rest' rfl rfl
  exact h ⟨rfl, rfl⟩

theorem splitPairs_of_not_hasPair {text : List Char} (h : ¬ hasPair text) : splitPairs text = [text] := by
  induction text with
  | nil => rfl
  | cons c text ih =>
      rw [hasPair_cons, not_or] at h
      rw [splitPairs_cons h.1, ih h.2]
      rfl

/-- The first pair is where the text is split. -/
theorem splitPairs_append_pair {left right : List Char} (h : ¬ hasPair (left ++ [':'])) :
    splitPairs (left ++ ':' :: ':' :: right) = left :: splitPairs right := by
  induction left with
  | nil => rfl
  | cons c left ih =>
      rw [List.cons_append, hasPair_cons, not_or] at h
      have hhead : ¬ (c = ':' ∧ (left ++ ':' :: ':' :: right).head? = some ':') := by
        rintro ⟨hc, hhead⟩
        refine h.1 ⟨hc, ?_⟩
        cases left with
        | nil => rfl
        | cons d left => exact hhead
      rw [List.cons_append, splitPairs_cons hhead, ih h.2]
      rfl

/-- What begins with another letter adds its own pairs to those in front. -/
theorem length_splitPairs_append (front : List Char) {c : Char} (hc : c ≠ ':') (rest : List Char) :
    (splitPairs (front ++ c :: rest)).length + 1 =
      (splitPairs front).length + (splitPairs (c :: rest)).length := by
  fun_induction splitPairs front with
  | case1 front ih =>
      have hpair : splitPairs (':' :: ':' :: front ++ c :: rest) = [] :: splitPairs (front ++ c :: rest) := rfl
      rw [hpair, List.length_cons, List.length_cons]
      omega
  | case2 d front hd ih =>
      have hhead : ¬ (d = ':' ∧ (front ++ c :: rest).head? = some ':') := by
        rintro ⟨rfl, hhead⟩
        cases front with
        | nil => exact hc (by simpa using hhead)
        | cons e front =>
            obtain rfl : e = ':' := by simpa using hhead
            exact hd front rfl rfl
      rw [List.cons_append, splitPairs_cons hhead, List.length_modifyHead, List.length_modifyHead, ih]
  | case3 => rw [List.nil_append, List.length_singleton, Nat.add_comm]

theorem two_le_length_splitPairs {text : List Char} (h : hasPair text) :
    2 ≤ (splitPairs text).length := by
  fun_induction splitPairs text with
  | case1 rest ih =>
      have := List.length_pos_iff.mpr (splitPairs_ne_nil rest)
      rw [List.length_cons]
      omega
  | case2 c rest hc ih =>
      rw [List.length_modifyHead]
      rcases hasPair_cons.mp h with ⟨rfl, hhead⟩ | h
      · obtain ⟨rest', rfl⟩ : ∃ rest', rest = ':' :: rest' := by
          cases rest with
          | nil => cases hhead
          | cons d rest => exact ⟨rest, by rw [show d = ':' by simpa using hhead]⟩
        exact absurd rfl (hc rest' rfl)
      · exact ih h
  | case3 => simp [hasPair] at h

/-! ## Groups -/

/-- In a run no two colons stand together, not even with one behind it. -/
theorem not_hasPair_of_run {text : List Char} {groups : List Nat} (h : GroupRun text groups) :
    ¬ hasPair (text ++ [':']) := by
  rintro ⟨front, back, heq⟩
  rcases eq_or_ne text [] with rfl | hne
  · have hlength := congrArg List.length heq
    simp at hlength
    omega
  · have hparts : ([] : List Char) ∉ text.splitOn ':' := by
      intro hmem
      have hgroup := h.parts [] (by rwa [groupParts, if_neg hne])
      exact absurd hgroup (by decide)
    rcases List.eq_nil_or_concat back with rfl | ⟨back', c, rfl⟩
    · have htext : text = front ++ [':'] := by
        have : (front ++ [':']) ++ [':'] = text ++ [':'] := by simpa using heq
        exact (List.append_cancel_right this).symm
      rw [htext, List.splitOn_append_cons_self] at hparts
      simp at hparts
    · have htext : text = front ++ ':' :: ':' :: back' := by
        have : (front ++ ':' :: ':' :: back') ++ [c] = text ++ [':'] := by simpa using heq
        exact (List.append_inj_left' this rfl).symm
      rw [htext, List.splitOn_append_cons_self, List.splitOn_cons_eq_if_modifyHead] at hparts
      simp at hparts

theorem splitPairs_of_run {text : List Char} {groups : List Nat} (h : GroupRun text groups) :
    splitPairs text = [text] := by
  refine splitPairs_of_not_hasPair fun hpair => not_hasPair_of_run h ?_
  exact hpair.trans (List.prefix_append text [':']).isInfix

/-- The text of eight groups is split into at most two. -/
theorem splitPairs_of_groups {text : List Char} {groups : List Nat} (h : Ipv6Groups text groups) :
    (∃ left right leftGroups rightGroups, splitPairs text = [left, right] ∧ hasPair text ∧
      GroupRun left leftGroups ∧ GroupRun right rightGroups ∧
      leftGroups.length + rightGroups.length < 8 ∧ groups = leftGroups ++
        List.replicate (8 - leftGroups.length - rightGroups.length) 0 ++ rightGroups) ∨
    splitPairs text = [text] ∧ ¬ hasPair text ∧ GroupRun text groups ∧ groups.length = 8 := by
  cases h with
  | full hrun height =>
      refine .inr ⟨splitPairs_of_run hrun, fun hpair => ?_, hrun, height⟩
      have := two_le_length_splitPairs hpair
      rw [splitPairs_of_run hrun, List.length_singleton] at this
      omega
  | @compressed left right _ _ hleft hright hfewer =>
      refine .inl ⟨left, right, _, _, ?_, ⟨left, right, by simp⟩, hleft, hright, hfewer, rfl⟩
      rw [splitPairs_append_pair (not_hasPair_of_run hleft), splitPairs_of_run hright]

theorem length_of_groupRun {text : List Char} {groups : List Nat} (h : GroupRun text groups) :
    groups.length = (groupParts text).length := by
  rw [h.values, List.length_map]

theorem expandGroups_eq_some {left right : List (List Char)} {shortened : Bool} {bytes : List Nat} :
    expandGroups left right shortened = some bytes ↔
      (∀ part ∈ left, isGroup part = true) ∧ (∀ part ∈ right, isGroup part = true) ∧
        (if shortened = true then left.length + right.length < 8 else left.length + right.length = 8) ∧
        bytes = (left.map groupValue ++ List.replicate (8 - left.length - right.length) 0 ++
          right.map groupValue).flatMap fun group => [group >>> 8, group &&& 0xff] := by
  have hzero (n : Nat) : (List.replicate n ['0']).map groupValue = List.replicate n 0 := by
    rw [List.map_replicate]
    rfl
  have hmissing : ((8 : Int) - left.length - right.length).toNat = 8 - left.length - right.length := by
    omega
  unfold expandGroups
  dsimp only
  rw [List.map_append, List.map_append, hzero, hmissing]
  constructor
  · intro h
    split_ifs at h with hparts hfew height
    simp only [List.mem_append, not_exists, not_and, not_not] at hparts
    refine ⟨fun part hpart => hparts part (.inl hpart), fun part hpart => hparts part (.inr hpart), ?_,
      (Option.some.inj h).symm⟩
    split_ifs with hshort
    · simp only [hshort, true_and, not_true_eq_false, false_and, or_false] at hfew
      omega
    · simp only [hshort, false_and, not_false_eq_true, true_and, false_or, Bool.false_eq_true] at hfew
      omega
  · rintro ⟨hleft, hright, hlength, rfl⟩
    rw [if_neg, if_neg, if_neg]
    · simp only [List.length_append, List.length_map, List.length_replicate, not_not]
      split_ifs at hlength with hshort
      all_goals omega
    · split_ifs at hlength with hshort
      · simp only [hshort, true_and, not_true_eq_false, false_and, or_false]
        omega
      · simp only [hshort, false_and, not_false_eq_true, true_and, false_or, Bool.false_eq_true]
        omega
    · rintro ⟨part, hpart, hbad⟩
      rcases List.mem_append.mp hpart with hpart | hpart
      · exact hbad (hleft part hpart)
      · exact hbad (hright part hpart)

/-- What is read of a text with at most one pair of colons. -/
theorem parseGroups_iff {input : List Char} {bytes : List Nat} (hfew : (splitPairs input).length ≤ 2) :
    parseGroups input = some bytes ↔ ∃ groups, Ipv6Groups input groups ∧
      bytes = groups.flatMap fun group => [group >>> 8, group &&& 0xff] := by
  have hnone : groupParts [] = [] := rfl
  constructor
  · intro h
    have hjoin := intercalate_splitPairs input
    obtain ⟨hleft, hright, hlength, hbytes⟩ := expandGroups_eq_some.mp h
    match hsplit : splitPairs input, hfew with
    | [left, right], _ =>
        rw [hsplit] at hjoin hleft hright hlength hbytes
        have hpair : hasPair input := ⟨left, right, by simpa [List.intercalate_cons_cons] using hjoin⟩
        rw [if_pos (decide_eq_true hpair)] at hlength
        refine ⟨_, ?_, hbytes⟩
        have hgroups := Ipv6Groups.compressed ⟨hleft, rfl⟩ ⟨hright, rfl⟩ (by simpa using hlength)
        rw [List.length_map, List.length_map] at hgroups
        have hinput : left ++ ':' :: ':' :: right = input := by
          simpa [List.intercalate_cons_cons] using hjoin
        rw [← hinput]
        exact hgroups
    | [text], _ =>
        rw [hsplit] at hjoin hleft hright hlength hbytes
        obtain rfl : text = input := by simpa [List.intercalate_singleton] using hjoin
        have hpair : ¬ hasPair text := by
          intro hpair
          have := two_le_length_splitPairs hpair
          rw [hsplit, List.length_singleton] at this
          omega
        rw [if_neg (by simpa using hpair)] at hlength
        have height : (groupParts text).length = 8 := hlength
        refine ⟨(groupParts text).map groupValue, .full ⟨hleft, rfl⟩ (by rw [List.length_map, height]), ?_⟩
        rw [hbytes]
        simp [hnone, height]
    | [], _ => exact absurd hsplit (splitPairs_ne_nil input)
  · rintro ⟨groups, hgroups, rfl⟩
    unfold parseGroups
    rcases splitPairs_of_groups hgroups with
      ⟨left, right, leftGroups, rightGroups, hsplit, hpair, hleft, hright, hfewer, rfl⟩ |
      ⟨hsplit, hpair, hrun, height⟩
    · rw [hsplit, expandGroups_eq_some, if_pos (decide_eq_true hpair)]
      rw [length_of_groupRun hleft, length_of_groupRun hright] at hfewer ⊢
      refine ⟨hleft.parts, hright.parts, hfewer, ?_⟩
      rw [hleft.values, hright.values]
      rfl
    · have height' : (groupParts input).length = 8 := (length_of_groupRun hrun).symm.trans height
      rw [hsplit, expandGroups_eq_some, if_neg (by simpa using hpair)]
      refine ⟨hrun.parts, nofun, height', ?_⟩
      rw [hrun.values]
      simp [hnone, height']

/-- The octets of the groups. -/
theorem octets_of_groups (ip : Ipv6Addr) :
    (ip.groups.flatMap fun group => [group >>> 8, group &&& 0xff]) = ip.octets.map UInt8.toNat := by
  have hgroup (a b : UInt8) : (a.toNat * 256 + b.toNat) >>> 8 = a.toNat ∧
      (a.toNat * 256 + b.toNat) &&& 0xff = b.toNat := by
    have hb := b.toNat_lt
    rw [Nat.shiftRight_eq_div_pow, show (0xff : Nat) = 2 ^ 8 - 1 from rfl, Nat.and_two_pow_sub_one_eq_mod]
    omega
  simp only [Ipv6Addr.groups, Ipv6Addr.octets, List.flatMap_cons, List.flatMap_nil, List.map_cons,
    List.map_nil, List.cons_append, List.nil_append, hgroup]

theorem parseGroups_eq_some {input : List Char} {bytes : List Nat}
    (hfew : (splitPairs input).length ≤ 2) : parseGroups input = some bytes ↔
      ∃ ip : Ipv6Addr, Ipv6Groups input ip.groups ∧ bytes = ip.octets.map UInt8.toNat := by
  rw [parseGroups_iff hfew]
  constructor
  · rintro ⟨groups, hgroups, rfl⟩
    obtain ⟨ip, rfl⟩ := hgroups.exists_addr
    exact ⟨ip, hgroups, octets_of_groups ip⟩
  · rintro ⟨ip, hgroups, rfl⟩
    exact ⟨ip.groups, hgroups, (octets_of_groups ip).symm⟩

/-! ## Embedded quads -/

theorem hexPair_octets (ip : Ipv4Addr) : hexPair (ip.octets.map UInt8.toNat) = ip.groupText := by
  have hgroup (a b : UInt8) : a.toNat <<< 8 ||| b.toNat = a.toNat * 256 + b.toNat := by
    rw [← Nat.shiftLeft_add_eq_or_of_lt b.toNat_lt, Nat.shiftLeft_eq]
  simp only [hexPair, Ipv4Addr.octets, List.map_cons, List.map_nil, hgroup]
  rfl

theorem not_hasPair_of_count {text : List Char} (h : text.count ':' < 2) : ¬ hasPair text := by
  intro hpair
  have := hpair.sublist.count_le ':'
  rw [show [':', ':'].count ':' = 2 from rfl] at this
  omega

theorem colon_not_mem_toDigits (n : Nat) : ':' ∉ Nat.toDigits 16 n := by
  intro hmem
  have hdigit : JsText.isHexDigit (':').toNat = true :=
    JsText.isHexDigit_of_mem_toHex (List.mem_map_of_mem hmem)
  exact absurd hdigit (by decide)

theorem colon_not_mem_text (ip : Ipv4Addr) : ':' ∉ ip.text := by
  intro hmem
  rcases Ipv4Addr.mem_text hmem with h | h
  · exact absurd h (by decide)
  · exact absurd h (by decide)

/-- The quad and its groups are split alike. -/
theorem length_splitPairs_quad (front : List Char) (ip : Ipv4Addr) :
    (splitPairs (front ++ ip.groupText)).length = (splitPairs (front ++ ip.text)).length := by
  have hlength {text : List Char} (hcount : text.count ':' < 2) (hne : text ≠ [])
      (hhead : text.head? ≠ some ':') :
      (splitPairs (front ++ text)).length = (splitPairs front).length := by
    obtain ⟨c, rest, rfl⟩ := List.exists_cons_of_ne_nil hne
    have happend := length_splitPairs_append front (c := c) (fun hc => hhead (by rw [hc]; rfl)) rest
    rw [splitPairs_of_not_hasPair (not_hasPair_of_count hcount), List.length_singleton] at happend
    omega
  have htext : ip.text.count ':' = 0 := List.count_eq_zero.mpr (colon_not_mem_text ip)
  have hgroups : ip.groupText.count ':' = 1 := by
    rw [Ipv4Addr.groupText, List.count_append, List.count_cons_self,
      List.count_eq_zero.mpr (colon_not_mem_toDigits _), List.count_eq_zero.mpr (colon_not_mem_toDigits _)]
  rw [hlength (by omega) ip.text_ne_nil, hlength (by omega)]
  · simp [Ipv4Addr.groupText]
  · rw [Ipv4Addr.groupText, List.head?_append_of_ne_nil _ Nat.toDigits_ne_nil]
    exact fun h => colon_not_mem_toDigits _ (List.mem_of_mem_head? h)
  · exact fun h => colon_not_mem_text ip (List.mem_of_mem_head? h)

/-- What follows the last colon. -/
theorem rtakeWhile_colon {front last : List Char} (h : ':' ∉ last) :
    (front ++ ':' :: last).rtakeWhile (· ≠ ':') = last := by
  have hlast : ∀ c ∈ last.reverse, decide (c ≠ ':') = true := by
    intro c hc
    rw [decide_eq_true_eq]
    rintro rfl
    exact h (List.mem_reverse.mp hc)
  rw [List.rtakeWhile, List.reverse_append, List.reverse_cons, List.append_assoc,
    List.takeWhile_append_of_pos hlast]
  simp

theorem exists_last_colon {input : List Char} (h : ':' ∈ input) :
    ∃ front last, input = front ++ ':' :: last ∧ ':' ∉ last := by
  obtain ⟨before, after, heq, hnot⟩ := List.eq_append_cons_of_mem (List.mem_reverse.mpr h)
  refine ⟨after.reverse, before.reverse, ?_, fun hmem => hnot (List.mem_reverse.mp hmem)⟩
  rw [← List.reverse_reverse input, heq]
  simp

/-- A quad behind a colon is found. -/
theorem embeddedIpv4_text (front : List Char) (ip : Ipv4Addr) :
    embeddedIpv4 (front ++ ':' :: ip.text) = some ip.text := by
  rw [embeddedIpv4, rtakeWhile_colon (colon_not_mem_text ip), Ipv4Addr.splitOn_text, if_pos]
  refine ⟨by simp [Ipv4Addr.octets], fun part hpart => ?_⟩
  obtain ⟨o, -, rfl⟩ := List.mem_map.mp hpart
  exact (octet_passes o).1

theorem embeddedIpv4_eq_none {input : List Char} (h : '.' ∉ input) : embeddedIpv4 input = none := by
  have hlast : '.' ∉ input.rtakeWhile (· ≠ ':') :=
    fun hmem => h ((List.rtakeWhile_suffix _ _).subset hmem)
  rw [embeddedIpv4, List.splitOn_eq_singleton hlast, if_neg]
  simp

theorem take_front (front last : List Char) :
    (front ++ ':' :: last).take ((front ++ ':' :: last).length - last.length) = front ++ [':'] := by
  have heq : front ++ ':' :: last = (front ++ [':']) ++ last := by simp
  rw [heq, List.length_append, Nat.add_sub_cancel, List.take_left]

theorem length_splitPairs_le {text : List Char} {groups : List Nat} (h : Ipv6Groups text groups) :
    (splitPairs text).length ≤ 2 := by
  rcases splitPairs_of_groups h with ⟨left, right, -, -, hsplit, -⟩ | ⟨hsplit, -⟩
  · rw [hsplit]
    exact le_rfl
  · rw [hsplit, List.length_singleton]
    exact one_le_two

/-- Exactly the texts of addresses are read. -/
theorem parseIpv6Text_eq_some {input : List Char} {bytes : List Nat} :
    parseIpv6Text input = some bytes ↔
      ∃ ip : Ipv6Addr, Ipv6Text input ip.groups ∧ bytes = ip.octets.map UInt8.toNat := by
  have hletter {c : Char} (h : isGroupLetter c = true ∨ c = ':') : c ≠ '.' ∧ c ≠ '%' := by
    rcases h with h | rfl
    · refine ⟨?_, ?_⟩
      all_goals
        rintro rfl
        exact absurd h (by decide)
    · decide
  have hassoc (front rest : List Char) : (front ++ [':']) ++ rest = front ++ ':' :: rest := by simp
  unfold parseIpv6Text
  constructor
  · intro h
    split_ifs at h with hguard
    rw [not_or, not_or, not_not, not_lt] at hguard
    obtain ⟨hcolon, -, hfew⟩ := hguard
    split at h
    · rename_i embedded hembedded
      obtain ⟨front, last, rfl, hlast⟩ := exists_last_colon hcolon
      obtain ⟨numbers, hnumbers, hgroups⟩ := Option.bind_eq_some_iff.mp h
      obtain rfl : last = embedded := by
        rw [embeddedIpv4, rtakeWhile_colon hlast] at hembedded
        split_ifs at hembedded
        exact Option.some.inj hembedded
      obtain ⟨quad, rfl, rfl⟩ := parseIpv4_eq_some.mp hnumbers
      rw [take_front, hexPair_octets] at hgroups
      have hfew' : (splitPairs (front ++ [':'] ++ quad.groupText)).length ≤ 2 := by
        rwa [length_splitPairs_quad, hassoc]
      obtain ⟨ip, htext, rfl⟩ := (parseGroups_eq_some hfew').mp hgroups
      rw [hassoc] at htext
      exact ⟨ip, .quad quad htext, rfl⟩
    · obtain ⟨ip, hgroups, rfl⟩ := (parseGroups_eq_some hfew).mp h
      exact ⟨ip, .groups hgroups, rfl⟩
  · rintro ⟨ip, htext, rfl⟩
    generalize hgroups : ip.groups = groups at htext
    cases htext with
    | groups h =>
        obtain ⟨hletters, hcolon⟩ := h.letters
        have hpercent : '%' ∉ input := fun hmem => (hletter (hletters _ hmem)).2 rfl
        have hdot : '.' ∉ input := fun hmem => (hletter (hletters _ hmem)).1 rfl
        have hfew := length_splitPairs_le h
        rw [if_neg (by simp [hcolon, hpercent, hfew]), embeddedIpv4_eq_none hdot]
        exact (parseGroups_eq_some hfew).mpr ⟨ip, hgroups ▸ h, rfl⟩
    | @quad front _ quad h =>
        obtain ⟨hletters, -⟩ := h.letters
        have hfew := length_splitPairs_le h
        have hfew' : (splitPairs (front ++ ':' :: quad.text)).length ≤ 2 := by
          rwa [← hassoc, ← length_splitPairs_quad, hassoc]
        have hpercent : '%' ∉ front ++ ':' :: quad.text := by
          intro hmem
          rcases List.mem_append.mp hmem with hmem | hmem
          · exact (hletter (hletters _ (List.mem_append_left _ hmem))).2 rfl
          · rcases List.mem_cons.mp hmem with hmem | hmem
            · exact absurd hmem (by decide)
            · rcases Ipv4Addr.mem_text hmem with h | h
              all_goals exact absurd h (by decide)
        have hnumbers : parseIpv4 quad.text = some (quad.octets.map UInt8.toNat) :=
          parseIpv4_eq_some.mpr ⟨quad, rfl, rfl⟩
        rw [if_neg (by simp [hpercent, hfew']), embeddedIpv4_text]
        dsimp only
        rw [hnumbers, Option.bind_some, take_front, hexPair_octets, hassoc]
        exact (parseGroups_eq_some hfew).mpr ⟨ip, hgroups ▸ h, rfl⟩

/-! ## Letters of both cases, and brackets -/

/-- What `toLowerCase` does: in ASCII it exchanges the capital letters, and of a text with other
characters it leaves one that does not occur in addresses. -/
structure LowersCase (toLowerCase : List Char → List Char) : Prop where
  ascii : ∀ text : List Char, (∀ c ∈ text, c.toNat < 128) → toLowerCase text = text.map Char.toLower
  other : ∀ text : List Char, (∃ c ∈ text, 128 ≤ c.toNat) →
    ∃ c ∈ toLowerCase text, ¬ (isGroupLetter c = true ∨ c ∈ [':', '.', '[', ']'])

/-- There are brackets on both sides or on none. -/
def Paired (text : List Char) : Prop := text.head? = some '[' ↔ text.getLast? = some ']'

theorem toLower_cases (c : Char) :
    c.toLower = c ∨ 65 ≤ c.toNat ∧ c.toNat ≤ 90 ∧ c.toLower.toNat = c.toNat + 32 := by
  by_cases h : c.val ≥ 'A'.val ∧ c.val ≤ 'Z'.val
  · have hlow : 65 ≤ c.toNat := h.1
    have hhigh : c.toNat ≤ 90 := h.2
    have hlower : c.toLower.val = c.val + ('a'.val - 'A'.val) := congrArg Char.val (dif_pos h)
    refine .inr ⟨hlow, hhigh, ?_⟩
    show c.toLower.val.toNat = c.val.toNat + 32
    have hval : c.val.toNat ≤ 90 := hhigh
    rw [hlower, UInt32.toNat_add, show (('a'.val - 'A'.val : UInt32)).toNat = 32 from rfl]
    omega
  · exact .inl (dif_neg h)

theorem toLower_eq_iff {c d : Char} (hd : d.toNat < 97) (hd' : ¬ (65 ≤ d.toNat ∧ d.toNat ≤ 90)) :
    c.toLower = d ↔ c = d := by
  rcases toLower_cases c with h | ⟨hlow, hhigh, h⟩
  · rw [h]
  · constructor
    · rintro rfl
      omega
    · rintro rfl
      exact absurd ⟨hlow, hhigh⟩ hd'

theorem stripBrackets_map (text : List Char) :
    stripBrackets (text.map Char.toLower) = (stripBrackets text).map Char.toLower := by
  have hopen (c : Char) : c.toLower = '[' ↔ c = '[' := toLower_eq_iff (by decide) (by decide)
  have hclose (c : Char) : c.toLower = ']' ↔ c = ']' := toLower_eq_iff (by decide) (by decide)
  have hhead : (text.map Char.toLower).head? = some '[' ↔ text.head? = some '[' := by
    rw [List.head?_map, Option.map_eq_some_iff]
    simp [hopen]
  have hlast (text : List Char) : (text.map Char.toLower).getLast? = some ']' ↔ text.getLast? = some ']' := by
    rw [List.getLast?_map, Option.map_eq_some_iff]
    simp [hclose]
  have hfront : (if (text.map Char.toLower).head? = some '[' then (text.map Char.toLower).tail
      else text.map Char.toLower) = (if text.head? = some '[' then text.tail else text).map Char.toLower := by
    simp only [hhead]
    split_ifs
    · rw [List.map_tail]
    · rfl
  unfold stripBrackets
  dsimp only
  rw [hfront]
  generalize (if text.head? = some '[' then text.tail else text) = front
  simp only [hlast]
  split_ifs
  · rw [List.map_dropLast]
  · rfl

theorem mem_stripBrackets {text : List Char} {c : Char} (h : c ∈ text) :
    c ∈ stripBrackets text ∨ c = '[' ∨ c = ']' := by
  have hback {text : List Char} (h : c ∈ text) :
      c ∈ (if text.getLast? = some ']' then text.dropLast else text) ∨ c = ']' := by
    split_ifs with hlast
    · obtain ⟨front, rfl⟩ := List.getLast?_eq_some_iff.mp hlast
      rw [List.dropLast_concat]
      simpa using h
    · exact .inl h
  unfold stripBrackets
  dsimp only
  by_cases hhead : text.head? = some '['
  · obtain ⟨rest, rfl⟩ := List.head?_eq_some_iff.mp hhead
    rw [if_pos hhead, List.tail_cons]
    rcases List.mem_cons.mp h with rfl | h
    · exact .inr (.inl rfl)
    · exact (hback h).imp_right .inr
  · rw [if_neg hhead]
    exact (hback h).imp_right .inr

/-- The letters of the text of an address. -/
theorem ipv6Text_letters {text : List Char} {groups : List Nat} (h : Ipv6Text text groups) :
    ∀ c ∈ text, isGroupLetter c = true ∨ c ∈ [':', '.'] := by
  have hletter {c : Char} (h : isGroupLetter c = true ∨ c = ':') :
      isGroupLetter c = true ∨ c ∈ [':', '.'] := h.imp_right fun h => by simp [h]
  have hdigit {c : Char} (h : c.isDigit = true) : isGroupLetter c = true := by
    rw [Char.isDigit, Bool.and_eq_true, decide_eq_true_eq, decide_eq_true_eq] at h
    exact isGroupLetter_iff.mpr (.inr h)
  cases h with
  | groups h => exact fun c hc => hletter (h.letters.1 c hc)
  | quad ip h =>
      intro c hc
      rcases List.mem_append.mp hc with hc | hc
      · exact hletter (h.letters.1 c (List.mem_append_left _ hc))
      · rcases List.mem_cons.mp hc with rfl | hc
        · exact .inr (by simp)
        · rcases Ipv4Addr.mem_text hc with hc | rfl
          · exact .inl (hdigit hc)
          · exact .inr (by simp)

/-- They are in ASCII. -/
theorem toNat_lt_of_letter {c : Char} (h : isGroupLetter c = true ∨ c ∈ [':', '.', '[', ']']) :
    c.toNat < 128 := by
  rcases h with h | h
  · rcases isGroupLetter_iff.mp h with h | h <;> omega
  · simp only [List.mem_cons, List.not_mem_nil, or_false] at h
    rcases h with rfl | rfl | rfl | rfl <;> decide

section Reading

variable {toLowerCase : List Char → List Char} (hlower : LowersCase toLowerCase)

include hlower

/-- Exactly the addresses are read, in letters of either case, without a bracket on each side. -/
theorem parseIpv6_eq_some {text : List Char} {bytes : List Nat} :
    parseIpv6 toLowerCase text = some bytes ↔
      ∃ ip : Ipv6Addr, ip.Literal (stripBrackets text) ∧ bytes = ip.octets.map UInt8.toNat := by
  rw [parseIpv6, parseIpv6Text_eq_some]
  refine exists_congr fun ip => and_congr_left fun _ => ?_
  unfold Ipv6Addr.Literal
  rw [← stripBrackets_map]
  constructor
  · intro h
    rw [← hlower.ascii]
    · exact h
    · intro c hc
      by_contra hlarge
      obtain ⟨d, hd, hbad⟩ := hlower.other text ⟨c, hc, not_lt.mp hlarge⟩
      refine hbad ?_
      rcases mem_stripBrackets hd with hd | rfl | rfl
      · exact (ipv6Text_letters h d hd).imp_right fun h => by
          simp only [List.mem_cons, List.not_mem_nil, or_false] at h ⊢
          tauto
      · simp
      · simp
  · intro h
    rw [hlower.ascii]
    · exact h
    · intro c hc
      have hc' : c.toLower.toNat < 128 := by
        refine toNat_lt_of_letter ?_
        rcases mem_stripBrackets (List.mem_map_of_mem hc) with hd | hd | hd
        · exact (ipv6Text_letters h _ hd).imp_right fun h => by
            simp only [List.mem_cons, List.not_mem_nil, or_false] at h ⊢
            tauto
        · rw [hd]
          simp
        · rw [hd]
          simp
      rcases toLower_cases c with heq | ⟨-, hhigh, -⟩
      · rwa [heq] at hc'
      · omega

end Reading

theorem stripBrackets_of_none {text : List Char} (hopen : text.head? ≠ some '[')
    (hclose : text.getLast? ≠ some ']') : stripBrackets text = text := by
  unfold stripBrackets
  dsimp only
  rw [if_neg hopen, if_neg hclose]

theorem stripBrackets_of_both (inner : List Char) : stripBrackets ('[' :: (inner ++ [']'])) = inner := by
  unfold stripBrackets
  dsimp only
  rw [List.head?_cons, if_pos rfl, List.tail_cons, List.getLast?_concat, if_pos rfl, List.dropLast_concat]

/-- Without brackets a literal has none. -/
theorem not_mem_of_literal {text : List Char} {ip : Ipv6Addr} (h : ip.Literal text) :
    '[' ∉ text ∧ ']' ∉ text := by
  have hletters := ipv6Text_letters h
  constructor
  all_goals
    intro hmem
    have hbad := hletters _ (List.mem_map_of_mem hmem)
    exact absurd hbad (by decide)

/-- A literal has its brackets in a pair, and they are what is stripped. -/
theorem literal_v6_iff {text : List Char} {ip : Ipv6Addr} :
    IpAddr.Literal text (.v6 ip) ↔ Paired text ∧ ip.Literal (stripBrackets text) := by
  constructor
  · rintro (h | ⟨inner, rfl, h⟩)
    · obtain ⟨hopen, hclose⟩ := not_mem_of_literal h
      have hhead : text.head? ≠ some '[' := fun heq => hopen (List.mem_of_mem_head? heq)
      have hlast : text.getLast? ≠ some ']' := fun heq => hclose (List.mem_of_getLast? heq)
      rw [stripBrackets_of_none hhead hlast]
      exact ⟨iff_of_false hhead hlast, h⟩
    · rw [stripBrackets_of_both]
      refine ⟨iff_of_true rfl ?_, h⟩
      rw [← List.cons_append, List.getLast?_concat]
  · rintro ⟨hpaired, h⟩
    by_cases hhead : text.head? = some '['
    · obtain ⟨front, hfront⟩ := List.getLast?_eq_some_iff.mp (hpaired.mp hhead)
      cases front with
      | nil =>
          rw [hfront] at hhead
          exact absurd hhead (by decide)
      | cons c inner =>
          obtain rfl : c = '[' := by
            rw [hfront] at hhead
            exact Option.some.inj hhead
          rw [hfront, List.cons_append] at h ⊢
          rw [stripBrackets_of_both] at h
          exact .inr ⟨inner, rfl, h⟩
    · rw [stripBrackets_of_none hhead fun hlast => hhead (hpaired.mpr hlast)] at h
      exact .inl h

/-! ## Ranges -/

/-- The ranges of internal IPv4 addresses: unspecified, private, carrier, loopback, link-local,
documentation and multicast. -/
def internalBlocks : List (Ipv4Addr × Nat) :=
  [(⟨0, 0, 0, 0⟩, 8), (⟨10, 0, 0, 0⟩, 8), (⟨172, 16, 0, 0⟩, 12), (⟨192, 168, 0, 0⟩, 16),
    (⟨100, 64, 0, 0⟩, 10), (⟨127, 0, 0, 0⟩, 8), (⟨169, 254, 0, 0⟩, 16), (⟨192, 0, 2, 0⟩, 24),
    (⟨198, 51, 100, 0⟩, 24), (⟨203, 0, 113, 0⟩, 24), (⟨224, 0, 0, 0⟩, 4)]

def Internal (ip : Ipv4Addr) : Prop :=
  ∃ block ∈ internalBlocks, SameBlock 32 block.2 ip.value block.1.value

/-- `3fff::/20` -/
def documentationBlock : Ipv6Addr × Nat :=
  (⟨0x3f, 0xff, 0, 0, 0, 0, 0, 0, 0, 0, 0, 0, 0, 0, 0, 0⟩, 20)

/-- The ranges of internal IPv6 addresses: unspecified, loopback, unique-local, link-local,
site-local, multicast and the two of documentation. -/
def internalBlocks6 : List (Ipv6Addr × Nat) :=
  [(⟨0, 0, 0, 0, 0, 0, 0, 0, 0, 0, 0, 0, 0, 0, 0, 0⟩, 128),
    (⟨0, 0, 0, 0, 0, 0, 0, 0, 0, 0, 0, 0, 0, 0, 0, 1⟩, 128),
    (⟨0xfc, 0, 0, 0, 0, 0, 0, 0, 0, 0, 0, 0, 0, 0, 0, 0⟩, 7),
    (⟨0xfe, 0x80, 0, 0, 0, 0, 0, 0, 0, 0, 0, 0, 0, 0, 0, 0⟩, 10),
    (⟨0xfe, 0xc0, 0, 0, 0, 0, 0, 0, 0, 0, 0, 0, 0, 0, 0, 0⟩, 10),
    (⟨0xff, 0, 0, 0, 0, 0, 0, 0, 0, 0, 0, 0, 0, 0, 0, 0⟩, 8),
    (⟨0x20, 0x01, 0x0d, 0xb8, 0, 0, 0, 0, 0, 0, 0, 0, 0, 0, 0, 0⟩, 32),
    documentationBlock]

def Internal6 (ip : Ipv6Addr) : Prop :=
  ∃ block ∈ internalBlocks6, SameBlock 128 block.2 ip.value block.1.value

/-- `::ffff:0:0/96` -/
def mappedPrefix : List UInt8 := [0, 0, 0, 0, 0, 0, 0, 0, 0, 0, 0xff, 0xff]

/-- `::/96` -/
def compatiblePrefix : List UInt8 := [0, 0, 0, 0, 0, 0, 0, 0, 0, 0, 0, 0]

/-- `64:ff9b::/96` -/
def nat64Prefix : List UInt8 := [0x00, 0x64, 0xff, 0x9b, 0, 0, 0, 0, 0, 0, 0, 0]

/-- `2002::/16` -/
def sixToFourPrefix : List UInt8 := [0x20, 0x02]

/-- An internal IPv4 address stands behind the prefix. -/
def CarriesInternal (octets : List UInt8) (ip : Ipv6Addr) : Prop :=
  ∃ v4, octets ++ v4.octets <+: ip.octets ∧ Internal v4

/-- An address that may be reached. -/
def External : IpAddr → Prop
  | .v4 ip => ¬ Internal ip
  | .v6 ip => ¬ Internal6 ip ∧ ∀ octets ∈ [mappedPrefix, compatiblePrefix, nat64Prefix, sixToFourPrefix],
      ¬ CarriesInternal octets ip

/-- The addresses that the screening has no test for: an internal IPv4 address in NAT64 or 6to4 form,
and the second range of documentation. -/
def Overlooked (ip : Ipv6Addr) : Prop :=
  CarriesInternal nat64Prefix ip ∨ CarriesInternal sixToFourPrefix ip ∨
    SameBlock 128 documentationBlock.2 ip.value documentationBlock.1.value

/-- The octets of each range are among those that are compared. -/
theorem isRejectedIpv4_of_internal {ip : Ipv4Addr} (h : Internal ip) :
    isRejectedIpv4 (ip.octets.map UInt8.toNat) = true := by
  obtain ⟨block, hblock, hsame⟩ := h
  obtain ⟨h8, h16, h24⟩ := Ipv4Addr.sameBlock_octets ip block.1
  obtain ⟨h4, h10, h12, -⟩ := Ipv4Addr.sameBlock_bits ip block.1
  simp only [← UInt8.toNat_inj] at h8 h16 h24 h4 h10 h12
  simp only [internalBlocks, List.mem_cons, List.not_mem_nil, or_false] at hblock
  show isRejectedIpv4 [ip.a.toNat, ip.b.toNat, ip.c.toNat, ip.d.toNat] = true
  rcases hblock with rfl | rfl | rfl | rfl | rfl | rfl | rfl | rfl | rfl | rfl | rfl
  · have ha : ip.a.toNat = 0 := h8 hsame
    simp [isRejectedIpv4, ha]
  · have ha : ip.a.toNat = 10 := h8 hsame
    simp [isRejectedIpv4, ha]
  · have hab : ip.a.toNat = 172 ∧ ip.b.toNat / 16 = 1 := h12 hsame
    have hb : 16 ≤ ip.b.toNat ∧ ip.b.toNat ≤ 31 := by omega
    simp [isRejectedIpv4, hab.1, hb]
  · have hab : ip.a.toNat = 192 ∧ ip.b.toNat = 168 := h16 hsame
    simp [isRejectedIpv4, hab.1, hab.2]
  · have hab : ip.a.toNat = 100 ∧ ip.b.toNat / 64 = 1 := h10 hsame
    have hb : 64 ≤ ip.b.toNat ∧ ip.b.toNat ≤ 127 := by omega
    simp [isRejectedIpv4, hab.1, hb]
  · have ha : ip.a.toNat = 127 := h8 hsame
    simp [isRejectedIpv4, ha]
  · have hab : ip.a.toNat = 169 ∧ ip.b.toNat = 254 := h16 hsame
    simp [isRejectedIpv4, hab.1, hab.2]
  · have habc : ip.a.toNat = 192 ∧ ip.b.toNat = 0 ∧ ip.c.toNat = 2 := h24 hsame
    simp [isRejectedIpv4, habc.1, habc.2.1, habc.2.2]
  · have habc : ip.a.toNat = 198 ∧ ip.b.toNat = 51 ∧ ip.c.toNat = 100 := h24 hsame
    simp [isRejectedIpv4, habc.1, habc.2.1, habc.2.2]
  · have habc : ip.a.toNat = 203 ∧ ip.b.toNat = 0 ∧ ip.c.toNat = 113 := h24 hsame
    simp [isRejectedIpv4, habc.1, habc.2.1, habc.2.2]
  · have ha : ip.a.toNat / 16 = 14 := h4 hsame
    have ha' : 224 ≤ ip.a.toNat := by omega
    simp [isRejectedIpv4, ha']

/-- All ranges but the second of documentation are compared. -/
theorem isRejectedIpv6_of_internal {ip : Ipv6Addr} (h : Internal6 ip) (hseen : ¬ Overlooked ip) :
    isRejectedIpv6 (ip.octets.map UInt8.toNat) = true := by
  obtain ⟨block, hblock, hsame⟩ := h
  obtain ⟨h7, h8, h10⟩ := Ipv6Addr.sameBlock_front ip block.1
  have h32 := (Ipv6Addr.sameBlock_octets ip block.1).2.2.2.1
  simp only [← UInt8.toNat_inj] at h7 h8 h10 h32
  simp only [internalBlocks6, List.mem_cons, List.not_mem_nil, or_false] at hblock
  have hfull {v w : Nat} (h : SameBlock 128 128 v w) : v = w := by simpa [SameBlock] using h
  have hmask : ∀ n, n / 2 = 126 → n &&& 0xfe = 0xfc := by
    intro n hn
    have hcases : n = 252 ∨ n = 253 := by omega
    rcases hcases with rfl | rfl <;> decide
  have hlink : ∀ r < 64, (128 + r) &&& 0xc0 = 0x80 := by decide
  have hsite : ∀ r < 64, (192 + r) &&& 0xc0 = 0xc0 := by decide
  rcases hblock with rfl | rfl | rfl | rfl | rfl | rfl | rfl | rfl
  · have hvalue : ip.value = 0 := (hfull hsame).trans (by decide)
    rw [Ipv6Addr.octets_of_value_lt (by omega), hvalue]
    decide
  · have hvalue : ip.value = 1 := (hfull hsame).trans (by decide)
    rw [Ipv6Addr.octets_of_value_lt (by omega), hvalue]
    decide
  · have h0 : ip.o0.toNat / 2 = 126 := h7 hsame
    simp [isRejectedIpv6, byteAt, Ipv6Addr.octets, hmask _ h0]
  · have h01 : ip.o0.toNat = 254 ∧ ip.o1.toNat / 64 = 2 := h10 hsame
    have h1 := hlink (ip.o1.toNat - 128) (by omega)
    rw [Nat.add_sub_cancel' (by omega)] at h1
    simp [isRejectedIpv6, byteAt, Ipv6Addr.octets, h01.1, h1]
  · have h01 : ip.o0.toNat = 254 ∧ ip.o1.toNat / 64 = 3 := h10 hsame
    have h1 := hsite (ip.o1.toNat - 192) (by omega)
    rw [Nat.add_sub_cancel' (by omega)] at h1
    simp [isRejectedIpv6, byteAt, Ipv6Addr.octets, h01.1, h1]
  · have h0 : ip.o0.toNat = 255 := h8 hsame
    simp [isRejectedIpv6, byteAt, Ipv6Addr.octets, h0]
  · have h0 : ip.o0.toNat = 32 ∧ ip.o1.toNat = 1 ∧ ip.o2.toNat = 13 ∧ ip.o3.toNat = 184 := h32 hsame
    simp [isRejectedIpv6, byteAt, Ipv6Addr.octets, h0]
  · exact absurd (.inr (.inr hsame)) hseen

/-- All mapped and all compatible addresses are rejected, whatever they carry. -/
theorem isRejectedIpv6_of_front {ip : Ipv6Addr} {octets rest : List UInt8}
    (h : octets = mappedPrefix ∨ octets = compatiblePrefix) (hpre : octets ++ rest <+: ip.octets) :
    isRejectedIpv6 (ip.octets.map UInt8.toNat) = true := by
  obtain ⟨back, hback⟩ := hpre
  rw [← hback]
  rcases h with rfl | rfl
  · simp [isRejectedIpv6, byteAt, mappedPrefix]
  · simp [isRejectedIpv6, byteAt, compatiblePrefix]

/-! ## Screening -/

theorem external_v6_iff {ip : Ipv6Addr} (h : isRejectedIpv6 (ip.octets.map UInt8.toNat) = false) :
    External (.v6 ip) ↔ ¬ Overlooked ip := by
  constructor
  · rintro ⟨hinternal, hcarries⟩ (hnat | hsix | hdoc)
    · exact hcarries nat64Prefix (by simp) hnat
    · exact hcarries sixToFourPrefix (by simp) hsix
    · exact hinternal ⟨documentationBlock, by simp [internalBlocks6], hdoc⟩
  · intro hseen
    refine ⟨fun hinternal => ?_, ?_⟩
    · rw [isRejectedIpv6_of_internal hinternal hseen] at h
      exact absurd h (by decide)
    · rintro octets hoctets ⟨v4, hpre, hv4⟩
      simp only [List.mem_cons, List.not_mem_nil, or_false] at hoctets
      rcases hoctets with rfl | rfl | rfl | rfl
      · rw [isRejectedIpv6_of_front (.inl rfl) hpre] at h
        exact absurd h (by decide)
      · rw [isRejectedIpv6_of_front (.inr rfl) hpre] at h
        exact absurd h (by decide)
      · exact hseen (.inl ⟨v4, hpre, hv4⟩)
      · exact hseen (.inr (.inl ⟨v4, hpre, hv4⟩))

/-- The text is that of an address that may be reached. -/
def Screened (address : Data) : Prop :=
  ∃ s ip, address = .str s ∧ IpAddr.Literal s.toList ip ∧ External ip

/-- The text has its brackets in a pair, and it is not that of an address without a test. -/
def Tested (address : Data) : Prop :=
  ∀ s, address = .str s → Paired s.toList ∧
    ∀ ip : Ipv6Addr, IpAddr.Literal s.toList (.v6 ip) → ¬ Overlooked ip

theorem octets_injective {ip ip' : Ipv6Addr}
    (h : ip.octets.map UInt8.toNat = ip'.octets.map UInt8.toNat) : ip = ip' := by
  have hoctets := List.map_injective_iff.mpr (fun _ _ => UInt8.toNat_inj.mp) h
  cases ip
  cases ip'
  simpa [Ipv6Addr.octets] using hoctets

section Screening

variable {toLowerCase : List Char → List Char} (hlower : LowersCase toLowerCase)

include hlower

/-- A text stands for one address only. -/
theorem literal_v6_unique {text : List Char} {ip ip' : Ipv6Addr} (h : IpAddr.Literal text (.v6 ip))
    (h' : IpAddr.Literal text (.v6 ip')) : ip = ip' := by
  have hread := (parseIpv6_eq_some hlower).mpr ⟨ip, (literal_v6_iff.mp h).2, rfl⟩
  have hread' := (parseIpv6_eq_some hlower).mpr ⟨ip', (literal_v6_iff.mp h').2, rfl⟩
  exact octets_injective (Option.some.inj (hread.symm.trans hread'))

omit hlower in
/-- An IPv6 address has a colon in it, so that it is none of the other family. -/
theorem colon_mem_of_literal {text : List Char} {ip : Ipv6Addr} (h : IpAddr.Literal text (.v6 ip)) :
    ':' ∈ text := by
  have hcolon {text : List Char} (h : ip.Literal text) : ':' ∈ text := by
    have hmem : ':' ∈ text.map Char.toLower := by
      unfold Ipv6Addr.Literal at h
      generalize text.map Char.toLower = lower at h
      cases h with
      | groups h => exact h.letters.2
      | quad ip h => simp
    obtain ⟨c, hc, heq⟩ := List.mem_map.mp hmem
    rwa [(toLower_eq_iff (by decide) (by decide)).mp heq] at hc
  rcases h with h | ⟨inner, rfl, h⟩
  · exact hcolon h
  · exact List.mem_cons_of_mem _ (List.mem_append_left _ (hcolon h))

omit hlower in
theorem tested_text {s : String} {ip : Ipv4Addr} (h : s.toList = ip.text) : Tested (.str s) := by
  rintro s' heq
  obtain rfl := Data.str.inj heq
  have hletter : ∀ c ∈ ip.text, c ≠ '[' ∧ c ≠ ']' := by
    intro c hc
    rcases Ipv4Addr.mem_text hc with h | rfl
    · refine ⟨?_, ?_⟩
      all_goals
        rintro rfl
        exact absurd h (by decide)
    · decide
  rw [h]
  refine ⟨iff_of_false (fun hhead => ?_) (fun hlast => ?_), fun ip6 hliteral => ?_⟩
  · exact (hletter _ (List.mem_of_mem_head? hhead)).1 rfl
  · exact (hletter _ (List.mem_of_getLast? hlast)).2 rfl
  · exact absurd (colon_mem_of_literal hliteral) (colon_not_mem_text ip)

/-- An address that is accepted may be reached just if it is tested. -/
theorem screened_iff_tested {policy : NetworkPolicy} {address : Data} (hpolicy : policy.override = false)
    (h : assertReportedIp toLowerCase policy address = .ok ()) : Screened address ↔ Tested address := by
  cases address with
  | str s =>
    simp only [assertReportedIp, bind_eq_ok, failIf_eq_ok, hpolicy, not_and, Bool.false_eq_true,
      not_false_eq_true, forall_const, Bool.not_eq_true] at h
    obtain ⟨-, -, -, hread, haccepted⟩ := h
    unfold isRejectedAddress at haccepted
    cases hquad : parseIpv4 s.toList with
    | some numbers =>
        rw [hquad] at haccepted
        obtain ⟨ip, htext, rfl⟩ := parseIpv4_eq_some.mp hquad
        refine iff_of_true ⟨s, .v4 ip, rfl, htext, fun hinternal => ?_⟩ (tested_text htext)
        dsimp only at haccepted
        rw [isRejectedIpv4_of_internal hinternal] at haccepted
        exact absurd haccepted (by decide)
    | none =>
        rw [hquad] at haccepted hread
        obtain ⟨bytes, hbytes⟩ := Option.isSome_iff_exists.mp (by simpa using hread)
        rw [hbytes] at haccepted
        obtain ⟨ip, hliteral, rfl⟩ := (parseIpv6_eq_some hlower).mp hbytes
        have hexternal := external_v6_iff haccepted
        constructor
        · rintro ⟨s', ip', heq, hliteral', hreach⟩ s'' heq'
          obtain rfl := Data.str.inj heq
          obtain rfl := Data.str.inj heq'
          cases ip' with
          | v4 quad =>
              rw [parseIpv4_eq_some.mpr ⟨quad, hliteral', rfl⟩] at hquad
              cases hquad
          | v6 ip' =>
              have hpaired := (literal_v6_iff.mp hliteral').1
              have hself : IpAddr.Literal s.toList (.v6 ip) := literal_v6_iff.mpr ⟨hpaired, hliteral⟩
              refine ⟨hpaired, fun ip'' hliteral'' => ?_⟩
              rw [literal_v6_unique hlower hliteral'' hself]
              rw [literal_v6_unique hlower hliteral' hself] at hreach
              exact hexternal.mp hreach
        · intro htested
          obtain ⟨hpaired, hseen⟩ := htested s rfl
          have hself : IpAddr.Literal s.toList (.v6 ip) := literal_v6_iff.mpr ⟨hpaired, hliteral⟩
          exact ⟨s, .v6 ip, rfl, hself, hexternal.mpr (hseen ip hself)⟩
  | _ => simp [assertReportedIp] at h

end Screening

/-! ## Evidence -/

section Evidence

variable {toLowerCase : List Char → List Char} {parseUrl : Data → Option Url} {policy : NetworkPolicy}

/-- The items of an array. -/
def itemsOf : Data → List Data
  | .arr items => items
  | _ => []

/-- The hops of an answer. -/
def hopsOf (value : Data) : List Data := itemsOf ((value.get "networkEvidence").get "hops")

/-- The host of the url of a hop is one that the policy allows. -/
def HostAllowed (toLowerCase : List Char → List Char) (parseUrl : Data → Option Url)
    (policy : NetworkPolicy) (hop : Data) : Prop :=
  ∃ url, parseUrl (hop.get "url") = some url ∧
    domainOf toLowerCase url.hostname ∈ policy.allowDomains

theorem inspectHop_eq_ok {hop : Data} {domain : String}
    (h : inspectHop toLowerCase parseUrl policy hop = .ok domain) :
    HostAllowed toLowerCase parseUrl policy hop ∧
      ∀ address ∈ itemsOf (hop.get "resolvedIps"), assertReportedIp toLowerCase policy address = .ok () := by
  unfold inspectHop at h
  simp only [bind_eq_ok] at h
  obtain ⟨-, -, domain', hdomain, h⟩ := h
  refine ⟨?_, ?_⟩
  · simp only [inspectAllowedUrl, bind_eq_ok, failIf_eq_ok, orFail_eq_ok, not_not, pure_eq_ok] at hdomain
    obtain ⟨url, hurl, -, -, -, -, -, hallowed, -⟩ := hdomain
    exact ⟨url, hurl, hallowed⟩
  · split at h
    · rename_i addresses haddresses
      simp only [bind_eq_ok] at h
      obtain ⟨-, -, ⟨⟩, hall, -⟩ := h
      rw [haddresses]
      exact forM_eq_ok.mp hall
    · cases h

/-- Every hop of accepted evidence has been inspected. -/
theorem inspected_of_validate {value : Data} {result : Option (String × Data)}
    (h : validateNetworkEvidence toLowerCase parseUrl policy value = .ok result) :
    ∀ hop ∈ hopsOf value, ∃ domain, inspectHop toLowerCase parseUrl policy hop = .ok domain := by
  unfold validateNetworkEvidence at h
  dsimp only at h
  split_ifs at h with hdomains
  · simp only [bind_eq_ok, failIf_eq_ok, not_or, not_not] at h
    obtain ⟨-, ⟨hundefined, -⟩, -⟩ := h
    have hnone : (value.get "networkEvidence").get "hops" = .undefined := by
      cases hevidence : value.get "networkEvidence" with
      | undefined => rfl
      | _ => simp [hevidence, Data.isUndefined] at hundefined
    rw [hopsOf, hnone]
    nofun
  · simp only [bind_eq_ok] at h
    obtain ⟨hops, hcomplete, -, -, -, -, domains, hall, -⟩ := h
    have hhops : hopsOf value = hops := by
      unfold completeHops at hcomplete
      split at hcomplete
      · rename_i items _ hitems
        simp only [bind_eq_ok, pure_eq_ok] at hcomplete
        obtain ⟨-, -, rfl⟩ := hcomplete
        rw [hopsOf, hitems]
        rfl
      · cases hcomplete
    rw [hhops]
    exact exists_mapM_eq_ok.mp ⟨domains, hall⟩

/-- Network evidence is screened just if every address in it is tested: then each host is allowed
and each address may be reached. -/
theorem network_evidence_iff (hlower : LowersCase toLowerCase) (hpolicy : policy.override = false)
    {value : Data} {result : Option (String × Data)}
    (h : validateNetworkEvidence toLowerCase parseUrl policy value = .ok result) :
    (∀ hop ∈ hopsOf value, HostAllowed toLowerCase parseUrl policy hop ∧
        ∀ address ∈ itemsOf (hop.get "resolvedIps"), Screened address) ↔
      ∀ hop ∈ hopsOf value, ∀ address ∈ itemsOf (hop.get "resolvedIps"), Tested address := by
  refine forall₂_congr fun hop hhop => ?_
  obtain ⟨domain, hdomain⟩ := inspected_of_validate h hop hhop
  obtain ⟨hallowed, haccepted⟩ := inspectHop_eq_ok hdomain
  rw [and_iff_right hallowed]
  exact forall₂_congr fun address haddress => screened_iff_tested hlower hpolicy (haccepted address haddress)

end Evidence

namespace NetworkSample

def toLowerCase : List Char → List Char := List.map Char.toLower

theorem lowersCase : LowersCase toLowerCase where
  ascii _ _ := rfl
  other text h := by
    obtain ⟨c, hc, hlarge⟩ := h
    refine ⟨c.toLower, List.mem_map_of_mem hc, fun hletter => ?_⟩
    have hlt := toNat_lt_of_letter hletter
    rcases toLower_cases c with heq | ⟨-, hhigh, -⟩
    · rw [heq] at hlt
      omega
    · omega

def url : String := "https://example.com/"

def parseUrl : Data → Option Url
  | .str s => if s = url then some ⟨"https:", "", "", "example.com"⟩ else none
  | _ => none

def policy : NetworkPolicy := ⟨["example.com"], 0, false, false⟩

/-- One hop to one address. -/
def evidence (address : String) : Data :=
  .obj [("networkEvidence", .obj [("complete", .bool true),
    ("hops", .arr [.obj [("url", .str url), ("resolvedIps", .arr [.str address])]])])]

theorem inspectAllowedUrl_url :
    inspectAllowedUrl toLowerCase parseUrl policy (.str url) = .ok "example.com" := by
  have hdomain : domainOf toLowerCase "example.com" = "example.com" := by decide
  have hpublic : isPrivateOrLocalHost toLowerCase "example.com" = false := by decide
  refine bind_eq_ok.mpr ⟨⟨"https:", "", "", "example.com"⟩, orFail_eq_ok.mpr (by rw [parseUrl, if_pos rfl]), ?_⟩
  refine bind_eq_ok.mpr ⟨⟨⟩, failIf_eq_ok.mpr (by decide), ?_⟩
  dsimp only
  rw [hdomain]
  refine bind_eq_ok.mpr ⟨⟨⟩, failIf_eq_ok.mpr (by simp [hpublic]), ?_⟩
  exact bind_eq_ok.mpr ⟨⟨⟩, failIf_eq_ok.mpr (by decide), rfl⟩

theorem validate_evidence {address : String}
    (h : assertReportedIp toLowerCase policy (.str address) = .ok ()) :
    validateNetworkEvidence toLowerCase parseUrl policy (evidence address) =
      .ok (some ("example.com", .str url)) := by
  have hhop : inspectHop toLowerCase parseUrl policy
      (.obj [("url", .str url), ("resolvedIps", .arr [.str address])]) = .ok "example.com" := by
    refine bind_eq_ok.mpr ⟨⟨⟩, rfl, bind_eq_ok.mpr ⟨_, inspectAllowedUrl_url, ?_⟩⟩
    refine bind_eq_ok.mpr ⟨⟨⟩, rfl, bind_eq_ok.mpr ⟨⟨⟩, ?_, rfl⟩⟩
    exact forM_eq_ok.mpr fun x hx => by rwa [List.mem_singleton.mp hx]
  rw [validateNetworkEvidence, if_neg (by decide)]
  refine bind_eq_ok.mpr ⟨_, rfl, bind_eq_ok.mpr ⟨⟨⟩, rfl, bind_eq_ok.mpr ⟨⟨⟩, rfl, ?_⟩⟩⟩
  exact bind_eq_ok.mpr ⟨["example.com"], mapM_eq_ok.mpr (.cons hhop .nil), rfl⟩

/-- The NAT64 form of the loopback address. -/
def loopbackNat64 : Ipv6Addr := ⟨0, 0x64, 0xff, 0x9b, 0, 0, 0, 0, 0, 0, 0, 0, 127, 0, 0, 1⟩

theorem literal_loopbackNat64 : IpAddr.Literal "64:ff9b::7f00:1".toList (.v6 loopbackNat64) := by
  have hleft : GroupRun "64:ff9b".toList [0x64, 0xff9b] := ⟨by decide, by decide⟩
  have hright : GroupRun "7f00:1".toList [0x7f00, 1] := ⟨by decide, by decide⟩
  exact .inl (.groups (.compressed hleft hright (by decide)))

theorem assert_sample : assertReportedIp toLowerCase policy (.str "64:ff9b::7f00:1") = .ok () ∧
    assertReportedIp toLowerCase policy (.str "93.184.216.34") = .ok () := by
  decide

end NetworkSample

open NetworkSample

/-- The NAT64 form of the loopback address is accepted. -/
theorem loopback_let_through :
    validateNetworkEvidence toLowerCase parseUrl policy (evidence "64:ff9b::7f00:1") =
        .ok (some ("example.com", .str url)) ∧
      policy.override = false ∧ ¬ Screened (.str "64:ff9b::7f00:1") := by
  refine ⟨validate_evidence assert_sample.1, rfl, fun hscreened => ?_⟩
  have htested := (screened_iff_tested lowersCase rfl assert_sample.1).mp hscreened
  refine (htested _ rfl).2 loopbackNat64 literal_loopbackNat64 (.inl ⟨⟨127, 0, 0, 1⟩, ?_, ?_⟩)
  · exact ⟨[], rfl⟩
  · exact ⟨(⟨127, 0, 0, 0⟩, 8), by simp [internalBlocks], by decide⟩

theorem network_evidence_sample :
    (∀ hop ∈ hopsOf (evidence "93.184.216.34"), HostAllowed toLowerCase parseUrl policy hop ∧
        ∀ address ∈ itemsOf (hop.get "resolvedIps"), Screened address) ↔
      ∀ hop ∈ hopsOf (evidence "93.184.216.34"), ∀ address ∈ itemsOf (hop.get "resolvedIps"),
        Tested address :=
  network_evidence_iff lowersCase rfl (validate_evidence assert_sample.2)

end Useful.ComputerUse
