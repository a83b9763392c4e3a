/-
# Internet addresses as texts

An IPv4 address is written as four decimal numerals. An IPv6 address is written as eight groups of
hexadecimal digits; two colons stand for one or more groups of zeros, and a dotted quad for the last
two groups. The letters are in lower case here: who reads both cases converts them first.
-/

import Useful.Math.Address
import Useful.Math.JsText
import Useful.Math.Text

namespace Useful.Math

/-! ## Dotted quads -/

/-- The four octets in decimal. -/
def Ipv4Addr.text (ip : Ipv4Addr) : List Char :=
  ['.'].intercalate (ip.octets.map fun o => decimalNat o.toNat)

/-- Digits without leading zeros are the numeral of their value. -/
theorem decimalNat_ofDigitChars {digits : List Char} (hdigits : ∀ c ∈ digits, c.isDigit = true)
    (hne : digits ≠ []) (hzero : digits.head? = some '0' → digits.length = 1) :
    decimalNat (Nat.ofDigitChars 10 digits 0) = digits := by
  have hchar : ∀ c : Char, c.isDigit = true → c.toNat - 48 < 10 ∧ Nat.digitChar (c.toNat - 48) = c := by
    intro c hc
    have hbounds : 48 ≤ c.toNat ∧ c.toNat ≤ 57 := by
      rw [Char.isDigit, Bool.and_eq_true, decide_eq_true_eq, decide_eq_true_eq] at hc
      exact hc
    have hall : ∀ n < 10, Nat.digitChar n = Char.ofNat (48 + n) := by decide
    refine ⟨by omega, ?_⟩
    rw [hall _ (by omega), Nat.add_sub_cancel' hbounds.1, Char.ofNat_toNat]
  induction digits using List.reverseRecOn with
  | nil => exact absurd rfl hne
  | append_singleton front c ih =>
      rw [List.forall_mem_append, List.forall_mem_singleton] at hdigits
      obtain ⟨hlt, hdigit⟩ := hchar c hdigits.2
      have hvalue : Nat.ofDigitChars 10 (front ++ [c]) 0 =
          10 * Nat.ofDigitChars 10 front 0 + (c.toNat - 48) := by
        rw [Nat.ofDigitChars_append, Nat.ofDigitChars_cons, Nat.ofDigitChars_nil]
        rfl
      rw [hvalue, decimalNat]
      rcases List.eq_nil_or_concat front with rfl | hfront
      · rw [Nat.ofDigitChars_nil, Nat.mul_zero, Nat.zero_add, Nat.toDigits_of_lt_base hlt, hdigit]
        rfl
      · have hfront : front ≠ [] := by
          rintro rfl
          simp at hfront
        have hhead : front.head? ≠ some '0' := by
          intro heq
          rw [List.head?_append_of_ne_nil _ hfront] at hzero
          have hlength := hzero heq
          rw [List.length_append, List.length_singleton] at hlength
          exact hfront (List.length_eq_zero_iff.mp (by omega))
        have hih := ih hdigits.1 hfront fun heq => absurd heq hhead
        have hpos : 0 < Nat.ofDigitChars 10 front 0 := by
          rw [Nat.pos_iff_ne_zero]
          intro h0
          rw [h0] at hih
          rw [← hih] at hhead
          exact hhead (by decide)
        rw [← Nat.toDigits_append_toDigits (by decide) hpos hlt, Nat.toDigits_of_lt_base hlt, hdigit]
        exact congrArg (· ++ [c]) hih

theorem not_mem_decimalNat {n : Nat} {c : Char} (h : c.isDigit = false) : c ∉ decimalNat n := by
  intro hmem
  rw [isDigit_of_mem_decimalNat hmem] at h
  exact absurd h (by decide)

/-- The numerals stand between the dots. -/
theorem Ipv4Addr.splitOn_text (ip : Ipv4Addr) :
    ip.text.splitOn '.' = ip.octets.map fun o => decimalNat o.toNat := by
  refine List.splitOn_intercalate '.' (fun part hpart => ?_) (by simp [octets])
  obtain ⟨o, -, rfl⟩ := List.mem_map.mp hpart
  exact not_mem_decimalNat (by decide)

theorem Ipv4Addr.mem_text {ip : Ipv4Addr} {c : Char} (h : c ∈ ip.text) : c.isDigit = true ∨ c = '.' := by
  simp only [text, octets, List.map_cons, List.map_nil, List.intercalate_cons_cons,
    List.intercalate_singleton, List.mem_append, List.mem_singleton, or_assoc] at h
  rcases h with h | h | h | h | h | h | h
  all_goals first | exact .inl (isDigit_of_mem_decimalNat h) | exact .inr h

theorem Ipv4Addr.text_ne_nil (ip : Ipv4Addr) : ip.text ≠ [] := by
  simp [text, octets, List.intercalate_cons_cons]

/-! ## Groups of octets -/

namespace Ipv4Addr

/-- The two groups that an address takes in one of the other family. -/
def groups (ip : Ipv4Addr) : List Nat :=
  [ip.a.toNat * 256 + ip.b.toNat, ip.c.toNat * 256 + ip.d.toNat]

/-- The groups in hexadecimal. -/
def groupText (ip : Ipv4Addr) : List Char :=
  Nat.toDigits 16 (ip.a.toNat * 256 + ip.b.toNat) ++
    ':' :: Nat.toDigits 16 (ip.c.toNat * 256 + ip.d.toNat)

end Ipv4Addr

/-- The eight groups of an address. -/
def Ipv6Addr.groups (ip : Ipv6Addr) : List Nat :=
  [ip.o0.toNat * 256 + ip.o1.toNat, ip.o2.toNat * 256 + ip.o3.toNat,
    ip.o4.toNat * 256 + ip.o5.toNat, ip.o6.toNat * 256 + ip.o7.toNat,
    ip.o8.toNat * 256 + ip.o9.toNat, ip.o10.toNat * 256 + ip.o11.toNat,
    ip.o12.toNat * 256 + ip.o13.toNat, ip.o14.toNat * 256 + ip.o15.toNat]

/-! ## Texts of groups -/

/-- `[a-f0-9]` -/
def isGroupLetter (c : Char) : Bool := ('a' ≤ c && c ≤ 'f') || ('0' ≤ c && c ≤ '9')

/-- One to four hexadecimal digits. -/
def isGroup (part : List Char) : Bool :=
  1 ≤ part.length && part.length ≤ 4 && part.all isGroupLetter

/-- The value of hexadecimal digits. -/
def groupValue (part : List Char) : Nat := JsText.parseHex (part.map Char.toNat)

/-- The parts of a text between colons, of which the empty text has none. -/
def groupParts (text : List Char) : List (List Char) := if text = [] then [] else text.splitOn ':'

/-- Groups between colons. -/
structure GroupRun (text : List Char) (groups : List Nat) : Prop where
  parts : ∀ part ∈ groupParts text, isGroup part = true
  values : groups = (groupParts text).map groupValue

/-- Eight groups, of which one or more may be left out where they are zeros. -/
inductive Ipv6Groups : List Char → List Nat → Prop
  | full {text : List Char} {groups : List Nat} (run : GroupRun text groups)
      (eight : groups.length = 8) : Ipv6Groups text groups
  | compressed {left right : List Char} {leftGroups rightGroups : List Nat}
      (leftRun : GroupRun left leftGroups) (rightRun : GroupRun right rightGroups)
      (fewer : leftGroups.length + rightGroups.length < 8) :
      Ipv6Groups (left ++ ':' :: ':' :: right)
        (leftGroups ++ List.replicate (8 - leftGroups.length - rightGroups.length) 0 ++ rightGroups)

/-- The text of an IPv6 address: all in groups, or with a dotted quad for the last two. -/
inductive Ipv6Text : List Char → List Nat → Prop
  | groups {text : List Char} {groups : List Nat} (h : Ipv6Groups text groups) : Ipv6Text text groups
  | quad {front : List Char} {groups : List Nat} (ip : Ipv4Addr)
      (h : Ipv6Groups (front ++ ':' :: ip.groupText) groups) :
      Ipv6Text (front ++ ':' :: ip.text) groups

theorem isGroupLetter_iff {c : Char} : isGroupLetter c = true ↔
    97 ≤ c.toNat ∧ c.toNat ≤ 102 ∨ 48 ≤ c.toNat ∧ c.toNat ≤ 57 := by
  rw [isGroupLetter, Bool.or_eq_true, Bool.and_eq_true, Bool.and_eq_true, decide_eq_true_eq,
    decide_eq_true_eq, decide_eq_true_eq, decide_eq_true_eq]
  rfl

theorem parseHex_lt {part : List Char} (h : ∀ c ∈ part, isGroupLetter c = true) :
    groupValue part < 16 ^ part.length := by
  induction part using List.reverseRecOn with
  | nil => exact Nat.one_pos
  | append_singleton front c ih =>
      rw [List.forall_mem_append, List.forall_mem_singleton] at h
      have hfront := ih h.1
      have hdigit : JsText.hexDigitValue c.toNat < 16 := by
        unfold JsText.hexDigitValue JsText.isDigit
        rcases isGroupLetter_iff.mp h.2 with hc | hc
        · rw [if_neg (by simp; omega), if_pos hc.1]
          omega
        · rw [if_pos (by simp; omega)]
          omega
      rw [groupValue, List.map_append, List.map_singleton, JsText.parseHex_append_singleton,
        List.length_append, List.length_singleton, Nat.pow_succ]
      have : JsText.parseHex (front.map Char.toNat) < 16 ^ front.length := hfront
      omega

/-- A group is two octets. -/
theorem groupValue_lt {part : List Char} (h : isGroup part = true) : groupValue part < 65536 := by
  rw [isGroup, Bool.and_eq_true, Bool.and_eq_true, decide_eq_true_eq, decide_eq_true_eq,
    List.all_eq_true] at h
  exact (parseHex_lt h.2).trans_le (Nat.pow_le_pow_right (by decide) h.1.2)

theorem GroupRun.lt {text : List Char} {groups : List Nat} (h : GroupRun text groups) :
    ∀ group ∈ groups, group < 65536 := by
  rw [h.values]
  intro group hgroup
  obtain ⟨part, hpart, rfl⟩ := List.mem_map.mp hgroup
  exact groupValue_lt (h.parts part hpart)

/-- The groups of a text are those of an address. -/
theorem exists_groups_eq {groups : List Nat} (height : groups.length = 8)
    (hlt : ∀ group ∈ groups, group < 65536) : ∃ ip : Ipv6Addr, ip.groups = groups := by
  match groups, height with
  | [g0, g1, g2, g3, g4, g5, g6, g7], _ =>
    simp only [List.forall_mem_cons, List.not_mem_nil, false_imp_iff, implies_true, and_true] at hlt
    refine ⟨⟨.ofNat (g0 / 256), .ofNat (g0 % 256), .ofNat (g1 / 256), .ofNat (g1 % 256),
      .ofNat (g2 / 256), .ofNat (g2 % 256), .ofNat (g3 / 256), .ofNat (g3 % 256), .ofNat (g4 / 256),
      .ofNat (g4 % 256), .ofNat (g5 / 256), .ofNat (g5 % 256), .ofNat (g6 / 256), .ofNat (g6 % 256),
      .ofNat (g7 / 256), .ofNat (g7 % 256)⟩, ?_⟩
    have hgroup : ∀ g < 65536, (UInt8.ofNat (g / 256)).toNat * 256 + (UInt8.ofNat (g % 256)).toNat = g := by
      intro g hg
      rw [UInt8.toNat_ofNat', UInt8.toNat_ofNat']
      omega
    simp only [Ipv6Addr.groups, hgroup _ hlt.1, hgroup _ hlt.2.1, hgroup _ hlt.2.2.1,
      hgroup _ hlt.2.2.2.1, hgroup _ hlt.2.2.2.2.1, hgroup _ hlt.2.2.2.2.2.1,
      hgroup _ hlt.2.2.2.2.2.2.1, hgroup _ hlt.2.2.2.2.2.2.2]

theorem Ipv6Groups.exists_addr {text : List Char} {groups : List Nat} (h : Ipv6Groups text groups) :
    ∃ ip : Ipv6Addr, ip.groups = groups := by
  cases h with
  | full hrun height => exact exists_groups_eq height hrun.lt
  | compressed hleft hright hfewer =>
      refine exists_groups_eq ?_ ?_
      · simp only [List.length_append, List.length_replicate]
        omega
      · intro group hgroup
        rcases List.mem_append.mp hgroup with hgroup | hgroup
        · rcases List.mem_append.mp hgroup with hgroup | hgroup
          · exact hleft.lt group hgroup
          · rw [List.eq_of_mem_replicate hgroup]
            decide
        · exact hright.lt group hgroup

/-- What is not the separator lies in one of the parts. -/
theorem exists_mem_splitOn {α : Type*} [DecidableEq α] {sep a : α} (hsep : a ≠ sep) {text : List α}
    (h : a ∈ text) : ∃ part ∈ text.splitOn sep, a ∈ part := by
  induction text with
  | nil => cases h
  | cons b text ih =>
      rw [List.splitOn_cons_eq_if_modifyHead]
      obtain ⟨first, parts, hparts⟩ := List.exists_cons_of_ne_nil (List.splitOn_ne_nil sep text)
      rw [hparts] at ih ⊢
      rcases List.mem_cons.mp h with rfl | h
      · rw [if_neg (by simpa using hsep)]
        exact ⟨a :: first, List.mem_cons_self, List.mem_cons_self⟩
      · obtain ⟨part, hpart, ha⟩ := ih h
        split_ifs
        · exact ⟨part, List.mem_cons_of_mem _ hpart, ha⟩
        · rcases List.mem_cons.mp hpart with rfl | hpart
          · exact ⟨b :: part, List.mem_cons_self, List.mem_cons_of_mem _ ha⟩
          · exact ⟨part, List.mem_cons_of_mem _ hpart, ha⟩

/-- The letters of a run. -/
theorem GroupRun.letters {text : List Char} {groups : List Nat} (h : GroupRun text groups) :
    ∀ c ∈ text, isGroupLetter c = true ∨ c = ':' := by
  intro c hc
  rcases eq_or_ne c ':' with heq | hne
  · exact .inr heq
  · obtain ⟨part, hpart, hmem⟩ := exists_mem_splitOn hne hc
    have hgroup := h.parts part (by rwa [groupParts, if_neg (List.ne_nil_of_mem hc)])
    rw [isGroup, Bool.and_eq_true, List.all_eq_true] at hgroup
    exact .inl (hgroup.2 c hmem)

/-- The letters of a text of groups, in which there is a colon. -/
theorem Ipv6Groups.letters {text : List Char} {groups : List Nat} (h : Ipv6Groups text groups) :
    (∀ c ∈ text, isGroupLetter c = true ∨ c = ':') ∧ ':' ∈ text := by
  cases h with
  | full hrun height =>
      refine ⟨hrun.letters, ?_⟩
      by_contra hcolon
      rw [hrun.values, List.length_map, groupParts] at height
      split_ifs at height
      rw [List.splitOn_eq_singleton hcolon] at height
      exact absurd height (by simp)
  | compressed hleft hright hfewer =>
      refine ⟨?_, by simp⟩
      intro c hc
      simp only [List.mem_append, List.mem_cons] at hc
      rcases hc with hc | hc | hc | hc
      · exact hleft.letters c hc
      · exact .inr hc
      · exact .inr hc
      · exact hright.letters c hc

/-! ## Literals -/

/-- The text of an IPv6 address in letters of either case. -/
def Ipv6Addr.Literal (text : List Char) (ip : Ipv6Addr) : Prop :=
  Ipv6Text (text.map Char.toLower) ip.groups

/-- A text that stands for an address. An IPv6 address may be put in brackets. -/
def IpAddr.Literal (text : List Char) : IpAddr → Prop
  | .v4 ip => text = ip.text
  | .v6 ip => Ipv6Addr.Literal text ip ∨
      ∃ inner, text = '[' :: (inner ++ [']']) ∧ Ipv6Addr.Literal inner ip

end Useful.Math
