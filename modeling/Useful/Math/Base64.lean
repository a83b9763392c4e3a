/-
# Base64

Three bytes are four groups of six bits, and each group is a code unit of the alphabet. Where the
bytes end within three, zero bits complete the last group and padding completes the four. Decoding
is forgiving: it skips white space, accepts absent padding and ignores the bits that are left over.
-/

import Useful.Math.JsText
import Mathlib.Data.List.Induction

namespace Useful.Math.Base64

open Useful.Math

/-- The code unit for six bits. -/
def unit (sextet : Nat) : Nat :=
  if sextet < 26 then 65 + sextet
  else if sextet < 52 then 71 + sextet
  else if sextet < 62 then sextet - 4
  else if sextet = 62 then 43
  else 47

def isAlphabet (unit : Nat) : Bool :=
  (65 ≤ unit && unit ≤ 90) || (97 ≤ unit && unit ≤ 122) || (48 ≤ unit && unit ≤ 57) ||
    unit == 43 || unit == 47

/-- The six bits that a code unit stands for. -/
def sextet? (unit : Nat) : Option Nat :=
  if 65 ≤ unit ∧ unit ≤ 90 then some (unit - 65)
  else if 97 ≤ unit ∧ unit ≤ 122 then some (unit - 71)
  else if 48 ≤ unit ∧ unit ≤ 57 then some (unit + 4)
  else if unit = 43 then some 62
  else if unit = 47 then some 63
  else none

/-- Bytes as groups of six bits. -/
@[grind =]
def sextets : List Nat → List Nat
  | a :: b :: c :: rest =>
      a / 4 :: (a % 4 * 16 + b / 16) :: (b % 16 * 4 + c / 64) :: c % 64 :: sextets rest
  | [a, b] => [a / 4, a % 4 * 16 + b / 16, b % 16 * 4]
  | [a] => [a / 4, a % 4 * 16]
  | [] => []

/-- Groups of six bits as bytes, without the bits that do not fill one. -/
@[grind =]
def octets : List Nat → List Nat
  | a :: b :: c :: d :: rest =>
      (a * 4 + b / 16) :: (b % 16 * 16 + c / 4) :: (c % 4 * 64 + d) :: octets rest
  | [a, b, c] => [a * 4 + b / 16, b % 16 * 16 + c / 4]
  | [a, b] => [a * 4 + b / 16]
  | [_] => []
  | [] => []

/-- How many units complete the last four. -/
def padding (count : Nat) : Nat := (3 - count % 3) % 3

/-- `btoa(text)`, which rejects what is no byte. -/
def btoa (text : JsText) : Option JsText :=
  if text.all (· < 256) then
    some ((sextets text).map unit ++ List.replicate (padding text.length) 61)
  else none

def isAsciiSpace (unit : Nat) : Bool := [9, 10, 12, 13, 32].contains unit

/-- A text without one or two equals signs at its end. -/
def withoutPadding (text : JsText) : JsText :=
  match text.reverse with
  | 61 :: 61 :: rest => rest.reverse
  | 61 :: rest => rest.reverse
  | _ => text

/-- What is left of a text to decode. -/
def withoutSpace (text : JsText) : JsText :=
  let text := text.filter (!isAsciiSpace ·)
  if text.length % 4 = 0 then withoutPadding text else text

/-- `atob(text)` -/
def atob (text : JsText) : Option JsText :=
  if (withoutSpace text).length % 4 = 1 then none
  else ((withoutSpace text).mapM sextet?).map octets

/-! ## The alphabet -/

theorem unit_spec : ∀ n < 64,
    isAlphabet (unit n) = true ∧ sextet? (unit n) = some n ∧ isAsciiSpace (unit n) = false := by
  decide

theorem unit_inj {m n : Nat} (hm : m < 64) (hn : n < 64) (h : unit m = unit n) : m = n := by
  have hsame := (unit_spec m hm).2.1
  rw [h, (unit_spec n hn).2.1] at hsame
  exact (Option.some.inj hsame).symm

theorem isAlphabet_ne {code : Nat} (h : isAlphabet code = true) : code ≠ 61 := by
  rintro rfl
  exact absurd h (by decide)

theorem mapM_sextet? {groups : List Nat} (h : ∀ n ∈ groups, n < 64) :
    (groups.map unit).mapM sextet? = some groups := by
  induction groups with
  | nil => rfl
  | cons n groups ih =>
      rw [List.map_cons, List.mapM_cons, (unit_spec n (h n List.mem_cons_self)).2.1,
        ih fun m hm => h m (List.mem_cons_of_mem _ hm)]
      rfl

theorem sextet?_lt {code n : Nat} (h : sextet? code = some n) : n < 64 := by
  unfold sextet? at h
  split_ifs at h <;> cases h <;> omega

/-! ## Bytes and groups -/

theorem sextets_lt {bytes : List Nat} (h : ∀ b ∈ bytes, b < 256) : ∀ n ∈ sextets bytes, n < 64 := by
  induction bytes using sextets.induct with
  | case1 a b c rest ih =>
      simp only [List.forall_mem_cons, sextets] at h ⊢
      exact ⟨by omega, by omega, by omega, by omega, ih h.2.2.2⟩
  | case2 a b =>
      simp only [List.forall_mem_cons, sextets, List.not_mem_nil, false_implies, implies_true,
        and_true] at h ⊢
      exact ⟨by omega, by omega, by omega⟩
  | case3 a =>
      simp only [List.forall_mem_cons, sextets, List.not_mem_nil, false_implies, implies_true,
        and_true] at h ⊢
      exact ⟨by omega, by omega⟩
  | case4 => exact fun n hn => absurd hn List.not_mem_nil

theorem octets_sextets {bytes : List Nat} (h : ∀ b ∈ bytes, b < 256) :
    octets (sextets bytes) = bytes := by
  induction bytes using sextets.induct with
  | case1 a b c rest ih =>
      simp only [List.forall_mem_cons] at h
      rw [sextets, octets, ih h.2.2.2]
      have ha : a / 4 * 4 + (a % 4 * 16 + b / 16) / 16 = a := by omega
      have hb : (a % 4 * 16 + b / 16) % 16 * 16 + (b % 16 * 4 + c / 64) / 4 = b := by omega
      have hc : (b % 16 * 4 + c / 64) % 4 * 64 + c % 64 = c := by omega
      rw [ha, hb, hc]
  | case2 a b =>
      simp only [List.forall_mem_cons] at h
      have ha : a / 4 * 4 + (a % 4 * 16 + b / 16) / 16 = a := by omega
      have hb : (a % 4 * 16 + b / 16) % 16 * 16 + (b % 16 * 4) / 4 = b := by omega
      rw [sextets, octets, ha, hb]
  | case3 a =>
      have ha : a / 4 * 4 + (a % 4 * 16) / 16 = a := by omega
      rw [sextets, octets, ha]
  | case4 => rfl

theorem octets_lt {groups : List Nat} (h : ∀ n ∈ groups, n < 64) : ∀ b ∈ octets groups, b < 256 := by
  induction groups using octets.induct with
  | case1 a b c d rest ih =>
      simp only [List.forall_mem_cons, octets] at h ⊢
      exact ⟨by omega, by omega, by omega, ih h.2.2.2.2⟩
  | case2 a b c =>
      simp only [List.forall_mem_cons, octets, List.not_mem_nil, false_implies, implies_true,
        and_true] at h ⊢
      exact ⟨by omega, by omega⟩
  | case3 a b =>
      simp only [List.forall_mem_cons, octets, List.not_mem_nil, false_implies, implies_true,
        and_true] at h ⊢
      omega
  | case4 a => exact fun b hb => absurd hb List.not_mem_nil
  | case5 => exact fun b hb => absurd hb List.not_mem_nil

/-- A group for every six bits, the last ones completed. -/
theorem length_sextets (bytes : List Nat) :
    (sextets bytes).length = (4 * bytes.length + 2) / 3 := by
  induction bytes using sextets.induct with
  | case1 a b c rest ih =>
      simp only [sextets, List.length_cons, ih]
      omega
  | case2 a b => simp [sextets]
  | case3 a => simp [sextets]
  | case4 => rfl

/-! ## Encoding and decoding -/

theorem btoa_eq_some {bytes : List Nat} (h : ∀ b ∈ bytes, b < 256) : btoa bytes =
    some ((sextets bytes).map unit ++ List.replicate (padding bytes.length) 61) := by
  rw [btoa, if_pos (List.all_eq_true.mpr fun b hb => decide_eq_true (h b hb))]

/-- Padding behind something else is what is removed. -/
theorem withoutPadding_append {content : JsText} (h : ∀ code ∈ content, code ≠ 61) {count : Nat}
    (hcount : count ≤ 2) : withoutPadding (content ++ List.replicate count 61) = content := by
  have hback : ∀ rest, content.reverse ≠ 61 :: rest := by
    intro rest heq
    have hmem : 61 ∈ content.reverse := by
      rw [heq]
      exact List.mem_cons_self
    exact h 61 (List.mem_reverse.mp hmem) rfl
  unfold withoutPadding
  rw [List.reverse_append, List.reverse_replicate]
  match count, hcount with
  | 0, _ =>
      rw [List.replicate_zero, List.nil_append, List.append_nil]
      split
      · rename_i heq
        exact absurd heq (hback _)
      · rename_i heq
        exact absurd heq (hback _)
      · rfl
  | 1, _ =>
      show (match 61 :: content.reverse with
        | 61 :: 61 :: rest => rest.reverse
        | 61 :: rest => rest.reverse
        | _ => content ++ List.replicate 1 61) = content
      split
      · rename_i heq
        exact absurd (List.cons.inj heq).2 (hback _)
      · rename_i heq
        rw [← (List.cons.inj heq).2, List.reverse_reverse]
      · rename_i hno
        exact absurd rfl (hno _)
  | 2, _ => exact List.reverse_reverse content

/-- Encoded bytes, without the padding, are groups of six bits in the alphabet. -/
theorem isAlphabet_of_mem_sextets {bytes : List Nat} (h : ∀ b ∈ bytes, b < 256) :
    ∀ code ∈ (sextets bytes).map unit, isAlphabet code = true := by
  intro code hcode
  obtain ⟨n, hn, rfl⟩ := List.mem_map.mp hcode
  exact (unit_spec n (sextets_lt h n hn)).1

theorem padding_le (count : Nat) : padding count ≤ 2 := by
  unfold padding
  omega

/-- Whole groups of four. -/
theorem length_btoa {bytes text : List Nat} (h : btoa bytes = some text) :
    text.length = 4 * ((bytes.length + 2) / 3) := by
  unfold btoa at h
  split_ifs at h
  cases h
  rw [List.length_append, List.length_map, List.length_replicate, length_sextets, padding]
  omega

/-- Of encoded bytes, only the groups of six bits are left. -/
theorem withoutSpace_btoa {bytes : List Nat} (hbytes : ∀ b ∈ bytes, b < 256) :
    withoutSpace ((sextets bytes).map unit ++ List.replicate (padding bytes.length) 61) =
      (sextets bytes).map unit := by
  have hspaces (code : Nat) (hcode : code ∈ (sextets bytes).map unit ++
      List.replicate (padding bytes.length) 61) : (!isAsciiSpace code) = true := by
    rcases List.mem_append.mp hcode with hcode | hcode
    · obtain ⟨n, hn, rfl⟩ := List.mem_map.mp hcode
      rw [(unit_spec n (sextets_lt hbytes n hn)).2.2]
      rfl
    · rw [List.eq_of_mem_replicate hcode]
      rfl
  have hlength := length_btoa (btoa_eq_some hbytes)
  rw [withoutSpace, List.filter_eq_self.mpr hspaces]
  show (if _ then _ else _) = _
  rw [if_pos (by rw [hlength]; exact Nat.mul_mod_right 4 _)]
  exact withoutPadding_append (fun code hcode => isAlphabet_ne (isAlphabet_of_mem_sextets hbytes code hcode))
    (padding_le bytes.length)

theorem atob_btoa {bytes : List Nat} (hbytes : ∀ b ∈ bytes, b < 256) :
    (btoa bytes).bind atob = some bytes := by
  rw [btoa_eq_some hbytes, Option.bind_some, atob, withoutSpace_btoa hbytes, if_neg,
    mapM_sextet? (sextets_lt hbytes), Option.map_some, octets_sextets hbytes]
  rw [List.length_map, length_sextets]
  omega

theorem forall_lt_of_mapM_sextet? {text groups : List Nat} (h : text.mapM sextet? = some groups) :
    ∀ n ∈ groups, n < 64 := by
  induction text generalizing groups with
  | nil =>
      cases h
      exact fun n hn => absurd hn List.not_mem_nil
  | cons code text ih =>
      rw [List.mapM_cons] at h
      obtain ⟨first, hfirst, h⟩ := Option.bind_eq_some_iff.mp h
      obtain ⟨rest, hrest, h⟩ := Option.bind_eq_some_iff.mp h
      cases h
      rw [List.forall_mem_cons]
      exact ⟨sextet?_lt hfirst, ih hrest⟩

/-- Decoding gives bytes. -/
theorem lt_of_mem_atob {text bytes : JsText} (h : atob text = some bytes) : ∀ b ∈ bytes, b < 256 := by
  unfold atob at h
  split_ifs at h
  obtain ⟨groups, hgroups, rfl⟩ := Option.map_eq_some_iff.mp h
  exact octets_lt (forall_lt_of_mapM_sextet? hgroups)

theorem lt_of_btoa {bytes text : List Nat} (h : btoa bytes = some text) : ∀ b ∈ bytes, b < 256 := by
  unfold btoa at h
  split_ifs at h with hall
  exact fun b hb => of_decide_eq_true (List.all_eq_true.mp hall b hb)

theorem unit_ne {n : Nat} (h : n < 64) : unit n ≠ 61 := isAlphabet_ne (unit_spec n h).1

/-- The first three bytes are the first four code units. -/
theorem btoa_prefix_iff {bytes text : List Nat} (h : btoa bytes = some text) {a b c : Nat}
    (ha : a < 256) (hb : b < 256) (hc : c < 256) :
    (sextets [a, b, c]).map unit <+: text ↔ [a, b, c] <+: bytes := by
  have hbytes := lt_of_btoa h
  rw [btoa_eq_some hbytes] at h
  cases h
  match bytes, hbytes with
  | [], _ => simp [sextets, padding]
  | [x], hbytes =>
      have hpad := unit_ne (by omega : b % 16 * 4 + c / 64 < 64)
      simp [sextets, padding, List.cons_prefix_cons, hpad]
  | [x, y], hbytes =>
      have hpad := unit_ne (by omega : c % 64 < 64)
      simp [sextets, padding, List.cons_prefix_cons, hpad]
  | x :: y :: z :: rest, hbytes =>
      simp only [List.forall_mem_cons] at hbytes
      simp only [sextets, List.map_cons, List.map_nil, List.cons_append, List.cons_prefix_cons,
        List.nil_prefix, and_true]
      constructor
      · rintro ⟨h1, h2, h3, h4⟩
        have h1 := unit_inj (by omega) (by omega) h1
        have h2 := unit_inj (by omega) (by omega) h2
        have h3 := unit_inj (by omega) (by omega) h3
        have h4 := unit_inj (by omega) (by omega) h4
        exact ⟨by omega, by omega, by omega⟩
      · rintro ⟨rfl, rfl, rfl⟩
        exact ⟨rfl, rfl, rfl, rfl⟩

end Useful.Math.Base64
