/-
# Little-endian numbers in a file

Numbers of one, two, four and eight bytes at an offset, the lower bytes first, and the search for
the last offset that passes a test. Two searches, one of which asks for more, agree when the last
offset of the other passes what is asked in addition.
-/

import Mathlib.Data.List.Basic
import Mathlib.Tactic

namespace Useful.Math

/-! ## Numbers -/

section Numbers

variable (bytes : List UInt8) (offset : Nat)

/-- A byte of the view. Every read is in range. -/
def u8 : Nat := (bytes.getD offset 0).toNat

def u16 : Nat := u8 bytes offset + 256 * u8 bytes (offset + 1)

def u32 : Nat := u16 bytes offset + 65536 * u16 bytes (offset + 2)

def u64 : Nat := u32 bytes offset + 4294967296 * u32 bytes (offset + 4)

def bytesAt (bytes : List UInt8) (start length : Nat) : List UInt8 := (bytes.drop start).take length

theorem u8_le : u8 bytes offset ≤ 255 :=
  Nat.le_of_lt_succ (UInt8.toNat_lt _)

theorem u16_le : u16 bytes offset ≤ 65535 := by
  have hlow := u8_le bytes offset
  have hhigh := u8_le bytes (offset + 1)
  unfold u16
  omega

theorem u32_le : u32 bytes offset ≤ 4294967295 := by
  have hlow := u16_le bytes offset
  have hhigh := u16_le bytes (offset + 2)
  unfold u32
  omega

theorem u64_le : u64 bytes offset ≤ 18446744073709551615 := by
  have hlow := u32_le bytes offset
  have hhigh := u32_le bytes (offset + 4)
  unfold u64
  omega

theorem u8_drop (start : Nat) : u8 (bytes.drop start) offset = u8 bytes (start + offset) := by
  rw [u8, u8, List.getD_eq_getElem?_getD, List.getD_eq_getElem?_getD, List.getElem?_drop]

theorem u16_drop (start : Nat) : u16 (bytes.drop start) offset = u16 bytes (start + offset) := by
  rw [u16, u16, u8_drop, u8_drop, Nat.add_assoc]

theorem u32_drop (start : Nat) : u32 (bytes.drop start) offset = u32 bytes (start + offset) := by
  rw [u32, u32, u16_drop, u16_drop, Nat.add_assoc]

theorem length_bytesAt (start length : Nat) :
    (bytesAt bytes start length).length = min length (bytes.length - start) := by
  rw [bytesAt, List.length_take, List.length_drop]

end Numbers

/-! ## Searching downwards -/

/-- The offsets down from one to another, and the first that passes a test. -/
@[grind =]
def searchDown (test : Nat → Bool) (start : Nat) : Nat → Option Nat
  | 0 => if start = 0 ∧ test 0 then some 0 else none
  | offset + 1 =>
      if offset + 1 < start then none
      else if test (offset + 1) then some (offset + 1) else searchDown test start offset

/-- The search returns the greatest offset that passes. -/
theorem searchDown_eq_some {test : Nat → Bool} {start n offset : Nat} :
    searchDown test start n = some offset ↔ start ≤ offset ∧ offset ≤ n ∧ test offset ∧
      ∀ later, offset < later → later ≤ n → test later = false := by
  induction n with
  | zero =>
      rw [searchDown]
      split_ifs with h
      · grind
      · simp only [false_iff]
        rintro ⟨hstart, hzero, htest, -⟩
        obtain rfl : offset = 0 := Nat.le_zero.mp hzero
        exact h ⟨Nat.le_zero.mp hstart, htest⟩
  | succ n ih =>
      rw [searchDown]
      split_ifs with hstart htest
      · simp only [false_iff]
        intro h
        omega
      · rw [Option.some_inj]
        constructor
        · rintro rfl
          exact ⟨Nat.le_of_not_lt hstart, le_rfl, htest, fun later hlt hle => by omega⟩
        · rintro ⟨-, hle, -, hlast⟩
          by_contra hne
          have hfail := hlast (n + 1) (by omega) le_rfl
          rw [htest] at hfail
          cases hfail
      · rw [ih]
        have hfail : test (n + 1) = false := Bool.eq_false_iff.mpr htest
        constructor
        · rintro ⟨hle, hn, hpass, hlast⟩
          refine ⟨hle, Nat.le_succ_of_le hn, hpass, fun later hlt hle' => ?_⟩
          rcases Nat.le_succ_iff.mp hle' with h | rfl
          · exact hlast later hlt h
          · exact hfail
        · rintro ⟨hle, hn, hpass, hlast⟩
          have hne : offset ≠ n + 1 := fun h => htest (h ▸ hpass)
          exact ⟨hle, by omega, hpass, fun later hlt h => hlast later hlt (by omega)⟩

/-- A search finds something when an offset in its range passes. -/
theorem exists_searchDown {test : Nat → Bool} {start n offset : Nat} (hstart : start ≤ offset)
    (hn : offset ≤ n) (htest : test offset) : ∃ found, searchDown test start n = some found := by
  induction n with
  | zero =>
      obtain rfl : offset = 0 := Nat.le_zero.mp hn
      exact ⟨0, if_pos ⟨Nat.le_zero.mp hstart, htest⟩⟩
  | succ n ih =>
      rw [searchDown, if_neg (by omega)]
      by_cases hlast : test (n + 1) = true
      · exact ⟨n + 1, if_pos hlast⟩
      · rw [if_neg hlast]
        have hne : offset ≠ n + 1 := fun h => hlast (h ▸ htest)
        exact ih (by omega)

/-- A search in what follows an offset. -/
theorem searchDown_add {test : Nat → Bool} {s n offset : Nat} :
    searchDown (fun i => test (s + i)) 0 n = some offset ↔
      searchDown test s (s + n) = some (s + offset) := by
  simp only [searchDown_eq_some, Nat.zero_le, true_and, Nat.le_add_right, Nat.add_le_add_iff_left]
  refine and_congr_right fun _ => and_congr_right fun _ => ?_
  constructor
  · intro h later hlt hle
    have hlater := h (later - s) (by omega) (by omega)
    rwa [Nat.add_sub_cancel' (by omega)] at hlater
  · exact fun h later hlt hle => h (s + later) (by omega) (by omega)

/-- A search that asks for more finds the offset of the other when that one passes. -/
theorem searchDown_and_iff {p q : Nat → Bool} {start start' n offset : Nat}
    (h : searchDown (fun i => p i && q i) start n = some offset) (hstart : start' ≤ offset) :
    searchDown p start' n = some offset ↔
      ∀ last, last ≤ n → p last → (∀ later, last < later → later ≤ n → p later = false) →
        q last := by
  obtain ⟨-, hle, htest, hlast⟩ := searchDown_eq_some.mp h
  obtain ⟨hp, hq⟩ := Bool.and_eq_true_iff.mp htest
  rw [searchDown_eq_some]
  constructor
  · rintro ⟨-, -, -, hmax⟩ last hn hpass hlater
    have hge : offset ≤ last := by
      by_contra hlt
      exact absurd hp (by rw [hlater offset (by omega) hle]; decide)
    rcases Nat.eq_or_lt_of_le hge with rfl | hlt
    · exact hq
    · exact absurd hpass (by rw [hmax last hlt hn]; decide)
  · intro hall
    refine ⟨hstart, hle, hp, fun later hlt hn => ?_⟩
    by_contra hpass
    -- The last offset that passes is not before this one.
    obtain ⟨found, hfound⟩ := exists_searchDown (Nat.zero_le later) hn (by simpa using hpass)
    obtain ⟨-, hn', hfoundPass, hmax⟩ := searchDown_eq_some.mp hfound
    have hge : later ≤ found := by
      by_contra hlt'
      exact hpass (hmax later (by omega) hn)
    have hboth := hlast found (by omega) hn'
    rw [hfoundPass, hall found hn' hfoundPass hmax] at hboth
    cases hboth

end Useful.Math
