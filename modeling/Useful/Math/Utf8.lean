/-
# Reading UTF-8

Bytes are read as characters from the front. Where they are not UTF-8, the longest beginning of
a character that is there counts as one broken chunk. A strict reader refuses broken chunks, a
lossy one puts the replacement character in their place; both read back what was encoded.
-/

import Useful.Math.Unicode

namespace Useful.Math

/-- How many bytes follow a leading byte, and the range of the first of them. -/
def utf8Lead (b : Nat) : Option (Nat × Nat × Nat) :=
  if b < 0xC2 then none
  else if b < 0xE0 then some (0, 0x80, 0xBF)
  else if b = 0xE0 then some (1, 0xA0, 0xBF)
  else if b = 0xED then some (1, 0x80, 0x9F)
  else if b < 0xF0 then some (1, 0x80, 0xBF)
  else if b = 0xF0 then some (2, 0x90, 0xBF)
  else if b < 0xF4 then some (2, 0x80, 0xBF)
  else if b = 0xF4 then some (2, 0x80, 0x8F)
  else none

/-- The bits of a character in its leading byte. -/
def utf8LeadBits (b : Nat) : Nat :=
  if b < 0xE0 then b - 0xC0 else if b < 0xF0 then b - 0xE0 else b - 0xF0

def IsContinuation (b : Nat) : Prop := 0x80 ≤ b ∧ b < 0xC0

instance (b : Nat) : Decidable (IsContinuation b) := inferInstanceAs (Decidable (_ ∧ _))

/-- The last bytes of a character, after bits that are known. -/
@[grind =]
def takeTails : Nat → Nat → List Nat → Option Char × List Nat
  | 0, bits, rest => (some (Char.ofNat bits), rest)
  | _ + 1, _, [] => (none, [])
  | n + 1, bits, b :: rest =>
      if IsContinuation b then takeTails n (bits * 0x40 + (b - 0x80)) rest else (none, b :: rest)

/-- The first character or broken chunk, and what follows it. -/
def takeChunk (b : Nat) (bytes : List Nat) : Option Char × List Nat :=
  if b < 0x80 then (some (Char.ofNat b), bytes)
  else match utf8Lead b with
    | none => (none, bytes)
    | some (more, low, high) =>
        match bytes with
        | [] => (none, [])
        | second :: rest =>
            if low ≤ second ∧ second ≤ high then
              takeTails more (utf8LeadBits b * 0x40 + (second - 0x80)) rest
            else (none, second :: rest)

/-- The characters and broken chunks of bytes, as far as the fuel goes. -/
@[grind =]
def utf8Chunks : Nat → List Nat → List (Option Char)
  | 0, _ => []
  | _ + 1, [] => []
  | fuel + 1, b :: bytes => (takeChunk b bytes).1 :: utf8Chunks fuel (takeChunk b bytes).2

/-- `from_utf8` -/
def fromUtf8 (bytes : List Nat) : Option (List Char) := (utf8Chunks bytes.length bytes).mapM id

/-- `from_utf8_lossy` -/
def fromUtf8Lossy (bytes : List Nat) : List Char :=
  (utf8Chunks bytes.length bytes).map fun chunk => chunk.getD '\uFFFD'

/-! ## Reading back -/

theorem takeChunk_utf8Char (c : Char) (rest : List Nat) : ∃ b bytes,
    utf8Char c = b :: bytes ∧ takeChunk b (bytes ++ rest) = (some c, rest) := by
  have hscalar := Char.toNat_scalar c
  have hc : Char.ofNat c.toNat = c := Char.ofNat_toNat c
  rw [utf8Char]
  generalize c.toNat = n at *
  split_ifs with h1 h2 h3
  · exact ⟨n, [], rfl, by rw [takeChunk, if_pos h1, hc]; rfl⟩
  · refine ⟨_, _, rfl, ?_⟩
    have hlead : utf8Lead (0xC0 + n / 0x40) = some (0, 0x80, 0xBF) := by
      rw [utf8Lead, if_neg (by omega), if_pos (by omega)]
    have hbits : utf8LeadBits (0xC0 + n / 0x40) * 0x40 + (0x80 + n % 0x40 - 0x80) = n := by
      rw [utf8LeadBits, if_pos (by omega)]
      omega
    rw [takeChunk, if_neg (by omega), hlead]
    show (if _ then _ else _) = _
    rw [if_pos (by omega), hbits, takeTails, hc]
    rfl
  · refine ⟨_, _, rfl, ?_⟩
    have htail : IsContinuation (0x80 + n % 0x40) := by
      constructor <;> omega
    have hbits : (utf8LeadBits (0xE0 + n / 0x1000) * 0x40 + (0x80 + n / 0x40 % 0x40 - 0x80)) * 0x40 +
        (0x80 + n % 0x40 - 0x80) = n := by
      rw [utf8LeadBits, if_neg (by omega), if_pos (by omega)]
      omega
    have hlead : ∃ low high, utf8Lead (0xE0 + n / 0x1000) = some (1, low, high) ∧
        low ≤ 0x80 + n / 0x40 % 0x40 ∧ 0x80 + n / 0x40 % 0x40 ≤ high := by
      rw [utf8Lead, if_neg (by omega), if_neg (by omega)]
      split_ifs <;> first | exact ⟨_, _, rfl, by omega, by omega⟩ | omega
    obtain ⟨low, high, hlead, hsecond⟩ := hlead
    rw [takeChunk, if_neg (by omega), hlead]
    show (if _ then _ else _) = _
    rw [if_pos hsecond]
    show takeTails 1 _ ((0x80 + n % 0x40) :: rest) = _
    rw [takeTails, if_pos htail, hbits, takeTails, hc]
  · refine ⟨_, _, rfl, ?_⟩
    have htail : IsContinuation (0x80 + n / 0x40 % 0x40) := by
      constructor <;> omega
    have hlast : IsContinuation (0x80 + n % 0x40) := by
      constructor <;> omega
    have hbits : ((utf8LeadBits (0xF0 + n / 0x40000) * 0x40 + (0x80 + n / 0x1000 % 0x40 - 0x80)) *
        0x40 + (0x80 + n / 0x40 % 0x40 - 0x80)) * 0x40 + (0x80 + n % 0x40 - 0x80) = n := by
      rw [utf8LeadBits, if_neg (by omega), if_neg (by omega)]
      omega
    have hlead : ∃ low high, utf8Lead (0xF0 + n / 0x40000) = some (2, low, high) ∧
        low ≤ 0x80 + n / 0x1000 % 0x40 ∧ 0x80 + n / 0x1000 % 0x40 ≤ high := by
      rw [utf8Lead, if_neg (by omega), if_neg (by omega), if_neg (by omega), if_neg (by omega),
        if_neg (by omega)]
      split_ifs <;> first | exact ⟨_, _, rfl, by omega, by omega⟩ | omega
    obtain ⟨low, high, hlead, hsecond⟩ := hlead
    rw [takeChunk, if_neg (by omega), hlead]
    show (if _ then _ else _) = _
    rw [if_pos hsecond]
    show takeTails 2 _ ((0x80 + n / 0x40 % 0x40) :: (0x80 + n % 0x40) :: rest) = _
    rw [takeTails, if_pos htail, takeTails, if_pos hlast, hbits, takeTails, hc]

theorem utf8Chunks_utf8 {text : List Char} {fuel : Nat} (hfuel : (utf8 text).length ≤ fuel) :
    utf8Chunks fuel (utf8 text) = text.map some := by
  induction text generalizing fuel with
  | nil => cases fuel <;> rfl
  | cons c text ih =>
      obtain ⟨b, bytes, hbytes, htake⟩ := takeChunk_utf8Char c (utf8 text)
      rw [utf8_cons, hbytes, List.cons_append] at hfuel ⊢
      cases fuel with
      | zero => exact absurd hfuel (by simp)
      | succ fuel =>
          rw [List.length_cons, List.length_append] at hfuel
          rw [utf8Chunks, htake, ih (by omega), List.map_cons]

theorem fromUtf8Lossy_utf8 (text : List Char) : fromUtf8Lossy (utf8 text) = text := by
  rw [fromUtf8Lossy, utf8Chunks_utf8 (Nat.le_refl _), List.map_map]
  exact List.map_id _

theorem fromUtf8_utf8 (text : List Char) : fromUtf8 (utf8 text) = some text := by
  rw [fromUtf8, utf8Chunks_utf8 (Nat.le_refl _)]
  induction text with
  | nil => rfl
  | cons c text ih => rw [List.map_cons, List.mapM_cons, ih]; rfl

/-! ## What is read is what was encoded -/

theorem Char.toNat_ofNat_of_lt {n : Nat} (h : n < 0xD800 ∨ 0xE000 ≤ n ∧ n < 0x110000) :
    (Char.ofNat n).toNat = n := by
  have hvalid : n.isValidChar := by
    rcases h with h | h
    · exact .inl (by omega)
    · exact .inr ⟨by omega, by omega⟩
  rw [Char.ofNat, dif_pos hvalid]
  rfl

/-- The leading bytes of the three lengths, with what keeps a code point from being written longer
than necessary, from being a surrogate and from being too large. -/
theorem utf8Lead_eq_some {b more low high : Nat} (h : utf8Lead b = some (more, low, high)) :
    more = 0 ∧ 0xC2 ≤ b ∧ b < 0xE0 ∧ 0x80 ≤ low ∧ high ≤ 0xBF ∨
    more = 1 ∧ 0xE0 ≤ b ∧ b < 0xF0 ∧ 0x80 ≤ low ∧ high ≤ 0xBF ∧
      (b = 0xE0 → 0xA0 ≤ low) ∧ (b = 0xED → high ≤ 0x9F) ∨
    more = 2 ∧ 0xF0 ≤ b ∧ b ≤ 0xF4 ∧ 0x80 ≤ low ∧ high ≤ 0xBF ∧
      (b = 0xF0 → 0x90 ≤ low) ∧ (b = 0xF4 → high ≤ 0x8F) := by
  unfold utf8Lead at h
  split_ifs at h <;> cases h <;> omega

/-- The last byte of a character that is read completes its bits. -/
theorem takeTails_succ {n bits : Nat} {bytes rest : List Nat} {c : Char}
    (h : takeTails (n + 1) bits bytes = (some c, rest)) : ∃ b tail, bytes = b :: tail ∧
      IsContinuation b ∧ takeTails n (bits * 0x40 + (b - 0x80)) tail = (some c, rest) := by
  cases bytes with
  | nil => cases h
  | cons b tail =>
      rw [takeTails] at h
      split_ifs at h with hb
      · exact ⟨b, tail, rfl, hb, h⟩
      · cases h

theorem utf8Char_of_two {x y n : Nat} (hx : 0xC2 ≤ x ∧ x < 0xE0) (hy : 0x80 ≤ y ∧ y ≤ 0xBF)
    (hn : (x - 0xC0) * 0x40 + (y - 0x80) = n) : utf8Char (Char.ofNat n) = [x, y] := by
  have hfirst : 0xC0 + n / 0x40 = x := by omega
  have hsecond : 0x80 + n % 0x40 = y := by omega
  simp only [utf8Char, Char.toNat_ofNat_of_lt (by omega : n < 0xD800 ∨ 0xE000 ≤ n ∧ n < 0x110000)]
  rw [if_neg (by omega), if_pos (by omega), hfirst, hsecond]

theorem utf8Char_of_three {x y z n : Nat} (hx : 0xE0 ≤ x ∧ x < 0xF0) (hy : 0x80 ≤ y ∧ y ≤ 0xBF)
    (hz : IsContinuation z) (hlow : x = 0xE0 → 0xA0 ≤ y) (hhigh : x = 0xED → y ≤ 0x9F)
    (hn : ((x - 0xE0) * 0x40 + (y - 0x80)) * 0x40 + (z - 0x80) = n) :
    utf8Char (Char.ofNat n) = [x, y, z] := by
  unfold IsContinuation at hz
  have hfirst : 0xE0 + n / 0x1000 = x := by omega
  have hsecond : 0x80 + n / 0x40 % 0x40 = y := by omega
  have hthird : 0x80 + n % 0x40 = z := by omega
  simp only [utf8Char, Char.toNat_ofNat_of_lt (by omega : n < 0xD800 ∨ 0xE000 ≤ n ∧ n < 0x110000)]
  rw [if_neg (by omega), if_neg (by omega), if_pos (by omega), hfirst, hsecond, hthird]

theorem utf8Char_of_four {x y z w n : Nat} (hx : 0xF0 ≤ x ∧ x ≤ 0xF4) (hy : 0x80 ≤ y ∧ y ≤ 0xBF)
    (hz : IsContinuation z) (hw : IsContinuation w) (hlow : x = 0xF0 → 0x90 ≤ y)
    (hhigh : x = 0xF4 → y ≤ 0x8F)
    (hn : (((x - 0xF0) * 0x40 + (y - 0x80)) * 0x40 + (z - 0x80)) * 0x40 + (w - 0x80) = n) :
    utf8Char (Char.ofNat n) = [x, y, z, w] := by
  unfold IsContinuation at hz hw
  have hfirst : 0xF0 + n / 0x40000 = x := by omega
  have hsecond : 0x80 + n / 0x1000 % 0x40 = y := by omega
  have hthird : 0x80 + n / 0x40 % 0x40 = z := by omega
  have hfourth : 0x80 + n % 0x40 = w := by omega
  simp only [utf8Char, Char.toNat_ofNat_of_lt (by omega : n < 0xD800 ∨ 0xE000 ≤ n ∧ n < 0x110000)]
  rw [if_neg (by omega), if_neg (by omega), if_neg (by omega), hfirst, hsecond, hthird, hfourth]

/-- A character that is read has the bytes it was read from. -/
theorem utf8Char_of_takeChunk {b : Nat} {bytes rest : List Nat} {c : Char}
    (h : takeChunk b bytes = (some c, rest)) : utf8Char c ++ rest = b :: bytes := by
  unfold takeChunk at h
  split_ifs at h with hascii
  · cases h
    rw [utf8Char, Char.toNat_ofNat_of_lt (by omega)]
    simp only [hascii, if_true, List.singleton_append]
  · cases hlead : utf8Lead b with
    | none =>
        rw [hlead] at h
        cases h
    | some lead =>
        obtain ⟨more, low, high⟩ := lead
        rw [hlead] at h
        cases bytes with
        | nil => cases h
        | cons second tail =>
            dsimp only at h
            rw [ite_eq_iff] at h
            obtain ⟨hsecond, h⟩ := h.resolve_right fun hno => absurd hno.2 (by simp)
            -- One, two or three bytes follow the first.
            rcases utf8Lead_eq_some hlead with ⟨rfl, hb⟩ | ⟨rfl, hb⟩ | ⟨rfl, hb⟩
            · rw [takeTails, Prod.mk.injEq, Option.some.injEq] at h
              obtain ⟨rfl, rfl⟩ := h
              rw [utf8Char_of_two (x := b) (y := second) (by omega) (by omega)
                (by rw [utf8LeadBits, if_pos (by omega)])]
              rfl
            · obtain ⟨third, tail, rfl, hthird, h⟩ := takeTails_succ h
              rw [takeTails, Prod.mk.injEq, Option.some.injEq] at h
              obtain ⟨rfl, rfl⟩ := h
              rw [utf8Char_of_three (x := b) (y := second) (z := third) (by omega) (by omega) hthird
                (by omega) (by omega) (by rw [utf8LeadBits, if_neg (by omega), if_pos (by omega)])]
              rfl
            · obtain ⟨third, tail, rfl, hthird, h⟩ := takeTails_succ h
              obtain ⟨fourth, tail, rfl, hfourth, h⟩ := takeTails_succ h
              rw [takeTails, Prod.mk.injEq, Option.some.injEq] at h
              obtain ⟨rfl, rfl⟩ := h
              rw [utf8Char_of_four (x := b) (y := second) (z := third) (w := fourth) (by omega)
                (by omega) hthird hfourth (by omega) (by omega)
                (by rw [utf8LeadBits, if_neg (by omega), if_neg (by omega)])]
              rfl

/-- Bytes that are read strictly are those of the characters. -/
theorem utf8_of_fromUtf8 {bytes : List Nat} {text : List Char} (h : fromUtf8 bytes = some text) :
    utf8 text = bytes := by
  have hall (fuel : Nat) (bytes : List Nat) (text : List Char) (hfuel : bytes.length ≤ fuel)
      (h : (utf8Chunks fuel bytes).mapM id = some text) : utf8 text = bytes := by
    induction fuel generalizing bytes text with
    | zero =>
        rw [List.length_eq_zero_iff.mp (Nat.le_zero.mp hfuel)]
        cases h
        rfl
    | succ fuel ih =>
        cases bytes with
        | nil =>
            cases h
            rfl
        | cons b bytes =>
            cases htake : takeChunk b bytes with
            | mk first rest =>
                rw [utf8Chunks, htake, List.mapM_cons] at h
                dsimp only at h
                obtain ⟨c, hc, h⟩ := Option.bind_eq_some_iff.mp h
                obtain ⟨chars, hchars, h⟩ := Option.bind_eq_some_iff.mp h
                obtain rfl := Option.some.inj h
                obtain rfl : first = some c := hc
                have hchunk := utf8Char_of_takeChunk htake
                have hlength := congrArg List.length hchunk
                rw [List.length_append, List.length_cons] at hlength
                have hpos := List.length_pos_of_ne_nil (utf8Char_ne_nil c)
                rw [List.length_cons] at hfuel
                rw [utf8_cons, ih _ _ (by omega) hchars, hchunk]
  exact hall _ bytes text (Nat.le_refl _) h

end Useful.Math
