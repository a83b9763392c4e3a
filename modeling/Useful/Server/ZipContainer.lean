/-
# The container of an uploaded package

`preflightZIPContainer` inspects the end of an archive before the reader of the standard library
does: the end record, the ZIP64 records and the bounds of the central directory. It takes the last
end record whose comment closes the file. The reader takes the last signature, so the two mean one
record where that signature begins a record whose comment closes the file.
-/

import Useful.Math.Checks
import Useful.Math.LittleEndian

namespace Useful.Server

open Useful.Math

/-! ## The preflight -/

def zipEOCDSignature : Nat := 0x06054b50

def zip64EOCDSignature : Nat := 0x06064b50

def zip64LocatorSignature : Nat := 0x07064b50

def zipEOCDMinBytes : Nat := 22

def zipEOCDSearchBytes : Nat := zipEOCDMinBytes + 65535

def maxArchiveEntries : Nat := 10000

def maxCentralDirectoryBytes : Nat := 67108864

def maxZIP64EOCDRecordBytes : Nat := 1048576

def maxUint64 : Nat := 18446744073709551615

/-- Arithmetic on `uint64`. -/
def wrap (n : Int) : Nat := (n % 18446744073709551616).toNat

def checkedEnd (offset size : Nat) : Option Nat :=
  if size > wrap (maxUint64 - offset) then none else some (wrap (offset + size))

/-- `readArchiveAt` of a file that is not cancelled. -/
def readArchiveAt (file : List UInt8) (length offset : Nat) : Except String (List UInt8) :=
  if (bytesAt file offset length).length = length then .ok (bytesAt file offset length)
  else .error "unexpected EOF"

def hasSignature (tail : List UInt8) (i : Nat) : Bool := u32 tail i = zipEOCDSignature

def closes (tail : List UInt8) (i : Nat) : Bool :=
  i + zipEOCDMinBytes + u16 tail (i + 20) = tail.length

/-- The record of ZIP64, by the offsets that were computed for it. -/
structure Zip64Record where
  locatorOffset : Nat
  offset : Nat
  recordBytes : Nat
  recordEnd : Nat
  entriesOnDisk : Nat
  entries : Nat
  centralBytes : Nat
  centralOffset : Nat

def readZip64 (file : List UInt8) (eocdOffset : Nat) : Except String Zip64Record := do
  failIf (eocdOffset < 20) "ZIP64 locator 缺失"
  let locatorOffset := wrap (eocdOffset - 20)
  let locator ← readArchiveAt file 20 locatorOffset
  failIf (u32 locator 0 ≠ zip64LocatorSignature ∨ u32 locator 4 ≠ 0 ∨ u32 locator 16 ≠ 1)
    "ZIP64 locator 非法或为多磁盘"
  let offset := u64 locator 8
  failIf (offset > 9223372036854775807 ∨ offset ≥ locatorOffset) "ZIP64 EOCD offset 非法"
  let record ← readArchiveAt file 56 offset
  let recordBytes := u64 record 4
  failIf (u32 record 0 ≠ zip64EOCDSignature ∨ recordBytes < 44 ∨ recordBytes > maxZIP64EOCDRecordBytes)
    "ZIP64 EOCD 大小非法"
  let recordEnd ← orFail "ZIP64 EOCD 边界非法或为多磁盘" (checkedEnd offset (wrap (12 + recordBytes)))
  failIf (recordEnd ≠ locatorOffset ∨ u32 record 16 ≠ 0 ∨ u32 record 20 ≠ 0)
    "ZIP64 EOCD 边界非法或为多磁盘"
  return ⟨locatorOffset, offset, recordBytes, recordEnd, u64 record 24, u64 record 32, u64 record 40,
    u64 record 48⟩

/-- What the preflight found, by the offsets that it computed. -/
structure Container where
  eocdOffset : Nat
  zip64 : Option Zip64Record
  centralOffset : Nat
  centralBytes : Nat
  centralEnd : Nat
  centralBoundary : Nat

/-- The checks of the central directory. -/
def checkDirectory (file : List UInt8) (entriesOnDisk entries centralBytes centralOffset
    centralBoundary : Nat) : Except String Nat := do
  failIf (entriesOnDisk ≠ entries ∨ entries > maxArchiveEntries)
    "ZIP central directory entry 数量非法或超限"
  failIf (centralBytes > maxCentralDirectoryBytes) "ZIP central directory 大小超限"
  let centralEnd ← orFail "ZIP central directory offset/大小非法" (checkedEnd centralOffset centralBytes)
  failIf (centralEnd > centralBoundary ∨ centralEnd > file.length)
    "ZIP central directory offset/大小非法"
  return centralEnd

def inspectContainer (file : List UInt8) : Except String Container := do
  failIf (file.length < zipEOCDMinBytes) "ZIP EOCD 缺失"
  let tailSize := min zipEOCDSearchBytes file.length
  let tail ← readArchiveAt file tailSize (file.length - tailSize)
  let eocdIndex ← orFail "ZIP EOCD 非法或 comment 未闭合"
    (searchDown (fun i => hasSignature tail i && closes tail i) 0 (tail.length - zipEOCDMinBytes))
  let eocd := bytesAt tail eocdIndex zipEOCDMinBytes
  let eocdOffset := wrap ((file.length - tailSize : Nat) + eocdIndex)
  failIf (u16 eocd 4 ≠ 0 ∨ u16 eocd 6 ≠ 0) "不支持多磁盘 ZIP"
  if u16 eocd 8 = 65535 ∨ u16 eocd 10 = 65535 ∨ u32 eocd 12 = 4294967295 ∨ u32 eocd 16 = 4294967295 then
    let zip64 ← readZip64 file eocdOffset
    let centralEnd ← checkDirectory file zip64.entriesOnDisk zip64.entries zip64.centralBytes
      zip64.centralOffset zip64.offset
    return ⟨eocdOffset, some zip64, zip64.centralOffset, zip64.centralBytes, centralEnd, zip64.offset⟩
  else
    let centralEnd ← checkDirectory file (u16 eocd 8) (u16 eocd 10) (u32 eocd 12) (u32 eocd 16) eocdOffset
    return ⟨eocdOffset, none, u32 eocd 16, u32 eocd 12, centralEnd, eocdOffset⟩

/-- `preflightZIPContainer`. -/
def preflightZIPContainer (file : List UInt8) : Except String Unit :=
  (inspectContainer file).map fun _ => ⟨⟩

/-! ## The reader -/

/-- The bytes at the end of a file among which the reader looks for its record. -/
def readerTailBytes : Nat := 65 * 1024

/-- The record of the reader: the last signature among the bytes at the end, unless its comment
runs past the file. -/
def readerRecord (file : List UInt8) : Option Nat :=
  if file.length < zipEOCDMinBytes then none
  else
    (searchDown (hasSignature file) (file.length - readerTailBytes) (file.length - zipEOCDMinBytes)).filter
      fun i => i + zipEOCDMinBytes + u16 file (i + 20) ≤ file.length

/-- The last signature begins a record whose comment closes the file. -/
def LastSignatureCloses (file : List UInt8) : Prop :=
  ∀ last, last ≤ file.length - zipEOCDMinBytes → hasSignature file last = true →
    (∀ later, last < later → later ≤ file.length - zipEOCDMinBytes → hasSignature file later = false) →
      closes file last = true

/-! ## The two records -/

/-- The offsets that were computed lie in the file, and no sum of them was wrapped. -/
structure Container.Inside (c : Container) (file : List UInt8) : Prop where
  record : c.eocdOffset + zipEOCDMinBytes + u16 file (c.eocdOffset + 20) = file.length
  locator : ∀ z, c.zip64 = some z → z.locatorOffset + 20 = c.eocdOffset
  zip64 : ∀ z, c.zip64 = some z → z.offset + 56 ≤ z.locatorOffset ∧
    z.offset + (12 + z.recordBytes) = z.recordEnd ∧ z.recordEnd = z.locatorOffset
  central : c.centralOffset + c.centralBytes = c.centralEnd
  boundary : c.centralEnd ≤ c.centralBoundary ∧ c.centralBoundary ≤ c.eocdOffset

/-- The reader takes the record that was inspected. -/
def InspectsRead (file : List UInt8) : Prop :=
  ∃ c, inspectContainer file = .ok c ∧ readerRecord file = some c.eocdOffset ∧ c.Inside file

section Container

variable {file : List UInt8} {offset size length : Nat}

theorem wrap_natCast {n : Nat} (h : n ≤ maxUint64) : wrap n = n := by
  have hlt : (n : ℤ) < 18446744073709551616 := by
    unfold maxUint64 at h
    omega
  rw [wrap, Int.emod_eq_of_lt (Int.natCast_nonneg n) hlt, Int.toNat_natCast]

/-- A checked end is the sum. -/
theorem checkedEnd_eq_some {stop : Nat} (hoffset : offset ≤ maxUint64)
    (h : checkedEnd offset size = some stop) : offset + size = stop := by
  have hroom : wrap (maxUint64 - offset) = maxUint64 - offset := by
    rw [← Nat.cast_sub hoffset, wrap_natCast (Nat.sub_le _ _)]
  rw [checkedEnd, hroom] at h
  split_ifs at h with hwrap
  have hsum : wrap ((offset : ℤ) + size) = offset + size := by
    rw [← Nat.cast_add, wrap_natCast (by omega)]
  exact hsum.symm.trans (Option.some.inj h)

theorem readArchiveAt_eq_ok {bytes : List UInt8} (hlength : 0 < length) :
    readArchiveAt file length offset = .ok bytes ↔
      offset + length ≤ file.length ∧ bytes = bytesAt file offset length := by
  rw [readArchiveAt, length_bytesAt]
  split_ifs with h
  · simp only [Except.ok.injEq]
    exact ⟨fun heq => ⟨by omega, heq.symm⟩, fun heq => heq.2.symm⟩
  · simp only [false_iff]
    omega

/-- What the preflight knows of the ZIP64 record. -/
theorem readZip64_eq_ok {z : Zip64Record} (heocd : offset ≤ maxUint64)
    (h : readZip64 file offset = .ok z) :
    z.locatorOffset + 20 = offset ∧ z.offset + 56 ≤ z.locatorOffset ∧
      z.offset + (12 + z.recordBytes) = z.recordEnd ∧ z.recordEnd = z.locatorOffset ∧
        z.centralOffset ≤ maxUint64 := by
  simp only [readZip64, bind_eq_ok, failIf_eq_ok, orFail_eq_ok] at h
  obtain ⟨-, hroom, locator, -, -, -, -, -, record, -, -, hrecord, recordEnd, hend, -, hbounds, hz⟩ := h
  obtain rfl := pure_eq_ok.mp hz
  rw [not_or, not_or] at hrecord
  rw [not_or, not_not] at hbounds
  obtain ⟨-, hlow, hhigh⟩ := hrecord
  unfold maxUint64 at heocd
  unfold maxZIP64EOCDRecordBytes at hhigh
  have hlocator : wrap ((offset : ℤ) - 20) = offset - 20 := by
    rw [show (offset : ℤ) - 20 = ((offset - 20 : ℕ) : ℤ) by omega,
      wrap_natCast (by unfold maxUint64; omega)]
  have hsize : wrap (12 + (u64 record 4 : ℤ)) = 12 + u64 record 4 := by
    rw [show (12 : ℤ) + u64 record 4 = ((12 + u64 record 4 : ℕ) : ℤ) by push_cast; rfl,
      wrap_natCast (by unfold maxUint64; omega)]
  have hsum := checkedEnd_eq_some (u64_le _ _) hend
  rw [hsize] at hsum
  have hstop := hbounds.1
  refine ⟨?_, ?_, hsum, hstop, u64_le _ _⟩
  · show wrap _ + 20 = offset
    omega
  · show u64 locator 8 + 56 ≤ wrap _
    omega

theorem checkDirectory_eq_ok {entriesOnDisk entries centralBytes centralOffset centralBoundary
    centralEnd : Nat} (hoffset : centralOffset ≤ maxUint64)
    (h : checkDirectory file entriesOnDisk entries centralBytes centralOffset centralBoundary =
      .ok centralEnd) :
    centralOffset + centralBytes = centralEnd ∧ centralEnd ≤ centralBoundary := by
  simp only [checkDirectory, bind_eq_ok, failIf_eq_ok, orFail_eq_ok] at h
  obtain ⟨-, -, -, -, stop, hstop, -, hbounds, hreturn⟩ := h
  obtain rfl := pure_eq_ok.mp hreturn
  exact ⟨checkedEnd_eq_some hoffset hstop, by omega⟩

theorem hasSignature_drop (start i : Nat) :
    hasSignature (file.drop start) i = hasSignature file (start + i) := by
  rw [hasSignature, u32_drop, hasSignature]

theorem closes_drop {start : Nat} (hstart : start ≤ file.length) (i : Nat) :
    closes (file.drop start) i = closes file (start + i) := by
  rw [closes, closes, u16_drop, List.length_drop, decide_eq_decide, ← Nat.add_assoc start i 20]
  omega

/-- The search in the tail is one in the file. -/
theorem searchDown_tail {start i : Nat} (hstart : start + zipEOCDMinBytes ≤ file.length) :
    searchDown (fun i => hasSignature (file.drop start) i && closes (file.drop start) i) 0
        ((file.drop start).length - zipEOCDMinBytes) = some i ↔
      searchDown (fun i => hasSignature file i && closes file i) start
        (file.length - zipEOCDMinBytes) = some (start + i) := by
  have hlength : start + ((file.drop start).length - zipEOCDMinBytes) = file.length - zipEOCDMinBytes := by
    rw [List.length_drop]
    omega
  simp only [hasSignature_drop, closes_drop (Nat.le_of_add_right_le hstart)]
  rw [@searchDown_add (fun i => hasSignature file i && closes file i), hlength]

/-- What the preflight computed of a file that it accepts: the last record that closes the file,
and offsets inside it. -/
theorem inspectContainer_eq_ok {c : Container} (hsize : file.length ≤ 9223372036854775807)
    (h : inspectContainer file = .ok c) :
    searchDown (fun i => hasSignature file i && closes file i)
        (file.length - min zipEOCDSearchBytes file.length) (file.length - zipEOCDMinBytes) =
          some c.eocdOffset ∧
      zipEOCDMinBytes ≤ file.length ∧ c.Inside file := by
  simp only [inspectContainer, bind_eq_ok, failIf_eq_ok, orFail_eq_ok] at h
  obtain ⟨-, hmin, tail, htail, index, hindex, -, -, h⟩ := h
  have hlength : 0 < min zipEOCDSearchBytes file.length ∧
      file.length - min zipEOCDSearchBytes file.length + zipEOCDMinBytes ≤ file.length := by
    unfold zipEOCDSearchBytes zipEOCDMinBytes at *
    omega
  have htail' : bytesAt file (file.length - min zipEOCDSearchBytes file.length)
      (min zipEOCDSearchBytes file.length) =
        file.drop (file.length - min zipEOCDSearchBytes file.length) := by
    rw [bytesAt, List.take_of_length_le]
    rw [List.length_drop]
    omega
  obtain ⟨-, rfl⟩ := (readArchiveAt_eq_ok hlength.1).mp htail
  rw [htail', searchDown_tail hlength.2] at hindex
  generalize file.length - min zipEOCDSearchBytes file.length = start at *
  obtain ⟨-, hle, htest, -⟩ := searchDown_eq_some.mp hindex
  have hoffset : wrap ((start : ℤ) + index) = start + index := by
    rw [← Nat.cast_add, wrap_natCast]
    unfold maxUint64
    omega
  have hcloses : start + index + zipEOCDMinBytes + u16 file (start + index + 20) = file.length :=
    of_decide_eq_true (Bool.and_eq_true_iff.mp htest).2
  rw [hoffset] at h
  have hreach : start + index ≤ maxUint64 := by
    unfold maxUint64
    omega
  split at h
  · obtain ⟨z, hz, h⟩ := bind_eq_ok.mp h
    obtain ⟨stop, hstop, hc⟩ := bind_eq_ok.mp h
    obtain rfl := pure_eq_ok.mp hc
    obtain ⟨hlocator, hbefore, hrecord, hend, hcentral⟩ := readZip64_eq_ok hreach hz
    obtain ⟨hsum, hboundary⟩ := checkDirectory_eq_ok hcentral hstop
    refine ⟨hindex, not_lt.mp hmin, hcloses, ?_, ?_, hsum, hboundary, ?_⟩
    · rintro _ ⟨⟩
      exact hlocator
    · rintro _ ⟨⟩
      exact ⟨hbefore, hrecord, hend⟩
    · show z.offset ≤ start + index
      omega
  · obtain ⟨stop, hstop, hc⟩ := bind_eq_ok.mp h
    obtain rfl := pure_eq_ok.mp hc
    have hcentral : u32 (bytesAt (bytesAt file start (min zipEOCDSearchBytes file.length)) index
        zipEOCDMinBytes) 16 ≤ maxUint64 := by
      refine (u32_le _ _).trans ?_
      decide
    obtain ⟨hsum, hboundary⟩ := checkDirectory_eq_ok hcentral hstop
    refine ⟨hindex, not_lt.mp hmin, hcloses, ?_, ?_, hsum, hboundary, le_rfl⟩
    · rintro _ ⟨⟩
    · rintro _ ⟨⟩

/-- The preflight inspects the record that the reader takes exactly when the last signature begins
a record that closes the file. -/
theorem inspectsRead_iff (hsize : file.length ≤ 9223372036854775807)
    (h : preflightZIPContainer file = .ok ⟨⟩) : InspectsRead file ↔ LastSignatureCloses file := by
  obtain ⟨c, hc⟩ : ∃ c, inspectContainer file = .ok c := by
    rw [preflightZIPContainer] at h
    cases hinspect : inspectContainer file with
    | ok c => exact ⟨c, rfl⟩
    | error message => rw [hinspect] at h; cases h
  obtain ⟨hsearch, hmin, hinside⟩ := inspectContainer_eq_ok hsize hc
  have hreader : readerRecord file = some c.eocdOffset ↔
      searchDown (hasSignature file) (file.length - readerTailBytes) (file.length - zipEOCDMinBytes) =
        some c.eocdOffset := by
    have hrecord := hinside.record
    rw [readerRecord, if_neg (not_lt.mpr hmin), Option.filter_eq_some_iff]
    simp only [decide_eq_true_eq]
    exact and_iff_left hrecord.le
  have hreach : file.length - readerTailBytes ≤ c.eocdOffset := by
    obtain ⟨hstart, -⟩ := searchDown_eq_some.mp hsearch
    unfold readerTailBytes zipEOCDSearchBytes zipEOCDMinBytes at *
    omega
  rw [LastSignatureCloses, ← searchDown_and_iff hsearch hreach, ← hreader]
  constructor
  · rintro ⟨c', hc', hread, -⟩
    rw [hc] at hc'
    cases hc'
    exact hread
  · exact fun hread => ⟨c, hc, hread, hinside⟩

/-- An end record of a directory with no entries before it. -/
def endRecord (entries commentLength : UInt8) : List UInt8 :=
  [0x50, 0x4b, 0x05, 0x06, 0, 0, 0, 0, entries, 0, entries, 0, 0, 0, 0, 0, 0, 0, 0, 0, commentLength, 0]

theorem inspectsRead_empty : InspectsRead (endRecord 0 0) :=
  (inspectsRead_iff (by decide) (by decide)).mpr fun last hle _ _ => by
    obtain rfl : last = 0 := Nat.le_zero.mp hle
    decide

/-- A record whose comment holds another one, which does not close the file. -/
theorem inspects_other_record :
    preflightZIPContainer (endRecord 0 23 ++ endRecord 255 0 ++ [0]) = .ok ⟨⟩ ∧
      readerRecord (endRecord 0 23 ++ endRecord 255 0 ++ [0]) = some 22 ∧
      ¬ InspectsRead (endRecord 0 23 ++ endRecord 255 0 ++ [0]) := by
  have hread : readerRecord (endRecord 0 23 ++ endRecord 255 0 ++ [0]) = some 22 := by decide
  have hpreflight : preflightZIPContainer (endRecord 0 23 ++ endRecord 255 0 ++ [0]) = .ok ⟨⟩ := by
    decide
  refine ⟨hpreflight, hread, ?_⟩
  rintro ⟨c, -, hother, hinside⟩
  rw [hread] at hother
  have hrecord := hinside.record
  rw [← Option.some.inj hother] at hrecord
  exact absurd hrecord (by decide)

end Container

end Useful.Server
