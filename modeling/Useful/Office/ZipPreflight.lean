/-
# The preflight of office archives

`preflightZip` reads the central directory of an archive and checks every entry against limits
before the decompressor sees it. The decompressor finds the directory for itself: it takes the
last end record whose signature it meets, while the preflight asks that the comment of its
record ends the archive. They mean one directory where the last signature passes that test.
-/

import Useful.Math.Checks
import Useful.Math.LittleEndian
import Useful.Math.Utf8
import Mathlib.Data.List.SplitOn

namespace Useful.Office

open Useful.Math

abbrev Bytes := List UInt8

structure OfficeCoreError where
  code : String
  message : String
  details : List (String × String)
  deriving DecidableEq

def assert (c : Prop) [Decidable c] (code message : String) (details : List (String × String)) :
    Except OfficeCoreError Unit :=
  failIf (¬ c) ⟨code, message, details⟩

theorem assert_eq_ok {c : Prop} [Decidable c] {code message : String}
    {details : List (String × String)} {r : Unit} : assert c code message details = .ok r ↔ c := by
  rw [assert, failIf_eq_ok, not_not]

/-- The limits that archives are checked against. -/
structure Limits where
  archiveBytes : Nat
  entries : Nat
  expandedBytes : Nat
  partBytes : Nat
  mediaPartBytes : Nat
  mediaExpandedBytes : Nat
  compressionRatio : Nat

def OFFICE_LIMITS : Limits where
  archiveBytes := 64 * 1024 * 1024
  entries := 4096
  expandedBytes := 256 * 1024 * 1024
  partBytes := 16 * 1024 * 1024
  mediaPartBytes := 32 * 1024 * 1024
  mediaExpandedBytes := 128 * 1024 * 1024
  compressionRatio := 200

/-! ## Numbers -/

def EOCD : Nat := 0x06054b50

def CENTRAL : Nat := 0x02014b50

def LOCAL : Nat := 0x04034b50

def DATA_DESCRIPTOR : Nat := 0x08074b50

/-! ## Names -/

/-- A decoder for UTF-8 that fails on broken text. It drops a byte order mark. -/
def decode (bytes : Bytes) : Option (List Char) :=
  (fromUtf8 (bytes.map UInt8.toNat)).map fun text =>
    match text with
    | '\uFEFF' :: rest => rest
    | _ => text

/-- What every object has. -/
def objectPrototype : List String :=
  ["constructor", "__defineGetter__", "__defineSetter__", "hasOwnProperty", "__lookupGetter__",
    "__lookupSetter__", "isPrototypeOf", "propertyIsEnumerable", "toString", "valueOf", "__proto__",
    "toLocaleString"]

def startsWithDrive : List Char → Bool
  | letter :: ':' :: _ => letter.isAlpha
  | _ => false

def safeZipPath (raw : List Char) : Except OfficeCoreError (List Char) := do
  assert (0 < raw.length ∧ (utf16 raw).length ≤ 1024) "ZIP_PATH_INVALID" "Invalid ZIP path" []
  assert ('\\' ∉ raw ∧ '\x00' ∉ raw) "ZIP_PATH_INVALID"
    "Backslash and NUL are forbidden in ZIP paths" []
  assert (raw.head? ≠ some '/' ∧ ¬ startsWithDrive raw) "ZIP_PATH_INVALID"
    "Absolute ZIP path is forbidden" []
  let directory := raw.getLast? = some '/'
  let parts := if directory then (raw.splitOn '/').dropLast else raw.splitOn '/'
  assert (parts ≠ [] ∧ ∀ part ∈ parts, part ≠ [] ∧ part ≠ ['.'] ∧ part ≠ ['.', '.'])
    "ZIP_PATH_INVALID" "ZIP traversal is forbidden" []
  assert (∀ part ∈ parts, String.ofList part ∉ objectPrototype) "ZIP_PATH_INVALID"
    "Dangerous ZIP path segment is forbidden" []
  return List.intercalate ['/'] parts ++ if directory then ['/'] else []

/-- A name in a folder of media, or with the extension of one. -/
def isMedia (name : List Char) : Bool :=
  let lower := name.map Char.toLower
  let parts := lower.splitOn '/'
  parts.dropLast.any (fun part => part == "media".toList || part == "embeddings".toList) ||
    [".png", ".jpg", ".jpeg", ".gif", ".webp", ".bmp", ".tif", ".tiff", ".emf", ".wmf", ".bin"].any
      fun ext => ext.toList.isSuffixOf lower

/-! ## The central directory -/

/-- The test of `findEocd`. -/
def EndsArchive (bytes : Bytes) (offset : Nat) : Prop :=
  u32 bytes offset = EOCD ∧ offset + 22 + u16 bytes (offset + 20) = bytes.length

instance (bytes : Bytes) (offset : Nat) : Decidable (EndsArchive bytes offset) :=
  inferInstanceAs (Decidable (_ ∧ _))

def findEocd (bytes : Bytes) : Except OfficeCoreError Nat :=
  orFail ⟨"ZIP_EOCD_INVALID", "ZIP end record is missing or malformed", []⟩
    (searchDown (fun offset => EndsArchive bytes offset) (bytes.length - 65557) (bytes.length - 22))

/-- The fields of an entry of the central directory. -/
structure Central where
  offset : Nat
  madeBy : Nat
  flags : Nat
  method : Nat
  crc32 : Nat
  compressedSize : Nat
  uncompressedSize : Nat
  nameLength : Nat
  extraLength : Nat
  commentLength : Nat
  externalAttributes : Nat
  localOffset : Nat

def centralAt (bytes : Bytes) (offset : Nat) : Central where
  offset := offset
  madeBy := u16 bytes (offset + 4)
  flags := u16 bytes (offset + 8)
  method := u16 bytes (offset + 10)
  crc32 := u32 bytes (offset + 16)
  compressedSize := u32 bytes (offset + 20)
  uncompressedSize := u32 bytes (offset + 24)
  nameLength := u16 bytes (offset + 28)
  extraLength := u16 bytes (offset + 30)
  commentLength := u16 bytes (offset + 32)
  externalAttributes := u32 bytes (offset + 38)
  localOffset := u32 bytes (offset + 42)

/-- Where the next entry begins. -/
def Central.next (central : Central) : Nat :=
  central.offset + 46 + central.nameLength + central.extraLength + central.commentLength

/-- The name of an entry. -/
def entryName (bytes : Bytes) (central : Central) : Except OfficeCoreError (List Char) := do
  let name ← orFail ⟨"ZIP_FILENAME_ENCODING", "ZIP entry name is not valid UTF-8", []⟩
    (decode (bytesAt bytes (central.offset + 46) central.nameLength))
  safeZipPath name

structure Entry where
  name : List Char
  compressedSize : Nat
  uncompressedSize : Nat
  method : Nat
  crc32 : Nat
  directory : Bool
  deriving DecidableEq

structure LocalRange where
  start : Nat
  stop : Nat
  name : List Char

/-- What the loop over the entries keeps. -/
structure Walk where
  offset : Nat
  entries : List Entry
  localOffsets : List Nat
  localRanges : List LocalRange
  expandedBytes : Nat
  mediaExpandedBytes : Nat

def nameDetail (name : List Char) : List (String × String) := [("name", String.ofList name)]

/-- The checks of the fields of an entry. -/
def checkCentral (bytes : Bytes) (eocd : Nat) (central : Central) : Except OfficeCoreError Unit := do
  assert (central.offset + 46 ≤ eocd ∧ u32 bytes central.offset = CENTRAL) "ZIP_CENTRAL_INVALID"
    "Malformed central directory entry" []
  assert (central.next ≤ eocd) "ZIP_CENTRAL_INVALID" "Central directory entry exceeds bounds" []
  assert (central.flags &&& 1 = 0) "ZIP_ENCRYPTED" "Encrypted ZIP entries are unsupported" []
  assert (central.method = 0 ∨ central.method = 8) "ZIP_COMPRESSION_UNSUPPORTED"
    "Only stored and deflate ZIP entries are supported" []
  let allowedFlags := 0x0008 ||| 0x0800 ||| (if central.method = 8 then 0x0006 else 0)
  assert (central.flags &&& allowedFlags = central.flags) "ZIP_FLAGS_UNSUPPORTED"
    "ZIP entry uses unsupported flags" []
  assert (central.compressedSize ≠ 0xffffffff ∧ central.uncompressedSize ≠ 0xffffffff ∧
    central.localOffset ≠ 0xffffffff) "ZIP64_FORBIDDEN" "ZIP64 entries are not supported" []
  assert (¬ (central.madeBy / 256 = 3 ∧ central.externalAttributes / 65536 &&& 0xf000 = 0xa000))
    "ZIP_LINK_FORBIDDEN" "ZIP symlink entries are forbidden" []

/-- The checks of the sizes of an entry, and the new totals. -/
def checkSizes (limits : Limits) (walk : Walk) (central : Central) (name : List Char) :
    Except OfficeCoreError (Nat × Nat) := do
  assert (name.getLast? ≠ some '/' ∨ central.uncompressedSize = 0) "ZIP_DIRECTORY_INVALID"
    "ZIP directory entry contains data" []
  let partLimit := if isMedia name then limits.mediaPartBytes else limits.partBytes
  assert (central.uncompressedSize ≤ partLimit) "ZIP_PART_TOO_LARGE" "ZIP part exceeds limit"
    (nameDetail name)
  assert (0 < central.uncompressedSize → 0 < central.compressedSize) "ZIP_RATIO_EXCEEDED"
    "Invalid zero-size compressed part" (nameDetail name)
  assert (0 < central.uncompressedSize →
      central.uncompressedSize ≤ limits.compressionRatio * central.compressedSize)
    "ZIP_RATIO_EXCEEDED" "ZIP compression ratio exceeds limit" (nameDetail name)
  let expandedBytes := walk.expandedBytes + central.uncompressedSize
  let mediaExpandedBytes :=
    if isMedia name then walk.mediaExpandedBytes + central.uncompressedSize
    else walk.mediaExpandedBytes
  assert (expandedBytes ≤ limits.expandedBytes) "ZIP_EXPANDED_TOO_LARGE"
    "ZIP expanded size exceeds limit" []
  assert (mediaExpandedBytes ≤ limits.mediaExpandedBytes) "ZIP_MEDIA_TOO_LARGE"
    "ZIP media size exceeds limit" []
  return (expandedBytes, mediaExpandedBytes)

/-- The checks of the local header of an entry, and where the entry ends. -/
def checkLocal (bytes : Bytes) (centralOffset : Nat) (walk : Walk) (central : Central)
    (name : List Char) : Except OfficeCoreError Nat := do
  let offset := central.localOffset
  assert (offset ∉ walk.localOffsets) "ZIP_LOCAL_OVERLAP" "ZIP entries share a local header"
    (nameDetail name)
  assert (offset + 30 ≤ centralOffset ∧ u32 bytes offset = LOCAL) "ZIP_LOCAL_INVALID"
    "Malformed local ZIP entry" (nameDetail name)
  let localCrc32 := u32 bytes (offset + 14)
  let localCompressedSize := u32 bytes (offset + 18)
  let localUncompressedSize := u32 bytes (offset + 22)
  let localNameLength := u16 bytes (offset + 26)
  let localDataEnd := offset + 30 + localNameLength + u16 bytes (offset + 28) + central.compressedSize
  assert (localDataEnd ≤ centralOffset) "ZIP_LOCAL_INVALID" "Local ZIP entry exceeds data bounds"
    (nameDetail name)
  let localName ← orFail ⟨"ZIP_FILENAME_ENCODING", "Local ZIP entry name is not valid UTF-8", []⟩
    (decode (bytesAt bytes (offset + 30) localNameLength))
  let safeName ← safeZipPath localName
  assert (safeName = name ∧ u16 bytes (offset + 6) = central.flags ∧
      u16 bytes (offset + 8) = central.method) "ZIP_HEADER_MISMATCH"
    "Central/local ZIP headers differ" (nameDetail name)
  if central.flags &&& 0x0008 = 0 then
    assert (localCrc32 = central.crc32 ∧ localCompressedSize = central.compressedSize ∧
        localUncompressedSize = central.uncompressedSize) "ZIP_HEADER_MISMATCH"
      "Central/local ZIP sizes or CRC differ" (nameDetail name)
    return localDataEnd
  else
    assert ((localCrc32 = 0 ∨ localCrc32 = central.crc32) ∧
        (localCompressedSize = 0 ∨ localCompressedSize = central.compressedSize) ∧
        (localUncompressedSize = 0 ∨ localUncompressedSize = central.uncompressedSize))
      "ZIP_HEADER_MISMATCH" "Local ZIP data-descriptor placeholders are invalid" (nameDetail name)
    let describes (start : Nat) : Prop :=
      u32 bytes start = central.crc32 ∧ u32 bytes (start + 4) = central.compressedSize ∧
        u32 bytes (start + 8) = central.uncompressedSize
    let unsignedDescriptor := localDataEnd + 12 ≤ centralOffset ∧ describes localDataEnd
    let signedDescriptor := localDataEnd + 16 ≤ centralOffset ∧
      u32 bytes localDataEnd = DATA_DESCRIPTOR ∧ describes (localDataEnd + 4)
    assert (unsignedDescriptor ∨ signedDescriptor) "ZIP_DATA_DESCRIPTOR_INVALID"
      "ZIP data descriptor differs from central directory" (nameDetail name)
    return localDataEnd + if signedDescriptor then 16 else 12

/-- One round of the loop over the entries. -/
def checkEntry (bytes : Bytes) (limits : Limits) (eocd centralOffset : Nat) (walk : Walk) :
    Except OfficeCoreError Walk := do
  let central := centralAt bytes walk.offset
  checkCentral bytes eocd central
  let name ← entryName bytes central
  assert (name ∉ walk.entries.map Entry.name) "ZIP_DUPLICATE_ENTRY" "Duplicate ZIP entry"
    (nameDetail name)
  let totals ← checkSizes limits walk central name
  let localEnd ← checkLocal bytes centralOffset walk central name
  return {
    offset := central.next
    entries := walk.entries ++ [⟨name, central.compressedSize, central.uncompressedSize,
      central.method, central.crc32, name.getLast? = some '/'⟩]
    localOffsets := central.localOffset :: walk.localOffsets
    localRanges := walk.localRanges ++ [⟨central.localOffset, localEnd, name⟩]
    expandedBytes := totals.1
    mediaExpandedBytes := totals.2 }

def checkEntries (bytes : Bytes) (limits : Limits) (eocd centralOffset : Nat) :
    Nat → Walk → Except OfficeCoreError Walk
  | 0, walk => .ok walk
  | n + 1, walk => do
      let walk ← checkEntry bytes limits eocd centralOffset walk
      checkEntries bytes limits eocd centralOffset n walk

/-- The sorted ranges follow one another. -/
def checkRanges : List LocalRange → Except OfficeCoreError Unit
  | left :: right :: rest => do
      assert (left.stop ≤ right.start) "ZIP_LOCAL_OVERLAP" "ZIP local entry ranges overlap"
        [("left", String.ofList left.name), ("right", String.ofList right.name)]
      checkRanges (right :: rest)
  | _ => .ok ()

structure Report where
  archiveBytes : Nat
  expandedBytes : Nat
  mediaExpandedBytes : Nat
  entries : List Entry
  deriving DecidableEq

def preflightZip (bytes : Bytes) (limits : Limits) : Except OfficeCoreError Report := do
  assert (bytes.length ≤ limits.archiveBytes) "ZIP_ARCHIVE_TOO_LARGE" "ZIP archive exceeds limit" []
  assert (22 ≤ bytes.length) "ZIP_INVALID" "ZIP archive is truncated" []
  let eocd ← findEocd bytes
  let entryCount := u16 bytes (eocd + 10)
  let centralSize := u32 bytes (eocd + 12)
  let centralOffset := u32 bytes (eocd + 16)
  assert (u16 bytes (eocd + 4) = 0 ∧ u16 bytes (eocd + 6) = 0 ∧ u16 bytes (eocd + 8) = entryCount)
    "ZIP_MULTIDISK_FORBIDDEN" "Multi-disk ZIP is forbidden" []
  assert (entryCount ≠ 0xffff ∧ centralSize ≠ 0xffffffff ∧ centralOffset ≠ 0xffffffff)
    "ZIP64_FORBIDDEN" "ZIP64 is not supported" []
  assert (entryCount ≤ limits.entries) "ZIP_TOO_MANY_ENTRIES" "ZIP entry count exceeds limit" []
  assert (centralOffset + centralSize = eocd) "ZIP_CENTRAL_INVALID"
    "ZIP central directory is out of bounds" []
  let walk ← checkEntries bytes limits eocd centralOffset entryCount
    ⟨centralOffset, [], [], [], 0, 0⟩
  assert (walk.offset = centralOffset + centralSize) "ZIP_CENTRAL_INVALID"
    "Central directory size mismatch" []
  checkRanges (walk.localRanges.mergeSort fun left right => left.start ≤ right.start)
  return ⟨bytes.length, walk.expandedBytes, walk.mediaExpandedBytes, walk.entries⟩

/-! ## The decompressor -/

/-- The end record of `unzipSync`: the last offset not beyond `length - 22` with the
signature. -/
def decompressorEocd (bytes : Bytes) : Option Nat :=
  if bytes.length < 22 then none
  else searchDown (fun offset => u32 bytes offset = EOCD) 0 (bytes.length - 22)

/-- The entries of a central directory, one after the other. -/
def listedFrom (bytes : Bytes) : Nat → Nat → List Central
  | 0, _ => []
  | n + 1, offset => centralAt bytes offset :: listedFrom bytes n (centralAt bytes offset).next

/-- The entries that an end record lists, which a decompressor expands. -/
def listed (bytes : Bytes) (eocd : Nat) : List Central :=
  listedFrom bytes (u16 bytes (eocd + 8)) (u32 bytes (eocd + 16))

def isMediaEntry (bytes : Bytes) (central : Central) : Bool :=
  match entryName bytes central with
  | .ok name => isMedia name
  | .error _ => false

def totalSize (entries : List Central) : Nat := (entries.map Central.uncompressedSize).sum

/-- Entries within the limits. -/
structure Bounded (bytes : Bytes) (limits : Limits) (entries : List Central) : Prop where
  count : entries.length ≤ limits.entries
  part : ∀ central ∈ entries, central.uncompressedSize ≤
    if isMediaEntry bytes central then limits.mediaPartBytes else limits.partBytes
  ratio : ∀ central ∈ entries,
    central.uncompressedSize ≤ limits.compressionRatio * central.compressedSize
  total : totalSize entries ≤ limits.expandedBytes
  media : totalSize (entries.filter (isMediaEntry bytes)) ≤ limits.mediaExpandedBytes

/-- The decompressor takes the record that was validated, and it lists entries within the
limits. -/
def ExpandsChecked (bytes : Bytes) (limits : Limits) : Prop :=
  ∃ eocd, findEocd bytes = .ok eocd ∧ decompressorEocd bytes = some eocd ∧
    Bounded bytes limits (listed bytes eocd)

/-- The last signature begins a record whose comment ends the archive. -/
def LastSignatureEnds (bytes : Bytes) : Prop :=
  ∀ offset, offset + 22 ≤ bytes.length → u32 bytes offset = EOCD →
    (∀ later, offset < later → later + 22 ≤ bytes.length → u32 bytes later ≠ EOCD) →
      offset + 22 + u16 bytes (offset + 20) = bytes.length

/-! ## The two searches -/

variable {bytes : Bytes} {limits : Limits} {eocd centralOffset : Nat}

theorem findEocd_eq_ok : findEocd bytes = .ok eocd ↔ bytes.length - 65557 ≤ eocd ∧
    eocd ≤ bytes.length - 22 ∧ EndsArchive bytes eocd ∧
      ∀ later, eocd < later → later ≤ bytes.length - 22 → ¬ EndsArchive bytes later := by
  simp only [findEocd, orFail_eq_ok, searchDown_eq_some, decide_eq_true_eq, decide_eq_false_iff_not]

theorem decompressorEocd_eq_some : decompressorEocd bytes = some eocd ↔ eocd + 22 ≤ bytes.length ∧
    u32 bytes eocd = EOCD ∧
      ∀ later, eocd < later → later + 22 ≤ bytes.length → u32 bytes later ≠ EOCD := by
  rw [decompressorEocd]
  split_ifs with h
  · simp only [reduceCtorEq, false_iff]
    intro hall
    omega
  · simp only [searchDown_eq_some, decide_eq_true_eq, decide_eq_false_iff_not, Nat.zero_le, true_and,
      Nat.le_sub_iff_add_le (Nat.le_of_not_lt h), ne_eq]

/-- A record whose comment ends the archive is within the reach of the preflight. -/
theorem EndsArchive.reach (h : EndsArchive bytes eocd) : bytes.length - 65557 ≤ eocd := by
  have hcomment := u16_le bytes (eocd + 20)
  have hend := h.2
  omega

/-- The decompressor takes the record of the preflight when the last signature ends the
archive. -/
theorem decompressorEocd_iff (h : findEocd bytes = .ok eocd) :
    decompressorEocd bytes = some eocd ↔ LastSignatureEnds bytes := by
  obtain ⟨-, hle, hends, hlast⟩ := findEocd_eq_ok.mp h
  have hfit : eocd + 22 ≤ bytes.length := by
    have hend := hends.2
    omega
  constructor
  · intro hdec offset hoffset hsignature hlater
    obtain ⟨-, -, hmax⟩ := decompressorEocd_eq_some.mp hdec
    have hge : eocd ≤ offset := by
      by_contra hlt
      exact hlater eocd (by omega) hfit hends.1
    have hle : offset ≤ eocd := by
      by_contra hlt
      exact hmax offset (by omega) hoffset hsignature
    obtain rfl : offset = eocd := Nat.le_antisymm hle hge
    exact hends.2
  · intro hlastEnds
    obtain ⟨found, hfound⟩ : ∃ found, decompressorEocd bytes = some found := by
      rw [decompressorEocd, if_neg (by omega)]
      exact exists_searchDown (Nat.zero_le eocd) hle (decide_eq_true hends.1)
    obtain ⟨hfits, hsignature, hmax⟩ := decompressorEocd_eq_some.mp hfound
    have hfoundEnds : EndsArchive bytes found :=
      ⟨hsignature, hlastEnds found hfits hsignature hmax⟩
    -- each search stops at the record of the other
    have hle' : found ≤ eocd := by
      by_contra hlt
      exact hlast found (by omega) (by omega) hfoundEnds
    have hge : eocd ≤ found := by
      by_contra hlt
      exact hmax eocd (by omega) hfit hends.1
    rw [hfound, Nat.le_antisymm hle' hge]

/-! ## The entries -/

/-- What one round of the loop establishes of its entry. -/
structure Checked (bytes : Bytes) (limits : Limits) (walk walk' : Walk) (central : Central) : Prop
    where
  offset : walk'.offset = central.next
  part : central.uncompressedSize ≤
    if isMediaEntry bytes central then limits.mediaPartBytes else limits.partBytes
  ratio : central.uncompressedSize ≤ limits.compressionRatio * central.compressedSize
  total : walk'.expandedBytes = walk.expandedBytes + central.uncompressedSize
  media : walk'.mediaExpandedBytes = walk.mediaExpandedBytes +
    totalSize ([central].filter (isMediaEntry bytes))
  totalLimit : walk'.expandedBytes ≤ limits.expandedBytes
  mediaLimit : walk'.mediaExpandedBytes ≤ limits.mediaExpandedBytes

theorem checkEntry_checked {walk walk' : Walk}
    (h : checkEntry bytes limits eocd centralOffset walk = .ok walk') :
    Checked bytes limits walk walk' (centralAt bytes walk.offset) := by
  simp only [checkEntry, bind_eq_ok] at h
  obtain ⟨-, -, name, hname, -, -, totals, hsizes, localEnd, -, hwalk⟩ := h
  obtain rfl := pure_eq_ok.mp hwalk
  simp only [checkSizes, bind_eq_ok, assert_eq_ok] at hsizes
  obtain ⟨-, -, -, hpart, -, -, -, hratio, -, htotal, -, hmedia, htotals⟩ := hsizes
  obtain rfl := pure_eq_ok.mp htotals
  have hisMedia : isMediaEntry bytes (centralAt bytes walk.offset) = isMedia name := by
    simp only [isMediaEntry, hname]
  refine ⟨rfl, ?_, ?_, rfl, ?_, htotal, hmedia⟩
  · rw [hisMedia]
    exact hpart
  · rcases Nat.eq_zero_or_pos (centralAt bytes walk.offset).uncompressedSize with hzero | hpos
    · exact hzero ▸ Nat.zero_le _
    · exact hratio hpos
  · cases hmediaName : isMedia name with
    | true => simp [totalSize, hisMedia, hmediaName]
    | false => simp [totalSize, hisMedia, hmediaName]

theorem totalSize_cons (central : Central) (entries : List Central) :
    totalSize (central :: entries) = central.uncompressedSize + totalSize entries :=
  List.sum_cons

theorem totalSize_append (xs ys : List Central) :
    totalSize (xs ++ ys) = totalSize xs + totalSize ys := by
  rw [totalSize, List.map_append, List.sum_append]
  rfl

theorem length_listedFrom (bytes : Bytes) (n offset : Nat) :
    (listedFrom bytes n offset).length = n := by
  induction n generalizing offset with
  | zero => rfl
  | succ n ih => rw [listedFrom, List.length_cons, ih]

/-- What the loop establishes of the entries that it walks over. -/
structure Walked (bytes : Bytes) (limits : Limits) (walk walk' : Walk) (entries : List Central) :
    Prop where
  part : ∀ central ∈ entries, central.uncompressedSize ≤
    if isMediaEntry bytes central then limits.mediaPartBytes else limits.partBytes
  ratio : ∀ central ∈ entries,
    central.uncompressedSize ≤ limits.compressionRatio * central.compressedSize
  total : walk'.expandedBytes = walk.expandedBytes + totalSize entries
  media : walk'.mediaExpandedBytes = walk.mediaExpandedBytes +
    totalSize (entries.filter (isMediaEntry bytes))
  totalLimit : walk.expandedBytes ≤ limits.expandedBytes →
    walk'.expandedBytes ≤ limits.expandedBytes
  mediaLimit : walk.mediaExpandedBytes ≤ limits.mediaExpandedBytes →
    walk'.mediaExpandedBytes ≤ limits.mediaExpandedBytes

theorem Checked.walked {walk walk' walk'' : Walk} {central : Central} {entries : List Central}
    (hchecked : Checked bytes limits walk walk' central)
    (hrest : Walked bytes limits walk' walk'' entries) :
    Walked bytes limits walk walk'' (central :: entries) where
  part := List.forall_mem_cons.mpr ⟨hchecked.part, hrest.part⟩
  ratio := List.forall_mem_cons.mpr ⟨hchecked.ratio, hrest.ratio⟩
  total := by rw [hrest.total, hchecked.total, totalSize_cons, Nat.add_assoc]
  media := by
    rw [hrest.media, hchecked.media, Nat.add_assoc, ← totalSize_append, ← List.filter_append]
    rfl
  totalLimit := fun _ => hrest.totalLimit hchecked.totalLimit
  mediaLimit := fun _ => hrest.mediaLimit hchecked.mediaLimit

theorem checkEntries_walked {n : Nat} {walk walk' : Walk}
    (h : checkEntries bytes limits eocd centralOffset n walk = .ok walk') :
    Walked bytes limits walk walk' (listedFrom bytes n walk.offset) := by
  induction n generalizing walk with
  | zero =>
      cases h
      exact ⟨nofun, nofun, rfl, rfl, id, id⟩
  | succ n ih =>
      obtain ⟨middle, hround, hrest⟩ := bind_eq_ok.mp h
      have hchecked := checkEntry_checked hround
      have hwalked := ih hrest
      rw [hchecked.offset] at hwalked
      exact hchecked.walked hwalked

/-- What the preflight accepts lists entries within the limits. -/
theorem preflightZip_bounded {report : Report} (h : preflightZip bytes limits = .ok report) :
    ∃ eocd, findEocd bytes = .ok eocd ∧ Bounded bytes limits (listed bytes eocd) := by
  simp only [preflightZip, bind_eq_ok, assert_eq_ok] at h
  obtain ⟨-, -, -, -, eocd, heocd, -, ⟨-, -, hdisk⟩, -, -, -, hcount, -, -, walk, hwalk, -⟩ := h
  have hwalked := checkEntries_walked hwalk
  have htotal := hwalked.totalLimit (Nat.zero_le _)
  have hmedia := hwalked.mediaLimit (Nat.zero_le _)
  rw [hwalked.total, Nat.zero_add] at htotal
  rw [hwalked.media, Nat.zero_add] at hmedia
  refine ⟨eocd, heocd, ?_⟩
  rw [listed, hdisk]
  exact {
    count := (length_listedFrom _ _ _).trans_le hcount
    part := hwalked.part
    ratio := hwalked.ratio
    total := htotal
    media := hmedia }

/-- **What the decompressor expands was checked exactly when the last signature of the archive
begins the record that ends it.** -/
theorem expandsChecked_iff {report : Report} (h : preflightZip bytes limits = .ok report) :
    ExpandsChecked bytes limits ↔ LastSignatureEnds bytes := by
  obtain ⟨eocd, heocd, hbounded⟩ := preflightZip_bounded h
  rw [← decompressorEocd_iff heocd]
  constructor
  · rintro ⟨eocd', heocd', hdec, -⟩
    rw [heocd] at heocd'
    cases heocd'
    exact hdec
  · exact fun hdec => ⟨eocd, heocd, hdec, hbounded⟩

/-- An end record of no entries. -/
def emptyRecord (commentLength : UInt8) : Bytes :=
  [0x50, 0x4b, 0x05, 0x06, 0, 0, 0, 0, 0, 0, 0, 0, 0, 0, 0, 0, 0, 0, 0, 0, commentLength, 0]

theorem expandsChecked_empty : ExpandsChecked (emptyRecord 0) OFFICE_LIMITS :=
  have h : preflightZip (emptyRecord 0) OFFICE_LIMITS = .ok ⟨22, 0, 0, []⟩ := by decide +kernel
  (expandsChecked_iff h).mpr fun offset hfit _ _ => by
    obtain rfl : offset = 0 := Nat.le_zero.mp (by simpa [emptyRecord] using hfit)
    decide

/-- An empty archive, in its comment an entry that expands beyond every limit and the end record
that lists it. -/
def hiddenEntry : Bytes :=
  emptyRecord 68 ++
    [0x50, 0x4b, 0x01, 0x02, 20, 0, 20, 0, 0, 0, 8, 0, 0, 0, 0, 0, 0, 0, 0, 0, 1, 0, 0, 0,
      0, 0, 0, 0xf0, 0, 0, 0, 0, 0, 0, 0, 0, 0, 0, 0, 0, 0, 0, 0, 0, 0, 0] ++
    [0x50, 0x4b, 0x05, 0x06, 0, 0, 0, 0, 1, 0, 1, 0, 46, 0, 0, 0, 22, 0, 0, 0, 1, 0]

theorem expands_hiddenEntry : preflightZip hiddenEntry OFFICE_LIMITS = .ok ⟨90, 0, 0, []⟩ ∧
    ¬ ExpandsChecked hiddenEntry OFFICE_LIMITS ∧
    ∃ eocd, decompressorEocd hiddenEntry = some eocd ∧
      ¬ Bounded hiddenEntry OFFICE_LIMITS (listed hiddenEntry eocd) := by
  have hdec : decompressorEocd hiddenEntry = some 68 := by decide
  have hfound : findEocd hiddenEntry = .ok 0 := by decide
  refine ⟨by decide +kernel, ?_, 68, hdec, fun h => absurd h.total (by decide +kernel)⟩
  rintro ⟨eocd, hfind, hsame, -⟩
  rw [hfound] at hfind
  rw [hdec] at hsame
  cases hfind
  cases hsame

end Useful.Office
