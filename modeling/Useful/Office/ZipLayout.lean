/-
# The layout of accepted archives

The preflight reads an archive through a view, which throws when it is read beyond its end.
`preflightView` is the preflight with such reads. It never reads beyond the end, and what it
accepts is well laid out: the local records of the entries are apart from each other and stand
before the central directory.
-/

import Useful.Office.ZipPreflight

namespace Useful.Office

open Useful.Math

/-! ## Reads that may throw -/

/-- How the preflight ends without a report: with a coded error, or with that of a view. -/
inductive Thrown where
  | coded (e : OfficeCoreError)
  | rangeError
  deriving DecidableEq

def coded {α : Type} (x : Except OfficeCoreError α) : Except Thrown α := x.mapError .coded

variable (bytes : Bytes)

def getUint16 (offset : Nat) : Except Thrown Nat :=
  if offset + 2 ≤ bytes.length then .ok (u16 bytes offset) else .error .rangeError

def getUint32 (offset : Nat) : Except Thrown Nat :=
  if offset + 4 ≤ bytes.length then .ok (u32 bytes offset) else .error .rangeError

/-- `c && test`, where the test may read. -/
def andThen (c : Prop) [Decidable c] (test : Except Thrown Bool) : Except Thrown Bool :=
  if c then test else .ok false

/-- `u32(view, offset) === value` -/
def hasUint32 (offset value : Nat) : Except Thrown Bool := do
  let found ← getUint32 bytes offset
  return decide (found = value)

def endsArchive (offset : Nat) : Except Thrown Bool := do
  let signature ← getUint32 bytes offset
  andThen (signature = EOCD) do
    let commentLength ← getUint16 bytes (offset + 20)
    return decide (offset + 22 + commentLength = bytes.length)

/-- The loop of `findEocd`. -/
@[grind =]
def searchEocd (start : Nat) : Nat → Except Thrown (Option Nat)
  | 0 => do
      let found ← andThen (start = 0) (endsArchive bytes 0)
      return if found then some 0 else none
  | offset + 1 =>
      if offset + 1 < start then .ok none
      else do
        let found ← endsArchive bytes (offset + 1)
        if found then return some (offset + 1) else searchEocd start offset

def findEocdView : Except Thrown Nat := do
  let found ← searchEocd bytes (bytes.length - 65557) (bytes.length - 22)
  coded (orFail ⟨"ZIP_EOCD_INVALID", "ZIP end record is missing or malformed", []⟩ found)

/-- The fields of an entry of the central directory. -/
def centralView (eocd offset : Nat) : Except Thrown Central := do
  let isCentral ← andThen (offset + 46 ≤ eocd) (hasUint32 bytes offset CENTRAL)
  coded (assert (isCentral = true) "ZIP_CENTRAL_INVALID" "Malformed central directory entry" [])
  let madeBy ← getUint16 bytes (offset + 4)
  let flags ← getUint16 bytes (offset + 8)
  let method ← getUint16 bytes (offset + 10)
  let crc32 ← getUint32 bytes (offset + 16)
  let compressedSize ← getUint32 bytes (offset + 20)
  let uncompressedSize ← getUint32 bytes (offset + 24)
  let nameLength ← getUint16 bytes (offset + 28)
  let extraLength ← getUint16 bytes (offset + 30)
  let commentLength ← getUint16 bytes (offset + 32)
  let externalAttributes ← getUint32 bytes (offset + 38)
  let localOffset ← getUint32 bytes (offset + 42)
  return ⟨offset, madeBy, flags, method, crc32, compressedSize, uncompressedSize, nameLength,
    extraLength, commentLength, externalAttributes, localOffset⟩

/-- The sizes and the checksum of a data descriptor. -/
def describesView (central : Central) (start : Nat) : Except Thrown Bool := do
  let crc ← hasUint32 bytes start central.crc32
  andThen (crc = true) do
    let compressed ← hasUint32 bytes (start + 4) central.compressedSize
    andThen (compressed = true) (hasUint32 bytes (start + 8) central.uncompressedSize)

def localView (centralOffset : Nat) (walk : Walk) (central : Central) (name : List Char) :
    Except Thrown Nat := do
  let offset := central.localOffset
  coded (assert (offset ∉ walk.localOffsets) "ZIP_LOCAL_OVERLAP" "ZIP entries share a local header"
    (nameDetail name))
  let isLocal ← andThen (offset + 30 ≤ centralOffset) (hasUint32 bytes offset LOCAL)
  coded (assert (isLocal = true) "ZIP_LOCAL_INVALID" "Malformed local ZIP entry" (nameDetail name))
  let localFlags ← getUint16 bytes (offset + 6)
  let localMethod ← getUint16 bytes (offset + 8)
  let localCrc32 ← getUint32 bytes (offset + 14)
  let localCompressedSize ← getUint32 bytes (offset + 18)
  let localUncompressedSize ← getUint32 bytes (offset + 22)
  let localNameLength ← getUint16 bytes (offset + 26)
  let localExtraLength ← getUint16 bytes (offset + 28)
  let localDataEnd := offset + 30 + localNameLength + localExtraLength + central.compressedSize
  coded (assert (localDataEnd ≤ centralOffset) "ZIP_LOCAL_INVALID"
    "Local ZIP entry exceeds data bounds" (nameDetail name))
  let localName ← coded (orFail
    ⟨"ZIP_FILENAME_ENCODING", "Local ZIP entry name is not valid UTF-8", []⟩
    (decode (bytesAt bytes (offset + 30) localNameLength)))
  let safeName ← coded (safeZipPath localName)
  coded (assert (safeName = name ∧ localFlags = central.flags ∧ localMethod = central.method)
    "ZIP_HEADER_MISMATCH" "Central/local ZIP headers differ" (nameDetail name))
  if central.flags &&& 0x0008 = 0 then
    coded (assert (localCrc32 = central.crc32 ∧ localCompressedSize = central.compressedSize ∧
      localUncompressedSize = central.uncompressedSize) "ZIP_HEADER_MISMATCH"
        "Central/local ZIP sizes or CRC differ" (nameDetail name))
    return localDataEnd
  else
    coded (assert ((localCrc32 = 0 ∨ localCrc32 = central.crc32) ∧
        (localCompressedSize = 0 ∨ localCompressedSize = central.compressedSize) ∧
        (localUncompressedSize = 0 ∨ localUncompressedSize = central.uncompressedSize))
      "ZIP_HEADER_MISMATCH" "Local ZIP data-descriptor placeholders are invalid" (nameDetail name))
    let unsignedDescriptor ← andThen (localDataEnd + 12 ≤ centralOffset)
      (describesView bytes central localDataEnd)
    let signedDescriptor ← andThen (localDataEnd + 16 ≤ centralOffset) do
      let isSigned ← hasUint32 bytes localDataEnd DATA_DESCRIPTOR
      andThen (isSigned = true) (describesView bytes central (localDataEnd + 4))
    coded (assert (unsignedDescriptor = true ∨ signedDescriptor = true)
      "ZIP_DATA_DESCRIPTOR_INVALID" "ZIP data descriptor differs from central directory"
      (nameDetail name))
    return localDataEnd + if signedDescriptor = true then 16 else 12

/-- One round of the loop. `checkCentral` looks once more at fields that have been read. -/
def entryView (limits : Limits) (eocd centralOffset : Nat) (walk : Walk) : Except Thrown Walk := do
  let central ← centralView bytes eocd walk.offset
  coded (checkCentral bytes eocd central)
  let name ← coded (entryName bytes central)
  coded (assert (∀ entry ∈ walk.entries, entry.name ≠ name) "ZIP_DUPLICATE_ENTRY"
    "Duplicate ZIP entry" (nameDetail name))
  let totals ← coded (checkSizes limits walk central name)
  let localEnd ← localView bytes centralOffset walk central name
  return {
    offset := central.next
    entries := walk.entries ++ [⟨name, central.compressedSize, central.uncompressedSize,
      central.method, central.crc32, name.getLast? = some '/'⟩]
    localOffsets := central.localOffset :: walk.localOffsets
    localRanges := walk.localRanges ++ [⟨central.localOffset, localEnd, name⟩]
    expandedBytes := totals.1
    mediaExpandedBytes := totals.2 }

def entriesView (limits : Limits) (eocd centralOffset : Nat) : Nat → Walk → Except Thrown Walk
  | 0, walk => .ok walk
  | n + 1, walk => do
      let walk ← entryView bytes limits eocd centralOffset walk
      entriesView limits eocd centralOffset n walk

/-- `preflightZip` over a view. -/
def preflightView (limits : Limits) : Except Thrown Report := do
  coded (assert (bytes.length ≤ limits.archiveBytes) "ZIP_ARCHIVE_TOO_LARGE"
    "ZIP archive exceeds limit" [])
  coded (assert (22 ≤ bytes.length) "ZIP_INVALID" "ZIP archive is truncated" [])
  let eocd ← findEocdView bytes
  let disk ← getUint16 bytes (eocd + 4)
  let centralDisk ← getUint16 bytes (eocd + 6)
  let diskEntries ← getUint16 bytes (eocd + 8)
  let entryCount ← getUint16 bytes (eocd + 10)
  let centralSize ← getUint32 bytes (eocd + 12)
  let centralOffset ← getUint32 bytes (eocd + 16)
  coded (assert (disk = 0 ∧ centralDisk = 0 ∧ diskEntries = entryCount) "ZIP_MULTIDISK_FORBIDDEN"
    "Multi-disk ZIP is forbidden" [])
  coded (assert (entryCount ≠ 0xffff ∧ centralSize ≠ 0xffffffff ∧ centralOffset ≠ 0xffffffff)
    "ZIP64_FORBIDDEN" "ZIP64 is not supported" [])
  coded (assert (entryCount ≤ limits.entries) "ZIP_TOO_MANY_ENTRIES"
    "ZIP entry count exceeds limit" [])
  coded (assert (centralOffset + centralSize = eocd) "ZIP_CENTRAL_INVALID"
    "ZIP central directory is out of bounds" [])
  let walk ← entriesView bytes limits eocd centralOffset entryCount ⟨centralOffset, [], [], [], 0, 0⟩
  coded (assert (walk.offset = centralOffset + centralSize) "ZIP_CENTRAL_INVALID"
    "Central directory size mismatch" [])
  coded (checkRanges (walk.localRanges.mergeSort fun left right => left.start ≤ right.start))
  return ⟨bytes.length, walk.expandedBytes, walk.mediaExpandedBytes, walk.entries⟩

/-! ## No read is beyond the end -/

variable {bytes} {limits : Limits} {eocd centralOffset offset : Nat}

theorem coded_bind {α β : Type} {x : Except Thrown α} {y : Except OfficeCoreError α}
    {f : α → Except Thrown β} {g : α → Except OfficeCoreError β} (hxy : x = coded y)
    (hfg : ∀ a, y = .ok a → f a = coded (g a)) : x >>= f = coded (y >>= g) := by
  subst hxy
  cases y with
  | error e => rfl
  | ok a => exact hfg a rfl

theorem assert_congr {c d : Prop} [Decidable c] [Decidable d] {code message : String}
    {details : List (String × String)} (h : c ↔ d) :
    assert c code message details = assert d code message details := by
  unfold assert failIf
  simp only [h]

theorem getUint16_eq (h : offset + 2 ≤ bytes.length) :
    getUint16 bytes offset = .ok (u16 bytes offset) := if_pos h

theorem getUint32_eq (h : offset + 4 ≤ bytes.length) :
    getUint32 bytes offset = .ok (u32 bytes offset) := if_pos h

theorem hasUint32_eq {value : Nat} (h : offset + 4 ≤ bytes.length) :
    hasUint32 bytes offset value = .ok (decide (u32 bytes offset = value)) := by
  rw [hasUint32, getUint32_eq h]
  rfl

theorem andThen_eq {c d : Prop} [Decidable c] [Decidable d] {test : Except Thrown Bool}
    (h : c → test = .ok (decide d)) : andThen c test = .ok (decide (c ∧ d)) := by
  unfold andThen
  split_ifs with hc
  · rw [h hc]
    simp [hc]
  · simp [hc]

/-- A test whose first operand was read. -/
theorem hasThen_eq {c d : Prop} [Decidable c] [Decidable d] {test : Except Thrown Bool}
    (h : c → test = .ok (decide d)) :
    (Except.ok (decide c) >>= fun found => andThen (found = true) test) =
      .ok (decide (c ∧ d)) := by
  show andThen (decide c = true) test = _
  unfold andThen
  split_ifs with hc
  · have hc := of_decide_eq_true hc
    rw [h hc]
    simp [hc]
  · have hc := of_decide_eq_false (Bool.eq_false_iff.mpr hc)
    simp [hc]

theorem endsArchive_eq (h : offset + 22 ≤ bytes.length) :
    endsArchive bytes offset = .ok (decide (EndsArchive bytes offset)) := by
  rw [endsArchive, getUint32_eq (by omega)]
  refine andThen_eq fun _ => ?_
  rw [getUint16_eq (by omega)]
  rfl

theorem searchEocd_eq {start n : Nat} (h : n + 22 ≤ bytes.length) : searchEocd bytes start n =
    .ok (searchDown (fun offset => EndsArchive bytes offset) start n) := by
  induction n with
  | zero =>
      rw [searchEocd, searchDown, andThen_eq fun _ => endsArchive_eq h]
      simp [bind, Except.bind, pure, Except.pure]
  | succ n ih =>
      rw [searchEocd, searchDown, endsArchive_eq h, ih (by omega)]
      split_ifs with hlow hends
      · rfl
      · simp [bind, Except.bind, pure, Except.pure] at hends ⊢
        simp [hends]
      · simp [bind, Except.bind, pure, Except.pure] at hends ⊢
        simp [hends]

theorem findEocdView_eq (h : 22 ≤ bytes.length) :
    findEocdView bytes = coded (findEocd bytes) := by
  rw [findEocdView, searchEocd_eq (by omega)]
  rfl

/-- Where the data of an entry end. -/
def dataEnd (bytes : Bytes) (central : Central) : Nat :=
  central.localOffset + 30 + u16 bytes (central.localOffset + 26) +
    u16 bytes (central.localOffset + 28) + central.compressedSize

/-- What a data descriptor says of an entry. -/
def Describes (bytes : Bytes) (central : Central) (start : Nat) : Prop :=
  u32 bytes start = central.crc32 ∧ u32 bytes (start + 4) = central.compressedSize ∧
    u32 bytes (start + 8) = central.uncompressedSize

instance (bytes : Bytes) (central : Central) (start : Nat) :
    Decidable (Describes bytes central start) :=
  inferInstanceAs (Decidable (_ ∧ _))

/-- The data are followed by a descriptor with a signature. -/
def Signed (bytes : Bytes) (centralOffset : Nat) (central : Central) : Prop :=
  dataEnd bytes central + 16 ≤ centralOffset ∧
    u32 bytes (dataEnd bytes central) = DATA_DESCRIPTOR ∧
      Describes bytes central (dataEnd bytes central + 4)

instance (bytes : Bytes) (centralOffset : Nat) (central : Central) :
    Decidable (Signed bytes centralOffset central) :=
  inferInstanceAs (Decidable (_ ∧ _))

/-- Where the record of an entry ends: after its header, its data and its descriptor. -/
def recordEnd (bytes : Bytes) (centralOffset : Nat) (central : Central) : Nat :=
  dataEnd bytes central +
    if central.flags &&& 0x0008 = 0 then 0
    else if Signed bytes centralOffset central then 16 else 12

/-- The fields are those of the entry, if it begins with the signature. -/
theorem centralView_eq (heocd : eocd ≤ bytes.length) : centralView bytes eocd offset =
    coded (assert (offset + 46 ≤ eocd ∧ u32 bytes offset = CENTRAL) "ZIP_CENTRAL_INVALID"
      "Malformed central directory entry" [] >>= fun _ => .ok (centralAt bytes offset)) := by
  have hread : andThen (offset + 46 ≤ eocd) (hasUint32 bytes offset CENTRAL) = .ok _ :=
    andThen_eq fun h => hasUint32_eq (by omega)
  rw [centralView, bind_of_eq_ok hread]
  refine coded_bind (congrArg coded (assert_congr decide_eq_true_iff)) fun _ hcentral => ?_
  have hfits := (assert_eq_ok.mp hcentral).1
  simp (disch := omega) only [getUint16_eq, getUint32_eq]
  rfl

theorem describesView_eq {central : Central} {start : Nat} (h : start + 12 ≤ bytes.length) :
    describesView bytes central start = .ok (decide (Describes bytes central start)) := by
  rw [describesView, hasUint32_eq (by omega), hasUint32_eq (by omega), hasUint32_eq (by omega)]
  exact hasThen_eq fun _ => hasThen_eq fun _ => rfl

theorem localView_eq {walk : Walk} {central : Central} {name : List Char}
    (hbefore : centralOffset ≤ bytes.length) : localView bytes centralOffset walk central name =
      coded (checkLocal bytes centralOffset walk central name) := by
  unfold localView checkLocal
  refine coded_bind rfl fun _ _ => ?_
  have hread : andThen (central.localOffset + 30 ≤ centralOffset)
      (hasUint32 bytes central.localOffset LOCAL) = .ok _ :=
    andThen_eq fun h => hasUint32_eq (by omega)
  rw [bind_of_eq_ok hread]
  refine coded_bind (congrArg coded (assert_congr decide_eq_true_iff)) fun _ hlocal => ?_
  have hfits := (assert_eq_ok.mp hlocal).1
  simp (disch := omega) only [getUint16_eq, getUint32_eq]
  refine coded_bind rfl fun _ hend => ?_
  have hdata := assert_eq_ok.mp hend
  refine coded_bind rfl fun localName _ => ?_
  refine coded_bind rfl fun safeName _ => ?_
  refine coded_bind rfl fun _ _ => ?_
  by_cases hflags : central.flags &&& 0x0008 = 0
  · rw [if_pos hflags, if_pos hflags]
    exact coded_bind rfl fun _ _ => rfl
  · rw [if_neg hflags, if_neg hflags]
    refine coded_bind rfl fun _ _ => ?_
    have hsigned : andThen (dataEnd bytes central + 16 ≤ centralOffset) (do
        let isSigned ← hasUint32 bytes (dataEnd bytes central) DATA_DESCRIPTOR
        andThen (isSigned = true) (describesView bytes central (dataEnd bytes central + 4))) =
          .ok (decide (Signed bytes centralOffset central)) := by
      refine andThen_eq fun hfit => ?_
      rw [hasUint32_eq (by omega)]
      exact hasThen_eq fun _ => describesView_eq (by omega)
    have hunsigned : andThen (dataEnd bytes central + 12 ≤ centralOffset)
        (describesView bytes central (dataEnd bytes central)) =
          .ok (decide (dataEnd bytes central + 12 ≤ centralOffset ∧
            Describes bytes central (dataEnd bytes central))) :=
      andThen_eq fun hfit => describesView_eq (by omega)
    refine (bind_of_eq_ok hunsigned _).trans ((bind_of_eq_ok hsigned _).trans ?_)
    simp only [decide_eq_true_eq]
    exact coded_bind rfl fun _ _ => rfl

theorem entryView_eq {walk : Walk} (heocd : eocd ≤ bytes.length)
    (hbefore : centralOffset ≤ bytes.length) : entryView bytes limits eocd centralOffset walk =
      coded (checkEntry bytes limits eocd centralOffset walk) := by
  unfold entryView checkEntry
  rw [centralView_eq heocd]
  by_cases hcentral : walk.offset + 46 ≤ eocd ∧ u32 bytes walk.offset = CENTRAL
  · have hfields : (assert (walk.offset + 46 ≤ eocd ∧ u32 bytes walk.offset = CENTRAL)
        "ZIP_CENTRAL_INVALID" "Malformed central directory entry" [] >>= fun _ =>
          Except.ok (centralAt bytes walk.offset)) = .ok (centralAt bytes walk.offset) :=
      bind_of_eq_ok (a := ()) (assert_eq_ok.mpr hcentral) _
    rw [hfields]
    refine (bind_of_eq_ok rfl _).trans ?_
    refine coded_bind rfl fun _ _ => ?_
    refine coded_bind rfl fun name _ => ?_
    refine coded_bind (congrArg coded (assert_congr (by simp))) fun _ _ => ?_
    refine coded_bind rfl fun totals _ => ?_
    exact coded_bind (localView_eq hbefore) fun localEnd _ => rfl
  · have hassert : assert (walk.offset + 46 ≤ eocd ∧ u32 bytes walk.offset = CENTRAL)
        "ZIP_CENTRAL_INVALID" "Malformed central directory entry" [] =
          .error ⟨"ZIP_CENTRAL_INVALID", "Malformed central directory entry", []⟩ :=
      if_pos hcentral
    have hcheck : checkCentral bytes eocd (centralAt bytes walk.offset) =
        .error ⟨"ZIP_CENTRAL_INVALID", "Malformed central directory entry", []⟩ := by
      unfold checkCentral
      rw [show assert ((centralAt bytes walk.offset).offset + 46 ≤ eocd ∧
        u32 bytes (centralAt bytes walk.offset).offset = CENTRAL) "ZIP_CENTRAL_INVALID"
          "Malformed central directory entry" [] = _ from hassert]
      rfl
    rw [hassert]
    show _ = coded (checkCentral bytes eocd (centralAt bytes walk.offset) >>= _)
    rw [hcheck]
    rfl

theorem entriesView_eq {n : Nat} {walk : Walk} (heocd : eocd ≤ bytes.length)
    (hbefore : centralOffset ≤ bytes.length) :
    entriesView bytes limits eocd centralOffset n walk =
      coded (checkEntries bytes limits eocd centralOffset n walk) := by
  induction n generalizing walk with
  | zero => rfl
  | succ n ih => exact coded_bind (entryView_eq heocd hbefore) fun _ _ => ih

/-- A view is read within its bounds only: the preflight over it is the preflight. -/
theorem preflightView_eq : preflightView bytes limits = coded (preflightZip bytes limits) := by
  unfold preflightView preflightZip
  refine coded_bind rfl fun _ _ => ?_
  refine coded_bind rfl fun _ hlength => ?_
  have hfits := assert_eq_ok.mp hlength
  refine coded_bind (findEocdView_eq hfits) fun eocd heocd => ?_
  have hrecord : eocd + 22 ≤ bytes.length := by
    have hend := (findEocd_eq_ok.mp heocd).2.2.1.2
    omega
  simp (disch := omega) only [getUint16_eq, getUint32_eq]
  refine coded_bind rfl fun _ _ => ?_
  refine coded_bind rfl fun _ _ => ?_
  refine coded_bind rfl fun _ _ => ?_
  refine coded_bind rfl fun _ hsum => ?_
  have hbefore := assert_eq_ok.mp hsum
  refine coded_bind (entriesView_eq (by omega) (by omega)) fun walk _ => ?_
  refine coded_bind rfl fun _ _ => ?_
  exact coded_bind rfl fun _ _ => rfl

/-! ## Names -/

/-- A relative name none of whose segments points elsewhere or is one that every object has. -/
structure SafeName (name : List Char) : Prop where
  relative : name.head? ≠ some '/'
  driveless : startsWithDrive name = false
  plain : '\\' ∉ name ∧ '\x00' ∉ name
  segments : ∀ part ∈ name.splitOn '/',
    part ≠ ['.'] ∧ part ≠ ['.', '.'] ∧ String.ofList part ∉ objectPrototype

/-- A path that is accepted is returned as it is. -/
theorem safeZipPath_eq_ok {raw name : List Char} (h : safeZipPath raw = .ok name) :
    name = raw ∧ SafeName raw := by
  simp only [safeZipPath, bind_eq_ok, assert_eq_ok] at h
  obtain ⟨-, -, -, hplain, -, ⟨hrelative, hdrive⟩, -, ⟨-, hsegments⟩, -, hprototype, hname⟩ := h
  have hname := pure_eq_ok.mp hname
  by_cases hdirectory : raw.getLast? = some '/'
  · obtain ⟨front, rfl⟩ := List.getLast?_eq_some_iff.mp hdirectory
    have hsplit : (front ++ ['/']).splitOn '/' = front.splitOn '/' ++ [[]] := by
      simp only [List.splitOn_eq_splitOnP]
      exact List.splitOnP_append_cons front [] (by simp)
    simp only [hdirectory, if_true, hsplit, List.dropLast_concat] at hsegments hprototype
    simp only [hdirectory, if_true, hsplit, List.dropLast_concat, List.intercalate_splitOn] at hname
    refine ⟨hname.symm, hrelative, Bool.eq_false_iff.mpr hdrive, hplain, ?_⟩
    rw [hsplit]
    intro part hpart
    rcases List.mem_append.mp hpart with hpart | hpart
    · exact ⟨(hsegments part hpart).2.1, (hsegments part hpart).2.2, hprototype part hpart⟩
    · obtain rfl := List.mem_singleton.mp hpart
      decide
  · simp only [hdirectory, if_false] at hsegments hprototype
    simp only [hdirectory, if_false, List.intercalate_splitOn, List.append_nil] at hname
    refine ⟨hname.symm, hrelative, Bool.eq_false_iff.mpr hdrive, hplain, fun part hpart => ?_⟩
    exact ⟨(hsegments part hpart).2.1, (hsegments part hpart).2.2, hprototype part hpart⟩

theorem entryName_eq_ok {central : Central} {name : List Char}
    (h : entryName bytes central = .ok name) :
    decode (bytesAt bytes (central.offset + 46) central.nameLength) = some name ∧ SafeName name := by
  simp only [entryName, bind_eq_ok, orFail_eq_ok] at h
  obtain ⟨raw, hraw, hname⟩ := h
  obtain ⟨rfl, hsafe⟩ := safeZipPath_eq_ok hname
  exact ⟨hraw, hsafe⟩

/-! ## Records -/

/-- An entry of the report, the entry of the directory it comes from and its local record. -/
structure Laid (bytes : Bytes) (centralOffset : Nat) (central : Central) (entry : Entry) : Prop where
  name : decode (bytesAt bytes (central.offset + 46) central.nameLength) = some entry.name
  safe : SafeName entry.name
  compressedSize : entry.compressedSize = central.compressedSize
  uncompressedSize : entry.uncompressedSize = central.uncompressedSize
  signature : u32 bytes central.localOffset = LOCAL
  localName : decode (bytesAt bytes (central.localOffset + 30)
    (u16 bytes (central.localOffset + 26))) = some entry.name
  localFlags : u16 bytes (central.localOffset + 6) = central.flags
  localMethod : u16 bytes (central.localOffset + 8) = central.method
  before : recordEnd bytes centralOffset central ≤ centralOffset

theorem lt_recordEnd (central : Central) :
    central.localOffset < recordEnd bytes centralOffset central := by
  unfold recordEnd dataEnd
  omega

theorem checkLocal_eq_ok {walk : Walk} {central : Central} {name : List Char} {localEnd : Nat}
    (h : checkLocal bytes centralOffset walk central name = .ok localEnd) :
    localEnd = recordEnd bytes centralOffset central ∧ localEnd ≤ centralOffset ∧
      u32 bytes central.localOffset = LOCAL ∧
      decode (bytesAt bytes (central.localOffset + 30)
        (u16 bytes (central.localOffset + 26))) = some name ∧
      u16 bytes (central.localOffset + 6) = central.flags ∧
      u16 bytes (central.localOffset + 8) = central.method := by
  simp only [checkLocal, bind_eq_ok, assert_eq_ok, orFail_eq_ok] at h
  obtain ⟨-, -, -, ⟨-, hsignature⟩, -, hdata, localName, hlocalName, safeName, hsafe, -,
    ⟨rfl, hflags, hmethod⟩, h⟩ := h
  obtain ⟨rfl, -⟩ := safeZipPath_eq_ok hsafe
  suffices hend : localEnd = recordEnd bytes centralOffset central ∧ localEnd ≤ centralOffset from
    ⟨hend.1, hend.2, hsignature, hlocalName, hflags, hmethod⟩
  have hdata : dataEnd bytes central ≤ centralOffset := hdata
  unfold recordEnd
  by_cases hdescriptor : central.flags &&& 0x0008 = 0
  · rw [if_pos hdescriptor] at h ⊢
    simp only [bind_eq_ok] at h
    obtain ⟨-, -, h⟩ := h
    obtain rfl := pure_eq_ok.mp h
    exact ⟨rfl, hdata⟩
  · rw [if_neg hdescriptor] at h ⊢
    simp only [bind_eq_ok, assert_eq_ok] at h
    obtain ⟨-, -, -, hone, h⟩ := h
    have hone : (dataEnd bytes central + 12 ≤ centralOffset ∧
        Describes bytes central (dataEnd bytes central)) ∨ Signed bytes centralOffset central := hone
    have hend : dataEnd bytes central + (if Signed bytes centralOffset central then 16 else 12) =
        localEnd := pure_eq_ok.mp h
    refine ⟨hend.symm, ?_⟩
    rw [← hend]
    by_cases hsigned : Signed bytes centralOffset central
    · rw [if_pos hsigned]
      exact hsigned.1
    · rw [if_neg hsigned]
      exact (hone.resolve_right hsigned).1

/-- Where the record of an entry begins and ends. -/
def recordRange (bytes : Bytes) (centralOffset : Nat) (central : Central) : Nat × Nat :=
  (central.localOffset, recordEnd bytes centralOffset central)

def LocalRange.range (r : LocalRange) : Nat × Nat := (r.start, r.stop)

/-- What the loop has collected when it has walked over some entries. -/
structure Collected (bytes : Bytes) (centralOffset : Nat) (walk walk' : Walk)
    (centrals : List Central) : Prop where
  entries : ∃ entries, walk'.entries = walk.entries ++ entries ∧
    List.Forall₂ (Laid bytes centralOffset) centrals entries
  ranges : walk'.localRanges.map LocalRange.range =
    walk.localRanges.map LocalRange.range ++ centrals.map (recordRange bytes centralOffset)
  distinct : (walk.entries.map Entry.name).Nodup → (walk'.entries.map Entry.name).Nodup

theorem checkEntry_collected {walk walk' : Walk}
    (h : checkEntry bytes limits eocd centralOffset walk = .ok walk') :
    Collected bytes centralOffset walk walk' [centralAt bytes walk.offset] := by
  simp only [checkEntry, bind_eq_ok, assert_eq_ok] at h
  obtain ⟨-, -, name, hname, -, hnew, totals, -, localEnd, hlocal, hwalk⟩ := h
  obtain rfl := pure_eq_ok.mp hwalk
  obtain ⟨hdecode, hsafe⟩ := entryName_eq_ok hname
  obtain ⟨rfl, hbefore, hsignature, hlocalName, hflags, hmethod⟩ := checkLocal_eq_ok hlocal
  refine ⟨⟨_, rfl, .cons ⟨hdecode, hsafe, rfl, rfl, hsignature, hlocalName, hflags, hmethod, hbefore⟩
    .nil⟩, by simp [LocalRange.range, recordRange], fun hnodup => ?_⟩
  rw [List.map_append, List.nodup_append]
  refine ⟨hnodup, List.nodup_singleton _, ?_⟩
  rintro a ha b hb rfl
  have hsame : a = name := List.mem_singleton.mp hb
  exact hnew (hsame ▸ ha)

theorem checkEntries_collected {n : Nat} {walk walk' : Walk}
    (h : checkEntries bytes limits eocd centralOffset n walk = .ok walk') :
    Collected bytes centralOffset walk walk' (listedFrom bytes n walk.offset) := by
  induction n generalizing walk with
  | zero =>
      cases h
      exact ⟨⟨[], (List.append_nil _).symm, .nil⟩, by simp [listedFrom], id⟩
  | succ n ih =>
      obtain ⟨middle, hround, hrest⟩ := bind_eq_ok.mp h
      obtain ⟨⟨first, hfirst, hlaid⟩, hranges, hdistinct⟩ := checkEntry_collected hround
      obtain ⟨⟨rest, hentries, hlaids⟩, hranges', hdistinct'⟩ := ih hrest
      rw [(checkEntry_checked hround).offset] at hlaids hranges'
      refine ⟨⟨first ++ rest, ?_, List.rel_append hlaid hlaids⟩, ?_, hdistinct' ∘ hdistinct⟩
      · rw [hentries, hfirst, List.append_assoc]
      · rw [hranges', hranges, List.append_assoc]
        rfl

/-- Sorted ranges that follow one another follow all that come before them. -/
theorem pairwise_of_checkRanges {ranges : List LocalRange} {r : Unit}
    (hpositive : ∀ range ∈ ranges, range.start ≤ range.stop) (h : checkRanges ranges = .ok r) :
    ranges.Pairwise fun left right => left.stop ≤ right.start := by
  induction ranges with
  | nil => exact .nil
  | cons left rest ih =>
      cases rest with
      | nil => exact List.pairwise_singleton _ _
      | cons right rest =>
          obtain ⟨_, hfollows, hrest⟩ := bind_eq_ok.mp h
          have hfollows := assert_eq_ok.mp hfollows
          have hpairwise := ih (fun range hrange => hpositive range (.tail _ hrange)) hrest
          refine .cons ?_ hpairwise
          intro range hrange
          rcases List.mem_cons.mp hrange with rfl | hrange
          · exact hfollows
          · have hlater := List.rel_of_pairwise_cons hpairwise hrange
            have hright := hpositive right (by simp)
            omega

/-- Two records share no byte. -/
def Apart (a b : Nat × Nat) : Prop := a.2 ≤ b.1 ∨ b.2 ≤ a.1

theorem pairwise_apart {ranges : List LocalRange} {r : Unit}
    (hpositive : ∀ range ∈ ranges, range.start ≤ range.stop)
    (h : checkRanges (ranges.mergeSort fun left right => left.start ≤ right.start) = .ok r) :
    (ranges.map LocalRange.range).Pairwise Apart := by
  rw [List.pairwise_map]
  have hperm := List.mergeSort_perm ranges fun left right => left.start ≤ right.start
  have hsorted := pairwise_of_checkRanges (fun range hrange =>
    hpositive range (hperm.mem_iff.mp hrange)) h
  refine (hperm.pairwise_iff ?_).mp (hsorted.imp .inl)
  exact fun hapart => hapart.symm

/-- A report and the archive it is about: each entry of the directory with its own safe name, its
header and its record, the records apart from each other and before the directory, and the
declared sizes within the limits. -/
structure LaidOut (bytes : Bytes) (limits : Limits) (eocd : Nat) (report : Report) : Prop where
  entries : List.Forall₂ (Laid bytes (u32 bytes (eocd + 16))) (listed bytes eocd) report.entries
  distinct : (report.entries.map Entry.name).Nodup
  apart : ((listed bytes eocd).map (recordRange bytes (u32 bytes (eocd + 16)))).Pairwise Apart
  directory : u32 bytes (eocd + 16) ≤ eocd
  bounded : Bounded bytes limits (listed bytes eocd)
  expanded : report.expandedBytes = totalSize (listed bytes eocd)
  media : report.mediaExpandedBytes = totalSize ((listed bytes eocd).filter (isMediaEntry bytes))

theorem preflightZip_laidOut {report : Report} (h : preflightZip bytes limits = .ok report) :
    ∃ eocd, findEocd bytes = .ok eocd ∧ LaidOut bytes limits eocd report := by
  obtain ⟨eocd, heocd, hbounded⟩ := preflightZip_bounded h
  simp only [preflightZip, bind_eq_ok, assert_eq_ok] at h
  obtain ⟨-, -, -, -, eocd', heocd', -, ⟨-, -, hdisk⟩, -, -, -, -, -, hsum, walk, hwalk, -, -, _,
    hranges, hreport⟩ := h
  rw [heocd] at heocd'
  cases heocd'
  obtain rfl := pure_eq_ok.mp hreport
  have hwalked := checkEntries_walked hwalk
  obtain ⟨⟨entries, hentries, hlaid⟩, hrecords, hdistinct⟩ := checkEntries_collected hwalk
  rw [← hdisk] at hlaid hrecords hwalked
  refine ⟨eocd, heocd, ?_, hdistinct .nil, ?_, by omega, hbounded, ?_, ?_⟩
  · rw [hentries]
    exact hlaid
  · have hrecords : walk.localRanges.map LocalRange.range =
        (listed bytes eocd).map (recordRange bytes (u32 bytes (eocd + 16))) := hrecords
    rw [← hrecords]
    refine pairwise_apart (fun range hrange => ?_) hranges
    have hmem : range.range ∈ walk.localRanges.map LocalRange.range := List.mem_map_of_mem hrange
    rw [hrecords] at hmem
    obtain ⟨central, -, hrange⟩ := List.mem_map.mp hmem
    have hlt := @lt_recordEnd bytes (u32 bytes (eocd + 16)) central
    have hstart : central.localOffset = range.start := congrArg Prod.fst hrange
    have hstop : recordEnd bytes (u32 bytes (eocd + 16)) central = range.stop :=
      congrArg Prod.snd hrange
    omega
  · exact hwalked.total.trans (Nat.zero_add _)
  · exact hwalked.media.trans (Nat.zero_add _)

/-- **The preflight fails with a coded error or accepts an archive that is well laid out; no read
is beyond the end of the view.** -/
theorem preflightView_laidOut (bytes : Bytes) (limits : Limits) :
    (∃ e, preflightView bytes limits = .error (.coded e)) ∨
      ∃ report eocd, preflightView bytes limits = .ok report ∧ findEocd bytes = .ok eocd ∧
        LaidOut bytes limits eocd report := by
  rw [preflightView_eq]
  cases hpreflight : preflightZip bytes limits with
  | error e => exact .inl ⟨e, rfl⟩
  | ok report =>
      obtain ⟨eocd, heocd, hlaidOut⟩ := preflightZip_laidOut hpreflight
      exact .inr ⟨report, eocd, rfl, heocd, hlaidOut⟩

end Useful.Office
