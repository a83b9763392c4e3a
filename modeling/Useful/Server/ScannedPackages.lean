/-
# Scanned packages

A scan takes at most the expanded limit and one buffer from all readers together, and at most one
byte more than the limit of a manifest from the reader of `manifest.json`. When it succeeds, the
names of the package are told apart, every file was read to its end with its declared size, and the
digests are those of the native files and of the entry of a worker. Directories have no digest,
whatever they are called.
-/

import Useful.Server.PackageScan

namespace Useful.Server

open Useful.Math

/-! ## Reading a file -/

/-- The scan after bytes of a file were taken and counted. -/
def Scan.received (index : Nat) (isManifest isNative : Bool) (bytes : List UInt8) (scan : Scan) : Scan :=
  { scan.take index bytes with
    manifest := if isManifest then scan.manifest ++ bytes else scan.manifest
    actualExpanded := scan.actualExpanded + bytes.length
    actualNative := if isNative then scan.actualNative + bytes.length else scan.actualNative }

section Read

variable {env : ScanEnv} {archive : Archive} {ptr : FilePtr} {isManifest isNative : Bool} {scan : Scan}

theorem Scan.received_nil (index : Nat) : scan.received index isManifest isNative [] = scan := by
  cases isManifest <;> cases isNative <;> simp [Scan.received, Scan.take]

theorem Scan.received_append (index : Nat) (xs ys : List UInt8) :
    (scan.received index isManifest isNative xs).received index isManifest isNative ys =
      scan.received index isManifest isNative (xs ++ ys) := by
  cases isManifest <;> cases isNative <;>
    simp [Scan.received, Scan.take, Nat.add_assoc]

theorem addBudget_eq_ok {total amount limit total' : Nat} {label : String}
    (h : addBudget total amount limit label = .ok total') :
    total' = total + amount ∧ total' ≤ limit := by
  simp only [addBudget, bind_eq_ok, failIf_eq_ok, pure_eq_ok, not_lt] at h
  obtain ⟨-, -, -, hlimit, rfl⟩ := h
  exact ⟨rfl, hlimit⟩

theorem countNative_ensures (bytes : List UInt8) :
    Program.Ensures (countNative isNative bytes) scan
      (fun _ scan' => scan' = { scan with
        actualNative := if isNative then scan.actualNative + bytes.length else scan.actualNative })
      fun _ scan' => scan' = scan := by
  cases isNative with
  | false => exact rfl
  | true =>
      refine Program.ensures_bind.mpr (Program.ensures_read.mpr ?_)
      refine Program.ensures_bind.mpr (Program.ensures_ofExcept.mpr ⟨fun n hn => ?_, fun _ _ => rfl⟩)
      exact Program.ensures_modify.mpr (by rw [(addBudget_eq_ok hn).1]; rfl)

theorem keepManifest_ensures (entryBytes : Nat) (bytes : List UInt8) :
    Program.Ensures (keepManifest isManifest entryBytes bytes) scan
      (fun _ scan' => (isManifest = true → entryBytes ≤ maxManifestBytes) ∧ scan' = { scan with
        manifest := if isManifest then scan.manifest ++ bytes else scan.manifest })
      fun _ scan' => scan' = scan := by
  cases isManifest with
  | false => exact ⟨nofun, rfl⟩
  | true =>
      refine Program.ensures_bind.mpr (Program.ensures_ofExcept.mpr ⟨fun _ h => ?_, fun _ _ => rfl⟩)
      exact Program.ensures_modify.mpr ⟨fun _ => not_lt.mp (failIf_eq_ok.mp h), rfl⟩

/-- Bytes that were counted are within the limits. -/
theorem countBytes_ensures {entryBytes : Nat} {bytes : List UInt8}
    (hentry : entryBytes ≤ readCap isManifest) (hexpanded : scan.actualExpanded ≤ maxArchiveExpandedBytes) :
    Program.Ensures (countBytes isManifest isNative entryBytes bytes) (scan.take ptr.2 bytes)
      (fun n scan' => n = entryBytes + bytes.length ∧ n ≤ readCap isManifest ∧
        scan' = scan.received ptr.2 isManifest isNative bytes ∧
        scan'.actualExpanded ≤ maxArchiveExpandedBytes)
      fun _ scan' => scan'.total = scan.total + bytes.length ∧
        scan'.taken = Function.update scan.taken ptr.2 (scan.taken ptr.2 + bytes.length) := by
  rw [countBytes]
  split
  · refine Program.ensures_bind.mpr (Program.ensures_ofExcept.mpr ⟨fun n hn => ?_, fun _ _ => ⟨rfl, rfl⟩⟩)
    obtain ⟨rfl, hlimit⟩ := addBudget_eq_ok hn
    refine Program.ensures_bind.mpr (Program.ensures_read.mpr ?_)
    refine Program.ensures_bind.mpr (Program.ensures_ofExcept.mpr ⟨fun n hn => ?_, fun _ _ => ⟨rfl, rfl⟩⟩)
    obtain ⟨rfl, hexpandedLimit⟩ := addBudget_eq_ok hn
    refine Program.ensures_bind.mpr (Program.ensures_modify.mpr ?_)
    refine (countNative_ensures bytes).bind (fun _ scan' h => h ▸ ⟨rfl, rfl⟩) fun _ scan' hnative => ?_
    subst hnative
    refine (keepManifest_ensures _ bytes).bind (fun _ scan' h => h ▸ ⟨rfl, rfl⟩) fun _ scan' hmanifest => ?_
    obtain ⟨hcap, rfl⟩ := hmanifest
    refine Program.ensures_pure.mpr ⟨rfl, ?_, rfl, hexpandedLimit⟩
    cases isManifest with
    | false => exact hlimit
    | true => exact hcap rfl
  · rename_i hnone
    obtain rfl : bytes = [] := List.length_eq_zero_iff.mp (by omega)
    refine Program.ensures_pure.mpr ⟨rfl, hentry, ?_, hexpanded⟩
    cases isManifest <;> cases isNative <;> simp [Scan.received, Scan.take]

theorem noError_eq_ok {error : Option String} {wrapped : String → ArchiveError} {r : Unit} :
    noError error wrapped = .ok r ↔ error = none := by
  cases error <;> simp [noError]

/-- A reader that was read to its end. -/
structure ReadWhole (archive : Archive) (ptr : FilePtr) (isManifest isNative : Bool)
    (pieces : List (List UInt8)) (entryBytes : Nat) (hashed : List UInt8) (scan : Scan)
    (result : Nat × List UInt8) (scan' : Scan) : Prop where
  length : result.1 = entryBytes + pieces.flatten.length
  cap : result.1 ≤ readCap isManifest
  hashed : result.2 = if isNative then hashed ++ pieces.flatten else hashed
  ended : (archive.behind ptr.2).readError = none
  scan : scan' = scan.received ptr.2 isManifest isNative pieces.flatten
  expanded : scan'.actualExpanded ≤ maxArchiveExpandedBytes

/-- Reading stopped: the bytes taken so far, one read beyond the limits at most. -/
def Stopped (ptr : FilePtr) (isManifest : Bool) (entryBytes : Nat) (scan scan' : Scan) : Prop :=
  ∃ k, entryBytes + k ≤ readCap isManifest + 1 ∧
    scan'.total ≤ maxArchiveExpandedBytes + bufferBytes ∧
    scan'.taken = Function.update scan.taken ptr.2 (scan.taken ptr.2 + k)

theorem Scan.total_received {index : Nat} {bytes : List UInt8} (htotal : scan.total = scan.actualExpanded) :
    (scan.received index isManifest isNative bytes).total =
      (scan.received index isManifest isNative bytes).actualExpanded := by
  show scan.total + bytes.length = scan.actualExpanded + bytes.length
  rw [htotal]

theorem ReadWhole.counted {pieces : List (List UInt8)} {entryBytes : Nat} {hashed : List UInt8}
    {result : Nat × List UInt8} {scan' : Scan}
    (h : ReadWhole archive ptr isManifest isNative pieces entryBytes hashed scan result scan')
    (htotal : scan.total = scan.actualExpanded) : scan'.total = scan'.actualExpanded := by
  rw [h.scan]
  exact Scan.total_received htotal

theorem Stopped.received {entryBytes : Nat} {bytes : List UInt8} {scan' : Scan}
    (h : Stopped ptr isManifest (entryBytes + bytes.length)
      (scan.received ptr.2 isManifest isNative bytes) scan') :
    Stopped ptr isManifest entryBytes scan scan' := by
  obtain ⟨k, hk, htotal, htaken⟩ := h
  refine ⟨bytes.length + k, by omega, htotal, ?_⟩
  rw [htaken]
  show Function.update (Function.update scan.taken ptr.2 _) ptr.2
    (Function.update scan.taken ptr.2 _ ptr.2 + k) = _
  rw [Function.update_idem, Function.update_self, Nat.add_assoc]

theorem ReadWhole.received {pieces : List (List UInt8)} {entryBytes : Nat} {hashed bytes : List UInt8}
    {result : Nat × List UInt8} {scan' : Scan} {pieces' : List (List UInt8)}
    (hpieces : pieces.flatten = bytes ++ pieces'.flatten)
    (h : ReadWhole archive ptr isManifest isNative pieces' (entryBytes + bytes.length)
      (if isNative then hashed ++ bytes else hashed)
      (scan.received ptr.2 isManifest isNative bytes) result scan') :
    ReadWhole archive ptr isManifest isNative pieces entryBytes hashed scan result scan' where
  length := by rw [h.length, hpieces, List.length_append, Nat.add_assoc]
  cap := h.cap
  hashed := by
    rw [h.hashed, hpieces]
    split
    · rw [List.append_assoc]
    · rfl
  ended := h.ended
  scan := by rw [h.scan, Scan.received_append, hpieces]
  expanded := h.expanded

theorem readLoop_ensures {limit : Nat} {pieces : List (List UInt8)} {entryBytes : Nat}
    {hashed : List UInt8} (hcap : entryBytes ≤ readCap isManifest)
    (hlimit : entryBytes + limit = readCap isManifest + 1)
    (hexpanded : scan.actualExpanded ≤ maxArchiveExpandedBytes)
    (htotal : scan.total = scan.actualExpanded) :
    Program.Ensures (readLoop archive ptr isManifest isNative limit pieces entryBytes hashed) scan
      (ReadWhole archive ptr isManifest isNative pieces entryBytes hashed scan)
      fun _ => Stopped ptr isManifest entryBytes scan := by
  induction hsize : (pieces.map fun piece => piece.length + 1).sum using Nat.strong_induction_on
    generalizing limit pieces entryBytes hashed scan with
  | _ size ih =>
    rw [readLoop.eq_def, if_neg (by omega)]
    cases pieces with
    | nil =>
        cases hended : (archive.behind ptr.2).readError with
        | some message =>
            refine Program.ensures_fail.mpr ⟨0, by omega, ?_, ?_⟩
            · omega
            · rw [Nat.add_zero, Function.update_eq_self]
        | none =>
            refine Program.ensures_pure.mpr ⟨rfl, hcap, ?_, hended, ?_, hexpanded⟩
            · simp
            · rw [List.flatten_nil, Scan.received_nil]
    | cons piece rest =>
        have hmin : 0 < min bufferBytes limit := lt_min (by decide) (by omega)
        have hbytes : (piece.take (min bufferBytes limit)).length ≤ min bufferBytes limit :=
          List.length_take_le _ _
        refine Program.ensures_bind.mpr (Program.ensures_modify.mpr ?_)
        refine (countBytes_ensures hcap hexpanded).bind (fun _ scan' h => ?_) fun n scan' h => ?_
        · refine ⟨_, ?_, ?_, h.2⟩
          · omega
          · rw [h.1]
            omega
        · obtain ⟨rfl, hn, rfl, hexpanded'⟩ := h
          subst hsize
          have hlimit' : entryBytes + (piece.take (min bufferBytes limit)).length +
              (limit - (piece.take (min bufferBytes limit)).length) = readCap isManifest + 1 := by
            omega
          have hnext (pieces' : List (List UInt8))
              (hpieces : (piece :: rest).flatten = piece.take (min bufferBytes limit) ++ pieces'.flatten)
              (hless : (pieces'.map fun piece => piece.length + 1).sum <
                ((piece :: rest).map fun piece => piece.length + 1).sum) :
              Program.Ensures (readLoop archive ptr isManifest isNative
                  (limit - (piece.take (min bufferBytes limit)).length) pieces'
                  (entryBytes + (piece.take (min bufferBytes limit)).length)
                  (if isNative then hashed ++ piece.take (min bufferBytes limit) else hashed))
                (scan.received ptr.2 isManifest isNative (piece.take (min bufferBytes limit)))
                (ReadWhole archive ptr isManifest isNative (piece :: rest) entryBytes hashed scan)
                fun _ => Stopped ptr isManifest entryBytes scan :=
            (ih _ hless hn hlimit' hexpanded' (Scan.total_received htotal) rfl).imp
              (fun _ _ => ReadWhole.received hpieces) fun _ _ => Stopped.received
          by_cases hwhole : piece.length ≤ min bufferBytes limit
          · simp only [if_pos hwhole]
            refine hnext rest ?_ ?_
            · rw [List.take_of_length_le hwhole, List.flatten_cons]
            · simp
          · simp only [if_neg hwhole]
            refine hnext (piece.drop (min bufferBytes limit) :: rest) ?_ ?_
            · rw [List.flatten_cons, List.flatten_cons, ← List.append_assoc, List.take_append_drop]
            · simp only [List.map_cons, List.sum_cons, List.length_drop]
              omega

/-- The reader of a file was read to its end, with the size that the directory declares. -/
structure Complete (archive : Archive) (ptr : FilePtr) : Prop where
  opened : (archive.behind ptr.2).openError = none
  ended : (archive.behind ptr.2).readError = none
  closed : (archive.behind ptr.2).closeError = none
  size : (archive.behind ptr.2).content.length = ptr.1.uncompressedSize64

/-- The digest that is listed for a file. -/
def listedDigest (env : ScanEnv) (archive : Archive) (ptr : FilePtr) : String :=
  ptr.1.name ++ "=" ++ env.sha256Hex (archive.behind ptr.2).content

/-- The scan after a file. -/
structure EntryRead (env : ScanEnv) (archive : Archive) (ptr : FilePtr) (isManifest isNative : Bool)
    (scan scan' : Scan) : Prop where
  complete : Complete archive ptr
  cap : (archive.behind ptr.2).content.length ≤ readCap isManifest
  taken : scan'.taken =
    Function.update scan.taken ptr.2 (scan.taken ptr.2 + (archive.behind ptr.2).content.length)
  counted : scan'.total = scan'.actualExpanded
  expanded : scan'.actualExpanded ≤ maxArchiveExpandedBytes
  hashes : scan'.executableHashes =
    scan.executableHashes ++ if isNative then [listedDigest env archive ptr] else []

theorem stopped_zero (hexpanded : scan.actualExpanded ≤ maxArchiveExpandedBytes)
    (htotal : scan.total = scan.actualExpanded) : Stopped ptr isManifest 0 scan scan :=
  ⟨0, by omega, by omega, by rw [Nat.add_zero, Function.update_eq_self]⟩

theorem readEntry_ensures (hexpanded : scan.actualExpanded ≤ maxArchiveExpandedBytes)
    (htotal : scan.total = scan.actualExpanded) :
    Program.Ensures (readEntry env archive ptr isManifest isNative) scan
      (fun _ => EntryRead env archive ptr isManifest isNative scan)
      fun _ => Stopped ptr isManifest 0 scan := by
  refine Program.ensures_bind.mpr (Program.ensures_ofExcept.mpr
    ⟨fun _ hopen => ?_, fun _ _ => stopped_zero hexpanded htotal⟩)
  refine (readLoop_ensures (Nat.zero_le _) (Nat.zero_add _) hexpanded htotal).bind (fun _ _ => id)
    fun result scan' hread => ?_
  have hstopped : Stopped ptr isManifest 0 scan scan' := by
    have hlength := hread.length
    have hcap := hread.cap
    have hexpanded' := hread.expanded
    have hcounted := hread.counted htotal
    rw [Nat.zero_add] at hlength
    exact ⟨(archive.behind ptr.2).pieces.flatten.length, by omega, by omega, by rw [hread.scan]; rfl⟩
  obtain ⟨entryBytes, hashed⟩ := result
  refine Program.ensures_bind.mpr (Program.ensures_ofExcept.mpr ⟨fun _ hclose => ?_, fun _ _ => hstopped⟩)
  refine Program.ensures_bind.mpr (Program.ensures_ofExcept.mpr ⟨fun _ hsize => ?_, fun _ _ => hstopped⟩)
  refine Program.ensures_modify.mpr ?_
  have hcontent : entryBytes = (archive.behind ptr.2).content.length := by
    have hlength := hread.length
    rwa [Nat.zero_add] at hlength
  have hhashed := hread.hashed
  constructor
  case complete =>
    refine ⟨noError_eq_ok.mp hopen, hread.ended, noError_eq_ok.mp hclose, ?_⟩
    rw [← hcontent]
    exact not_not.mp (failIf_eq_ok.mp hsize)
  case cap => exact hcontent ▸ hread.cap
  case taken => rw [hread.scan]; rfl
  case counted => exact hread.counted htotal
  case expanded => exact hread.expanded
  case hashes =>
    rw [hread.scan]
    cases isNative with
    | false => rfl
    | true =>
        simp only [if_true, List.nil_append] at hhashed
        simp only [hhashed, if_true]
        rfl

end Read

/-! ## Ledgers of files -/

section Files

variable {env : ScanEnv} {archive : Archive} {ledger : Ledger} {manifestFile ptr : FilePtr}

/-- `unicode.ToLower` on ASCII. -/
def LowersAscii (lowerRune : Char → Char) : Prop := ∀ c : Char, c.toNat < 128 → lowerRune c = c.toLower

theorem pair_mem_of_lookup {α β : Type} [DecidableEq α] {pairs : List (α × β)} {a : α} {b : β}
    (h : pairs.lookup a = some b) : (a, b) ∈ pairs := by
  obtain ⟨before, after, rfl, -⟩ := List.lookup_eq_some_iff.mp h
  simp

theorem ptr_inj {files : List ZipFile} {p q : FilePtr} (hp : p ∈ files.zipIdx) (hq : q ∈ files.zipIdx)
    (h : p.2 = q.2) : p = q := by
  have hp' := List.mem_zipIdx_iff_getElem?.mp hp
  have hq' := List.mem_zipIdx_iff_getElem?.mp hq
  rw [h] at hp'
  exact Prod.ext (Option.some.inj (hp'.symm.trans hq')) h

/-- Different normalized paths tell the files apart. -/
theorem Ledger.Holds.inj {lowerRune : Char → Char} {ptrs : List FilePtr} {p q : FilePtr}
    (h : ledger.Holds lowerRune ptrs) (hp : p ∈ ptrs) (hq : q ∈ ptrs)
    (heq : normalizedArchivePath lowerRune p.1.name = normalizedArchivePath lowerRune q.1.name) : p = q :=
  List.inj_on_of_nodup_map h.distinct hp hq heq

theorem Ledger.Holds.mem_of_lookup {lowerRune : Char → Char} {ptrs : List FilePtr} {path : String}
    (h : ledger.Holds lowerRune ptrs) (hlookup : ledger.byPath.lookup path = some ptr) :
    ptr ∈ ptrs ∧ normalizedArchivePath lowerRune ptr.1.name = path := by
  have hmem := pair_mem_of_lookup hlookup
  rw [h.byPath] at hmem
  obtain ⟨p, hp, heq⟩ := List.mem_map.mp hmem
  cases heq
  exact ⟨hp, rfl⟩

/-- The path of a file in the directory. -/
theorem Ledger.Holds.lookup_pathByFile {lowerRune : Char → Char} {files : List ZipFile}
    (h : ledger.Holds lowerRune files.zipIdx) (hptr : ptr ∈ files.zipIdx) :
    ledger.pathByFile.lookup ptr.2 = some (normalizedArchivePath lowerRune ptr.1.name) := by
  rw [h.pathByFile]
  cases hlookup : (files.zipIdx.map fun ptr =>
      (ptr.2, normalizedArchivePath lowerRune ptr.1.name)).lookup ptr.2 with
  | none =>
      have hne := List.lookup_eq_none_iff.mp hlookup _ (List.mem_map_of_mem hptr)
      exact absurd hne (by simp)
  | some path =>
      obtain ⟨p, hp, hpair⟩ := List.mem_map.mp (pair_mem_of_lookup hlookup)
      obtain ⟨hindex, rfl⟩ := Prod.mk.inj hpair
      rw [ptr_inj hp hptr hindex]

/-- A file with a native extension, or the entry of a worker. -/
def isListed (env : ScanEnv) (manifest : PackageManifest) (name : String) : Bool :=
  isNativeArchiveEntry env.lowerRune name || (manifest.entryType = "worker" && name = manifest.entryPath)

/-- The ledger with which the files are read. -/
structure ReadLedger (env : ScanEnv) (files : List ZipFile) (manifest : PackageManifest)
    (manifestFile : FilePtr) (ledger : Ledger) : Prop where
  pathByFile : ∀ ptr ∈ files.zipIdx,
    ledger.pathByFile.lookup ptr.2 = some (normalizedArchivePath env.lowerRune ptr.1.name)
  native : ∀ ptr ∈ files.zipIdx, ptr.1.isDir = false →
    (normalizedArchivePath env.lowerRune ptr.1.name ∈ ledger.native ↔ isListed env manifest ptr.1.name = true)
  manifestFile : manifest.entryType = "worker" → manifest.entryPath ≠ manifestFile.1.name

theorem workerLedger_eq_ok {files : List ZipFile} {manifest : PackageManifest} {ledger' : Ledger}
    (hledger : ledger.Holds env.lowerRune files.zipIdx) (hmanifest : manifestFile ∈ files.zipIdx)
    (h : workerLedger env ledger manifestFile manifest = .ok ledger') :
    ReadLedger env files manifest manifestFile ledger' := by
  have hextension {ptr : FilePtr} (hptr : ptr ∈ files.zipIdx) (hfile : ptr.1.isDir = false) :
      normalizedArchivePath env.lowerRune ptr.1.name ∈ ledger.native ↔
        isNativeArchiveEntry env.lowerRune ptr.1.name = true := by
    rw [hledger.native]
    constructor
    · rintro ⟨p, hp, -, hnative, heq⟩
      rwa [hledger.inj hp hptr heq] at hnative
    · exact fun hnative => ⟨ptr, hptr, hfile, hnative, rfl⟩
  rw [workerLedger] at h
  split_ifs at h with hworker
  · simp only [bind_eq_ok, orFail_eq_ok, Option.filter_eq_some_iff, pure_eq_ok, Bool.and_eq_true,
      decide_eq_true_eq, Bool.not_eq_true'] at h
    obtain ⟨-, -, f, ⟨hlookup, ⟨hfile, hname⟩, hother⟩, -, -, rfl⟩ := h
    obtain ⟨hf, -⟩ := hledger.mem_of_lookup hlookup
    refine ⟨fun _ hptr => ?_, fun ptr hptr hfile => ?_, fun _ heq => ?_⟩
    · rw [Ledger.addNative]
      split_ifs <;> exact hledger.lookup_pathByFile hptr
    · rw [Ledger.mem_addNative, hextension hptr hfile, isListed, Bool.or_eq_true, Bool.and_eq_true,
        decide_eq_true_eq, decide_eq_true_eq]
      refine or_congr_right ⟨fun heq => ⟨hworker, ?_⟩, fun h => by rw [h.2]⟩
      rw [hledger.inj hptr hf (heq.trans (by rw [hname])), hname]
    · exact hother (by rw [hledger.inj hf hmanifest (by rw [hname, heq])])
  · obtain rfl := pure_eq_ok.mp h
    refine ⟨fun _ => hledger.lookup_pathByFile, fun ptr hptr hfile => ?_, fun h => absurd h hworker⟩
    rw [hextension hptr hfile, isListed]
    simp [hworker]

/-! ## Scans -/

/-- The bytes that a scan takes, whether it succeeds or not. -/
structure ScanBounds (archive : Archive) (scan : Scan) : Prop where
  total : scan.total ≤ maxArchiveExpandedBytes + bufferBytes
  manifest : ∀ ptr ∈ archive.files.zipIdx, ptr.1.name = "manifest.json" →
    scan.taken ptr.2 ≤ maxManifestBytes + 1

/-- What a scan that succeeds has read, and the digests that it lists. -/
structure ScanComplete (env : ScanEnv) (archive : Archive) (manifest : PackageManifest) (scan : Scan) :
    Prop where
  distinct : (archive.files.map fun f => normalizedArchivePath env.lowerRune f.name).Nodup
  whole : ∀ ptr ∈ archive.files.zipIdx, ptr.1.isDir = false → Complete archive ptr ∧
    scan.taken ptr.2 = (archive.behind ptr.2).content.length
  hashes : scan.executableHashes =
    (archive.files.zipIdx.filter fun ptr => !ptr.1.isDir && isListed env manifest ptr.1.name).map
      (listedDigest env archive)

/-- Some files were read in the loop, after the manifest. -/
structure FilesRead (env : ScanEnv) (archive : Archive) (manifestFile : FilePtr) (native : FilePtr → Bool)
    (done : List FilePtr) (scan : Scan) : Prop where
  counted : scan.total = scan.actualExpanded
  expanded : scan.actualExpanded ≤ maxArchiveExpandedBytes
  manifest : scan.taken manifestFile.2 = (archive.behind manifestFile.2).content.length
  whole : ∀ ptr ∈ done, ptr.1.isDir = false → ptr.2 ≠ manifestFile.2 → Complete archive ptr ∧
    scan.taken ptr.2 = (archive.behind ptr.2).content.length
  unread : ∀ ptr ∈ archive.files.zipIdx, ptr ∉ done → ptr.2 ≠ manifestFile.2 → scan.taken ptr.2 = 0
  hashes : scan.executableHashes =
    (done.filter fun ptr => !(ptr.2 = manifestFile.2 ∨ ptr.1.isDir) && native ptr).map
      (listedDigest env archive)

theorem FilesRead.skip {native : FilePtr → Bool} {done : List FilePtr} {scan : Scan}
    (h : FilesRead env archive manifestFile native done scan)
    (hskip : ptr.2 = manifestFile.2 ∨ ptr.1.isDir = true) :
    FilesRead env archive manifestFile native (done ++ [ptr]) scan where
  counted := h.counted
  expanded := h.expanded
  manifest := h.manifest
  whole := by
    intro q hq hfile hother
    rcases List.mem_append.mp hq with hq | hq
    · exact h.whole q hq hfile hother
    · rw [List.mem_singleton.mp hq] at hfile hother
      rcases hskip with heq | hdir
      · exact absurd heq hother
      · rw [hfile] at hdir
        cases hdir
  unread := fun q hq hnew => h.unread q hq fun hmem => hnew (List.mem_append_left _ hmem)
  hashes := by
    rw [h.hashes, List.filter_append, List.filter_singleton]
    simp [hskip]

/-- The loop goes on with a file. -/
theorem FilesRead.read {native : FilePtr → Bool} {done : List FilePtr} {scan scan' : Scan}
    (h : FilesRead env archive manifestFile native done scan)
    (hdone : ∀ q ∈ done, q ∈ archive.files.zipIdx) (hptr : ptr ∈ archive.files.zipIdx)
    (hnew : ptr ∉ done) (hfile : ¬ (ptr.2 = manifestFile.2 ∨ ptr.1.isDir = true))
    (hread : EntryRead env archive ptr false (native ptr) scan scan') :
    FilesRead env archive manifestFile native (done ++ [ptr]) scan' := by
  obtain ⟨hother, hregular⟩ := not_or.mp hfile
  have hzero : scan.taken ptr.2 = 0 := h.unread ptr hptr hnew hother
  have hkeep (q : FilePtr) (hne : q.2 ≠ ptr.2) : scan'.taken q.2 = scan.taken q.2 := by
    rw [hread.taken, Function.update_of_ne hne]
  constructor
  case counted => exact hread.counted
  case expanded => exact hread.expanded
  case manifest => rw [hkeep manifestFile (Ne.symm hother), h.manifest]
  case whole =>
    intro q hq hqfile hqother
    rcases List.mem_append.mp hq with hq | hq
    · have hne : q.2 ≠ ptr.2 := fun heq => hnew (ptr_inj (hdone q hq) hptr heq ▸ hq)
      rw [hkeep q hne]
      exact h.whole q hq hqfile hqother
    · rw [List.mem_singleton.mp hq]
      refine ⟨hread.complete, ?_⟩
      rw [hread.taken, Function.update_self, hzero, Nat.zero_add]
  case unread =>
    intro q hq hqnew hqother
    have hne : q.2 ≠ ptr.2 := fun heq =>
      hqnew (List.mem_append_right _ (List.mem_singleton.mpr (ptr_inj hq hptr heq)))
    rw [hkeep q hne]
    exact h.unread q hq (fun hmem => hqnew (List.mem_append_left _ hmem)) hqother
  case hashes =>
    rw [hread.hashes, h.hashes, List.filter_append, List.filter_singleton, List.map_append]
    cases native ptr <;> simp [hfile]

/-- The loop reads every file, or stops within the limits. -/
theorem files_ensures {native : FilePtr → Bool} {scan : Scan}
    (hcap : (archive.behind manifestFile.2).content.length ≤ maxManifestBytes)
    (hscan : FilesRead env archive manifestFile native [] scan) :
    Program.Ensures (archive.files.zipIdx.forM fun ptr =>
        if ptr.2 = manifestFile.2 ∨ ptr.1.isDir then pure ⟨⟩
        else readEntry env archive ptr false (native ptr)) scan
      (fun _ => FilesRead env archive manifestFile native archive.files.zipIdx)
      fun _ scan' => scan'.total ≤ maxArchiveExpandedBytes + bufferBytes ∧
        scan'.taken manifestFile.2 ≤ maxManifestBytes + 1 := by
  refine Program.Ensures.forM_prefix (fun before ptr after scan hfiles h => ?_) hscan
  have hptr : ptr ∈ archive.files.zipIdx := by
    rw [hfiles]
    simp
  split_ifs with hskip
  · exact Program.ensures_pure.mpr (h.skip hskip)
  · refine (readEntry_ensures h.expanded h.counted).imp (fun _ scan' hread => ?_) fun _ scan' hstop => ?_
    · refine h.read (fun q hq => by rw [hfiles]; exact List.mem_append_left _ hq) hptr ?_ hskip hread
      have hnodup : archive.files.zipIdx.Nodup := by
        refine List.Nodup.of_map Prod.snd ?_
        rw [List.zipIdx_map_snd]
        exact List.nodup_range'
      rw [hfiles, List.nodup_append] at hnodup
      exact fun hmem => hnodup.2.2 ptr hmem ptr List.mem_cons_self rfl
    · obtain ⟨k, hk, htotal, htaken⟩ := hstop
      refine ⟨htotal, ?_⟩
      rw [htaken, Function.update_of_ne (Ne.symm (not_or.mp hskip).1), h.manifest]
      omega

theorem lowerText_ascii {lowerRune : Char → Char} (hlower : LowersAscii lowerRune) {text : String}
    (h : (text.toList.all fun c => c.toNat < 128 && c.toLower == c) = true) :
    lowerText lowerRune text = text := by
  have hmap : text.toList.map lowerRune = text.toList.map id := by
    refine List.map_congr_left fun c hc => ?_
    obtain ⟨hascii, hkept⟩ := Bool.and_eq_true_iff.mp (List.all_eq_true.mp h c hc)
    exact (hlower c (of_decide_eq_true hascii)).trans (eq_of_beq hkept)
  rw [lowerText, hmap, List.map_id, String.ofList_toList]

theorem manifest_not_listed (hlower : LowersAscii env.lowerRune) {manifest : PackageManifest}
    (h : manifest.entryType = "worker" → manifest.entryPath ≠ "manifest.json") :
    isListed env manifest "manifest.json" = false := by
  have hnative : isNativeArchiveEntry env.lowerRune "manifest.json" = false := by
    rw [isNativeArchiveEntry, lowerText_ascii hlower (by decide)]
    decide
  rw [isListed, hnative, Bool.false_or, Bool.and_eq_false_iff, decide_eq_false_iff_not,
    decide_eq_false_iff_not]
  exact or_iff_not_imp_left.mpr fun hworker heq => h (not_not.mp hworker) heq.symm

theorem EntryRead.taken_self {scan : Scan} {isManifest isNative : Bool}
    (h : EntryRead env archive ptr isManifest isNative Scan.start scan) :
    scan.taken ptr.2 = (archive.behind ptr.2).content.length := by
  rw [h.taken, Function.update_self]
  exact Nat.zero_add _

/-- The manifest was read, and no other file. -/
theorem EntryRead.filesRead {native : FilePtr → Bool} {scan : Scan} (isNativeWorker : Bool)
    (h : EntryRead env archive manifestFile true false Scan.start scan) :
    FilesRead env archive manifestFile native [] { scan with isNativeWorker := isNativeWorker } where
  counted := h.counted
  expanded := h.expanded
  manifest := h.taken_self
  whole := nofun
  unread := by
    intro ptr _ _ hother
    show scan.taken _ = _
    rw [h.taken, Function.update_of_ne hother]
    rfl
  hashes := h.hashes

theorem filesRead_complete {native : FilePtr → Bool} {manifest : PackageManifest} {scan : Scan}
    {ledger' : Ledger} (hlower : LowersAscii env.lowerRune)
    (hledger : ledger.Holds env.lowerRune archive.files.zipIdx)
    (hmem : manifestFile ∈ archive.files.zipIdx) (hname : manifestFile.1.name = "manifest.json")
    (hcomplete : Complete archive manifestFile)
    (hread : ReadLedger env archive.files manifest manifestFile ledger')
    (hnative : native = fun ptr => (ledger'.pathByFile.lookup ptr.2).any (· ∈ ledger'.native))
    (h : FilesRead env archive manifestFile native archive.files.zipIdx scan) :
    ScanComplete env archive manifest scan where
  distinct := by
    have hdistinct := hledger.distinct
    rw [← List.zipIdx_map_fst 0 archive.files, List.map_map]
    exact hdistinct
  whole := by
    intro ptr hptr hfile
    by_cases heq : ptr.2 = manifestFile.2
    · rw [ptr_inj hptr hmem heq]
      exact ⟨hcomplete, h.manifest⟩
    · exact h.whole ptr hptr hfile heq
  hashes := by
    rw [h.hashes]
    refine congrArg (List.map _) (List.filter_congr fun ptr hptr => ?_)
    cases hfile : ptr.1.isDir with
    | true => simp
    | false =>
        by_cases heq : ptr.2 = manifestFile.2
        · rw [ptr_inj hptr hmem heq, hname, manifest_not_listed hlower (hname ▸ hread.manifestFile)]
          simp
        · have hlisted := hread.native ptr hptr hfile
          have hpath := hread.pathByFile ptr hptr
          rw [hnative]
          simp only [hpath, Option.any_some, heq, Bool.false_eq_true, or_self, decide_false,
            Bool.not_false, Bool.true_and]
          rw [Bool.eq_iff_iff, decide_eq_true_eq]
          exact hlisted

/-- Every scan takes a bounded number of bytes, and one that succeeds has read every file to its
end and lists the digests of the native files and of the entry of a worker. -/
theorem scan_bounded_and_complete (env : ScanEnv) (hlower : LowersAscii env.lowerRune)
    (archive : Archive) :
    ScanBounds archive (readArchiveContents env archive Scan.start).2 ∧
      ∀ manifest, (readArchiveContents env archive Scan.start).1 = .ok manifest →
        ScanComplete env archive manifest (readArchiveContents env archive Scan.start).2 := by
  have hstart : ScanBounds archive Scan.start := ⟨Nat.zero_le _, fun _ _ _ => Nat.zero_le _⟩
  have hensures : Program.Ensures (readArchiveContents env archive) Scan.start
      (fun manifest scan => ScanBounds archive scan ∧ ScanComplete env archive manifest scan)
      fun _ => ScanBounds archive := by
    refine Program.ensures_bind.mpr (Program.ensures_ofExcept.mpr ⟨fun ledger hledger => ?_, fun _ _ => hstart⟩)
    refine Program.ensures_bind.mpr (Program.ensures_ofExcept.mpr ⟨fun m hm => ?_, fun _ _ => hstart⟩)
    have hledger := buildArchiveLedger_holds hledger
    rw [orFail_eq_ok, Option.filter_eq_some_iff, Bool.and_eq_true, decide_eq_true_eq] at hm
    obtain ⟨hlookup, hname, -⟩ := hm
    obtain ⟨hmem, -⟩ := hledger.mem_of_lookup hlookup
    have hbounds {scan : Scan} (htotal : scan.total ≤ maxArchiveExpandedBytes + bufferBytes)
        (htaken : scan.taken m.2 ≤ maxManifestBytes + 1) : ScanBounds archive scan := by
      refine ⟨htotal, fun ptr hptr heq => ?_⟩
      rw [hledger.inj hptr hmem (by rw [heq, hname])]
      exact htaken
    refine (readEntry_ensures (Nat.zero_le _) rfl).bind (fun _ scan hstop => ?_) fun _ scan hread => ?_
    · obtain ⟨k, hk, htotal, htaken⟩ := hstop
      refine hbounds htotal ?_
      rw [htaken, Function.update_self]
      exact hk
    have hcap : (archive.behind m.2).content.length ≤ maxManifestBytes := hread.cap
    have hread' : ScanBounds archive scan := by
      have hcounted := hread.counted
      have hexpanded := hread.expanded
      exact hbounds (by omega) (by rw [hread.taken_self]; omega)
    refine Program.ensures_bind.mpr (Program.ensures_read.mpr ?_)
    refine Program.ensures_bind.mpr (Program.ensures_ofExcept.mpr ⟨fun manifest _ => ?_, fun _ _ => hread'⟩)
    refine Program.ensures_bind.mpr (Program.ensures_ofExcept.mpr ⟨fun _ _ => ?_, fun _ _ => hread'⟩)
    refine Program.ensures_bind.mpr (Program.ensures_ofExcept.mpr ⟨fun _ _ => ?_, fun _ _ => hread'⟩)
    refine Program.ensures_bind.mpr (Program.ensures_ofExcept.mpr ⟨fun ledger' hworker => ?_, fun _ _ => hread'⟩)
    have hledger' := workerLedger_eq_ok hledger hmem hworker
    refine Program.ensures_bind.mpr (Program.ensures_modify.mpr ?_)
    refine (files_ensures hcap (hread.filesRead _)).bind (fun _ scan' hstop => ?_)
      fun _ scan' hfiles => ?_
    · exact hbounds hstop.1 hstop.2
    · refine Program.ensures_pure.mpr ⟨?_, ?_⟩
      · have hcounted := hfiles.counted
        have hexpanded := hfiles.expanded
        exact hbounds (by omega) (by rw [hfiles.manifest]; omega)
      · exact filesRead_complete hlower hledger hmem hname hread.complete hledger' rfl hfiles
  unfold Program.Ensures at hensures
  split at hensures
  · rename_i manifest scan hrun
    rw [hrun]
    exact ⟨hensures.1, fun _ hok => Except.ok.inj hok ▸ hensures.2⟩
  · rename_i e scan hrun
    rw [hrun]
    exact ⟨hensures, nofun⟩

end Files

/-! ## A package with a directory -/

/-- The manifest of a web package. -/
def webManifest : List UInt8 :=
  "\x7b\"schemaVersion\":1,\"id\":\"com.test.web\",\"name\":\"Web\",\"version\":\"1.0.0\",\"permissions\":[],\"entry\":\x7b\"type\":\"web\",\"path\":\"index.html\"\x7d\x7d".toList.map
    fun c => UInt8.ofNat c.toNat

def webEnv : ScanEnv where
  lowerRune := Char.toLower
  sha256Hex _ := ""
  decodePackageManifest raw :=
    if raw = webManifest then .ok ⟨[], "web", "index.html"⟩ else .error "invalid"
  validatePackageManifest _ _ _ := .ok ⟨⟩

/-- A web package, in which a directory is called like a library. -/
def webPackage : Archive where
  files := [⟨"manifest.json", webManifest.length, webManifest.length, .regular⟩,
    ⟨"index.html", 2, 2, .regular⟩, ⟨"tool.dll", 0, 0, ModeDir⟩]
  behind
    | 0 => ⟨none, [webManifest], none, none⟩
    | 1 => ⟨none, [[111], [], [107]], none, none⟩
    | _ => ⟨none, [], none, none⟩

theorem webPackage_accepted :
    (readArchiveContents webEnv webPackage Scan.start).1.toOption.isSome = true := by
  decide +kernel

theorem webPackage_scanned : ScanBounds webPackage (readArchiveContents webEnv webPackage Scan.start).2 ∧
    ∃ manifest, ScanComplete webEnv webPackage manifest
      (readArchiveContents webEnv webPackage Scan.start).2 := by
  obtain ⟨hbounds, hcomplete⟩ := scan_bounded_and_complete webEnv (fun _ _ => rfl) webPackage
  have hok := webPackage_accepted
  cases hrun : (readArchiveContents webEnv webPackage Scan.start).1 with
  | ok manifest => exact ⟨hbounds, manifest, hcomplete manifest hrun⟩
  | error e =>
      rw [hrun] at hok
      cases hok

/-- A directory with a native extension is an entry of the package, and has no digest. -/
theorem directory_not_listed :
    (readArchiveContents webEnv webPackage Scan.start).1.toOption.isSome = true ∧
      (⟨"tool.dll", 0, 0, ModeDir⟩, 2) ∈ webPackage.files.zipIdx ∧
      isNativeArchiveEntry webEnv.lowerRune "tool.dll" = true ∧
      (readArchiveContents webEnv webPackage Scan.start).2.executableHashes = [] := by
  refine ⟨webPackage_accepted, ?_, ?_, ?_⟩
  · decide
  · decide
  · decide +kernel

end Useful.Server
