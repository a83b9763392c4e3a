/-
# The scan of a package

`readArchiveContents` builds the ledger, reads the manifest and then every other file to its end.
What a file decompresses to is delivered in pieces of any length, which have nothing to do with the
size that the directory declares. The bytes taken from the readers are counted, also when the scan
fails.
-/

import Useful.Math.Program
import Useful.Server.PackageLedger
import Useful.Server.Publishers

namespace Useful.Server

open Useful.Math

/-- The reader of a file: the pieces that it delivers, and an error instead of their end. A
cancelled context is an error as well. -/
structure Behind where
  openError : Option String
  pieces : List (List UInt8)
  readError : Option String
  closeError : Option String

def Behind.content (behind : Behind) : List UInt8 := behind.pieces.flatten

/-- A `zip.Reader`. -/
structure Archive where
  files : List ZipFile
  behind : Nat → Behind

/-- The parts of a manifest that the scan looks at. -/
structure PackageManifest where
  permissions : List String
  entryType : String
  entryPath : String

/-- The parsing and the checks of a manifest, digests and lower case. -/
structure ScanEnv where
  lowerRune : Char → Char
  sha256Hex : List UInt8 → String
  decodePackageManifest : List UInt8 → Except String PackageManifest
  validatePackageManifest : PackageManifest → List UInt8 → Ledger → Except String Unit

/-- The contents and the counters of a scan, and the bytes taken from each reader and in total. -/
structure Scan where
  manifest : List UInt8
  executableHashes : List String
  hasSBOM : Bool
  isNativeWorker : Bool
  actualExpanded : Nat
  actualNative : Nat
  taken : Nat → Nat
  total : Nat

def Scan.start : Scan := ⟨[], [], false, false, 0, 0, fun _ => 0, 0⟩

/-- The length of `buf`. -/
def bufferBytes : Nat := 65536

/-- The limit that a file is read with, but for one byte. -/
def readCap (isManifest : Bool) : Nat := if isManifest then maxManifestBytes else maxArchiveEntryBytes

section Scan

open Program

variable (env : ScanEnv) (archive : Archive)

/-- Bytes leave the reader of a file. -/
def Scan.take (index : Nat) (bytes : List UInt8) (scan : Scan) : Scan :=
  { scan with
    taken := Function.update scan.taken index (scan.taken index + bytes.length)
    total := scan.total + bytes.length }

def countNative (isNative : Bool) (bytes : List UInt8) : Program ArchiveError Scan Unit :=
  if isNative then do
    let native ← read Scan.actualNative
    let native ← ofExcept (addBudget native bytes.length maxNativeHashBytes "原生文件实际哈希总大小")
    modify fun scan => { scan with actualNative := native }
  else pure ⟨⟩

def keepManifest (isManifest : Bool) (entryBytes : Nat) (bytes : List UInt8) :
    Program ArchiveError Scan Unit :=
  if isManifest then do
    ofExcept (failIf (entryBytes > maxManifestBytes) ⟨"manifest.json 大小超限", none⟩)
    modify fun scan => { scan with manifest := scan.manifest ++ bytes }
  else pure ⟨⟩

/-- One round of the loop in `readEntry`: the bytes of a read, and how many there are now. -/
def countBytes (isManifest isNative : Bool) (entryBytes : Nat) (bytes : List UInt8) :
    Program ArchiveError Scan Nat :=
  if bytes.length > 0 then do
    let entryBytes ← ofExcept (addBudget entryBytes bytes.length maxArchiveEntryBytes "单文件解压大小")
    let expanded ← read Scan.actualExpanded
    let expanded ← ofExcept (addBudget expanded bytes.length maxArchiveExpandedBytes "包实际解压总大小")
    modify fun scan => { scan with actualExpanded := expanded }
    countNative isNative bytes
    keepManifest isManifest entryBytes bytes
    return entryBytes
  else pure entryBytes

/-- The loop in `readEntry`, over a reader that stops after a limit: the number of bytes, and those
that were hashed. -/
def readLoop (ptr : FilePtr) (isManifest isNative : Bool) (limit : Nat) (pieces : List (List UInt8))
    (entryBytes : Nat) (hashed : List UInt8) : Program ArchiveError Scan (Nat × List UInt8) :=
  if limit = 0 then pure (entryBytes, hashed)
  else match pieces with
    | [] =>
        match (archive.behind ptr.2).readError with
        | some message => fail ⟨"读取失败: " ++ message, some ptr.1.name⟩
        | none => pure (entryBytes, hashed)
    | piece :: rest => do
        let bytes := piece.take (min bufferBytes limit)
        modify (Scan.take ptr.2 bytes)
        let entryBytes ← countBytes isManifest isNative entryBytes bytes
        let hashed := if isNative then hashed ++ bytes else hashed
        if piece.length ≤ min bufferBytes limit then
          readLoop ptr isManifest isNative (limit - bytes.length) rest entryBytes hashed
        else
          readLoop ptr isManifest isNative (limit - bytes.length)
            (piece.drop (min bufferBytes limit) :: rest) entryBytes hashed
termination_by (pieces.map fun piece => piece.length + 1).sum
decreasing_by
  · simp only [List.map_cons, List.sum_cons]
    omega
  · simp only [List.map_cons, List.sum_cons, List.length_drop]
    have : 0 < min bufferBytes limit := lt_min (by decide) (by omega)
    omega

/-- An error that was returned. -/
def noError (error : Option String) (wrapped : String → ArchiveError) : Except ArchiveError Unit :=
  match error with
  | some message => .error (wrapped message)
  | none => .ok ⟨⟩

def readEntry (ptr : FilePtr) (isManifest isNative : Bool) : Program ArchiveError Scan Unit := do
  ofExcept (noError (archive.behind ptr.2).openError fun message => ⟨message, none⟩)
  let (entryBytes, hashed) ← readLoop archive ptr isManifest isNative (readCap isManifest + 1)
    (archive.behind ptr.2).pieces 0 []
  ofExcept (noError (archive.behind ptr.2).closeError fun message =>
    ⟨"关闭失败: " ++ message, some ptr.1.name⟩)
  ofExcept (failIf (entryBytes ≠ ptr.1.uncompressedSize64) ⟨"解压大小与目录记录不一致", some ptr.1.name⟩)
  modify fun scan => { scan with
    isNativeWorker := scan.isNativeWorker || isNative
    executableHashes := scan.executableHashes ++
      if isNative then [ptr.1.name ++ "=" ++ env.sha256Hex hashed] else []
    hasSBOM := scan.hasSBOM ||
      "sbom/".toList.isPrefixOf (lowerText env.lowerRune ptr.1.name).toList }

/-- The checks of the permissions of a manifest. -/
def checkManifestPermissions (manifest : PackageManifest) : Except ArchiveError Unit := do
  match canonicalPermissions manifest.permissions with
  | .error _ => .error ⟨"manifest permissions 非 canonical", none⟩
  | .ok permissions =>
      failIf (manifest.permissions ≠ permissions) ⟨"manifest permissions 非 canonical", none⟩
      if manifest.entryType = "web" ∨ manifest.entryType = "worker" then
        failIf (permissions ≠ []) ⟨"web/worker manifest 必须使用零原生权限", none⟩
      else if manifest.entryType = "launcher" then
        failIf (permissions ≠ ["process.launch.declared"])
          ⟨"launcher manifest 必须且只能声明 process.launch.declared", none⟩
      else .error ⟨"manifest entry.type 非法", none⟩

/-- The ledger with the entry of a worker among the native paths. -/
def workerLedger (ledger : Ledger) (manifestFile : FilePtr) (manifest : PackageManifest) :
    Except ArchiveError Ledger := do
  if manifest.entryType = "worker" then
    (validateArchivePath manifest.entryPath).mapError fun e =>
      { e with message := "worker entry.path 非法: " ++ e.message }
    let normalized := normalizedArchivePath env.lowerRune manifest.entryPath
    let _ ← orFail ⟨"worker entry.path 必须唯一且精确指向包内文件", none⟩
      ((ledger.byPath.lookup normalized).filter fun f =>
        !f.1.isDir && f.1.name = manifest.entryPath && f.2 ≠ manifestFile.2)
    enforceNativeLedgerBudget (ledger.addNative normalized)
    return ledger.addNative normalized
  else return ledger

def readArchiveContents : Program ArchiveError Scan PackageManifest := do
  let ledger ← ofExcept (buildArchiveLedger env.lowerRune archive.files)
  let manifestFile ← ofExcept (orFail ⟨"包内缺少根目录 manifest.json", none⟩
    ((ledger.byPath.lookup "manifest.json").filter fun f => f.1.name = "manifest.json" && !f.1.isDir))
  readEntry env archive manifestFile true false
  let raw ← read Scan.manifest
  let manifest ← ofExcept ((env.decodePackageManifest raw).mapError fun e =>
    ⟨"manifest.json 不可解析: " ++ e, none⟩)
  ofExcept ((env.validatePackageManifest manifest raw ledger).mapError fun e =>
    ⟨"manifest.json 校验失败: " ++ e, none⟩)
  ofExcept (checkManifestPermissions manifest)
  let ledger ← ofExcept (workerLedger env ledger manifestFile manifest)
  modify fun scan => { scan with
    isNativeWorker := scan.isNativeWorker || manifest.entryType = "worker" }
  archive.files.zipIdx.forM fun ptr =>
    if ptr.2 = manifestFile.2 ∨ ptr.1.isDir then pure ⟨⟩
    else readEntry env archive ptr false ((ledger.pathByFile.lookup ptr.2).any (· ∈ ledger.native))
  return manifest

end Scan

end Useful.Server
