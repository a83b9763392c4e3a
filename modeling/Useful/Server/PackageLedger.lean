/-
# The ledger of a package

`buildArchiveLedger` goes through the directory of an archive before anything is decompressed: the
paths, the types and the declared sizes of its entries, and which of them are native. The files of
a directory are told apart by their positions. `strings.ToLower` maps every character.
-/

import Useful.Math.Checks
import Useful.Server.ZipContainer

namespace Useful.Server

open Useful.Math

def maxArchiveEntryBytes : Nat := 536870912

def maxArchiveExpandedBytes : Nat := 1073741824

def maxArchiveCompressionRatio : Nat := 1000

def maxManifestBytes : Nat := 262144

def maxNativeEntries : Nat := 256

def maxNativeHashBytes : Nat := 1073741824

/-- An error, and the name of the entry that it is about. -/
structure ArchiveError where
  message : String
  entry : Option String
  deriving DecidableEq

/-- The type bits of a mode; the zero type is a regular file. -/
structure ModeType where
  directory : Bool
  symlink : Bool
  special : Bool
  deriving DecidableEq

def ModeType.regular : ModeType := ⟨false, false, false⟩

def ModeDir : ModeType := ⟨true, false, false⟩

/-- What the directory says of a file. -/
structure ZipFile where
  name : String
  uncompressedSize64 : Nat
  compressedSize64 : Nat
  modeType : ModeType
  deriving DecidableEq

/-- `FileInfo().IsDir()`. -/
def ZipFile.isDir (f : ZipFile) : Bool := f.modeType.directory

/-! ## Paths -/

def trimSuffix (text : String) (c : Char) : String :=
  if text.toList.getLast? = some c then String.ofList text.toList.dropLast else text

/-- One component of `path.Clean`, after those before it. -/
def cleanComponent (rooted : Bool) (out : List (List Char)) (component : List Char) : List (List Char) :=
  if component = [] ∨ component = ['.'] then out
  else if component = ['.', '.'] then
    if out ≠ [] ∧ out.getLast? ≠ some ['.', '.'] then out.dropLast
    else if rooted then out
    else out ++ [['.', '.']]
  else out ++ [component]

/-- `path.Clean`. -/
def cleanPath (path : String) : String :=
  let rooted := path.toList.head? = some '/'
  let out := (path.toList.splitOn '/').foldl (cleanComponent rooted) []
  let joined := List.intercalate ['/'] out
  String.ofList (if rooted then '/' :: joined else if out = [] then ['.'] else joined)

def validateArchivePath (name : String) : Except ArchiveError Unit := do
  failIf (name = "" ∨ '\x00' ∈ name.toList ∨ '\\' ∈ name.toList ∨ ':' ∈ name.toList ∨
      name.toList.head? = some '/' ∨ (name.toList.length > 1 ∧ name.toList[1]? = some ':'))
    ⟨"包内路径不安全", some name⟩
  let cleanInput := trimSuffix name '/'
  failIf (cleanInput = "" ∨ cleanPath cleanInput ≠ cleanInput) ⟨"包内路径不安全", some name⟩
  failIf (∃ component ∈ cleanInput.toList.splitOn '/', component = ['.', '.'] ∨ component = ['.'] ∨
      component = []) ⟨"包内路径不安全", some name⟩

/-! ## Budgets -/

def addBudget (total amount limit : Nat) (label : String) : Except ArchiveError Nat := do
  failIf (amount > maxUint64 - total) ⟨label ++ " 计数溢出", none⟩
  failIf (total + amount > limit) ⟨label ++ " 超限", none⟩
  return total + amount

def compressionRatioExceeded (expanded compressed : Nat) : Bool :=
  if expanded = 0 then false
  else if compressed = 0 then true
  else if compressed > maxUint64 / maxArchiveCompressionRatio then false
  else expanded > compressed * maxArchiveCompressionRatio

/-! ## The ledger -/

/-- The files of a directory, with their positions. -/
abbrev FilePtr := ZipFile × Nat

structure Ledger where
  byPath : List (String × FilePtr)
  pathByFile : List (Nat × String)
  native : List String

/-- What the loop over the directory keeps. -/
structure LedgerTotals where
  ledger : Ledger
  expandedTotal : Nat
  compressedTotal : Nat

section Ledger

-- `unicode.ToLower`.
variable (lowerRune : Char → Char)

/-- `strings.ToLower`. -/
def lowerText (text : String) : String := String.ofList (text.toList.map lowerRune)

def isNativeArchiveEntry (name : String) : Bool :=
  let lower := (lowerText lowerRune name).toList
  [".exe", ".dll", ".so", ".dylib"].any fun extension => extension.toList.isSuffixOf lower

def normalizedArchivePath (name : String) : String := lowerText lowerRune (trimSuffix name '/')

/-- `enforceNativeLedgerBudget`. The paths are visited in the order in which they were added; the
source visits them in any order. -/
def enforceNativeLedgerBudget (ledger : Ledger) : Except ArchiveError Unit := do
  let _ ← ledger.native.foldlM (fun (counted : Nat × Nat) normalized => do
    let f ← orFail ⟨"原生 entry 不存在或不是文件", none⟩
      ((ledger.byPath.lookup normalized).filter fun f => !f.1.isDir)
    failIf (counted.1 + 1 > maxNativeEntries) ⟨"原生文件数量超限", none⟩
    let nativeTotal ← addBudget counted.2 f.1.uncompressedSize64 maxNativeHashBytes "原生文件哈希总大小"
    return (counted.1 + 1, nativeTotal)) ((0, 0) : Nat × Nat)

/-- The ledger with another native path. -/
def Ledger.addNative (ledger : Ledger) (normalized : String) : Ledger :=
  if normalized ∈ ledger.native then ledger
  else { ledger with native := ledger.native ++ [normalized] }

/-- The checks of the type and the sizes of a file. -/
def checkFile (totals : LedgerTotals) (f : ZipFile) (normalized : String) :
    Except ArchiveError LedgerTotals := do
  failIf (f.modeType.symlink ∨ (f.modeType ≠ ModeType.regular ∧ f.modeType ≠ ModeDir))
    ⟨"包内不允许链接或特殊文件", some f.name⟩
  if f.isDir then
    failIf (f.modeType ≠ ModeDir) ⟨"目录 entry 类型标记不一致", some f.name⟩
    failIf (f.uncompressedSize64 ≠ 0) ⟨"目录 entry 不得携带数据", some f.name⟩
    return totals
  else
    failIf (f.modeType ≠ ModeType.regular) ⟨"包内不允许链接或特殊文件", some f.name⟩
    failIf (f.uncompressedSize64 > maxArchiveEntryBytes) ⟨"单文件解压大小超限", some f.name⟩
    failIf (f.name = "manifest.json" ∧ f.uncompressedSize64 > maxManifestBytes)
      ⟨"manifest.json 大小超限", none⟩
    let expandedTotal ← addBudget totals.expandedTotal f.uncompressedSize64 maxArchiveExpandedBytes
      "包解压总大小"
    let compressedTotal ← addBudget totals.compressedTotal f.compressedSize64 maxUint64 "包压缩总大小"
    failIf (compressionRatioExceeded f.uncompressedSize64 f.compressedSize64) ⟨"压缩比超限", some f.name⟩
    return ⟨if isNativeArchiveEntry lowerRune f.name then totals.ledger.addNative normalized
      else totals.ledger, expandedTotal, compressedTotal⟩

/-- One round of the loop over the directory. -/
def addFile (totals : LedgerTotals) (ptr : FilePtr) : Except ArchiveError LedgerTotals := do
  validateArchivePath ptr.1.name
  let normalized := normalizedArchivePath lowerRune ptr.1.name
  failIf (totals.ledger.byPath.lookup normalized ≠ none) ⟨"包内 entry 重复", some ptr.1.name⟩
  checkFile lowerRune
    { totals with ledger := { totals.ledger with
        byPath := totals.ledger.byPath ++ [(normalized, ptr)]
        pathByFile := totals.ledger.pathByFile ++ [(ptr.2, normalized)] } }
    ptr.1 normalized

def buildArchiveLedger (files : List ZipFile) : Except ArchiveError Ledger := do
  failIf (files.length > maxArchiveEntries) ⟨"文件数量超限", none⟩
  let totals ← files.zipIdx.foldlM (addFile lowerRune) ⟨⟨[], [], []⟩, 0, 0⟩
  failIf (compressionRatioExceeded totals.expandedTotal totals.compressedTotal) ⟨"包整体压缩比超限", none⟩
  enforceNativeLedgerBudget totals.ledger
  return totals.ledger

/-! ## What a ledger holds -/

/-- The ledger of the files that were passed: their normalized paths are different, and the native
ones are those of regular files with a native extension. -/
structure Ledger.Holds (ledger : Ledger) (ptrs : List FilePtr) : Prop where
  byPath : ledger.byPath = ptrs.map fun ptr => (normalizedArchivePath lowerRune ptr.1.name, ptr)
  pathByFile : ledger.pathByFile = ptrs.map fun ptr => (ptr.2, normalizedArchivePath lowerRune ptr.1.name)
  distinct : (ptrs.map fun ptr => normalizedArchivePath lowerRune ptr.1.name).Nodup
  native : ∀ normalized, normalized ∈ ledger.native ↔ ∃ ptr ∈ ptrs, ptr.1.isDir = false ∧
    isNativeArchiveEntry lowerRune ptr.1.name = true ∧
      normalizedArchivePath lowerRune ptr.1.name = normalized

end Ledger

section Holds

variable {lowerRune : Char → Char} {totals totals' : LedgerTotals} {ptr : FilePtr}

theorem Ledger.mem_addNative {ledger : Ledger} {normalized path : String} :
    path ∈ (ledger.addNative normalized).native ↔ path ∈ ledger.native ∨ path = normalized := by
  rw [Ledger.addNative]
  split_ifs with h
  · exact ⟨.inl, fun hpath => hpath.elim id fun heq => heq ▸ h⟩
  · rw [List.mem_append, List.mem_singleton]

/-- A checked file adds its path to the native ones, if it is one. -/
theorem checkFile_eq_ok {normalized : String} (h : checkFile lowerRune totals ptr.1 normalized = .ok totals') :
    totals'.ledger = if ptr.1.isDir = false ∧ isNativeArchiveEntry lowerRune ptr.1.name = true then
      totals.ledger.addNative normalized else totals.ledger := by
  rw [checkFile] at h
  obtain ⟨_, -, h⟩ := bind_eq_ok.mp h
  split at h
  · rename_i hdir
    simp only [bind_eq_ok, pure_eq_ok] at h
    obtain ⟨_, -, _, -, rfl⟩ := h
    rw [if_neg]
    rw [hdir]
    exact fun hnative => Bool.noConfusion hnative.1
  · rename_i hfile
    simp only [bind_eq_ok, pure_eq_ok] at h
    obtain ⟨_, -, _, -, _, -, _, -, _, -, _, -, rfl⟩ := h
    simp only [Bool.not_eq_true] at hfile
    simp only [hfile, true_and]

theorem addFile_holds {ptrs : List FilePtr} (hledger : totals.ledger.Holds lowerRune ptrs)
    (h : addFile lowerRune totals ptr = .ok totals') : totals'.ledger.Holds lowerRune (ptrs ++ [ptr]) := by
  simp only [addFile, bind_eq_ok, failIf_eq_ok, not_not] at h
  obtain ⟨-, -, -, hnew, hcheck⟩ := h
  have hledger' := checkFile_eq_ok hcheck
  have hfresh : normalizedArchivePath lowerRune ptr.1.name ∉
      ptrs.map fun ptr => normalizedArchivePath lowerRune ptr.1.name := by
    rw [hledger.byPath, List.lookup_eq_none_iff] at hnew
    intro hmem
    obtain ⟨other, hother, heq⟩ := List.mem_map.mp hmem
    have hne := hnew _ (List.mem_map_of_mem hother)
    simp only [bne_iff_ne, ne_eq] at hne
    exact hne heq.symm
  have hdistinct : ((ptrs ++ [ptr]).map fun ptr => normalizedArchivePath lowerRune ptr.1.name).Nodup := by
    rw [List.map_append, List.map_singleton]
    exact List.nodup_append.mpr ⟨hledger.distinct, List.nodup_singleton _, fun path hpath other hother heq =>
      hfresh (by rw [← List.mem_singleton.mp hother, ← heq]; exact hpath)⟩
  have hpaths : totals'.ledger.byPath = totals.ledger.byPath ++
        [(normalizedArchivePath lowerRune ptr.1.name, ptr)] ∧
      totals'.ledger.pathByFile = totals.ledger.pathByFile ++
        [(ptr.2, normalizedArchivePath lowerRune ptr.1.name)] := by
    rw [hledger']
    split
    · rw [Ledger.addNative]
      split <;> exact ⟨rfl, rfl⟩
    · exact ⟨rfl, rfl⟩
  refine ⟨?_, ?_, hdistinct, fun normalized => ?_⟩
  · rw [hpaths.1, hledger.byPath, List.map_append, List.map_singleton]
  · rw [hpaths.2, hledger.pathByFile, List.map_append, List.map_singleton]
  · have hold := hledger.native normalized
    rw [hledger']
    split
    · rename_i hnative
      rw [Ledger.mem_addNative, hold]
      simp only [List.mem_append, List.mem_singleton, or_and_right, exists_or, exists_eq_left]
      exact or_congr_right ⟨fun heq => ⟨hnative.1, hnative.2, heq.symm⟩, fun h => h.2.2.symm⟩
    · rename_i hother
      rw [hold]
      simp only [List.mem_append, List.mem_singleton, or_and_right, exists_or, exists_eq_left]
      exact ⟨.inl, fun h => h.resolve_right fun h => hother ⟨h.1, h.2.1⟩⟩

/-- What a built ledger holds. -/
theorem buildArchiveLedger_holds {files : List ZipFile} {ledger : Ledger}
    (h : buildArchiveLedger lowerRune files = .ok ledger) : ledger.Holds lowerRune files.zipIdx := by
  simp only [buildArchiveLedger, bind_eq_ok, pure_eq_ok] at h
  obtain ⟨-, -, totals, htotals, -, -, -, -, rfl⟩ := h
  refine foldlM_induct (R := fun ptrs totals => totals.ledger.Holds lowerRune ptrs)
    (fun _ _ _ _ => addFile_holds) ?_ htotals
  exact ⟨rfl, rfl, List.nodup_nil, by simp⟩

end Holds

end Useful.Server
