/-
# Installing a package on disk

`install_useful` unpacks an archive into a staging directory, checks it, moves a
version that is already installed to a backup and moves the staged one into its
place. The backup stays until the caller commits the install or rolls it back.

Each file operation may fail, and what it has done until then stays done.
-/

import Useful.Math.Checks
import Useful.Math.Program
import Useful.Math.Unicode
import Useful.Plugins.Manifest
import Mathlib.Logic.Function.Basic

namespace Useful.Plugins

open Useful.Math Useful.Math.Program

/-! ## Errors and options -/

inductive PluginError
  | io (detail : String)
  | json (detail : String)
  | zip (detail : String)
  | manifestInvalid (detail : String)
  | unsafeArchive (detail : String)
  | sizeExceeded (actual limit : Nat)
  | hashMismatch (expected actual : String)
  | signatureInvalid (detail : String)
  | idConflict (detail : String)
  | versionIncompatible (detail : String)
  | downgradeRejected (installed candidate : String)
  | hostVersionTooLow (required current : String)
  | installRolledBack (detail : String)
  | permissionDenied (detail : String)
  deriving DecidableEq, Repr

/-- The `Display` texts. -/
def PluginError.display : PluginError → String
  | io detail => s!"IO 错误: {detail}"
  | json detail => s!"JSON 错误: {detail}"
  | zip detail => s!"ZIP 错误: {detail}"
  | manifestInvalid detail => s!"manifest 校验失败: {detail}"
  | unsafeArchive detail => s!"包结构不安全: {detail}"
  | sizeExceeded actual limit => s!"文件大小超过上限: {actual} > {limit}"
  | hashMismatch expected actual => s!"SHA-256 不匹配: 期望 {expected}, 实际 {actual}"
  | signatureInvalid detail => s!"签名验证失败: {detail}"
  | idConflict detail => s!"插件 ID 冲突或不一致: {detail}"
  | versionIncompatible detail => s!"版本不兼容: {detail}"
  | downgradeRejected installed candidate =>
      s!"版本降级被拒绝: 已安装 {installed}, 尝试安装 {candidate}"
  | hostVersionTooLow required current => s!"宿主版本不满足: 需要 >= {required}, 当前 {current}"
  | installRolledBack detail => s!"安装失败并已回滚: {detail}"
  | permissionDenied detail => s!"权限被拒绝: {detail}"

structure InstallOptions where
  maxPackageSize : Nat
  expectedSha256 : Option String
  hostVersion : String
  installedVersion : Option String
  allowDowngrade : Bool

/-- `INSTALL_RECOVERY_REQUIRED`. -/
def installRecoveryRequired : String := "INSTALL_RECOVERY_REQUIRED"

/-- `RECOVERY_MARKER_FILE`. -/
def recoveryMarkerFile : String := ".useful-install-recovery-required"

/-! ## Directories -/

/-- What lies in a directory. -/
inductive Node
  | file (bytes : List Nat)
  | directory
  | symlink
  deriving DecidableEq

/-- The contents of a directory, by relative path. -/
abbrev Directory := String → Option Node

/-- A path, by its components. -/
abbrev Path := List String

/-- The directories that installs make, move and remove. None of them lies in
another, so each keeps its own contents. -/
abbrev Dirs := Path → Option Directory

/-- The places where a file operation may fail. -/
inductive FileSite
  | createStagingRoot
  | createStaging
  | createParent
  | moveToBackup
  | moveToDestination
  | copyToVolume
  | switchCopy
  | removeStaging
  | removeCopy
  | restoreBackup
  | markBackup
  | rollbackStaging
  | removeDestination
  | quarantine
  | markQuarantine
  | markDestination
  | restoreReplaced
  | markReplaced
  | removeReplaced
  deriving DecidableEq, Repr

/-- The operations that undo what an install has done. -/
def FileSite.Compensates (site : FileSite) : Prop :=
  site ∈ [removeCopy, restoreBackup, rollbackStaging, removeDestination, restoreReplaced]

instance (site : FileSite) : Decidable site.Compensates :=
  inferInstanceAs (Decidable (site ∈ [_, _, _, _, _]))

/-- What the operating system decides: which operations fail, with which texts, and
what an operation that failed halfway leaves. -/
structure Disk where
  fault : FileSite → Option String
  missing : String
  occupied : String
  leftover : Directory → Directory
  partialCopy : Option Directory

namespace Disk

variable (disk : Disk)

/-- `create_dir`. -/
def createDir (site : FileSite) (path : Path) : Program String Dirs Unit := fun dirs =>
  match disk.fault site, dirs path with
  | some text, _ => (.error text, dirs)
  | none, some _ => (.error disk.occupied, dirs)
  | none, none => (.ok (), Function.update dirs path (some fun _ => none))

/-- `create_dir_all` of a directory that only holds others. -/
def createDirAll (site : FileSite) : Program String Dirs Unit :=
  match disk.fault site with
  | some text => fail text
  | none => pure ()

/-- `rename` of a directory to a path that must be free. -/
def rename (site : FileSite) (source target : Path) : Program String Dirs Unit := fun dirs =>
  match disk.fault site, dirs source, dirs target with
  | some text, _, _ => (.error text, dirs)
  | none, none, _ => (.error disk.missing, dirs)
  | none, some _, some _ => (.error disk.occupied, dirs)
  | none, some content, none =>
      (.ok (), Function.update (Function.update dirs target (some content)) source none)

/-- `remove_dir_all`. -/
def removeDirAll (site : FileSite) (path : Path) : Program String Dirs Unit := fun dirs =>
  match disk.fault site, dirs path with
  | some text, content => (.error text, Function.update dirs path (content.map disk.leftover))
  | none, none => (.error disk.missing, dirs)
  | none, some _ => (.ok (), Function.update dirs path none)

/-- `write` of a file in a directory. -/
def writeFile (site : FileSite) (path : Path) (name text : String) : Program String Dirs Unit :=
  fun dirs =>
    match disk.fault site, dirs path with
    | some text, _ => (.error text, dirs)
    | none, none => (.error disk.missing, dirs)
    | none, some content =>
        (.ok (), Function.update dirs path
          (some (Function.update content name (some (.file (utf8 text.toList))))))

/-- `copy_dir_all`: a failed copy tries to remove what it has written. -/
def copyDirAll (site : FileSite) (source target : Path) : Program String Dirs Unit := fun dirs =>
  match disk.fault site, dirs source with
  | some text, _ => (.error text, Function.update dirs target disk.partialCopy)
  | none, none => (.error disk.missing, dirs)
  | none, some content => (.ok (), Function.update dirs target (some content))

end Disk

/-- `path.exists()`. -/
def existsDir {ε : Type} (path : Path) : Program ε Dirs Bool :=
  read fun dirs => (dirs path).isSome

/-- Remove a directory that exists; the error if this fails. -/
def removeExisting {ε : Type} (disk : Disk) (site : FileSite) (path : Path) :
    Program ε Dirs (Option String) := do
  if ← existsDir path then
    match ← attempt (disk.removeDirAll site path) with
    | .ok _ => return none
    | .error error => return some error
  else
    return none

/-- `path.with_extension(extension)` on a file name: what follows the last dot is
replaced, unless only the first character is a dot. -/
def withExtensionName (name extension : String) : String :=
  let before := (name.toList.reverse.dropWhile (· ≠ '.')).tail.reverse
  let stem := if before = [] then name else String.ofList before
  s!"{stem}.{extension}"

/-- `path.with_extension(extension)`. -/
def withExtension (path : Path) (extension : String) : Path :=
  match path.getLast? with
  | none => path
  | some name => path.dropLast ++ [withExtensionName name extension]

/-- `sanitize_component`. -/
def sanitizeComponent (id : String) : String :=
  String.ofList (id.toList.map fun c =>
    if c.isAlphanum || c == '.' || c == '-' || c == '_' then c else '_')

/-! ## The transaction of an install -/

structure InstallTransaction where
  destination : Path
  replaced : Option Path
  finalized : Bool
  deriving DecidableEq, Repr

structure InstallOutcome where
  manifest : PluginManifest
  installDir : Path
  sha256 : String
  transaction : InstallTransaction

/-- The random names of one install. -/
structure Uuids where
  staging : String
  old : String
  copy : String
  orphan : String

namespace InstallTransaction

/-- `commit`: removing the backup is best effort. -/
def commit {ε : Type} (disk : Disk) (t : InstallTransaction) : Program ε Dirs Unit :=
  match t.replaced with
  | none => pure ()
  | some replaced => do
      let _ ← attempt (disk.removeDirAll .removeReplaced replaced)
      return ()

/-- The first part of `rollback`: the new version goes, or is set aside. -/
def removeDestination {ε : Type} (disk : Disk) (uuids : Uuids) (t : InstallTransaction) :
    Program ε Dirs (List String) := do
  if ← existsDir t.destination then
    match ← attempt (disk.removeDirAll .removeDestination t.destination) with
    | .ok _ => return []
    | .error removeError =>
        let orphan := uuids.orphan
        let quarantine := withExtension t.destination s!"orphan-recovery-required-{orphan}"
        match ← attempt (disk.rename .quarantine t.destination quarantine) with
        | .ok _ =>
            let marker ← attempt (disk.writeFile .markQuarantine quarantine recoveryMarkerFile
              "This directory is an incomplete install and must not be loaded.\n")
            let markerFailures := match marker with
              | .ok _ => []
              | .error markerError => [s!"隔离未完成安装后写 recovery marker 失败: {markerError}"]
            return markerFailures ++ [s!"删除未完成安装失败，已隔离为 orphan: {removeError}"]
        | .error quarantineError =>
            let marker ← attempt (disk.writeFile .markDestination t.destination recoveryMarkerFile
              "This directory is an incomplete install and must not be loaded.\n")
            let markerFailure := match marker with
              | .ok _ => ""
              | .error error => s!"，recovery marker 也写入失败 ({error})"
            return [s!"删除未完成安装失败 ({removeError})，且无法隔离 ({quarantineError}){markerFailure}"]
  else
    return []

/-- The second part of `rollback`: the replaced version comes back. -/
def restoreReplaced {ε : Type} (disk : Disk) (t : InstallTransaction) :
    Program ε Dirs (List String) := do
  match t.replaced with
  | none => return []
  | some replaced =>
      match ← attempt (disk.rename .restoreReplaced replaced t.destination) with
      | .ok _ => return []
      | .error error =>
          let marker ← attempt (disk.writeFile .markReplaced replaced recoveryMarkerFile
            "This directory is the hidden pre-install version; manual recovery is required.\n")
          let markerFailure := match marker with
            | .ok _ => ""
            | .error markerError => s!"，recovery marker 也写入失败 ({markerError})"
          return [s!"恢复被替换版本失败: {error}{markerFailure}"]

/-- `rollback`. It finalizes the transaction, so dropping it does no more. -/
def rollback (disk : Disk) (uuids : Uuids) (t : InstallTransaction) :
    Program PluginError Dirs Unit := do
  if t.finalized then
    return ()
  let removing ← t.removeDestination disk uuids
  let restoring ← t.restoreReplaced disk
  let failures := "; ".intercalate (removing ++ restoring)
  if removing ++ restoring = [] then
    return ()
  else
    fail (.installRolledBack s!"{installRecoveryRequired}: {failures}")

end InstallTransaction

/-! ## `install_useful` -/

/-- What the package tools report about an archive. -/
structure Archive where
  size : Except PluginError Nat
  sha256 : Except PluginError String
  manifest : Except PluginError PluginManifest
  /-- `extract_zip_safely`, and what it has written when it stops. -/
  extract : Except PluginError Unit
  extracted : Directory

/-- The parsers of the crates an install relies on. -/
structure Parsers (V : Type) where
  /-- `semver::Version::parse`. -/
  version : String → Except String V
  /-- `PluginManifest::parse_and_validate`. -/
  manifest : List Nat → Except PluginError PluginManifest

/-- The roots below which an install works. -/
structure Roots where
  staging : Path
  plugins : Path

namespace Roots

/-- `data/plugins/<id>/<version>`. -/
def destination (roots : Roots) (m : PluginManifest) : Path :=
  roots.plugins ++ [sanitizeComponent m.id, m.version]

def stagingDir (roots : Roots) (uuids : Uuids) (m : PluginManifest) : Path :=
  let id := sanitizeComponent m.id
  let version := m.version
  let uuid := uuids.staging
  roots.staging ++ [s!"{id}-{version}-{uuid}"]

def backup (roots : Roots) (uuids : Uuids) (m : PluginManifest) : Path :=
  let uuid := uuids.old
  withExtension (roots.destination m) s!"old-{uuid}"

def copyDir (roots : Roots) (uuids : Uuids) (m : PluginManifest) : Path :=
  let uuid := uuids.copy
  withExtension (roots.destination m) s!"copy-{uuid}"

/-- Random names are different from each other and from names in use. -/
structure Fresh (roots : Roots) (uuids : Uuids) (m : PluginManifest) (dirs : Dirs) : Prop where
  nodup : [roots.destination m, roots.stagingDir uuids m, roots.backup uuids m,
    roots.copyDir uuids m].Nodup
  copyDir_free : dirs (roots.copyDir uuids m) = none

end Roots

section Install

variable {V : Type} [LT V] [DecidableLT V] (parsers : Parsers V)

/-- `check_host_version`. -/
def checkHostVersion (m : PluginManifest) (hostVersion : String) : Except PluginError Unit := do
  let required ← (parsers.version m.minHostVersion).mapError .versionIncompatible
  let current ← (parsers.version hostVersion).mapError .versionIncompatible
  failIf (current < required) (.hostVersionTooLow m.minHostVersion hostVersion)

/-- The downgrade check. -/
def checkDowngrade (m : PluginManifest) (opts : InstallOptions) : Except PluginError Unit :=
  match opts.installedVersion with
  | none => return ()
  | some installed => do
      let cur ← (parsers.version installed).mapError .versionIncompatible
      let cand ← (parsers.version m.version).mapError .versionIncompatible
      failIf (cand < cur ∧ opts.allowDowngrade = false) (.downgradeRejected installed m.version)

/-- `eq_ignore_ascii_case`. -/
def eqIgnoreAsciiCase (a b : String) : Bool :=
  a.toList.map Char.toLower == b.toList.map Char.toLower

/-- The checks before anything is written: the manifest and the digest. -/
def preflight (archive : Archive) (opts : InstallOptions) :
    Except PluginError (PluginManifest × String) := do
  let size ← archive.size
  failIf (size > opts.maxPackageSize) (.sizeExceeded size opts.maxPackageSize)
  let actualSha ← archive.sha256
  match opts.expectedSha256 with
  | none => pure ⟨⟩
  | some expected =>
      failIf (eqIgnoreAsciiCase actualSha expected = false) (.hashMismatch expected actualSha)
  let m ← archive.manifest
  failIf ("windows-x64" ∉ m.platforms) (.versionIncompatible "插件不支持 windows-x64")
  checkHostVersion parsers m opts.hostVersion
  checkDowngrade parsers m opts
  return (m, actualSha)

/-- The checks on the staged directory. -/
def checkStaged (m : PluginManifest) (content : Directory) : Except PluginError Unit := do
  let extracted ← match content "manifest.json" with
    | none => .error (.manifestInvalid "解压后缺少 manifest.json")
    | some (.file bytes) => parsers.manifest bytes
    | some _ => .error (.io "manifest.json")
  failIf (extracted.id ≠ m.id ∨ extracted.version ≠ m.version)
    (.idConflict "解压后的 manifest 与预检不一致")
  let path := m.path
  failIf (m.entryType = .web ∧ content m.path = none)
    (.manifestInvalid s!"web 入口文件不存在: {path}")
  forM m.contributes.actions fun action => do
    let path := action.path
    match content action.path with
    | none => .error (.manifestInvalid s!"action spec 文件不存在: {path}")
    | some (.file _) => .ok ()
    | some _ => .error (.manifestInvalid s!"action spec 必须是普通文件: {path}")

variable (disk : Disk) (archive : Archive)

/-- Unpack and check. -/
def stage (m : PluginManifest) (staging : Path) : Program PluginError Dirs Unit := do
  modify fun dirs => Function.update dirs staging (some archive.extracted)
  ofExcept archive.extract
  ofExcept (checkStaged parsers m archive.extracted)

/-- An installed version of the same number moves to a backup. -/
def backUp (destination backup : Path) : Program PluginError Dirs (Option Path) := do
  if ← existsDir destination then
    mapError .io (disk.rename .moveToBackup destination backup)
    return some backup
  else
    return none

/-- The replaced version comes back after a swap that failed. -/
def restoreBackup (destination : Path) : Option Path → Program PluginError Dirs (List String)
  | none => return []
  | some replaced => do
      match ← attempt (disk.rename .restoreBackup replaced destination) with
      | .ok _ => return []
      | .error error =>
          let _ : Except String Unit ← attempt (disk.writeFile .markBackup replaced recoveryMarkerFile
            "This directory is the hidden pre-install version; manual recovery is required.\n")
          return [s!"恢复被替换版本失败: {error}"]

/-- A copy has taken the place of the staged version, which cannot be removed. -/
def undoSwitch (uuids : Uuids) (t : InstallTransaction) (cleanupError : String) :
    Program PluginError Dirs (Path × Option Path) := do
  match ← attempt (t.rollback disk uuids) with
  | .ok _ =>
      fail (.installRolledBack s!"目标卷副本切换后清理 staging 失败并已回滚: {cleanupError}")
  | .error error =>
      let error := error.display
      fail (.installRolledBack s!"目标卷副本切换后清理 staging 失败: {cleanupError}; {error}")

/-- Neither a move nor a copy has put the staged version into its place. -/
def undoBackup (destination copyDir : Path) (backup : Option Path)
    (renameError copyError : String) : Program PluginError Dirs (Path × Option Path) := do
  let removing ← removeExisting disk .removeCopy copyDir
  let removing := removing.toList.map fun error => s!"清理不完整副本失败: {error}"
  let restoring ← restoreBackup disk destination backup
  let failures := "; ".intercalate (removing ++ restoring)
  let recovery := if removing ++ restoring = [] then ""
    else s!"; {installRecoveryRequired}: {failures}"
  fail (.installRolledBack
    s!"原子移动失败: {renameError}; 目标卷副本切换失败: {copyError}{recovery}")

/-- Copy the staged version to the volume of its place, and move the copy there. -/
def switchCopy (staging destination copyDir : Path) : Program String Dirs Unit := do
  disk.copyDirAll .copyToVolume staging copyDir
  disk.rename .switchCopy copyDir destination

/-- Move the staged version into its place; across volumes, by way of a copy. -/
def swap (uuids : Uuids) (staging destination copyDir : Path) (backup : Option Path) :
    Program PluginError Dirs (Path × Option Path) := do
  match ← attempt (disk.rename .moveToDestination staging destination) with
  | .ok _ => return (destination, backup)
  | .error renameError =>
      match ← attempt (switchCopy disk staging destination copyDir) with
      | .error copyError => undoBackup disk destination copyDir backup renameError copyError
      | .ok _ =>
          match ← attempt (disk.removeDirAll .removeStaging staging) with
          | .ok _ => return (destination, backup)
          | .error cleanupError =>
              undoSwitch disk uuids ⟨destination, backup, false⟩ cleanupError

/-- The closure of `install_useful`: everything between making the staging
directory and cleaning it up. -/
def stageAndSwap (roots : Roots) (uuids : Uuids) (m : PluginManifest) :
    Program PluginError Dirs (Path × Option Path) := do
  stage parsers archive m (roots.stagingDir uuids m)
  mapError .io (disk.createDirAll .createParent)
  let backup ← backUp disk (roots.destination m) (roots.backup uuids m)
  swap disk uuids (roots.stagingDir uuids m) (roots.destination m) (roots.copyDir uuids m) backup

/-- `install_useful`. -/
def installUseful (opts : InstallOptions) (roots : Roots) (uuids : Uuids) :
    Program PluginError Dirs InstallOutcome := do
  let (m, actualSha) ← ofExcept (preflight parsers archive opts)
  mapError .io (disk.createDirAll .createStagingRoot)
  mapError .io (disk.createDir .createStaging (roots.stagingDir uuids m))
  match ← attempt (stageAndSwap parsers disk archive roots uuids m) with
  | .ok (installDir, replaced) =>
      return ⟨m, installDir, actualSha, ⟨installDir, replaced, false⟩⟩
  | .error e =>
      let stagingRollback ← removeExisting disk .rollbackStaging (roots.stagingDir uuids m)
      let original := match e with
        | .installRolledBack message => message
        | other => other.display
      fail (.installRolledBack (match stagingRollback with
        | some error => s!"{original}; staging rollback 失败: {error}"
        | none => original))

end Install

end Useful.Plugins
