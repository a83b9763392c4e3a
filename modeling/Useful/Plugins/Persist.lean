/-
# Committing an install

`persist_installed` follows `install_useful`: it writes the rows of the new version
in one transaction, replaces the definition in the registry and commits. Until the
commit any statement, any lock and the registration may fail. Then the transaction
is rolled back, the registry entry is put back and the version directory is
restored; what cannot be undone is isolated instead.
-/

import Useful.Core.Registry
import Useful.Core.TufState
import Useful.Math.Connection
import Useful.Plugins.InstallRollback
import Useful.Plugins.ToolTables

namespace Useful.Plugins

open Useful.Core Useful.Math Useful.Math.Program

/-! ## The three stores -/

/-- The tables an install writes. -/
structure Database where
  tools : Tables
  sources : Sources

/-- The version directories, the database connection and the registry. -/
structure World where
  dirs : Dirs
  db : Connection Database
  registry : ToolRegistry

structure CmdError where
  message : String
  code : Option String
  deriving DecidableEq, Repr

/-- `CmdError::from` an error with a text. -/
def CmdError.ofText (text : String) : CmdError := ⟨text, none⟩

/-- The `Display` texts. -/
def displayCoreError : CoreError → String
  | .db detail => s!"数据库错误: {detail}"
  | .trustState detail => s!"仓库信任状态拒绝: {detail}"

/-- `message.contains("INSTALL_RECOVERY_REQUIRED")`. -/
def mentionsRecovery (message : String) : Bool :=
  decide (installRecoveryRequired.toList <:+: message.toList)

/-- The places outside the file system where an install may fail. -/
inductive Site
  | serialize
  | lockDatabase
  | beginImmediate
  | upsertTool
  | upsertVersion
  | deleteGrants
  | insertGrant (index : Nat)
  | selectTuf
  | updateTuf
  | upsertOrigin
  | queryOrigin
  | lockRegistry
  | register
  | commit
  | rollback
  | restoreRegistration
  | isolateRegistry
  | isolateDatabase
  | isolateRollback
  | isolateBegin
  | isolateDisable
  | isolateCommit
  | isolateAbandon
  deriving DecidableEq, Repr

/-- What the outside decides: the disk, the faults, the time, and how paths read. -/
structure Outside where
  disk : Disk
  fault : Site → Option Fault
  now : Int
  toStringLossy : Path → String

structure TrpInstallCommit where
  sourceId : String
  discoveryUrl : String
  rootFingerprint : String
  publisherKeyId : String
  installedVersion : String
  artifactSha256 : String
  channel : String
  manifestDigest : String
  tufState : TrpTufState

namespace TrpInstallCommit

/-- What is accepted for the source. -/
def acceptCall (trp : TrpInstallCommit) : AcceptCall where
  sourceId := trp.sourceId
  expectedDiscoveryUrl := trp.discoveryUrl
  expectedRootFingerprint := trp.rootFingerprint
  candidate := trp.tufState

/-- The row that pins the tool to the source. -/
def origin (trp : TrpInstallCommit) : InstalledOrigin where
  sourceId := trp.sourceId
  publisherKeyId := trp.publisherKeyId
  installedVersion := trp.installedVersion
  artifactSha256 := trp.artifactSha256
  channel := trp.channel
  manifestDigest := trp.manifestDigest

end TrpInstallCommit

/-- `manifest_to_tool`. -/
def manifestToTool (m : PluginManifest) (installDir : String) : ToolDefinition where
  id := m.id
  name := m.name
  description := m.description
  icon := match m.icon with
    | some icon => s!"{installDir}/{icon}"
    | none => "plugin"
  route := let id := m.id; s!"/plugin/{id}"
  category := .installed
  kind := match m.entryType with
    | .web => .web
    | .launcher => .launcher
    | .worker => .worker
  order := match m.contributes.sidebar with
    | [] => 100
    | item :: _ => item.order
  supportsShortcut := true
  requiredCapabilities := m.permissions
  version := some m.version

/-! ## The programs -/

/-- Work on the version directories. -/
def onDirs {ε : Type} {α : Type} (p : Program ε Dirs α) : Program ε World α :=
  onPart World.dirs (fun w dirs => { w with dirs := dirs }) p

/-- Work on the connection. -/
def onDb {ε : Type} {α : Type} (p : Program ε (Connection Database) α) : Program ε World α :=
  onPart World.db (fun w db => { w with db := db }) p

/-- Work on the registry. -/
def onRegistry {ε : Type} {α : Type} (p : Program ε ToolRegistry α) : Program ε World α :=
  onPart World.registry (fun w registry => { w with registry := registry }) p

/-- A statement that changes the rows of one tool. -/
def updateTool (id : String) (f : ToolEntry → ToolEntry) (db : Database) : Database :=
  { db with tools := Function.update db.tools id (f (db.tools id)) }

namespace ToolEntry

/-- `DELETE FROM granted_permissions`. -/
def deleteGrants (entry : ToolEntry) : ToolEntry := { entry with granted := ∅ }

/-- `INSERT OR IGNORE INTO granted_permissions`. -/
def insertGrant (entry : ToolEntry) (permission : String) : ToolEntry :=
  { entry with granted := insert permission entry.granted }

def setOrigin (entry : ToolEntry) (origin : InstalledOrigin) : ToolEntry :=
  { entry with origin := some origin }

/-- `UPDATE tools SET enabled = 0`. -/
def disable (entry : ToolEntry) : ToolEntry :=
  { entry with tool := entry.tool.map fun row => { row with enabled := false } }

end ToolEntry

section Persist

variable (out : Outside)

namespace Outside

/-- A statement of the install, whose error becomes the command's. -/
def statement (site : Site) (f : Database → Database) : Program CmdError World PUnit :=
  mapError .ofText (onDb (Connection.execute (out.fault site) f))

/-- The statement of the TUF acceptance that fails. -/
def tufFault : Option SqlFault :=
  match out.fault .selectTuf, out.fault .updateTuf with
  | some f, _ => some (.select f.text)
  | none, some f => some (.update f.text)
  | none, none => none

/-- `accept_trp_tuf_state_in_transaction`. -/
def acceptTufState (call : AcceptCall) : Program CoreError (Connection Database) Unit := fun c =>
  match acceptTrpTufStateInTransaction c.visible.sources call out.tufFault with
  | .ok sources => (.ok (), c.write { c.visible with sources := sources })
  | .error e => (.error e, c)

/-- `serde_json::to_string` of the manifest. -/
def serializeManifest : Program CmdError World PUnit :=
  match out.fault .serialize with
  | some f => fail (.ofText f.text)
  | none => pure ⟨⟩

/-- A lock, or the error for a poisoned one. -/
def lock (site : Site) (message : String) : Program CmdError World PUnit :=
  match out.fault site with
  | some _ => fail (.ofText message)
  | none => pure ⟨⟩

/-- `rollback_database`: roll back and return the original error. -/
def rollbackDatabase {α : Type} (original : CmdError) : Program CmdError World α := do
  match ← attempt (onDb (Connection.rollback (out.fault .rollback))) with
  | .ok _ => fail original
  | .error error =>
      let message := original.message
      fail (.ofText s!"{message}; INSTALL_RECOVERY_REQUIRED: SQLite rollback 失败: {error}")

/-- `reg.register(tool)`. -/
def register (site : Site) (tool : ToolDefinition) : Program String World Unit :=
  match out.fault site with
  | some f => fail f.text
  | none => onRegistry (ToolRegistry.register tool)

/-- Put back the definition that was replaced, and return the error to report. -/
def restoreRegistration (previous : Option ToolDefinition) (original : CmdError) :
    Program CmdError World CmdError := do
  match previous with
  | none => return original
  | some previous =>
      match ← attempt (out.register .restoreRegistration previous) with
      | .ok _ => return original
      | .error restoreError =>
          let message := original.message
          return .ofText
            s!"{message}; INSTALL_RECOVERY_REQUIRED: 恢复注册表失败: {restoreError}"

end Outside

/-- The statements between `BEGIN` and the registration. -/
def applyInstall (outcome : InstallOutcome) (trp : Option TrpInstallCommit) :
    Program CmdError World PUnit := do
  let m := outcome.manifest
  let installDir := out.toStringLossy outcome.installDir
  out.statement .upsertTool (updateTool m.id fun entry => entry.upsertTool m)
  out.statement .upsertVersion (updateTool m.id fun entry =>
    entry.upsertVersion m.version (some installDir) m (some outcome.sha256) out.now)
  out.statement .deleteGrants (updateTool m.id ToolEntry.deleteGrants)
  m.permissions.zipIdx.forM fun perm =>
    out.statement (.insertGrant perm.2) (updateTool m.id fun entry => entry.insertGrant perm.1)
  match trp with
  | some trp => do
      mapError (fun e => .ofText (displayCoreError e)) (onDb (out.acceptTufState trp.acceptCall))
      out.statement .upsertOrigin (updateTool m.id fun entry => entry.setOrigin trp.origin)
  | none => do
      let pinned ← mapError .ofText (onDb (Connection.query (out.fault .queryOrigin)
        fun db => (db.tools m.id).origin.isSome))
      ofExcept (failIf pinned (.ofText
        "SOURCE_PINNED_LOCAL_INSTALL_REJECTED: 已安装工具绑定到 TRP 来源，不能通过本地包覆盖"))

/-- `persist_installed_inner`. -/
def persistInstalledInner (outcome : InstallOutcome) (trp : Option TrpInstallCommit) :
    Program CmdError World ToolDefinition := do
  let installDir := out.toStringLossy outcome.installDir
  out.serializeManifest
  out.lock .lockDatabase "锁定数据库失败"
  mapError .ofText (onDb (Connection.beginImmediate (out.fault .beginImmediate)))
  match ← attempt (applyInstall out outcome trp) with
  | .error error => out.rollbackDatabase error
  | .ok _ =>
      let tool := manifestToTool outcome.manifest installDir
      match ← attempt (out.lock .lockRegistry "锁定注册表失败") with
      | .error error => out.rollbackDatabase error
      | .ok _ =>
          let previous ← onRegistry (ToolRegistry.unregister tool.id)
          match ← attempt (out.register .register tool) with
          | .error error =>
              let original ← out.restoreRegistration previous (.ofText error)
              out.rollbackDatabase original
          | .ok _ =>
              match ← attempt (onDb (Connection.commit (out.fault .commit))) with
              | .error error =>
                  let _ ← onRegistry (ToolRegistry.unregister tool.id)
                  let original ← out.restoreRegistration previous (.ofText error)
                  out.rollbackDatabase original
              | .ok _ => return tool

/-- `isolate_recovery_tool`. -/
def isolateRecoveryTool (toolId : String) (original : CmdError) (rollbackError : Option String) :
    Program CmdError World CmdError := do
  let registryFailures ← match out.fault .isolateRegistry with
    | some _ => pure ["锁定注册表隔离 orphan 失败"]
    | none => do
        let _ ← onRegistry (ToolRegistry.unregister toolId)
        pure []
  let databaseFailures ← match out.fault .isolateDatabase with
    | some _ => pure ["锁定数据库禁用 orphan 失败"]
    | none => do
        let _ ← attempt (onDb (Connection.rollback (out.fault .isolateRollback)))
        let disable ← attempt do
          onDb (Connection.beginImmediate (out.fault .isolateBegin))
          onDb (Connection.execute (out.fault .isolateDisable) (updateTool toolId .disable))
          onDb (Connection.commit (out.fault .isolateCommit))
        match disable with
        | .ok _ => pure []
        | .error error =>
            let _ ← attempt (onDb (Connection.rollback (out.fault .isolateAbandon)))
            pure [s!"禁用 orphan 工具失败: {error}"]
  let isolationFailures := registryFailures ++ databaseFailures
  let rollback := match rollbackError with
    | some error => s!"; {error}"
    | none => ""
  let failures := "; ".intercalate isolationFailures
  let isolation := if isolationFailures = [] then "" else s!"; {failures}"
  let message := original.message
  return .ofText s!"{message}; INSTALL_RECOVERY_REQUIRED{rollback}{isolation}"

/-- `persist_installed`. -/
def persistInstalled (uuids : Uuids) (outcome : InstallOutcome) (trp : Option TrpInstallCommit) :
    Program CmdError World ToolDefinition := do
  let toolId := outcome.manifest.id
  match ← attempt (persistInstalledInner out outcome trp) with
  | .ok tool =>
      onDirs (outcome.transaction.commit out.disk)
      return tool
  | .error original =>
      match ← attempt (onDirs (outcome.transaction.rollback out.disk uuids)) with
      | .ok _ =>
          if mentionsRecovery original.message = false then
            fail original
          else do
            let e ← isolateRecoveryTool out toolId original none
            fail e
      | .error rollbackError =>
          let e ← isolateRecoveryTool out toolId original (some rollbackError.display)
          fail e

/-- How the commands that install a package end: `install_useful` on the archive, then
`persist_installed`. -/
def installPackage {V : Type} [LT V] [DecidableLT V] (parsers : Parsers V) (archive : Archive)
    (opts : InstallOptions) (roots : Roots) (uuids : Uuids) (trp : Option TrpInstallCommit) :
    Program CmdError World ToolDefinition := do
  let outcome ← mapError (fun e => .ofText e.display)
    (onDirs (installUseful parsers out.disk archive opts roots uuids))
  persistInstalled out uuids outcome trp

end Persist

end Useful.Plugins
