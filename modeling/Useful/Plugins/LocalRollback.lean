/-
# Rolling a tool back to its previous version

`tool_rollback` selects the version to go back to, updates the row of the tool,
deletes the rows and the files of the current version and registers the earlier
one. Each statement commits by itself and nothing is undone. Until the row of the
tool is updated an error changes nothing; from then on every error leaves the tool
on a version it was not on before.
-/

import Useful.Plugins.Persist
import Mathlib.Data.List.MinMax

namespace Useful.Plugins

open Useful.Core Useful.Math Useful.Math.Program

/-! ## What the command reads and writes -/

/-- The places where a rollback may fail for a reason outside the program. -/
inductive RollbackSite
  | lockVersions
  | queryOrigin
  | queryCurrent
  | queryPrevious
  | parseManifest
  | lockDatabase
  | updateTool
  | deleteVersion
  | removeDirectory
  | lockRegistry
  deriving DecidableEq, Repr

/-- One of the latest versions other than the current one. -/
structure IsPrevious (entry : ToolEntry) (current version : String) (row : VersionRow) : Prop where
  ne : version ≠ current
  lookup : entry.versions.lookup version = some row
  latest : ∀ other ∈ entry.versions.entries, other.1 ≠ current →
    other.2.installedAt ≤ row.installedAt

/-- What the outside decides in a rollback. `ORDER BY installed_at DESC LIMIT 1` may
return any of the latest rows. -/
structure RollbackOutside where
  fault : RollbackSite → Option Fault
  previous : ToolEntry → String → Option (String × VersionRow)
  isPrevious : ∀ entry current version row,
    previous entry current = some (version, row) → IsPrevious entry current version row
  noPrevious : ∀ entry current, previous entry current = none →
    ∀ other ∈ entry.versions.entries, other.1 = current
  pathExists : String → Bool
  leftover : Directory → Directory
  pluginsDir : Path

/-- The version a rollback leaves, and the one it goes back to. -/
structure RollbackTarget where
  current : String
  version : String
  manifest : PluginManifest
  installDir : Option String

namespace ToolEntry

/-- `SELECT current_version`. -/
def currentVersion (entry : ToolEntry) : Option String :=
  entry.tool.bind ToolRow.currentVersion

/-- `UPDATE tools SET current_version, name, description`. -/
def switchTo (entry : ToolEntry) (version : String) (m : PluginManifest) : ToolEntry :=
  { entry with
    tool := entry.tool.map fun row =>
      { row with currentVersion := some version, name := m.name, description := m.description } }

/-- `DELETE FROM tool_versions` of one version. -/
def deleteVersion (entry : ToolEntry) (version : String) : ToolEntry :=
  { entry with versions := entry.versions.erase version }

@[simp] theorem currentVersion_deleteVersion (entry : ToolEntry) (version : String) :
    (entry.deleteVersion version).currentVersion = entry.currentVersion :=
  rfl

theorem currentVersion_switchTo {entry : ToolEntry} {current : String}
    (h : entry.currentVersion = some current) (version : String) (m : PluginManifest) :
    (entry.switchTo version m).currentVersion = some version := by
  obtain ⟨row, hrow, -⟩ := Option.bind_eq_some_iff.mp h
  simp [currentVersion, switchTo, hrow]

end ToolEntry

namespace RollbackOutside

variable (out : RollbackOutside)

def lock (site : RollbackSite) (message : String) : Program CmdError World PUnit :=
  match out.fault site with
  | some _ => fail (.ofText message)
  | none => pure ⟨⟩

def query {α : Type} (site : RollbackSite) (f : Database → α) : Program String World α :=
  onDb (Connection.query (out.fault site) f)

/-- A statement that commits by itself. -/
def statement (site : RollbackSite) (f : Database → Database) : Program CmdError World PUnit :=
  mapError .ofText (onDb (Connection.execute (out.fault site) f))

/-- A row that was asked for; an engine error reads as its absence. -/
def queryRow {α : Type} (site : RollbackSite) (message : String) (f : Database → Option α) :
    Program CmdError World α := do
  match ← attempt (out.query site f) with
  | .ok (some row) => return row
  | _ => fail (.ofText message)

/-- `serde_json::from_str` of the manifest column. -/
def parseManifest (row : VersionRow) : Program CmdError World PluginManifest :=
  match out.fault .parseManifest with
  | some f => let error := f.text; fail (.ofText s!"上一版本 manifest 损坏: {error}")
  | none => pure row.manifest

/-- The recorded directory is no longer there. -/
def filesGone (row : VersionRow) : Bool :=
  match row.installDir with
  | some dir => dir != "" && !out.pathExists dir
  | none => false

/-- The directory of one version. -/
def versionDir (id version : String) : Path := out.pluginsDir ++ [sanitizeComponent id, version]

/-- `uninstall_version`. -/
def uninstallVersion (id version : String) : Program String Dirs Unit := fun dirs =>
  let dir := out.versionDir id version
  match dirs dir with
  | none => (.ok (), dirs)
  | some content =>
      match out.fault .removeDirectory with
      | some f => (.error f.text, Function.update dirs dir (some (out.leftover content)))
      | none => (.ok (), Function.update dirs dir none)

end RollbackOutside

/-! ## The command -/

section Command

variable (out : RollbackOutside) (id : String)

/-- The two reading parts of `tool_rollback`. -/
def selectRollback : Program CmdError World RollbackTarget := do
  out.lock .lockVersions "锁定数据库失败"
  let pinned ← mapError .ofText (out.query .queryOrigin fun db => (db.tools id).origin.isSome)
  ofExcept (failIf pinned (.ofText
    "SOURCE_PINNED_ROLLBACK_REJECTED: TRP 工具必须使用受验证的来源回滚"))
  let current ← out.queryRow .queryCurrent "工具未安装" fun db => (db.tools id).currentVersion
  let previous ← out.queryRow .queryPrevious "没有可回滚的上一个版本"
    fun db => out.previous (db.tools id) current
  ofExcept (failIf (out.filesGone previous.2) (.ofText "上一版本文件已不存在，无法回滚"))
  let manifest ← out.parseManifest previous.2
  return ⟨current, previous.1, manifest, previous.2.installDir⟩

/-- The registration of the version that came back. -/
def reregister (tool : ToolDefinition) : Program CmdError World Unit := do
  out.lock .lockRegistry "锁定注册表失败"
  let _ ← onRegistry (ToolRegistry.unregister tool.id)
  mapError .ofText (onRegistry (ToolRegistry.register tool))

/-- `tool_rollback`. -/
def toolRollback : Program CmdError World ToolDefinition := do
  let target ← selectRollback out id
  out.lock .lockDatabase "锁定数据库失败"
  out.statement .updateTool
    (updateTool id fun entry => entry.switchTo target.version target.manifest)
  out.statement .deleteVersion (updateTool id fun entry => entry.deleteVersion target.current)
  mapError .ofText (onDirs (out.uninstallVersion id target.current))
  let tool := manifestToTool target.manifest (target.installDir.getD "")
  reregister out tool
  return tool

/-! ## The parts of a call -/

/-- What the command asks for before it writes, and gets. -/
structure Selects (w : World) (target : RollbackTarget) : Prop where
  quiet : ∀ site ∈ [RollbackSite.lockVersions, .queryOrigin, .queryCurrent, .queryPrevious,
    .parseManifest], out.fault site = none
  unpinned : (w.db.visible.tools id).origin.isSome = false
  current : (w.db.visible.tools id).currentVersion = some target.current
  previous : ∃ row, out.previous (w.db.visible.tools id) target.current =
    some (target.version, row) ∧ out.filesGone row = false ∧
    target.manifest = row.manifest ∧ target.installDir = row.installDir

/-- The call gets to the update of the tool's row, and makes it. -/
structure Updates (w : World) (target : RollbackTarget) : Prop where
  selects : Selects out id w target
  locked : out.fault .lockDatabase = none
  updated : out.fault .updateTool = none

/-- The steps after the update of the tool's row succeed. -/
structure Finishes (w : World) (current : String) : Prop where
  deleted : out.fault .deleteVersion = none
  removed : w.dirs (out.versionDir id current) = none ∨ out.fault .removeDirectory = none
  locked : out.fault .lockRegistry = none

/-- The rows and the registry entry of one tool are the same. -/
structure SameTool (w t : World) : Prop where
  entry : t.db.visible.tools id = w.db.visible.tools id
  definition : t.registry.get id = w.registry.get id

/-- The world after a statement. -/
def World.written (w : World) (d : Database) : World := { w with db := w.db.write d }

@[simp] theorem World.visible_written (w : World) (d : Database) :
    (w.written d).db.visible = d :=
  Connection.visible_write _ _

variable {out : RollbackOutside} {id : String} {w : World}

theorem SameTool.refl (id : String) (w : World) : SameTool id w w :=
  ⟨rfl, rfl⟩

namespace Selects

variable {target : RollbackTarget}

theorem fault_eq_none (h : Selects out id w target) {site : RollbackSite}
    (hsite : site ∈ [RollbackSite.lockVersions, .queryOrigin, .queryCurrent, .queryPrevious,
      .parseManifest]) : ¬ out.fault site ≠ none := by
  intro hfault
  exact hfault (h.quiet site hsite)

/-- The command selects at most one version. -/
theorem unique {other : RollbackTarget} (h : Selects out id w target)
    (hother : Selects out id w other) : target = other := by
  obtain ⟨current, version, manifest, installDir⟩ := target
  obtain ⟨current', version', manifest', installDir'⟩ := other
  obtain ⟨row, hrow, -, rfl, rfl⟩ := h.previous
  obtain ⟨row', hrow', -, rfl, rfl⟩ := hother.previous
  obtain rfl : current = current' := Option.some.inj (h.current.symm.trans hother.current)
  cases hrow.symm.trans hrow'
  rfl

theorem isPrevious (h : Selects out id w target) :
    ∃ row, IsPrevious (w.db.visible.tools id) target.current target.version row := by
  obtain ⟨row, hrow, -⟩ := h.previous
  exact ⟨row, out.isPrevious _ _ _ _ hrow⟩

end Selects

namespace RollbackOutside

theorem lock_spec {site : RollbackSite} {message : String} :
    Ensures (out.lock site message) w (fun _ t => out.fault site = none ∧ t = w)
      (fun _ t => out.fault site ≠ none ∧ t = w) := by
  unfold lock
  cases hfault : out.fault site with
  | none => exact ensures_pure.mpr ⟨rfl, rfl⟩
  | some f => exact ensures_fail.mpr ⟨nofun, rfl⟩

theorem query_spec {α : Type} {site : RollbackSite} {f : Database → α} :
    Ensures (out.query site f) w
      (fun a t => out.fault site = none ∧ a = f w.db.visible ∧ t = w)
      (fun _ t => out.fault site ≠ none ∧ t = w) := by
  unfold query
  apply ensures_onPart.mpr
  apply Connection.query_spec.imp
  · intro a t ht
    obtain ⟨hfault, ha, rfl⟩ := ht
    exact ⟨hfault, ha, rfl⟩
  · intro e t ht
    obtain ⟨hfault, rfl⟩ := ht
    exact ⟨hfault, rfl⟩

theorem queryRow_spec {α : Type} {site : RollbackSite} {message : String}
    {f : Database → Option α} :
    Ensures (out.queryRow site message f) w
      (fun a t => out.fault site = none ∧ f w.db.visible = some a ∧ t = w)
      (fun _ t => (out.fault site = none → f w.db.visible = none) ∧ t = w) := by
  unfold queryRow
  apply ensures_bind.mpr
  apply ensures_attempt.mpr
  apply out.query_spec.imp
  · intro row t ht
    obtain ⟨hfault, hrow, rfl⟩ := ht
    cases row with
    | none => exact ensures_fail.mpr ⟨fun _ => hrow.symm, rfl⟩
    | some row => exact ensures_pure.mpr ⟨hfault, hrow.symm, rfl⟩
  · intro e t ht
    obtain ⟨hfault, rfl⟩ := ht
    exact ensures_fail.mpr ⟨fun h => absurd h hfault, rfl⟩

theorem statement_spec {site : RollbackSite} {f : Database → Database} :
    Ensures (out.statement site f) w
      (fun _ t => out.fault site = none ∧ t = w.written (f w.db.visible))
      (fun _ t => out.fault site ≠ none ∧ t = w) := by
  apply ensures_mapError.mpr
  apply ensures_onPart.mpr
  apply Connection.execute_spec.imp
  · intro _ t ht
    obtain ⟨hfault, rfl⟩ := ht
    exact ⟨hfault, rfl⟩
  · intro e t ht
    obtain ⟨hfault, rfl⟩ := ht
    exact ⟨hfault, rfl⟩

theorem parseManifest_spec {row : VersionRow} :
    Ensures (out.parseManifest row) w
      (fun m t => out.fault .parseManifest = none ∧ m = row.manifest ∧ t = w)
      (fun _ t => out.fault .parseManifest ≠ none ∧ t = w) := by
  unfold parseManifest
  cases hfault : out.fault .parseManifest with
  | none => exact ensures_pure.mpr ⟨rfl, rfl, rfl⟩
  | some f => exact ensures_fail.mpr ⟨nofun, rfl⟩

/-- Removing a version's files touches the directories alone. -/
theorem uninstallVersion_spec {current : String} :
    Ensures (mapError CmdError.ofText (onDirs (out.uninstallVersion id current))) w
      (fun _ t => (w.dirs (out.versionDir id current) = none ∨
          out.fault .removeDirectory = none) ∧ t.db = w.db ∧ t.registry = w.registry)
      (fun _ t => ¬ (w.dirs (out.versionDir id current) = none ∨
          out.fault .removeDirectory = none) ∧ t.db = w.db) := by
  apply ensures_mapError.mpr
  apply ensures_onPart.mpr
  cases hdir : w.dirs (out.versionDir id current) with
  | none =>
      have hrun : out.uninstallVersion id current w.dirs = (.ok (), w.dirs) := by
        simp only [uninstallVersion, hdir]
      exact (ensures_of_eq_ok hrun).mpr ⟨.inl rfl, rfl, rfl⟩
  | some content =>
      cases hfault : out.fault .removeDirectory with
      | none =>
          have hrun : out.uninstallVersion id current w.dirs =
              (.ok (), Function.update w.dirs (out.versionDir id current) none) := by
            simp only [uninstallVersion, hdir, hfault]
          exact (ensures_of_eq_ok hrun).mpr ⟨.inr rfl, rfl, rfl⟩
      | some f =>
          have hrun : out.uninstallVersion id current w.dirs =
              (.error f.text, Function.update w.dirs (out.versionDir id current)
                (some (out.leftover content))) := by
            simp only [uninstallVersion, hdir, hfault]
          exact (ensures_of_eq_error hrun).mpr ⟨by simp, rfl⟩

end RollbackOutside

/-- Until it has selected a version the command writes nothing, and it fails exactly
when there is none to select. -/
theorem selectRollback_spec :
    Ensures (selectRollback out id) w (fun target t => Selects out id w target ∧ t = w)
      (fun _ t => (∀ target, ¬ Selects out id w target) ∧ t = w) := by
  unfold selectRollback
  apply Ensures.bind out.lock_spec
  · intro e t ht
    exact ⟨fun _ h => h.fault_eq_none (by decide) ht.1, ht.2⟩
  intro _ t ht
  obtain ⟨hlock, rfl⟩ := ht
  apply Ensures.bind out.query_spec.mapError
  · intro e t ht
    exact ⟨fun _ h => h.fault_eq_none (by decide) ht.1, ht.2⟩
  intro pinned t ht
  obtain ⟨horigin, rfl, rfl⟩ := ht
  apply ensures_bind.mpr
  apply ensures_ofExcept.mpr
  constructor
  swap
  · intro e he
    refine ⟨fun _ h => ?_, rfl⟩
    rw [h.unpinned] at he
    cases he
  intro _ hpinned
  have hunpinned := failIf_eq_ok.mp hpinned
  apply Ensures.bind out.queryRow_spec
  · intro e t ht
    obtain ⟨hnone, rfl⟩ := ht
    refine ⟨fun _ h => ?_, rfl⟩
    have hcurrent := h.current
    rw [hnone (h.quiet _ (by decide))] at hcurrent
    cases hcurrent
  intro current t ht
  obtain ⟨hcurrentQuiet, hcurrent, rfl⟩ := ht
  apply Ensures.bind out.queryRow_spec
  · intro e t ht
    obtain ⟨hnone, rfl⟩ := ht
    refine ⟨fun target h => ?_, rfl⟩
    obtain ⟨row, hrow, -⟩ := h.previous
    rw [← Option.some.inj (hcurrent.symm.trans h.current),
      hnone (h.quiet _ (by decide))] at hrow
    cases hrow
  intro previous t ht
  obtain ⟨hpreviousQuiet, hprevious, rfl⟩ := ht
  apply ensures_bind.mpr
  apply ensures_ofExcept.mpr
  constructor
  swap
  · intro e he
    refine ⟨fun target h => ?_, rfl⟩
    obtain ⟨row, hrow, hfiles, -⟩ := h.previous
    rw [← Option.some.inj (hcurrent.symm.trans h.current), hprevious] at hrow
    cases hrow
    rw [hfiles] at he
    cases he
  intro _ hfiles
  apply Ensures.bind out.parseManifest_spec
  · intro e t ht
    exact ⟨fun _ h => h.fault_eq_none (by decide) ht.1, ht.2⟩
  intro manifest t ht
  obtain ⟨hparse, rfl, rfl⟩ := ht
  apply ensures_pure.mpr
  refine ⟨⟨?_, by simpa using hunpinned, hcurrent, previous.2, hprevious,
    by simpa using failIf_eq_ok.mp hfiles, rfl, rfl⟩, rfl⟩
  simp [hlock, horigin, hcurrentQuiet, hpreviousQuiet, hparse]

/-- The registration frees the id just before, so only the lock can fail. -/
theorem reregister_spec {tool : ToolDefinition} :
    Ensures (reregister out tool) w
      (fun _ t => out.fault .lockRegistry = none ∧ t.db = w.db ∧
        t.registry = (w.registry.remove tool.id).insert tool)
      (fun _ t => out.fault .lockRegistry ≠ none ∧ t.db = w.db) := by
  unfold reregister
  apply Ensures.bind out.lock_spec
  · intro e t ht
    obtain ⟨hfault, rfl⟩ := ht
    exact ⟨hfault, rfl⟩
  intro _ t ht
  obtain ⟨hfault, rfl⟩ := ht
  apply ensures_bind.mpr
  apply ensures_onPart.mpr
  apply ensures_mapError.mpr
  apply ensures_onPart.mpr
  have hregister : ToolRegistry.register tool (t.registry.remove tool.id) =
      (.ok (), (t.registry.remove tool.id).insert tool) := by
    simp only [ToolRegistry.register, ToolRegistry.tools_remove_self]
  exact (ensures_of_eq_ok hregister).mpr ⟨hfault, rfl, rfl⟩

/-- The rows of the tool after a rollback. -/
def RollbackTarget.apply (target : RollbackTarget) (entry : ToolEntry) : ToolEntry :=
  (entry.switchTo target.version target.manifest).deleteVersion target.current

/-- A rollback leaves the rows of the earlier version and registers it, or stops before
the first write, or stops with the tool's row already on the earlier version. -/
theorem toolRollback_spec :
    Ensures (toolRollback out id) w
      (fun tool t => ∃ target, Updates out id w target ∧ Finishes out id w target.current ∧
        tool = manifestToTool target.manifest (target.installDir.getD "") ∧
        t.db.visible.tools id = target.apply (w.db.visible.tools id) ∧
        t.registry = (w.registry.remove tool.id).insert tool)
      (fun _ t => ((∀ target, ¬ Updates out id w target) ∧ t = w) ∨
        ∃ target, Updates out id w target ∧ ¬ Finishes out id w target.current ∧
          (t.db.visible.tools id).currentVersion = some target.version) := by
  unfold toolRollback
  apply Ensures.bind selectRollback_spec
  · intro e t ht
    exact .inl ⟨fun target h => ht.1 target h.selects, ht.2⟩
  intro target t ht
  obtain ⟨hselects, rfl⟩ := ht
  have honly : ∀ other, Updates out id t other → other = target :=
    fun other h => h.selects.unique hselects
  apply Ensures.bind out.lock_spec
  · intro e u hu
    obtain ⟨hfault, rfl⟩ := hu
    exact .inl ⟨fun other h => hfault h.locked, rfl⟩
  intro _ u hu
  obtain ⟨hlocked, rfl⟩ := hu
  apply Ensures.bind out.statement_spec
  · intro e t ht
    obtain ⟨hfault, rfl⟩ := ht
    exact .inl ⟨fun other h => hfault h.updated, rfl⟩
  intro _ t ht
  obtain ⟨hupdated, rfl⟩ := ht
  have hupdates : Updates out id u target := ⟨hselects, hlocked, hupdated⟩
  have hswitched : ((u.db.visible.tools id).switchTo target.version target.manifest).currentVersion =
      some target.version :=
    ToolEntry.currentVersion_switchTo hselects.current _ _
  apply Ensures.bind out.statement_spec
  · intro e t ht
    obtain ⟨hfault, rfl⟩ := ht
    refine .inr ⟨target, hupdates, fun h => hfault h.deleted, ?_⟩
    rw [World.visible_written]
    simpa only [updateTool, Function.update_self] using hswitched
  intro _ t ht
  obtain ⟨hdeleted, rfl⟩ := ht
  rw [World.visible_written]
  let entry := target.apply (u.db.visible.tools id)
  have hrows : ((u.written (updateTool id (fun entry => entry.switchTo target.version
      target.manifest) u.db.visible)).written (updateTool id (fun entry =>
        entry.deleteVersion target.current) (updateTool id (fun entry =>
          entry.switchTo target.version target.manifest) u.db.visible))).db.visible.tools id =
      entry := by
    rw [World.visible_written]
    simp only [updateTool, Function.update_self]
    rfl
  have hentry : entry.currentVersion = some target.version := hswitched
  apply Ensures.bind out.uninstallVersion_spec
  · intro e t ht
    obtain ⟨hfault, hdb⟩ := ht
    refine .inr ⟨target, hupdates, fun h => hfault h.removed, ?_⟩
    rw [hdb, hrows, hentry]
  intro _ t ht
  obtain ⟨hremoved, hdb, hregistry⟩ := ht
  apply Ensures.bind reregister_spec
  · intro e v hv
    obtain ⟨hfault, hv⟩ := hv
    refine .inr ⟨target, hupdates, fun h => hfault h.locked, ?_⟩
    rw [hv, hdb, hrows, hentry]
  intro _ v hv
  obtain ⟨hregistered, hv, hinserted⟩ := hv
  apply ensures_pure.mpr
  refine ⟨target, hupdates, ⟨hdeleted, hremoved, hregistered⟩, rfl, ?_, ?_⟩
  · rw [hv, hdb, hrows]
  · rw [hinserted, hregistry]
    rfl

/-- A successful rollback changes the rows as `ToolEntry.toolRollback` says. -/
theorem toolRollback_rows {tool : ToolDefinition} {t : World}
    (hrun : toolRollback out id w = (.ok tool, t)) :
    ∃ previous, (w.db.visible.tools id).toolRollback previous =
      .ok (t.db.visible.tools id) := by
  obtain ⟨target, hupdates, -, -, hrows, -⟩ := toolRollback_spec.of_eq_ok hrun
  obtain ⟨row, hprevious, -, hmanifest, -⟩ := hupdates.selects.previous
  have hrow := out.isPrevious _ _ _ _ hprevious
  obtain ⟨toolRow, htool, hcurrent⟩ := Option.bind_eq_some_iff.mp hupdates.selects.current
  refine ⟨target.version, ?_⟩
  rw [hrows]
  simp only [ToolEntry.toolRollback, bind_eq_ok, failIf_eq_ok, orFail_eq_ok, pure_eq_ok]
  refine ⟨⟨⟩, by simp [hupdates.selects.unpinned], toolRow, htool, target.current, hcurrent,
    row, hrow.lookup, ⟨⟩, ?_, ?_⟩
  · rintro (heq | hlatest)
    · exact hrow.ne heq
    · exact hlatest hrow.latest
  · simp [RollbackTarget.apply, ToolEntry.deleteVersion, ToolEntry.switchTo, htool, hmanifest]

/-- A call that updates the row and does not finish fails, with the tool on another
version than before. -/
theorem changed_of_not_finishes {target : RollbackTarget} (hupdates : Updates out id w target)
    (hunfinished : ¬ Finishes out id w target.current) :
    ∃ e t, toolRollback out id w = (.error e, t) ∧ ¬ SameTool id w t := by
  rcases hrun : toolRollback out id w with ⟨e | tool, t⟩
  · refine ⟨e, t, rfl, ?_⟩
    intro hsame
    rcases toolRollback_spec.of_eq_error hrun with ⟨hnone, -⟩ | ⟨other, hother, -, hcurrent⟩
    · exact hnone target hupdates
    · obtain ⟨row, hprevious⟩ := hother.selects.isPrevious
      rw [hsame.entry, hother.selects.current] at hcurrent
      exact hprevious.ne (Option.some.inj hcurrent).symm
  · obtain ⟨other, hother, hfinishes, -⟩ := toolRollback_spec.of_eq_ok hrun
    rw [hother.selects.unique hupdates.selects] at hfinishes
    exact absurd hfinishes hunfinished

/-- An error leaves the tool as it was exactly when the call stops before it has updated
the tool's row, or nothing fails afterwards. -/
theorem rollback_kept_iff (out : RollbackOutside) (id : String) (w : World) :
    (∀ e t, toolRollback out id w = (.error e, t) → SameTool id w t) ↔
      ∀ target, Updates out id w target → Finishes out id w target.current := by
  constructor
  · intro hkept target hupdates
    by_contra hunfinished
    obtain ⟨e, t, hrun, hchanged⟩ := changed_of_not_finishes hupdates hunfinished
    exact hchanged (hkept e t hrun)
  · intro hfinishes e t hrun
    rcases toolRollback_spec.of_eq_error hrun with ⟨-, rfl⟩ | ⟨target, hupdates, hunfinished, -⟩
    · exact .refl id t
    · exact absurd (hfinishes target hupdates) hunfinished

end Command

/-! ## A deletion that fails -/

/-- The latest of the other versions. -/
def latestOther (entry : ToolEntry) (current : String) : Option (String × VersionRow) :=
  letI : Preorder Int := Int.instLinearOrder.toPreorder
  ((entry.versions.entries.filter fun other => other.1 ≠ current).argmax
    fun other => other.2.installedAt).map fun other => (other.1, other.2)

theorem isPrevious_latestOther (entry : ToolEntry) (current version : String) (row : VersionRow)
    (h : latestOther entry current = some (version, row)) :
    IsPrevious entry current version row := by
  obtain ⟨⟨version', row'⟩, hmax, heq⟩ := Option.map_eq_some_iff.mp h
  cases heq
  have hmem := List.mem_filter.mp (List.argmax_mem hmax)
  refine ⟨of_decide_eq_true hmem.2, AList.mem_lookup_iff.mpr hmem.1, ?_⟩
  intro other hother hne
  have hleft : other ∈ entry.versions.entries.filter fun other => other.1 ≠ current :=
    List.mem_filter.mpr ⟨hother, decide_eq_true hne⟩
  exact List.le_of_mem_argmax (f := fun other => other.2.installedAt) hleft hmax

theorem noPrevious_latestOther (entry : ToolEntry) (current : String)
    (h : latestOther entry current = none) :
    ∀ other ∈ entry.versions.entries, other.1 = current := by
  intro other hother
  by_contra hne
  have hempty := List.argmax_eq_none.mp (Option.map_eq_none_iff.mp h)
  have hmem : other ∈ entry.versions.entries.filter fun other => other.1 ≠ current :=
    List.mem_filter.mpr ⟨hother, decide_eq_true hne⟩
  rw [hempty] at hmem
  cases hmem

/-- Every path exists, and the second statement fails. -/
def deleteFails : RollbackOutside where
  fault := fun site => if site = .deleteVersion then some ⟨"disk I/O error", false⟩ else none
  previous := latestOther
  isPrevious := isPrevious_latestOther
  noPrevious := noPrevious_latestOther
  pathExists := fun _ => true
  leftover := id
  pluginsDir := ["plugins"]

/-- Two installed versions of a web plugin, the second one current. -/
def twoVersions : World where
  dirs := fun _ => none
  db := ⟨⟨(installWeb "com.example.tool" "2.0.0" 2).next
    ((installWeb "com.example.tool" "1.0.0" 1).next .empty), fun _ => none⟩, none⟩
  registry := .new

/-- When the current version's row cannot be deleted, the rollback fails and the tool is
on the earlier version. -/
theorem rollback_half_done :
    ∃ e t, toolRollback deleteFails "com.example.tool" twoVersions = (.error e, t) ∧
      ¬ SameTool "com.example.tool" twoVersions t := by
  have hselects : Selects deleteFails "com.example.tool" twoVersions
      ⟨"2.0.0", "1.0.0", webManifest "com.example.tool" "1.0.0", some "plugins"⟩ := by
    refine ⟨?_, rfl, rfl, _, rfl, rfl, rfl, rfl⟩
    decide
  exact changed_of_not_finishes ⟨hselects, rfl, rfl⟩ fun h => nomatch h.deleted

end Useful.Plugins
