/-
# Uninstalling a plugin

`uninstall` of the plugin crate and the command `uninstall_plugin` turn any string into
a directory below the plugins root and remove what is there; the command sets the
directory aside first and puts it back when its rows cannot be deleted. The component
that `sanitize_component` makes is not always a name: the empty one is the root itself,
as is the single dot, and two dots are the root's parent. And a string that is no plugin
id can share its component with one.
-/

import Useful.Math.FileTree
import Useful.Plugins.Persist

namespace Useful.Plugins

open Useful.Core Useful.Math Useful.Math.Program

/-! ## Plugin ids -/

/-- `is_ascii_alphanumeric`, `-` or `_`. -/
def isIdChar (c : Char) : Bool := c.isAlphanum || c == '-' || c == '_'

/-- `is_valid_plugin_id`. -/
def isValidPluginId (id : String) : Bool :=
  let segments := id.toList.splitOn '.'
  id ≠ "" && id.utf8ByteSize ≤ 128 && 2 ≤ segments.length &&
    segments.all fun segment =>
      match segment with
      | [] => false
      | first :: _ => first.isAlpha && segment.all isIdChar

/-! ## Names and directories -/

/-- What a directory entry says: the name it was created with, and what it is. -/
structure FileEntry where
  name : String
  node : Node
  deriving DecidableEq

/-- How the file system compares names: two names with one key are one entry. -/
structure NameRule where
  key : String → String

/-- Names are compared as they are. -/
def NameRule.sensitive : NameRule := ⟨id⟩

/-- The plugins root, by the path of its parent and its own name. -/
structure PluginsRoot where
  parent : List String
  name : String

section Directories

variable (rule : NameRule) (root : PluginsRoot)

def PluginsRoot.path : List String := root.parent ++ [rule.key root.name]

/-- The directory that `plugins_root.join(component)` denotes. -/
def componentDir (component : String) : List String :=
  if component = "" ∨ component = "." then root.path rule
  else if component = ".." then root.parent
  else root.path rule ++ [rule.key component]

/-- The directory that a plugin id is taken to. -/
def pluginDir (id : String) : List String := componentDir rule root (sanitizeComponent id)

/-- The component a path ends in for `with_extension`; none after two dots. -/
def backupName (component uuid : String) : Option String :=
  let extension := s!"uninstall-{uuid}"
  if component = "" ∨ component = "." then some (withExtensionName root.name extension)
  else if component = ".." then none
  else some (withExtensionName component extension)

/-- `plugin_dir.with_extension("uninstall-…")`. -/
def backupDir (component uuid : String) : List String :=
  match backupName root component uuid with
  | some name =>
      if component = "" ∨ component = "." then root.parent ++ [rule.key name]
      else root.path rule ++ [rule.key name]
  | none => componentDir rule root component

end Directories

/-! ## Faults -/

/-- The places where uninstalling may fail for a reason outside the program. -/
inductive UninstallSite
  | removeDirectory
  | moveAside
  | lockDatabase
  | beginImmediate
  | deleteOrigin
  | deleteGrants
  | deleteVersions
  | deleteTool
  | lockRegistry
  | commit
  | rollback
  | clearTarget
  | restore
  | removeBackup
  | lockFileGrants
  deriving DecidableEq, Repr

/-- What the outside decides: the faults, what a removal that fails leaves, and the random
part of the backup's name. -/
structure UninstallOutside where
  fault : UninstallSite → Option Fault
  kept : List String → Bool
  uuid : String

/-- The file system, the database and the registry. -/
structure UninstallWorld where
  files : FileTree FileEntry
  db : Connection Database
  registry : ToolRegistry

namespace UninstallOutside

variable (out : UninstallOutside)

/-- `remove_dir_all`. -/
def removeDirAll (site : UninstallSite) (dir : List String) :
    Program String (FileTree FileEntry) PUnit :=
  match out.fault site with
  | some f => do
      modify fun files => files.removeAll dir out.kept
      fail f.text
  | none => modify fun files => files.removeAll dir fun _ => false

/-- `rename`; the entry takes the new name, if there is one. -/
def rename (site : UninstallSite) (source target : List String) (name : Option String) :
    Program String (FileTree FileEntry) PUnit :=
  match out.fault site with
  | some f => fail f.text
  | none => modify fun files => files.move source target fun entry =>
      { entry with name := name.getD entry.name }

end UninstallOutside

/-- `path.exists()`. -/
def existsPath {ε : Type} (dir : List String) : Program ε (FileTree FileEntry) Bool :=
  read fun files => (files dir).isSome

/-! ## The operations -/

section Operations

variable (out : UninstallOutside) (rule : NameRule) (root : PluginsRoot) (id : String)

/-- `uninstall`. -/
def uninstall : Program String (FileTree FileEntry) Unit := do
  let dir := pluginDir rule root id
  if ← existsPath dir then
    out.removeDirAll .removeDirectory dir

/-- Work on the file system. -/
def onFiles {ε : Type} {α : Type} (p : Program ε (FileTree FileEntry) α) :
    Program ε UninstallWorld α :=
  onPart UninstallWorld.files (fun w files => { w with files := files }) p

/-- Work on the connection. -/
def onTables {ε : Type} {α : Type} (p : Program ε (Connection Database) α) :
    Program ε UninstallWorld α :=
  onPart UninstallWorld.db (fun w db => { w with db := db }) p

/-- Work on the registry. -/
def onTools {ε : Type} {α : Type} (p : Program ε ToolRegistry α) : Program ε UninstallWorld α :=
  onPart UninstallWorld.registry (fun w registry => { w with registry := registry }) p

/-- The renaming at the start; whether there was a directory to set aside. -/
def setAside : Program CmdError UninstallWorld Bool := do
  let component := sanitizeComponent id
  let dir := pluginDir rule root id
  if ← onFiles (existsPath dir) then
    mapError (fun error => .ofText s!"暂存待卸载插件失败: {error}")
      (onFiles (out.rename .moveAside dir (backupDir rule root component out.uuid)
        (backupName root component out.uuid)))
    return true
  else
    return false

/-- Remove what has appeared at the target of the restoration. -/
def clearTarget : Program CmdError UninstallWorld Unit := do
  let dir := pluginDir rule root id
  if ← onFiles (existsPath dir) then
    mapError (fun error => .ofText s!"清理卸载回滚期间出现的目标目录失败: {error}")
      (onFiles (out.removeDirAll .clearTarget dir))

/-- The name of the directory that comes back. -/
def restoredName : Option String :=
  let component := sanitizeComponent id
  if component = "" ∨ component = "." then some root.name
  else if component = ".." then none
  else some component

/-- `restore_files`. -/
def restoreFiles (removed : Bool) : Program CmdError UninstallWorld Unit := do
  if removed then
    clearTarget out rule root id
    mapError (fun error => .ofText s!"恢复卸载文件失败: {error}")
      (onFiles (out.rename .restore (backupDir rule root (sanitizeComponent id) out.uuid)
        (pluginDir rule root id) (restoredName root id)))

/-- Put the files back and return the error. -/
def giveUp (removed : Bool) (error : CmdError) : Program CmdError UninstallWorld Unit := do
  restoreFiles out rule root id removed
  fail error

/-- The deletions; the shortcuts of the tool have no rows here. -/
def deleteRows : Program CmdError UninstallWorld Unit := do
  let statement := fun site f =>
    mapError CmdError.ofText (onTables (Connection.execute (out.fault site) (updateTool id f)))
  statement .deleteOrigin fun entry => { entry with origin := none }
  statement .deleteGrants ToolEntry.deleteGrants
  statement .deleteVersions fun entry => { entry with versions := ∅ }
  statement .deleteTool fun entry => { entry with tool := none }

/-- Put a definition back, if there was one. -/
def registerAgain (previous : Option ToolDefinition) : Program CmdError UninstallWorld Unit := do
  match previous with
  | none => return ()
  | some previous =>
      let _ ← attempt (onTools (ToolRegistry.register previous))
      return ()

/-- The commit, after the registration is gone. -/
def commitRemoval (removed : Bool) : Program CmdError UninstallWorld Unit := do
  let previous ← onTools (ToolRegistry.unregister id)
  match ← attempt (onTables (Connection.commit (out.fault .commit))) with
  | .ok _ => return ()
  | .error error => do
      registerAgain previous
      let _ ← attempt (onTables (Connection.rollback (out.fault .rollback)))
      giveUp out rule root id removed (.ofText error)

/-- The rows and the registration of the plugin go, or the files come back. -/
def removeRegistration (removed : Bool) : Program CmdError UninstallWorld Unit := do
  match out.fault .lockDatabase with
  | some _ => giveUp out rule root id removed (.ofText "锁定数据库失败")
  | none =>
      match ← attempt (onTables (Connection.beginImmediate (out.fault .beginImmediate))) with
      | .error error => giveUp out rule root id removed (.ofText error)
      | .ok _ =>
          match ← attempt (deleteRows out id) with
          | .error error => do
              let _ ← attempt (onTables (Connection.rollback (out.fault .rollback)))
              giveUp out rule root id removed error
          | .ok _ =>
              match out.fault .lockRegistry with
              | some _ => do
                  let _ ← attempt (onTables (Connection.rollback (out.fault .rollback)))
                  giveUp out rule root id removed (.ofText "锁定注册表失败")
              | none => commitRemoval out rule root id removed

/-- Removing the backup is best effort. -/
def dropBackup (removed : Bool) : Program CmdError UninstallWorld Unit := do
  if removed then
    let _ ← attempt (onFiles (out.removeDirAll .removeBackup
      (backupDir rule root (sanitizeComponent id) out.uuid)))

/-- The files granted to the plugin are forgotten. -/
def dropFileGrants : Program CmdError UninstallWorld Unit :=
  match out.fault .lockFileGrants with
  | some _ => fail (.ofText "锁定插件文件授权失败")
  | none => pure ()

/-- `uninstall_plugin`. -/
def uninstallPlugin : Program CmdError UninstallWorld Unit := do
  let removed ← setAside out rule root id
  removeRegistration out rule root id removed
  dropBackup out rule root id removed
  dropFileGrants out

end Operations

/-! ## Own directories -/

/-- The component is the name of a child. -/
def IsName (component : String) : Prop := component ∉ ["", ".", ".."]

section Own

variable (rule : NameRule) (root : PluginsRoot) (id : String)

/-- Every file that does not lie below the directory is as it was. -/
def OnlyBelow (dir : List String) (before after : FileTree FileEntry) : Prop :=
  ∀ path, before path ≠ none → ¬ dir <+: path → after path = before path

/-- What was removed lies in one child of the root, and that child is not the directory of
another plugin id. -/
def OwnDirectory (before after : FileTree FileEntry) : Prop :=
  (∀ path, before path ≠ none → after path = before path) ∨
    ∃ key, OnlyBelow (root.path rule ++ [key]) before after ∧
      ∀ entry, before (root.path rule ++ [key]) = some entry → isValidPluginId entry.name →
        entry.name = id

/-- If the id's directory is there, its component is a name, and it was not created under
the name of another plugin id. -/
def Confined (files : FileTree FileEntry) : Prop :=
  ∀ entry, files (pluginDir rule root id) = some entry →
    IsName (sanitizeComponent id) ∧ (isValidPluginId entry.name → entry.name = id)

/-- Nothing lies where the random name of the backup leads. -/
def UninstallOutside.Fresh (out : UninstallOutside) (files : FileTree FileEntry) : Prop :=
  sanitizeComponent id ≠ ".." → ∀ path,
    backupDir rule root (sanitizeComponent id) out.uuid <+: path → files path = none

end Own

section Results

variable {out : UninstallOutside} {rule : NameRule} {root : PluginsRoot} {id : String}
  {before : FileTree FileEntry} {w : UninstallWorld}

theorem componentDir_of_isName {component : String} (h : IsName component) :
    componentDir rule root component = root.path rule ++ [rule.key component] := by
  simp only [IsName, List.mem_cons, not_or] at h
  simp [componentDir, h.1, h.2.1, h.2.2.1]

/-- A component that is no name denotes the root or its parent. -/
theorem length_componentDir {component : String} (h : ¬ IsName component) :
    (componentDir rule root component).length ≤ (root.path rule).length := by
  simp only [IsName, List.mem_cons, List.not_mem_nil, or_false, not_not] at h
  unfold componentDir
  split_ifs with hroot hparent
  · exact le_rfl
  · simp [PluginsRoot.path]
  · tauto

/-- A component that is no name denotes nothing below the root. -/
theorem not_prefix_componentDir {component : String} (h : ¬ IsName component) (key : String) :
    ¬ root.path rule ++ [key] <+: componentDir rule root component := by
  intro hprefix
  have hlength := hprefix.length_le
  rw [List.length_append, List.length_singleton] at hlength
  have hshort : (componentDir rule root component).length ≤ (root.path rule).length :=
    length_componentDir h
  omega

/-- If the directory of an id went, it went by right only if the id is confined to it. -/
theorem confined_of_gone {after : FileTree FileEntry} (hgone : after (pluginDir rule root id) = none)
    (hown : OwnDirectory rule root id before after) : Confined rule root id before := by
  intro entry hentry
  rcases hown with hsame | ⟨key, hkept, hname⟩
  · rw [hsame _ (by simp [hentry]), hentry] at hgone
    cases hgone
  have hbelow : root.path rule ++ [key] <+: pluginDir rule root id := by
    by_contra hnot
    have hsame := hkept _ (by simp [hentry]) hnot
    rw [hgone, hentry] at hsame
    cases hsame
  have hproper : IsName (sanitizeComponent id) := by
    by_contra hno
    exact not_prefix_componentDir hno key hbelow
  refine ⟨hproper, hname entry ?_⟩
  have hdir : pluginDir rule root id = root.path rule ++ [rule.key (sanitizeComponent id)] :=
    componentDir_of_isName hproper
  have heq : root.path rule ++ [key] = pluginDir rule root id := by
    apply hbelow.eq_of_length
    rw [hdir]
    simp
  rw [heq, hentry]

/-- Removing within the directory of a confined id is removing within its own. -/
theorem own_of_confined {after : FileTree FileEntry} (hconfined : Confined rule root id before)
    (hsome : before (pluginDir rule root id) ≠ none)
    (hkept : OnlyBelow (pluginDir rule root id) before after) :
    OwnDirectory rule root id before after := by
  obtain ⟨entry, hentry⟩ := Option.ne_none_iff_exists'.mp hsome
  obtain ⟨hproper, hname⟩ := hconfined entry hentry
  have hdir : pluginDir rule root id = root.path rule ++ [rule.key (sanitizeComponent id)] :=
    componentDir_of_isName hproper
  refine .inr ⟨rule.key (sanitizeComponent id), ?_, ?_⟩
  · rw [← hdir]
    exact hkept
  · intro entry' hentry'
    rw [← hdir, hentry] at hentry'
    cases hentry'
    exact hname

/-! ## `uninstall` -/

/-- What agrees with the tree before, outside some directories, still does after a removal
in one of them. -/
theorem keeps_removeDirAll {site : UninstallSite} {dir : List String} {dirs : List (List String)}
    (hdir : dir ∈ dirs) :
    Keeps (FileTree.AgreeOutside dirs before) (out.removeDirAll site dir) := by
  intro files hagree
  unfold UninstallOutside.removeDirAll
  split
  · exact ensures_bind.mpr (ensures_modify.mpr
      (ensures_fail.mpr (hagree.trans (FileTree.removeAll_agree hdir _))))
  · exact ensures_modify.mpr (hagree.trans (FileTree.removeAll_agree hdir _))

theorem keeps_rename {site : UninstallSite} {source target : List String} {name : Option String}
    {dirs : List (List String)} (hsource : source ∈ dirs) (htarget : target ∈ dirs) :
    Keeps (FileTree.AgreeOutside dirs before) (out.rename site source target name) := by
  intro files hagree
  unfold UninstallOutside.rename
  split
  · exact hagree
  · exact ensures_modify.mpr (hagree.trans (FileTree.move_agree hsource htarget _))

/-- `uninstall` changes the id's directory alone, and does nothing when there is none. -/
theorem uninstall_spec : ∀ after, ((uninstall out rule root id) before).2 = after →
    FileTree.AgreeOutside [pluginDir rule root id] before after ∧
      (before (pluginDir rule root id) = none → after = before) := by
  rintro _ rfl
  constructor
  · have hkeeps : Keeps (FileTree.AgreeOutside [pluginDir rule root id] before)
        (uninstall out rule root id) := by
      apply Keeps.bind (.read _)
      intro hexists
      split
      · exact keeps_removeDirAll (List.mem_singleton_self _)
      · exact .pure _
    exact hkeeps.run (.refl _ _)
  · intro hnone
    have hexists : existsPath (ε := String) (pluginDir rule root id) before = (.ok false, before) := by
      simp [existsPath, Program.read, hnone]
    unfold uninstall
    rw [bind_of_eq_ok hexists]
    rfl

/-! ## `uninstall_plugin` -/

section Command

variable {F : FileTree FileEntry → Prop} {α : Type}

theorem keeps_onFiles {ε : Type} {p : Program ε (FileTree FileEntry) α} (h : Keeps F p) :
    Keeps (fun w => F w.files) (onFiles p) :=
  fun w hw => ensures_onPart.mpr (h w.files hw)

theorem keeps_onTables {ε : Type} {p : Program ε (Connection Database) α} :
    Keeps (fun w => F w.files) (onTables p) :=
  .onPart fun _ _ h => h

theorem keeps_onTools {ε : Type} {p : Program ε ToolRegistry α} :
    Keeps (fun w => F w.files) (onTools p) :=
  .onPart fun _ _ h => h

theorem keeps_deleteRows : Keeps (fun w => F w.files) (deleteRows out id) := by
  apply Keeps.bind keeps_onTables.mapError
  intro _
  apply Keeps.bind keeps_onTables.mapError
  intro _
  apply Keeps.bind keeps_onTables.mapError
  intro _
  exact keeps_onTables.mapError

theorem keeps_giveUp {removed : Bool}
    (h : Keeps (fun w => F w.files) (restoreFiles out rule root id removed)) (error : CmdError) :
    Keeps (fun w => F w.files) (giveUp out rule root id removed error) :=
  h.bind fun _ => .fail _

theorem keeps_rollback_giveUp {removed : Bool}
    (h : Keeps (fun w => F w.files) (restoreFiles out rule root id removed)) (error : CmdError) :
    Keeps (fun w => F w.files) (do
      let _ ← attempt (onTables (Connection.rollback (out.fault .rollback)))
      giveUp out rule root id removed error) :=
  Keeps.bind keeps_onTables.attempt fun _ => keeps_giveUp h error

/-- Deleting the rows touches files only where it puts them back. -/
theorem keeps_removeRegistration {removed : Bool}
    (h : Keeps (fun w => F w.files) (restoreFiles out rule root id removed)) :
    Keeps (fun w => F w.files) (removeRegistration out rule root id removed) := by
  unfold removeRegistration
  split
  · exact keeps_giveUp h _
  apply Keeps.bind keeps_onTables.attempt
  intro begun
  split
  · exact keeps_giveUp h _
  apply Keeps.bind keeps_deleteRows.attempt
  intro deleted
  split
  · exact keeps_rollback_giveUp h _
  split
  · exact keeps_rollback_giveUp h _
  apply Keeps.bind keeps_onTools
  intro previous
  apply Keeps.bind keeps_onTables.attempt
  intro committed
  split
  · exact .pure _
  have hagain : Keeps (fun w => F w.files) (registerAgain previous) := by
    cases previous with
    | none => exact .pure _
    | some previous => exact keeps_onTools.attempt.bind fun _ => .pure _
  exact hagain.bind fun _ => keeps_rollback_giveUp h _

theorem keeps_dropFileGrants : Keeps (fun w => F w.files) (dropFileGrants out) := by
  unfold dropFileGrants
  split
  · exact .fail _
  · exact .pure _

/-- The directories the command works in. -/
def workDirs (rule : NameRule) (root : PluginsRoot) (id uuid : String) : List (List String) :=
  [pluginDir rule root id, backupDir rule root (sanitizeComponent id) uuid]

/-- The command works in the id's directory and in its backup. -/
theorem uninstallPlugin_agree :
    Keeps (fun w => FileTree.AgreeOutside (workDirs rule root id out.uuid) before w.files)
      (uninstallPlugin out rule root id) := by
  have hdir : pluginDir rule root id ∈ workDirs rule root id out.uuid := by simp [workDirs]
  have hbackup : backupDir rule root (sanitizeComponent id) out.uuid ∈
      workDirs rule root id out.uuid := by simp [workDirs]
  have hexists : ∀ {ε : Type}, Keeps (FileTree.AgreeOutside (workDirs rule root id out.uuid) before)
      (existsPath (ε := ε) (pluginDir rule root id)) := .read _
  have hclear : Keeps
      (fun w => FileTree.AgreeOutside (workDirs rule root id out.uuid) before w.files)
      (clearTarget out rule root id) := by
    apply Keeps.bind (keeps_onFiles hexists)
    intro found
    split
    · exact (keeps_onFiles (keeps_removeDirAll hdir)).mapError
    · exact .pure _
  have hrestore : ∀ removed, Keeps
      (fun w => FileTree.AgreeOutside (workDirs rule root id out.uuid) before w.files)
      (restoreFiles out rule root id removed) := by
    intro removed
    unfold restoreFiles
    split
    · exact hclear.bind fun _ => (keeps_onFiles (keeps_rename hbackup hdir)).mapError
    · exact .pure _
  have hsetAside : Keeps
      (fun w => FileTree.AgreeOutside (workDirs rule root id out.uuid) before w.files)
      (setAside out rule root id) := by
    apply Keeps.bind (keeps_onFiles hexists)
    intro found
    split
    · exact (keeps_onFiles (keeps_rename hdir hbackup)).mapError.bind fun _ => .pure _
    · exact .pure _
  have hdrop : ∀ removed, Keeps
      (fun w => FileTree.AgreeOutside (workDirs rule root id out.uuid) before w.files)
      (dropBackup out rule root id removed) := by
    intro removed
    unfold dropBackup
    split
    · exact (keeps_onFiles (keeps_removeDirAll hbackup)).attempt.bind fun _ => .pure _
    · exact .pure _
  apply hsetAside.bind
  intro removed
  apply (keeps_removeRegistration (hrestore removed)).bind
  intro _
  exact (hdrop removed).bind fun _ => keeps_dropFileGrants

/-- Without a directory the command touches no files. -/
theorem uninstallPlugin_of_eq_none (hnone : w.files (pluginDir rule root id) = none) :
    (uninstallPlugin out rule root id w).2.files = w.files := by
  have hexists : onFiles (ε := CmdError) (existsPath (pluginDir rule root id)) w =
      (.ok false, w) := by
    simp [onFiles, onPart, existsPath, Program.read, hnone]
  have hsetAside : setAside out rule root id w = (.ok false, w) := by
    unfold setAside
    rw [bind_of_eq_ok hexists]
    rfl
  have hrest : Keeps (fun u : UninstallWorld => u.files = w.files) (do
      removeRegistration out rule root id false
      dropBackup out rule root id false
      dropFileGrants out) := by
    apply Keeps.bind (keeps_removeRegistration (F := (· = w.files)) (.pure _))
    intro _
    exact Keeps.bind (.pure _) fun _ => keeps_dropFileGrants (F := (· = w.files))
  unfold uninstallPlugin
  rw [bind_of_eq_ok hsetAside]
  exact hrest.run rfl

end Command

/-- Uninstalling an id, by either function and whatever fails, removes files of its own
directory alone exactly when that directory, if it is there, is a child of the root that was
not created under another plugin id. -/
theorem uninstall_own_iff (rule : NameRule) (root : PluginsRoot) (id : String)
    (before : FileTree FileEntry) :
    ((∀ out, OwnDirectory rule root id before (uninstall out rule root id before).2) ∧
      ∀ (out : UninstallOutside) (w : UninstallWorld), w.files = before →
        out.Fresh rule root id before →
        OwnDirectory rule root id before (uninstallPlugin out rule root id w).2.files) ↔
      Confined rule root id before := by
  constructor
  · intro hown entry hentry
    let quiet : UninstallOutside := ⟨fun _ => none, fun _ => false, ""⟩
    have hexists : existsPath (ε := String) (pluginDir rule root id) before =
        (.ok true, before) := by
      simp [existsPath, Program.read, hentry]
    have hrun : (uninstall quiet rule root id before).2 =
        before.removeAll (pluginDir rule root id) fun _ => false := by
      unfold uninstall
      rw [bind_of_eq_ok hexists]
      rfl
    have hgone : (uninstall quiet rule root id before).2 (pluginDir rule root id) = none := by
      rw [hrun]
      exact FileTree.removeAll_self _ _
    exact confined_of_gone hgone (hown.1 quiet) entry hentry
  · intro hconfined
    cases hdir : before (pluginDir rule root id) with
    | none =>
        constructor
        · intro out
          rw [(uninstall_spec _ rfl).2 hdir]
          exact .inl fun _ _ => rfl
        · rintro out w rfl -
          rw [uninstallPlugin_of_eq_none hdir]
          exact .inl fun _ _ => rfl
    | some entry =>
        have hsome : before (pluginDir rule root id) ≠ none := by simp [hdir]
        constructor
        · intro out
          apply own_of_confined hconfined hsome
          intro path _ hpath
          exact (uninstall_spec _ rfl).1 path (by simpa using hpath)
        · rintro out w rfl hfresh
          apply own_of_confined hconfined hsome
          intro path hthere hpath
          have hproper : sanitizeComponent id ≠ ".." := by
            intro heq
            exact (hconfined entry hdir).1 (by simp [heq])
          apply uninstallPlugin_agree.run (FileTree.AgreeOutside.refl _ _) path
          simp only [workDirs, List.mem_cons, List.not_mem_nil, or_false, forall_eq_or_imp,
            forall_eq]
          exact ⟨hpath, fun hbackup => hthere (hfresh hproper path hbackup)⟩

theorem mem_intercalate {c : Char} {sep : List Char} {segments : List (List Char)}
    (h : c ∈ sep.intercalate segments) : c ∈ sep ∨ ∃ segment ∈ segments, c ∈ segment := by
  obtain ⟨part, hpart, hc⟩ := List.mem_flatten.mp h
  induction segments with
  | nil => cases hpart
  | cons first rest ih =>
      cases rest with
      | nil =>
          rw [List.mem_singleton.mp hpart] at hc
          exact .inr ⟨first, List.mem_cons_self, hc⟩
      | cons second rest =>
          rw [List.intersperse_cons_cons, List.mem_cons, List.mem_cons] at hpart
          rcases hpart with rfl | rfl | hpart
          · exact .inr ⟨_, List.mem_cons_self, hc⟩
          · exact .inl hc
          · rcases ih (List.mem_flatten.mpr ⟨part, hpart, hc⟩) hpart with hsep | ⟨segment, hmem, hc⟩
            · exact .inl hsep
            · exact .inr ⟨segment, List.mem_cons_of_mem _ hmem, hc⟩

/-- A plugin id is its own component. -/
theorem sanitizeComponent_of_isValid (h : isValidPluginId id) : sanitizeComponent id = id := by
  simp only [isValidPluginId, Bool.and_eq_true, List.all_eq_true] at h
  have hchars : ∀ c ∈ id.toList, (c.isAlphanum || c == '.' || c == '-' || c == '_') = true := by
    intro c hc
    have hjoin : List.intercalate ['.'] (id.toList.splitOn '.') = id.toList :=
      List.intercalate_splitOn '.'
    rw [← hjoin] at hc
    rcases mem_intercalate hc with hdot | ⟨segment, hsegment, hc⟩
    · simp [List.mem_singleton.mp hdot]
    · have hsegment := h.2 segment hsegment
      cases segment with
      | nil => cases hc
      | cons first rest =>
          simp only [Bool.and_eq_true, List.all_eq_true] at hsegment
          have hchar := hsegment.2 c hc
          simp only [isIdChar, Bool.or_eq_true] at hchar ⊢
          tauto
  unfold sanitizeComponent
  rw [List.map_congr_left (g := fun c => c) fun c hc => if_pos (hchars c hc), List.map_id',
    String.ofList_toList]

/-- A plugin id is a name. -/
theorem isName_of_isValid (h : isValidPluginId id) : IsName id := by
  intro hmem
  simp only [List.mem_cons, List.not_mem_nil, or_false] at hmem
  rcases hmem with rfl | rfl | rfl
  all_goals exact absurd h (by decide)

/-- On a file system that compares names as they are, a plugin id is taken to its own
directory. -/
theorem confined_of_isValid {files : FileTree FileEntry}
    (hnamed : ∀ path name entry, files (path ++ [name]) = some entry → entry.name = name)
    (hid : isValidPluginId id) : Confined .sensitive root id files := by
  have hname : IsName (sanitizeComponent id) := by
    rw [sanitizeComponent_of_isValid hid]
    exact isName_of_isValid hid
  intro entry hentry
  refine ⟨hname, fun _ => ?_⟩
  unfold pluginDir at hentry
  rw [componentDir_of_isName hname, sanitizeComponent_of_isValid hid] at hentry
  exact hnamed _ _ entry hentry

end Results

/-! ## Ids that are none -/

/-- A data directory with one installed plugin. -/
def onePlugin : UninstallWorld where
  files := fun path =>
    if path = ["data"] then some ⟨"data", .directory⟩
    else if path = ["data", "plugins"] then some ⟨"plugins", .directory⟩
    else if path = ["data", "plugins", "com.example_tool"] then
      some ⟨"com.example_tool", .directory⟩
    else none
  db := ⟨⟨.empty, fun _ => none⟩, none⟩
  registry := .new

def dataRoot : PluginsRoot := ⟨["data"], "plugins"⟩

/-- Nothing fails. -/
def quietUninstall : UninstallOutside := ⟨fun _ => none, fun _ => false, "1"⟩

theorem fresh_onePlugin (id : String) (dir : List String)
    (hdir : backupDir .sensitive dataRoot (sanitizeComponent id) "1" = dir)
    (hfree : ∀ path ∈ [["data"], ["data", "plugins"], ["data", "plugins", "com.example_tool"]],
      ¬ dir <+: path) : quietUninstall.Fresh .sensitive dataRoot id onePlugin.files := by
  intro _ path hprefix
  have hprefix : dir <+: path := hdir ▸ hprefix
  have hother : ∀ other ∈ [["data"], ["data", "plugins"], ["data", "plugins", "com.example_tool"]],
      path ≠ other := by
    rintro other hmem rfl
    exact hfree _ hmem hprefix
  simp only [onePlugin, hother _ List.mem_cons_self,
    hother _ (List.mem_cons_of_mem _ List.mem_cons_self),
    hother _ (List.mem_cons_of_mem _ (List.mem_cons_of_mem _ List.mem_cons_self)), if_false]

/-- The empty string removes the plugins root, and a string with a slash the directory of
another plugin id. -/
theorem uninstall_removes_others :
    (quietUninstall.Fresh .sensitive dataRoot "" onePlugin.files ∧
      ¬ OwnDirectory .sensitive dataRoot "" onePlugin.files
        (uninstallPlugin quietUninstall .sensitive dataRoot "" onePlugin).2.files) ∧
    quietUninstall.Fresh .sensitive dataRoot "com.example/tool" onePlugin.files ∧
      isValidPluginId "com.example_tool" ∧
      ¬ OwnDirectory .sensitive dataRoot "com.example/tool" onePlugin.files
        (uninstallPlugin quietUninstall .sensitive dataRoot "com.example/tool" onePlugin).2.files := by
  have hvalid : isValidPluginId "com.example_tool" := by decide
  have hroot : (uninstallPlugin quietUninstall .sensitive dataRoot "" onePlugin).2.files
      (pluginDir .sensitive dataRoot "") = none := by
    with_unfolding_all rfl
  have hother : (uninstallPlugin quietUninstall .sensitive dataRoot "com.example/tool"
      onePlugin).2.files (pluginDir .sensitive dataRoot "com.example/tool") = none := by
    with_unfolding_all rfl
  refine ⟨⟨?_, ?_⟩, ?_, hvalid, ?_⟩
  · exact fresh_onePlugin _ ["data", "plugins.uninstall-1"] (by decide) (by decide)
  · intro hown
    have hconfined := confined_of_gone hroot hown ⟨"plugins", .directory⟩ (by decide)
    exact hconfined.1 (by decide)
  · exact fresh_onePlugin _ ["data", "plugins", "com.uninstall-1"] (by decide) (by decide)
  · intro hown
    have hconfined := confined_of_gone hother hown ⟨"com.example_tool", .directory⟩ (by decide)
    exact absurd (hconfined.2 hvalid) (by decide)

end Useful.Plugins
