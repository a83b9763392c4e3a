/-
# The tables of installed tools

Four operations rewrite the rows of a tool: installing a package, importing a
launcher, rolling back to an earlier version and uninstalling. Every statement
of theirs selects rows by tool id, so the database is a map from tool ids to the
rows that carry them, and an operation changes the rows of one tool.

A tool's `kind` and its granted permissions are meant to be those of its current
version. Installing over an existing row does not write `kind`, and rolling back
writes neither. The tables stay in step exactly as long as neither operation
changes the entry type of the tool.
-/

import Useful.Math.Text
import Useful.Math.Transition
import Useful.Plugins.Manifest
import Mathlib.Data.List.AList
import Mathlib.Logic.Function.Basic

namespace Useful.Plugins

open Useful.Math

/-! ## The rows -/

/-- A row of `tools`. -/
structure ToolRow where
  kind : String
  name : String
  description : String
  iconPath : Option String
  enabled : Bool
  currentVersion : Option String
  deriving DecidableEq, Repr

/-- A row of `tool_versions`, without its keys. The manifest column holds the
manifest's JSON text, which is read back as the manifest it was written from. -/
structure VersionRow where
  installDir : Option String
  manifest : PluginManifest
  sha256 : Option String
  installedAt : Int

/-- A row of `installed_origins`, without its key and its times. -/
structure InstalledOrigin where
  sourceId : String
  publisherKeyId : String
  installedVersion : String
  artifactSha256 : String
  channel : String
  manifestDigest : String
  deriving DecidableEq, Repr

/-- The rows that carry one tool id. -/
structure ToolEntry where
  tool : Option ToolRow
  versions : AList fun _ : String => VersionRow
  granted : Finset String
  origin : Option InstalledOrigin

/-- The database, by tool id. -/
abbrev Tables := String → ToolEntry

def ToolEntry.empty : ToolEntry := ⟨none, ∅, ∅, none⟩

/-- A database without tools. -/
def Tables.empty : Tables := fun _ => .empty

/-! ## The statements -/

namespace ToolEntry

/-- The upsert of `persist_installed_inner`: a conflict leaves `kind` alone. -/
def upsertTool (entry : ToolEntry) (m : PluginManifest) : ToolEntry :=
  { entry with
    tool := some
      { kind := match entry.tool with
          | none => m.entryType.kindName
          | some row => row.kind
        name := m.name
        description := m.description
        iconPath := m.icon
        enabled := true
        currentVersion := some m.version } }

/-- The upsert of a version: a conflict keeps `installed_at`. -/
def upsertVersion (entry : ToolEntry) (version : String) (installDir : Option String)
    (m : PluginManifest) (sha256 : Option String) (now : Int) : ToolEntry :=
  { entry with
    versions := entry.versions.insert version
      { installDir := installDir
        manifest := m
        sha256 := sha256
        installedAt := match entry.versions.lookup version with
          | none => now
          | some row => row.installedAt } }

/-- `DELETE` of all grants, then `INSERT OR IGNORE` of each permission. -/
def replaceGrants (entry : ToolEntry) (permissions : List String) : ToolEntry :=
  { entry with granted := permissions.foldl (fun granted p => insert p granted) ∅ }

/-- The rows after a successful `persist_installed` with the given manifest. -/
def persistInstalled (entry : ToolEntry) (m : PluginManifest) (installDir sha256 : String)
    (trp : Option InstalledOrigin) (now : Int) : Except String ToolEntry :=
  let entry := entry.upsertTool m
  let entry := entry.upsertVersion m.version (some installDir) m (some sha256) now
  let entry := entry.replaceGrants m.permissions
  match trp with
  | some origin => .ok { entry with origin := some origin }
  | none => do
      failIf entry.origin.isSome
        "SOURCE_PINNED_LOCAL_INSTALL_REJECTED: 已安装工具绑定到 TRP 来源，不能通过本地包覆盖"
      return entry

/-- The manifest `import_launcher` makes up. -/
def launcherManifest (id name target : String) (args : List String) : PluginManifest where
  id := id
  name := name
  version := "1.0.0"
  description := s!"本地启动器：{target}"
  icon := none
  entryType := .launcher
  path := target
  args := args
  permissions := ["process.launch.declared"]
  checked := by decide

/-- The rows after a successful `import_launcher`: this upsert writes `kind`. -/
def importLauncher (entry : ToolEntry) (id name target : String) (args : List String)
    (now : Int) : Except String ToolEntry := do
  failIf (name.toList.all isWhitespace ∨ target.toList.all isWhitespace) "名称与目标不能为空"
  failIf entry.origin.isSome
    "SOURCE_PINNED_LAUNCHER_IMPORT_REJECTED: 已安装工具绑定到 TRP 来源，不能通过 launcher 覆盖"
  let m := launcherManifest id name target args
  let entry := { entry with
    tool := some ⟨"launcher", name, m.description, none, true, some "1.0.0"⟩ }
  let entry := entry.upsertVersion "1.0.0" none m none now
  return { entry with granted := {"process.launch.declared"} }

/-- The rows after a successful `tool_rollback` to a version. `ORDER BY installed_at
DESC LIMIT 1` may pick any of the latest versions other than the current one. -/
def toolRollback (entry : ToolEntry) (previous : String) : Except String ToolEntry := do
  failIf entry.origin.isSome
    "SOURCE_PINNED_ROLLBACK_REJECTED: TRP 工具必须使用受验证的来源回滚"
  let row ← orFail "工具未安装" entry.tool
  let current ← orFail "工具未安装" row.currentVersion
  let target ← orFail "没有可回滚的上一个版本" (entry.versions.lookup previous)
  failIf (previous = current ∨ ¬ ∀ other ∈ entry.versions.entries,
      other.1 ≠ current → other.2.installedAt ≤ target.installedAt)
    "没有可回滚的上一个版本"
  return { entry with
    tool := some { row with
      currentVersion := some previous
      name := target.manifest.name
      description := target.manifest.description }
    versions := entry.versions.erase current }

/-- The rows after a successful `uninstall_plugin`. -/
def uninstall (_ : ToolEntry) : ToolEntry := .empty

end ToolEntry

/-- `sanitize_id`; a name without ASCII letters and digits gets the time instead. -/
def sanitizeId (name : String) (seconds : Nat) : String :=
  let s := (name.toList.filter Char.isAlphanum).map Char.toLower
  if s = [] then s!"tool{seconds}" else String.ofList s

/-- The operations, with what they read from outside the database. -/
inductive Operation
  | persistInstalled (m : PluginManifest) (installDir sha256 : String)
      (trp : Option InstalledOrigin) (now : Int)
  | importLauncher (name target : String) (args : List String) (seconds : Nat)
  | toolRollback (toolId previous : String)
  | uninstallPlugin (pluginId : String)

namespace Operation

/-- The tool whose rows an operation selects. -/
def toolId : Operation → String
  | persistInstalled m _ _ _ _ => m.id
  | importLauncher name _ _ seconds => "local.launcher." ++ sanitizeId name seconds
  | toolRollback toolId _ => toolId
  | uninstallPlugin pluginId => pluginId

/-- The rows of the operation's tool after it succeeds. -/
def apply (entry : ToolEntry) : Operation → Except String ToolEntry
  | persistInstalled m installDir sha256 trp now =>
      entry.persistInstalled m installDir sha256 trp now
  | importLauncher name target args seconds =>
      entry.importLauncher ("local.launcher." ++ sanitizeId name seconds) name target args seconds
  | toolRollback _ previous => entry.toolRollback previous
  | uninstallPlugin _ => .ok entry.uninstall

end Operation

/-- The database after an operation; a failed one is rolled back. -/
def Operation.next (db : Tables) (op : Operation) : Tables :=
  match op.apply (db op.toolId) with
  | .ok entry => Function.update db op.toolId entry
  | .error _ => db

/-- A successful operation. -/
def ToolStep (db : Tables) (op : Operation) (db' : Tables) : Prop :=
  ∃ entry, op.apply (db op.toolId) = .ok entry ∧ db' = Function.update db op.toolId entry

/-! ## In step with the current version -/

/-- Permissions and kind are those of the current version. -/
def ToolEntry.Tracks (entry : ToolEntry) : Prop :=
  ∀ row, entry.tool = some row → ∃ version record, row.currentVersion = some version ∧
    entry.versions.lookup version = some record ∧
    entry.granted = record.manifest.permissions.toFinset ∧
    row.kind = record.manifest.entryType.kindName

/-- Every tool's permissions and kind are those of its current version. -/
def Tables.Track (db : Tables) : Prop := ∀ id, (db id).Tracks

/-- The operation does not change the entry type of an installed tool. -/
def KeepsEntryType (db : Tables) : Operation → Prop
  | .persistInstalled m _ _ _ _ => ∀ row, (db m.id).tool = some row →
      row.kind = m.entryType.kindName
  | .toolRollback toolId previous => ∀ row target, (db toolId).tool = some row →
      (db toolId).versions.lookup previous = some target →
      row.kind = target.manifest.entryType.kindName
  | _ => True

namespace ToolEntry

theorem empty_tracks : ToolEntry.empty.Tracks := by
  intro row hrow
  cases hrow

theorem mem_foldl_insert {p : String} (permissions : List String) (granted : Finset String) :
    p ∈ permissions.foldl (fun granted p => insert p granted) granted ↔
      p ∈ granted ∨ p ∈ permissions := by
  induction permissions generalizing granted with
  | nil => simp
  | cons q permissions ih => rw [List.foldl_cons, ih, Finset.mem_insert, List.mem_cons]; tauto

/-- Replacing the grants leaves exactly the given permissions. -/
theorem granted_replaceGrants (entry : ToolEntry) (permissions : List String) :
    (entry.replaceGrants permissions).granted = permissions.toFinset := by
  ext p
  rw [replaceGrants, mem_foldl_insert, List.mem_toFinset]
  simp

/-- Whichever branch accepts, installing leaves these rows. -/
theorem persistInstalled_rows {entry entry' : ToolEntry} {m : PluginManifest}
    {installDir sha256 : String} {trp : Option InstalledOrigin} {now : Int}
    (h : entry.persistInstalled m installDir sha256 trp now = .ok entry') :
    entry'.tool = (entry.upsertTool m).tool ∧
      (∃ record, entry'.versions.lookup m.version = some record ∧ record.manifest = m ∧
        record.installDir = some installDir ∧ record.sha256 = some sha256) ∧
      entry'.granted = m.permissions.toFinset := by
  have hgranted := granted_replaceGrants ((entry.upsertTool m).upsertVersion m.version
    (some installDir) m (some sha256) now) m.permissions
  unfold persistInstalled at h
  cases trp with
  | some origin =>
      cases h
      exact ⟨rfl, ⟨_, AList.lookup_insert _, rfl, rfl, rfl⟩, hgranted⟩
  | none =>
      simp only [bind_eq_ok, failIf_eq_ok, pure_eq_ok] at h
      obtain ⟨_, -, rfl⟩ := h
      exact ⟨rfl, ⟨_, AList.lookup_insert _, rfl, rfl, rfl⟩, hgranted⟩

/-- After installing, the rows are in step exactly when the `kind` that was left
alone is that of the new manifest. -/
theorem persistInstalled_tracks_iff {entry entry' : ToolEntry} {m : PluginManifest}
    {installDir sha256 : String} {trp : Option InstalledOrigin} {now : Int}
    (h : entry.persistInstalled m installDir sha256 trp now = .ok entry') :
    entry'.Tracks ↔ ∀ row, entry.tool = some row → row.kind = m.entryType.kindName := by
  obtain ⟨htool, ⟨record, hrecord, rfl, -⟩, hgranted⟩ := persistInstalled_rows h
  unfold Tracks
  rw [htool]
  constructor
  · intro htracks row hrow
    obtain ⟨version, record', hversion, hlookup, -, hkind⟩ := htracks _ rfl
    cases Option.some.inj hversion
    rw [hrecord] at hlookup
    cases hlookup
    simpa [hrow] using hkind
  · intro hkind row hrow
    cases hrow
    refine ⟨_, record, rfl, hrecord, hgranted, ?_⟩
    cases hold : entry.tool with
    | none => rfl
    | some old => exact hkind old hold

theorem importLauncher_tracks {entry entry' : ToolEntry} {id name target : String}
    {args : List String} {now : Int}
    (h : entry.importLauncher id name target args now = .ok entry') : entry'.Tracks := by
  simp only [importLauncher, bind_eq_ok, failIf_eq_ok, pure_eq_ok] at h
  obtain ⟨_, -, _, -, rfl⟩ := h
  intro row hrow
  cases hrow
  exact ⟨"1.0.0", _, rfl, AList.lookup_insert _, rfl, rfl⟩

/-- After rolling back, the rows are in step exactly when the target has the
entry type of the version that was current: its permissions follow. -/
theorem toolRollback_tracks_iff {entry entry' : ToolEntry} {previous : String}
    (htracks : entry.Tracks) (h : entry.toolRollback previous = .ok entry') :
    entry'.Tracks ↔ ∀ row target, entry.tool = some row →
      entry.versions.lookup previous = some target →
      row.kind = target.manifest.entryType.kindName := by
  simp only [toolRollback, bind_eq_ok, failIf_eq_ok, orFail_eq_ok, pure_eq_ok, not_or] at h
  obtain ⟨_, -, row, hrow, current, hcurrent, target, htarget, _, ⟨hne, -⟩, rfl⟩ := h
  obtain ⟨version, record, hversion, hlookup, hgranted, hkind⟩ := htracks row hrow
  have hkept : (entry.versions.erase current).lookup previous = some target := by
    rw [AList.lookup_erase_ne hne, htarget]
  constructor
  · intro htracks' row' target' hrow' htarget'
    obtain ⟨version', record', hversion', hlookup', -, hkind'⟩ := htracks' _ rfl
    cases Option.some.inj hversion'
    rw [hkept] at hlookup'
    rw [hrow] at hrow'
    rw [htarget] at htarget'
    cases hlookup'
    cases hrow'
    cases htarget'
    exact hkind'
  · intro hsame row' hrow'
    cases hrow'
    have hentryType : record.manifest.entryType = target.manifest.entryType :=
      EntryType.kindName_injective (hkind.symm.trans (hsame row target hrow htarget))
    refine ⟨previous, target, rfl, hkept, ?_, hsame row target hrow htarget⟩
    rw [hgranted, PluginManifest.toFinset_permissions, PluginManifest.toFinset_permissions,
      hentryType]

end ToolEntry

/-- An operation leaves the rows of other tools alone. -/
theorem toolStep_of_ne {db db' : Tables} {op : Operation} (h : ToolStep db op db') {id : String}
    (hid : id ≠ op.toolId) : db' id = db id := by
  obtain ⟨entry, -, rfl⟩ := h
  exact Function.update_of_ne hid _ _

/-- From tables in step, an operation leads to tables in step exactly when it
does not change the entry type of the tool. -/
theorem track_step_iff {db db' : Tables} {op : Operation} (hdb : db.Track)
    (h : ToolStep db op db') : db'.Track ↔ KeepsEntryType db op := by
  have hother : ∀ id, id ≠ op.toolId → (db' id).Tracks := by
    intro id hid
    rw [toolStep_of_ne h hid]
    exact hdb id
  have hone : db'.Track ↔ (db' op.toolId).Tracks := by
    refine ⟨fun h => h _, ?_⟩
    intro htracks id
    by_cases hid : id = op.toolId
    · exact hid ▸ htracks
    · exact hother id hid
  obtain ⟨entry, happly, rfl⟩ := h
  rw [hone, Function.update_self]
  cases op with
  | persistInstalled m installDir sha256 trp now =>
      exact ToolEntry.persistInstalled_tracks_iff happly
  | importLauncher name target args seconds =>
      exact iff_of_true (ToolEntry.importLauncher_tracks happly) trivial
  | toolRollback toolId previous => exact ToolEntry.toolRollback_tracks_iff (hdb toolId) happly
  | uninstallPlugin pluginId =>
      cases happly
      exact iff_of_true ToolEntry.empty_tracks trivial

theorem empty_track : Tables.empty.Track :=
  fun _ => ToolEntry.empty_tracks

/-- In a run from the empty database whose operations never change the entry
type of a tool, permissions and kind track the current version throughout. -/
theorem track_of_run {db : Tables} {ops : List Operation}
    (h : Run (Guarded KeepsEntryType ToolStep) .empty ops db) : db.Track := by
  apply h.invariant _ empty_track
  intro db op db' hdb hstep
  obtain ⟨hkeeps, hstep⟩ := hstep
  exact (track_step_iff hdb hstep).mpr hkeeps

/-- Permissions and kind track the current version through every run of operations
that keep entry types; and the next operation leaves them in step exactly when it
keeps the entry type as well. -/
theorem tools_track_current_version {db : Tables} {ops : List Operation}
    (h : Run (Guarded KeepsEntryType ToolStep) .empty ops db) :
    db.Track ∧ ∀ op db', ToolStep db op db' → (db'.Track ↔ KeepsEntryType db op) :=
  ⟨track_of_run h, fun _ _ hstep => track_step_iff (track_of_run h) hstep⟩

/-- A web plugin without permissions. -/
def webManifest (id version : String) : PluginManifest where
  id := id
  name := "Converter"
  version := version
  description := ""
  icon := none
  entryType := .web
  path := "index.html"
  args := []
  permissions := []
  checked := by decide

/-- The same plugin published as a launcher. -/
def launcherRelease (id version : String) : PluginManifest where
  id := id
  name := "Converter"
  version := version
  description := ""
  icon := none
  entryType := .launcher
  path := "converter.exe"
  args := []
  permissions := ["process.launch.declared"]
  checked := by decide

def installWeb (id version : String) (now : Int) : Operation :=
  .persistInstalled (webManifest id version) "plugins" "00" none now

def installLauncher (id version : String) (now : Int) : Operation :=
  .persistInstalled (launcherRelease id version) "plugins" "00" none now

/-- Two releases of a web plugin keep the tables in step. -/
theorem tools_track_current_version_web : ∃ db,
    Run (Guarded KeepsEntryType ToolStep) .empty
      [installWeb "com.example.tool" "1.0.0" 1, installWeb "com.example.tool" "2.0.0" 2] db ∧
    db.Track ∧ ∀ op db', ToolStep db op db' → (db'.Track ↔ KeepsEntryType db op) := by
  let first := installWeb "com.example.tool" "1.0.0" 1
  let second := installWeb "com.example.tool" "2.0.0" 2
  have hfirst : Guarded KeepsEntryType ToolStep .empty first (first.next .empty) :=
    ⟨nofun, _, rfl, rfl⟩
  have hsecond : Guarded KeepsEntryType ToolStep (first.next .empty) second
      (second.next (first.next .empty)) := by
    refine ⟨?_, _, rfl, rfl⟩
    intro row hrow
    cases hrow
    rfl
  have hrun := Run.cons hfirst (.single hsecond)
  exact ⟨_, hrun, tools_track_current_version hrun⟩

/-- Installing a launcher over a web plugin leaves its kind behind; rolling back
from an imported launcher to a web plugin leaves kind and permissions behind. -/
theorem kind_and_permissions_left_behind :
    (∃ db, Run ToolStep .empty
      [installWeb "com.example.tool" "1.0.0" 1, installLauncher "com.example.tool" "2.0.0" 2] db ∧
      ¬ db.Track) ∧
    ∃ db, Run ToolStep .empty
      [installWeb "local.launcher.tool" "0.9.0" 1, .importLauncher "tool" "tool.exe" [] 2,
        .toolRollback "local.launcher.tool" "0.9.0"] db ∧ ¬ db.Track := by
  constructor
  · let first := installWeb "com.example.tool" "1.0.0" 1
    let second := installLauncher "com.example.tool" "2.0.0" 2
    have hfirst : ToolStep .empty first (first.next .empty) := ⟨_, rfl, rfl⟩
    have hsecond : ToolStep (first.next .empty) second (second.next (first.next .empty)) :=
      ⟨_, rfl, rfl⟩
    have htrack := (track_step_iff empty_track hfirst).mpr nofun
    refine ⟨_, .cons hfirst (.single hsecond), ?_⟩
    rw [track_step_iff htrack hsecond]
    intro hkeeps
    exact absurd (hkeeps _ rfl) (by decide)
  · let first := installWeb "local.launcher.tool" "0.9.0" 1
    let second := Operation.importLauncher "tool" "tool.exe" [] 2
    let third := Operation.toolRollback "local.launcher.tool" "0.9.0"
    let imported := second.next (first.next .empty)
    have hfirst : ToolStep .empty first (first.next .empty) := ⟨_, rfl, rfl⟩
    have hsecond : ToolStep (first.next .empty) second imported := ⟨_, rfl, rfl⟩
    have hthird : ToolStep imported third (third.next imported) := ⟨_, rfl, rfl⟩
    have htrack := (track_step_iff empty_track hfirst).mpr nofun
    have htrack' := (track_step_iff htrack hsecond).mpr trivial
    refine ⟨_, .cons hfirst (.cons hsecond (.single hthird)), ?_⟩
    rw [track_step_iff htrack' hthird]
    intro hkeeps
    exact absurd (hkeeps _ _ rfl rfl) (by decide)

end Useful.Plugins
