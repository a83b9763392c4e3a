/-
# Plugin manifests and their permissions

The fields of a manifest that installation writes to the database, and the part
of `validate_semantics` that ties permissions to the entry type. In the first
release a launcher declares the one known permission and other plugins declare
none, so the entry type of an accepted manifest fixes its set of permissions.
-/

import Useful.Math.Checks
import Mathlib.Data.Finset.Card

namespace Useful.Plugins

open Useful.Math

inductive EntryType
  | web
  | launcher
  | worker
  deriving DecidableEq, Repr

/-- The text in the `kind` column: the entry type's name in lower case. -/
def EntryType.kindName : EntryType → String
  | .web => "web"
  | .launcher => "launcher"
  | .worker => "worker"

theorem EntryType.kindName_injective : Function.Injective EntryType.kindName := by
  intro a b
  cases a <;> cases b <;> simp [kindName]

/-- `KNOWN_EXACT`. -/
def knownExact : List String := ["process.launch.declared"]

/-- `unknown_permissions`. -/
def unknownPermissions (permissions : List String) : List String :=
  permissions.filter fun permission => permission ∉ knownExact

/-- The permission checks of `validate_semantics`. -/
def checkPermissions (entryType : EntryType) (permissions : List String) :
    Except String Unit := do
  let unknown := unknownPermissions permissions
  let names := ", ".intercalate unknown
  failIf (unknown ≠ []) s!"首发版本不支持这些 native 权限: {names}"
  failIf (entryType = .launcher ∧ "process.launch.declared" ∉ permissions)
    "launcher 必须声明 process.launch.declared"
  failIf (entryType ≠ .launcher ∧ permissions ≠ [])
    "web/worker 插件首发版本必须使用 permissions: []"

structure SidebarItem where
  order : Int

structure ActionContribution where
  path : String

structure Contributes where
  sidebar : List SidebarItem := []
  actions : List ActionContribution := []

/-- A manifest that passed `parse_and_validate`. -/
structure PluginManifest where
  id : String
  name : String
  version : String
  description : String
  icon : Option String
  entryType : EntryType
  path : String
  args : List String
  contributes : Contributes := {}
  permissions : List String
  platforms : List String := ["windows-x64"]
  minHostVersion : String := "0.1.0"
  checked : checkPermissions entryType permissions = .ok ()

/-- The permissions an entry type brings with it. -/
def EntryType.permissions : EntryType → Finset String
  | .launcher => {"process.launch.declared"}
  | _ => ∅

theorem checkPermissions_eq_ok {entryType : EntryType} {permissions : List String} :
    checkPermissions entryType permissions = .ok () ↔
      permissions.toFinset = entryType.permissions := by
  simp only [checkPermissions, bind_eq_ok, failIf_eq_ok, exists_and_left, exists_const, not_not,
    not_and, unknownPermissions, List.filter_eq_nil_iff, knownExact, List.mem_singleton,
    decide_not, Bool.not_eq_true', decide_eq_false_iff_not, ne_eq]
  constructor
  · intro h
    obtain ⟨hknown, hlauncher, hother⟩ := h
    cases entryType with
    | launcher =>
        ext permission
        simp only [List.mem_toFinset, EntryType.permissions, Finset.mem_singleton]
        constructor
        · exact fun hmem => hknown permission hmem
        · intro heq
          exact heq ▸ hlauncher rfl
    | web => simp [EntryType.permissions, hother]
    | worker => simp [EntryType.permissions, hother]
  · intro h
    have hmem : ∀ permission, permission ∈ permissions ↔ permission ∈ entryType.permissions := by
      intro permission
      rw [← h, List.mem_toFinset]
    cases entryType with
    | launcher => simp_all [EntryType.permissions]
    | web => simp_all [EntryType.permissions]
    | worker => simp_all [EntryType.permissions]

/-- The permissions of an accepted manifest are those of its entry type. -/
theorem PluginManifest.toFinset_permissions (m : PluginManifest) :
    m.permissions.toFinset = m.entryType.permissions :=
  checkPermissions_eq_ok.mp m.checked

end Useful.Plugins
