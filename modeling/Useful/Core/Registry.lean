/-
# The tool registry

The process keeps one definition for each tool id. Registering an id twice is a
conflict, so a definition is always found under its own id.
-/

import Useful.Math.Program
import Mathlib.Logic.Function.Basic

namespace Useful.Core

open Useful.Math

inductive ToolCategory
  | builtin
  | installed
  deriving DecidableEq, Repr

inductive ToolKind
  | builtin
  | web
  | launcher
  | worker
  deriving DecidableEq, Repr

structure ToolDefinition where
  id : String
  name : String
  description : String
  icon : String
  route : String
  category : ToolCategory
  kind : ToolKind
  order : Int
  supportsShortcut : Bool
  requiredCapabilities : List String
  version : Option String
  deriving DecidableEq, Repr

/-- The definitions by id, each under its own. -/
@[ext]
structure ToolRegistry where
  tools : String → Option ToolDefinition
  keyed : ∀ id tool, tools id = some tool → tool.id = id

namespace ToolRegistry

/-- `ToolRegistry::new`. -/
def new : ToolRegistry := ⟨fun _ => none, nofun⟩

def get (registry : ToolRegistry) (id : String) : Option ToolDefinition := registry.tools id

/-- The map's `insert`, under the definition's id. -/
def insert (registry : ToolRegistry) (tool : ToolDefinition) : ToolRegistry where
  tools := Function.update registry.tools tool.id (some tool)
  keyed := by
    intro id other h
    by_cases hid : id = tool.id
    · subst hid
      rw [Function.update_self] at h
      cases h
      rfl
    · rw [Function.update_of_ne hid] at h
      exact registry.keyed id other h

/-- The map's `remove`. -/
def remove (registry : ToolRegistry) (id : String) : ToolRegistry where
  tools := Function.update registry.tools id none
  keyed := by
    intro id' other h
    by_cases hid : id' = id
    · subst hid
      rw [Function.update_self] at h
      cases h
    · rw [Function.update_of_ne hid] at h
      exact registry.keyed id' other h

/-- `register`: an id that is taken is a conflict. -/
def register (tool : ToolDefinition) : Program String ToolRegistry Unit := fun registry =>
  match registry.tools tool.id with
  | some _ => (.error s!"工具 ID 冲突: {tool.id}", registry)
  | none => (.ok (), registry.insert tool)

/-- `unregister`: the definition that was there. -/
def unregister {ε : Type} (id : String) : Program ε ToolRegistry (Option ToolDefinition) :=
  fun registry => (.ok (registry.tools id), registry.remove id)

@[simp] theorem get_insert (registry : ToolRegistry) (tool : ToolDefinition) :
    (registry.insert tool).get tool.id = some tool :=
  Function.update_self _ _ _

@[simp] theorem tools_remove_self (registry : ToolRegistry) (id : String) :
    (registry.remove id).tools id = none :=
  Function.update_self _ _ _

/-- Removing an id that was just inserted leaves the registry without it. -/
theorem remove_insert_remove (registry : ToolRegistry) (tool : ToolDefinition) :
    ((registry.remove tool.id).insert tool).remove tool.id = registry.remove tool.id := by
  ext1
  funext id
  by_cases hid : id = tool.id <;> simp [remove, insert, hid]

/-- Putting back what was under an id restores the registry. -/
theorem insert_remove {registry : ToolRegistry} {id : String} {tool : ToolDefinition}
    (h : registry.tools id = some tool) : (registry.remove id).insert tool = registry := by
  obtain rfl := registry.keyed id tool h
  ext1
  funext id
  by_cases hid : id = tool.id
  · simp [remove, insert, hid, h]
  · simp [remove, insert, hid]

/-- An id that was free is free again after its removal. -/
theorem remove_of_none {registry : ToolRegistry} {id : String} (h : registry.tools id = none) :
    registry.remove id = registry := by
  ext1
  show Function.update registry.tools id none = registry.tools
  rw [← h, Function.update_eq_self]

end ToolRegistry

end Useful.Core
