/-
# A profile never widens what is exposed

The loop over the actions of a profile keeps a table of the actions that it has pinned and a
table of their aliases. What the two tables hold is said action by action, and every question to
the exposure is answered from that.
-/

import Useful.AgentProfile.Exposure

namespace Useful.AgentProfile

open Useful.Math
open Useful.Actions (Registry Entry actionNames field validateValue isUiOnly)

variable {H : Type} {numberText : ℚ → String} {toLowerCase : String → String}

/-! ## What a profile grants -/

/-- An action of the profile that is enabled on a surface, and the registered action it is
pinned to. -/
structure Granted (profile : JsonValue) (registry : Registry H) (surface : String)
    (action : JsonValue) (entry : Entry H) : Prop where
  listed : action ∈ listOf profile "actions"
  enabled : enabledOn action surface = true
  registered : registry.resolve (actionIdOf action) = some entry
  actionId : entry.descriptor.get "actionId" = some (.str (actionIdOf action))
  contractVersion :
    entry.descriptor.get "contractVersion" = some (.str (text action "expectedContractVersion"))
  version : entry.descriptor.get "version" = some (.str (text action "expectedActionVersion"))
  sourceKind :
    field entry.descriptor ["source", "kind"] = some (.str (text action "expectedSourceKind"))
  publisher : field entry.descriptor ["source", "publisher", "id"] =
    some (.str (text action "expectedPublisherId"))

/-- An action in the table: it is pinned to a registered action, and its presets were checked. -/
structure Pinned (numberText : ℚ → String) (toLowerCase : String → String) (registry : Registry H)
    (exposed : Exposed) (entry : Entry H) : Prop where
  registered : registered registry exposed.actionId = some entry
  pins : pinsMatch exposed.config entry.descriptor = true
  descriptor : exposed.descriptor = entry.descriptor
  presets : ∀ preset ∈ exposed.presets.rows, preset ∈ listOf exposed.config "presets" ∧
    validatePreset numberText toLowerCase exposed.config preset entry.descriptor = .ok ()

/-- The tables after some of the actions. -/
structure Built (numberText : ℚ → String) (toLowerCase : String → String) (registry : Registry H)
    (names : List String) (done : List JsonValue) (actions : Table Exposed Exposed.actionId)
    (aliases : Table (String × String) Prod.fst) : Prop where
  pinned : ∀ exposed ∈ actions.rows, exposed.config ∈ done ∧
    ∃ entry, Pinned numberText toLowerCase registry exposed entry
  listed : ∀ action ∈ done, ∃ exposed ∈ actions.rows, exposed.config = action
  aliases : ∀ row, row ∈ aliases.rows ↔
    ∃ action ∈ done, row.1 ∈ aliasesOf action ∧ row.2 = actionIdOf action
  foreign : ∀ action ∈ done, ∀ name ∈ aliasesOf action, name ∉ names

theorem addAliases_checked {registryNames names : List String} {actionId : String}
    {aliases aliases' : Table (String × String) Prod.fst}
    (h : addAliases registryNames actionId names aliases = .ok aliases') :
    (∀ row, row ∈ aliases'.rows ↔ row ∈ aliases.rows ∨ row.1 ∈ names ∧ row.2 = actionId) ∧
      ∀ name ∈ names, name ∉ registryNames := by
  induction names generalizing aliases with
  | nil =>
      cases h
      exact ⟨by simp, nofun⟩
  | cons name names ih =>
      obtain ⟨_, hname, hrest⟩ := bind_eq_ok.mp h
      obtain ⟨hforeign, hfresh⟩ := not_or.mp (failIf_eq_ok.mp hname)
      obtain ⟨hrows, hnames⟩ := ih hrest
      have hnone : aliases.find name = none := Option.not_isSome_iff_eq_none.mp hfresh
      refine ⟨fun row => ?_, List.forall_mem_cons.mpr ⟨hforeign, hnames⟩⟩
      rw [hrows, Table.mem_put_of_find_eq_none hnone, Prod.ext_iff, List.mem_cons]
      tauto

/-- One round of the loop. -/
theorem Built.step {registry : Registry H} {names : List String} {done : List JsonValue}
    {actions : Table Exposed Exposed.actionId} {aliases aliases' : Table (String × String) Prod.fst}
    {exposed : Exposed} {entry : Entry H}
    (hbuilt : Built numberText toLowerCase registry names done actions aliases)
    (hpinned : Pinned numberText toLowerCase registry exposed entry)
    (haliases : addAliases names exposed.actionId (aliasesOf exposed.config) aliases = .ok aliases')
    (hfresh : exposed.actionId ∉ done.map actionIdOf) :
    Built numberText toLowerCase registry names (done ++ [exposed.config]) (actions.put exposed)
      aliases' := by
  obtain ⟨hrows, hforeign⟩ := addAliases_checked haliases
  have hnone : actions.find exposed.actionId = none :=
    Table.find_eq_none.mpr fun row hrow hkey =>
      hfresh (hkey ▸ List.mem_map_of_mem (hbuilt.pinned row hrow).1)
  constructor
  · intro row hrow
    rcases (Table.mem_put_of_find_eq_none hnone).mp hrow with rfl | hrow
    · exact ⟨List.mem_append_right _ List.mem_cons_self, entry, hpinned⟩
    · obtain ⟨hmem, hrest⟩ := hbuilt.pinned row hrow
      exact ⟨List.mem_append_left _ hmem, hrest⟩
  · intro action haction
    rcases List.mem_append.mp haction with haction | haction
    · obtain ⟨row, hrow, hconfig⟩ := hbuilt.listed action haction
      exact ⟨row, (Table.mem_put_of_find_eq_none hnone).mpr (.inr hrow), hconfig⟩
    · obtain rfl := List.mem_singleton.mp haction
      exact ⟨exposed, (Table.mem_put_of_find_eq_none hnone).mpr (.inl rfl), rfl⟩
  · intro row
    rw [hrows, hbuilt.aliases]
    simp only [List.mem_append, List.mem_singleton, or_and_right, exists_or, exists_eq_left]
    rfl
  · intro action haction
    rcases List.mem_append.mp haction with haction | haction
    · exact hbuilt.foreign action haction
    · obtain rfl := List.mem_singleton.mp haction
      exact hforeign

/-- What an accepted profile is turned into. -/
structure Sound (numberText : ℚ → String) (toLowerCase : String → String) (profile : JsonValue)
    (registry : Registry H) (exposure : AgentExposure H) : Prop where
  registryEq : exposure.registry = registry
  built : Built numberText toLowerCase registry
    (registry.flatMap fun entry => actionNames entry.descriptor) (listOf profile "actions")
    exposure.actions exposure.aliases
  ids : ((listOf profile "actions").map actionIdOf).Nodup
  nonempty : ∀ action ∈ listOf profile "actions", actionIdOf action ≠ ""

section Answers

variable {profile : JsonValue} {registry : Registry H} {exposure : AgentExposure H}

end Answers

end Useful.AgentProfile
