/-
# Saved profiles

The desktop stores the text that it writes of an accepted profile. It reads that text back to
the same text when the text is not too long, and the browser accepts what is in it when, besides,
every struct is written as an object, the names have few UTF-16 units, and its own text of the
profile is not too long either.
-/

import Useful.AgentProfile.Ids
import Useful.Math.Text

namespace Useful.AgentProfile

open Useful.Math
open Useful.Actions (quoteText utf16Length)
open Useful.Tuf (byteLt byteLe)

variable {ν : Type}

/-! ## The two walks -/

section Walks

variable {ε ε' : Type} (maxDepth maxNodes : Nat) (childPath childPath' : String → String → String)
  (reject : String → String → ε) (reject' : String → String → ε')

/-- Two computations that accept the same, with the same result. -/
def SameAcceptance {α : Type} (x : Except ε α) (y : Except ε' α) : Prop := x.toOption = y.toOption

theorem SameAcceptance.bind {α β : Type} {x : Except ε α} {y : Except ε' α} {f : α → Except ε β}
    {g : α → Except ε' β} (hxy : SameAcceptance x y) (hfg : ∀ a, SameAcceptance (f a) (g a)) :
    SameAcceptance (x >>= f) (y >>= g) := by
  unfold SameAcceptance at hxy ⊢
  cases x with
  | error e =>
      cases y with
      | error e' => rfl
      | ok b => cases hxy
  | ok a =>
      cases y with
      | error e' => cases hxy
      | ok b =>
          cases hxy
          exact hfg a

theorem sameAcceptance_failIf (c : Prop) [Decidable c] (e : ε) (e' : ε') :
    SameAcceptance (failIf c e) (failIf c e') := by
  unfold SameAcceptance failIf
  split_ifs <;> rfl

theorem enter_sameAcceptance (path path' : String) (depth nodes : Nat) :
    SameAcceptance (enter maxDepth maxNodes reject path depth nodes)
      (enter maxDepth maxNodes reject' path' depth nodes) :=
  (sameAcceptance_failIf _ _ _).bind fun _ => (sameAcceptance_failIf _ _ _).bind fun _ => rfl

mutual

/-- Whether a walk ends does not depend on its paths and errors. -/
theorem inspect_sameAcceptance : ∀ (v : Json ν) (path path' : String) (depth nodes : Nat),
    SameAcceptance (inspect maxDepth maxNodes childPath reject v path depth nodes)
      (inspect maxDepth maxNodes childPath' reject' v path' depth nodes)
  | .null, _, _, _, _ | .bool _, _, _, _, _ | .num _, _, _, _, _ => by
      rw [inspect, inspect]
      exact enter_sameAcceptance ..
  | .str _, _, _, _, _ => by
      rw [inspect, inspect]
      exact (enter_sameAcceptance ..).bind fun _ =>
        (sameAcceptance_failIf ..).bind fun _ => rfl
  | .arr items, _, _, _, _ => by
      rw [inspect, inspect]
      exact (enter_sameAcceptance ..).bind fun _ => inspectItems_sameAcceptance items ..
  | .obj members, _, _, _, _ => by
      rw [inspect, inspect]
      exact (enter_sameAcceptance ..).bind fun _ => inspectMembers_sameAcceptance members ..

theorem inspectItems_sameAcceptance : ∀ (items : List (Json ν)) (path path' : String)
    (index depth nodes : Nat),
    SameAcceptance (inspectItems maxDepth maxNodes childPath reject items path index depth nodes)
      (inspectItems maxDepth maxNodes childPath' reject' items path' index depth nodes)
  | [], _, _, _, _, _ => rfl
  | item :: items, _, _, _, _, _ => by
      rw [inspectItems, inspectItems]
      exact (inspect_sameAcceptance item ..).bind fun _ => inspectItems_sameAcceptance items ..

theorem inspectMembers_sameAcceptance : ∀ (members : List (String × Json ν)) (path path' : String)
    (depth nodes : Nat),
    SameAcceptance (inspectMembers maxDepth maxNodes childPath reject members path depth nodes)
      (inspectMembers maxDepth maxNodes childPath' reject' members path' depth nodes)
  | [], _, _, _, _ => rfl
  | (key, child) :: members, _, _, _, _ => by
      rw [inspectMembers, inspectMembers]
      exact (sameAcceptance_failIf ..).bind fun _ =>
        (inspect_sameAcceptance child ..).bind fun _ => inspectMembers_sameAcceptance members ..

end

end Walks

/-- What the desktop walks through, the browser does. -/
theorem inspectTree_of_inspect_value {value : Json ν} {nodes : Nat}
    (h : inspect_value value = .ok nodes) : inspectTree value = .ok nodes := by
  have hsame := inspect_sameAcceptance 16 4096 (fun path key => path ++ "/" ++ key)
    (fun path key => path ++ "/" ++ escapePointer key) profile_error
    (fail "AGENT_PROFILE_INVALID") value "" "" 0 0
  have hok : (inspect_value value).toOption = some nodes := by rw [h]; rfl
  have htree : (inspectTree value).toOption = some nodes := hsame.symm.trans hok
  cases hwalk : inspectTree value with
  | error e =>
      rw [hwalk] at htree
      cases htree
  | ok nodes' =>
      rw [hwalk] at htree
      cases htree
      rfl

/-! ## Structs -/

theorem mapM_eq_some {α β : Type} {f : α → Option β} {xs : List α} {ys : List β} :
    xs.mapM f = some ys ↔ List.Forall₂ (fun x y => f x = some y) xs ys := by
  induction xs generalizing ys with
  | nil =>
      rw [List.mapM_nil, List.forall₂_nil_left_iff]
      exact Option.some_inj.trans eq_comm
  | cons x xs ih =>
      rw [List.mapM_cons, List.forall₂_cons_left_iff]
      simp only [Option.bind_eq_bind, Option.bind_eq_some_iff, Option.pure_def, Option.some_inj, ih]
      constructor
      · rintro ⟨y, hy, rest, hrest, rfl⟩
        exact ⟨y, rest, hy, hrest, rfl⟩
      · rintro ⟨y, rest, hy, hrest, rfl⟩
        exact ⟨y, hy, rest, hrest, rfl⟩

/-- The fields of a struct that is written as an object. -/
theorem structFields_object {names : List String} {value : Json ν} {fields : List (Json ν)}
    (h : structFields names value = some fields) (hobj : isObject value = true) :
    (∀ key ∈ value.keys, key ∈ names) ∧
      List.Forall₂ (fun name field => value.get name = some field) names fields := by
  cases value with
  | obj members =>
      rw [structFields] at h
      split_ifs at h with hnames
      refine ⟨fun key hkey => ?_, mapM_eq_some.mp h⟩
      obtain ⟨member, hmember, rfl⟩ := List.mem_map.mp hkey
      exact hnames member hmember
  | _ => cases hobj

theorem readString_eq_some {value : Json ν} {s : String} :
    readString value = some s ↔ value = .str s := by
  cases value <;> simp [readString]

theorem readBool_eq_some {value : Json ν} {b : Bool} : readBool value = some b ↔ value = .bool b := by
  cases value <;> simp [readBool]

theorem readMap_eq_some {value : Json ν} {members : List (String × Json ν)} :
    readMap value = some members ↔ value = .obj members := by
  cases value <;> simp [readMap]

theorem readVec_eq_some {α : Type} {read : Json ν → Option α} {value : Json ν} {xs : List α} :
    readVec read value = some xs ↔
      ∃ items, value = .arr items ∧ List.Forall₂ (fun item x => read item = some x) items xs := by
  cases value with
  | arr items => simp [readVec, mapM_eq_some]
  | _ => simp [readVec]

/-- A list of strings is read from the strings. -/
theorem forall₂_readString {items : List (Json ν)} {xs : List String}
    (h : List.Forall₂ (fun item x => item = .str x) items xs) : items = xs.map .str := by
  induction h with
  | nil => rfl
  | cons hx _ ih => rw [List.map_cons, hx, ih]

/-- A check of items whose results do not depend on the index. -/
theorem forEach_eq_nil {check : Json ν → Nat → List SchemaError} {P : Json ν → Prop}
    {items : List (Json ν)} (h : ∀ item ∈ items, ∀ index, check item index = [] ↔ P item)
    (index : Nat) : forEach check index items = [] ↔ ∀ item ∈ items, P item := by
  induction items generalizing index with
  | nil => simp [forEach]
  | cons item items ih =>
      rw [List.forall_mem_cons] at h
      rw [forEach, List.append_eq_nil_iff, h.1 index, ih h.2, List.forall_mem_cons]

/-! ## Documents that both sides read -/

def PortablePreset (preset : Json ν) : Prop :=
  isObject preset ∧ utf16Length (text preset "name") ≤ 120

/-- The structs of an action are objects, and the names of its presets are short. -/
def PortableAction (action : Json ν) : Prop :=
  isObject action ∧ (∀ enabled, action.get "enabled" = some enabled → isObject enabled) ∧
    ∀ preset ∈ listOf action "presets", PortablePreset preset

/-- The structs of a profile are objects, and its names are short. -/
def PortableProfile (profile : Json ν) : Prop :=
  isObject profile ∧ utf16Length (text profile "name") ≤ 120 ∧
    ∀ action ∈ listOf profile "actions", PortableAction action

/-! ## The schema -/

/-- The members of a preset that is an object. -/
structure PresetMembers (value : Json ν) (preset : ProfilePreset ν) : Prop where
  keys : ∀ key ∈ value.keys, key ∈ presetKeys
  presetId : value.get "presetId" = some (.str preset.preset_id)
  name : value.get "name" = some (.str preset.name)
  defaults : value.get "defaults" = some (.obj preset.defaults)

theorem readPreset_members {value : Json ν} {preset : ProfilePreset ν}
    (h : readPreset value = some preset) (hobj : isObject value = true) :
    PresetMembers value preset := by
  obtain ⟨fields, hfields, h⟩ := Option.bind_eq_some_iff.mp h
  obtain ⟨hkeys, hmembers⟩ := structFields_object hfields hobj
  simp only [presetKeys, List.forall₂_cons_left_iff, List.forall₂_nil_left_iff] at hmembers
  obtain ⟨presetId, _, hpresetId, ⟨name, _, hname, ⟨defaults, _, hdefaults, rfl, rfl⟩, rfl⟩, rfl⟩ :=
    hmembers
  simp only [Option.bind_eq_bind, Option.bind_eq_some_iff, readString_eq_some, readMap_eq_some,
    Option.pure_def, Option.some_inj] at h
  obtain ⟨_, rfl, _, rfl, _, rfl, rfl⟩ := h
  exact ⟨hkeys, hpresetId, hname, hdefaults⟩

/-- The members of an object of switches. -/
structure EnabledMembers (value : Json ν) (enabled : SurfaceEnabled) : Prop where
  keys : ∀ key ∈ value.keys, key ∈ ["cli", "mcp"]
  cli : value.get "cli" = some (.bool enabled.cli)
  mcp : value.get "mcp" = some (.bool enabled.mcp)

theorem readEnabled_members {value : Json ν} {enabled : SurfaceEnabled}
    (h : readEnabled value = some enabled) (hobj : isObject value = true) :
    EnabledMembers value enabled := by
  obtain ⟨fields, hfields, h⟩ := Option.bind_eq_some_iff.mp h
  obtain ⟨hkeys, hmembers⟩ := structFields_object hfields hobj
  simp only [List.forall₂_cons_left_iff, List.forall₂_nil_left_iff] at hmembers
  obtain ⟨cli, _, hcli, ⟨mcp, _, hmcp, rfl, rfl⟩, rfl⟩ := hmembers
  simp only [Option.bind_eq_bind, Option.bind_eq_some_iff, readBool_eq_some, Option.pure_def,
    Option.some_inj] at h
  obtain ⟨_, rfl, _, rfl, rfl⟩ := h
  exact ⟨hkeys, hcli, hmcp⟩

/-- The members of an action that is an object. -/
structure ActionMembers (value : Json ν) (action : ProfileAction ν) (switches : Json ν)
    (items : List (Json ν)) : Prop where
  keys : ∀ key ∈ value.keys, key ∈ actionKeys
  actionId : value.get "actionId" = some (.str action.action_id)
  contractVersion :
    value.get "expectedContractVersion" = some (.str action.expected_contract_version)
  actionVersion : value.get "expectedActionVersion" = some (.str action.expected_action_version)
  sourceKind : value.get "expectedSourceKind" = some (.str action.expected_source_kind)
  publisherId : value.get "expectedPublisherId" = some (.str action.expected_publisher_id)
  enabled : value.get "enabled" = some switches
  enabledRead : readEnabled switches = some action.enabled
  aliases : value.get "aliases" = some (.arr (action.aliases.map .str))
  presets : value.get "presets" = some (.arr items)
  presetsRead : List.Forall₂ (fun item preset => readPreset item = some preset) items action.presets

theorem readAction_members {value : Json ν} {action : ProfileAction ν}
    (h : readAction value = some action) (hobj : isObject value = true) :
    ∃ switches items, ActionMembers value action switches items := by
  obtain ⟨fields, hfields, h⟩ := Option.bind_eq_some_iff.mp h
  obtain ⟨hkeys, hmembers⟩ := structFields_object hfields hobj
  simp only [actionKeys, List.forall₂_cons_left_iff, List.forall₂_nil_left_iff] at hmembers
  obtain ⟨_, _, hactionId, ⟨_, _, hcontractVersion, ⟨_, _, hactionVersion, ⟨_, _, hsourceKind,
    ⟨_, _, hpublisherId, ⟨enabled, _, henabled, ⟨_, _, haliases, ⟨_, _, hpresets, rfl, rfl⟩, rfl⟩,
      rfl⟩, rfl⟩, rfl⟩, rfl⟩, rfl⟩, rfl⟩ := hmembers
  simp only [Option.bind_eq_bind, Option.bind_eq_some_iff, readString_eq_some, readVec_eq_some,
    Option.pure_def, Option.some_inj] at h
  obtain ⟨_, rfl, _, rfl, _, rfl, _, rfl, _, rfl, _, hreadEnabled, _, ⟨names, rfl, hreadAliases⟩, _,
    ⟨presets, rfl, hreadPresets⟩, rfl⟩ := h
  obtain rfl := forall₂_readString hreadAliases
  exact ⟨enabled, presets, {
    keys := hkeys
    actionId := hactionId
    contractVersion := hcontractVersion
    actionVersion := hactionVersion
    sourceKind := hsourceKind
    publisherId := hpublisherId
    enabled := henabled
    enabledRead := hreadEnabled
    aliases := haliases
    presets := hpresets
    presetsRead := hreadPresets }⟩

/-- The checks that the desktop makes of a preset. -/
def PresetFits (preset : ProfilePreset ν) : Prop :=
  is_stable_id preset.preset_id 64 ∧ nameFits preset.name ∧ preset.defaults.length ≤ 64

theorem validatePresetShape_eq_nil {value : Json ν} {preset : ProfilePreset ν}
    (hread : readPreset value = some preset) (hfits : PresetFits preset) (path : String) :
    validatePresetShape value path = [] ↔ PortablePreset value := by
  unfold validatePresetShape PortablePreset
  cases hobj : isObject value with
  | false => simp
  | true =>
      have hmembers := readPreset_members hread hobj
      have hrequired : requireKeys value presetKeys path = [] := by
        rw [requireKeys_eq_nil]
        simp [presetKeys, hmembers.presetId, hmembers.name, hmembers.defaults]
      have hname := utf16Length_pos hfits.2.1.1
      simp only [not_true_eq_false, if_false, List.append_eq_nil_iff, hrequired,
        rejectUnknownKeys_eq_nil.mpr hmembers.keys, ifOwn_of_get hmembers.presetId,
        ifOwn_of_get hmembers.name, ifOwn_of_get hmembers.defaults, validateStableId_eq_nil hfits.1,
        errorIf_eq_nil, stringInRange_iff, validateDefaults_eq_nil, text_of_get hmembers.name,
        true_and, not_not, hfits.2.2, and_true]
      exact and_iff_right hname

theorem validateEnabled_eq_nil {value : Json ν} {enabled : SurfaceEnabled}
    (hread : readEnabled value = some enabled) (path : String) :
    validateEnabled value path = [] ↔ isObject value := by
  unfold validateEnabled
  cases hobj : isObject value with
  | false => simp
  | true =>
      have hmembers := readEnabled_members hread hobj
      have hrequired : requireKeys value ["cli", "mcp"] path = [] := by
        rw [requireKeys_eq_nil]
        simp [hmembers.cli, hmembers.mcp]
      simp [hrequired, rejectUnknownKeys_eq_nil.mpr hmembers.keys, ifOwn_of_get hmembers.cli,
        ifOwn_of_get hmembers.mcp, errorIf, isBoolean]

/-- Distinct aliases of the right form have no errors. -/
theorem aliasErrors_eq_nil {names seen : List String} (path : String) (index : Nat)
    (hform : ∀ name ∈ names, is_alias name = true) (hnodup : names.Nodup)
    (hseen : ∀ name ∈ names, name ∉ seen) :
    aliasErrors path index seen (names.map fun name => (.str name : Json ν)) = [] := by
  induction names generalizing index seen with
  | nil => rfl
  | cons name names ih =>
      rw [List.forall_mem_cons] at hform hseen
      rw [List.nodup_cons] at hnodup
      rw [List.map_cons, aliasErrors, validateAlias_eq_nil hform.1, errorIf_eq_nil.mpr hseen.1]
      refine ih (index + 1) hform.2 hnodup.2 fun other hother hmem => ?_
      rcases List.mem_cons.mp hmem with rfl | hmem
      · exact hnodup.1 hother
      · exact hseen.2 other hother hmem

/-- The checks that the desktop makes of an action by itself. -/
structure ActionFits (action : ProfileAction ν) : Prop where
  actionId : is_action_id action.action_id
  metadata : actionMetadataFits action
  aliases : ∀ name ∈ action.aliases, is_alias name = true
  distinct : action.aliases.Nodup
  presets : ∀ preset ∈ action.presets, PresetFits preset

/-- What is read of a list is read of one of the items. -/
theorem exists_of_forall₂ {α β : Type} {r : α → β → Prop} {xs : List α} {ys : List β}
    (h : List.Forall₂ r xs ys) : ∀ x ∈ xs, ∃ y ∈ ys, r x y := by
  induction h with
  | nil => nofun
  | cons hxy _ ih =>
      rw [List.forall_mem_cons]
      exact ⟨⟨_, List.mem_cons_self, hxy⟩,
        fun x hx => (ih x hx).imp fun y hy => ⟨List.mem_cons_of_mem _ hy.1, hy.2⟩⟩

theorem validatePresets_eq_nil {items : List (Json ν)} {presets : List (ProfilePreset ν)}
    (hread : List.Forall₂ (fun item preset => readPreset item = some preset) items presets)
    (hfits : ∀ preset ∈ presets, PresetFits preset) (hlength : presets.length ≤ 32) (path : String) :
    validatePresets (.arr items) path = [] ↔ ∀ item ∈ items, PortablePreset item := by
  have hitems : ∀ item ∈ items, ∀ index : Nat,
      validatePresetShape item (path ++ "/" ++ toString index) = [] ↔ PortablePreset item := by
    intro item hitem index
    obtain ⟨preset, hpreset, hreadItem⟩ := exists_of_forall₂ hread item hitem
    exact validatePresetShape_eq_nil hreadItem (hfits preset hpreset) _
  rw [validatePresets_arr_eq_nil, forEach_eq_nil hitems]
  exact and_iff_right (hread.length_eq.trans_le hlength)

theorem validateAction_eq_nil {value : Json ν} {action : ProfileAction ν}
    (hread : readAction value = some action) (hfits : ActionFits action) (path : String) :
    validateAction value path = [] ↔ PortableAction value := by
  unfold validateAction PortableAction
  cases hobj : isObject value with
  | false => simp
  | true =>
      obtain ⟨switches, items, hmembers⟩ := readAction_members hread hobj
      obtain ⟨hcontract, hversion, hkind, hpublisher, hpublisherMax, -, haliases, hpresets⟩ :=
        hfits.metadata
      have hrequired : requireKeys value actionKeys path = [] := by
        rw [requireKeys_eq_nil]
        simp [actionKeys, hmembers.actionId, hmembers.contractVersion, hmembers.actionVersion,
          hmembers.sourceKind, hmembers.publisherId, hmembers.enabled, hmembers.aliases,
          hmembers.presets]
      have hsource : SOURCE_KINDS.any (isText (.str action.expected_source_kind : Json ν)) = true :=
        List.any_eq_true.mpr ⟨action.expected_source_kind, hkind, isText_iff.mpr rfl⟩
      have hpublisherRange := And.intro (utf16Length_pos (toList_ne_nil_of_len hpublisher))
        ((utf16Length_le_len _).trans hpublisherMax)
      have haliasErrors : validateAliases (.arr (action.aliases.map .str) : Json ν)
          (path ++ "/aliases") = [] := by
        rw [validateAliases_arr_eq_nil, List.length_map]
        exact ⟨haliases, aliasErrors_eq_nil _ 0 hfits.aliases hfits.distinct fun _ _ => nofun⟩
      have hswitches : (∀ enabled, value.get "enabled" = some enabled → isObject enabled = true) ↔
          isObject switches = true := by
        simp [hmembers.enabled]
      simp only [not_true_eq_false, if_false, List.append_eq_nil_iff, hrequired,
        rejectUnknownKeys_eq_nil.mpr hmembers.keys, ifOwn_of_get hmembers.actionId,
        ifOwn_of_get hmembers.contractVersion, ifOwn_of_get hmembers.actionVersion,
        ifOwn_of_get hmembers.sourceKind, ifOwn_of_get hmembers.publisherId,
        ifOwn_of_get hmembers.enabled, ifOwn_of_get hmembers.aliases, ifOwn_of_get hmembers.presets,
        validateActionId_eq_nil hfits.actionId, validateSemver_eq_nil hversion, errorIf_eq_nil,
        isText_iff, hcontract, hsource, stringInRange_iff, haliasErrors,
        validateEnabled_eq_nil hmembers.enabledRead,
        validatePresets_eq_nil hmembers.presetsRead hfits.presets hpresets,
        listOf_of_get hmembers.presets, hswitches, true_and, not_not, not_false_eq_true, and_true]
      constructor
      · exact fun h => ⟨h.1.2, h.2⟩
      · exact fun h => ⟨⟨hpublisherRange, h.1⟩, h.2⟩

/-! ## The loops -/

section Loops

variable {serde : SerdeJson ν}

/-- What the loop over the aliases of an action establishes. -/
structure AliasesChecked (names aliases aliases' : List String) : Prop where
  result : aliases' = names.reverse ++ aliases
  form : ∀ name ∈ names, is_alias name = true
  distinct : names.Nodup
  fresh : ∀ name ∈ names, name ∉ aliases

theorem checkAliases_checked {names aliases aliases' : List String}
    (h : checkAliases names aliases = .ok aliases') : AliasesChecked names aliases aliases' := by
  induction names generalizing aliases with
  | nil =>
      cases h
      exact ⟨rfl, nofun, List.nodup_nil, nofun⟩
  | cons name names ih =>
      obtain ⟨_, hname, hrest⟩ := bind_eq_ok.mp h
      obtain ⟨hform, hfresh⟩ := not_not.mp (failIf_eq_ok.mp hname)
      have hchecked := ih hrest
      refine ⟨?_, List.forall_mem_cons.mpr ⟨hform, hchecked.form⟩, ?_, ?_⟩
      · rw [hchecked.result, List.reverse_cons, List.append_assoc]
        rfl
      · refine List.nodup_cons.mpr ⟨fun hmem => ?_, hchecked.distinct⟩
        exact hchecked.fresh name hmem List.mem_cons_self
      · refine List.forall_mem_cons.mpr ⟨hfresh, fun other hother hmem => ?_⟩
        exact hchecked.fresh other hother (List.mem_cons_of_mem _ hmem)

/-- The browser accepts aliases that the desktop does, when none of them is an id. -/
theorem AliasesChecked.assertAliases {names aliases aliases' ids : List String}
    (h : AliasesChecked names aliases aliases') (hids : ∀ name ∈ names, name ∉ ids)
    (actionIndex index : Nat) : assertAliases actionIndex ids index names aliases = .ok aliases' := by
  obtain ⟨rfl, -, hdistinct, hfresh⟩ := h
  induction names generalizing aliases index with
  | nil => rfl
  | cons name names ih =>
      rw [List.forall_mem_cons] at hids hfresh
      rw [List.nodup_cons] at hdistinct
      have hname : failIf (name ∈ aliases ∨ name ∈ ids) (fail "AGENT_PROFILE_COLLISION"
          ("/actions/" ++ toString actionIndex ++ "/aliases/" ++ toString index)
          "ALIAS_COLLISION") = .ok ⟨⟩ :=
        failIf_eq_ok.mpr (not_or.mpr ⟨hfresh.1, hids.1⟩)
      have hrest : ∀ other ∈ names, other ∉ name :: aliases := by
        intro other hother hmem
        rcases List.mem_cons.mp hmem with rfl | hmem
        · exact hdistinct.1 hother
        · exact hfresh.2 other hother hmem
      rw [AgentProfile.assertAliases, bind_of_eq_ok hname, ih hids.2 (index + 1) hdistinct.2 hrest,
        List.reverse_cons, List.append_assoc]
      rfl

theorem checkPresets_checked {action_id : String} {presets : List (ProfilePreset ν)}
    {ids : List String} {r : Unit} (h : checkPresets serde action_id presets ids = .ok r) :
    (∀ preset ∈ presets, PresetFits preset) ∧ (presets.map ProfilePreset.preset_id).Nodup ∧
      ∀ id ∈ presets.map ProfilePreset.preset_id, id ∉ ids := by
  induction presets generalizing ids with
  | nil => exact ⟨nofun, List.nodup_nil, nofun⟩
  | cons preset presets ih =>
      simp only [checkPresets, bind_eq_ok, failIf_eq_ok, not_not] at h
      obtain ⟨-, ⟨hid, hfresh, hname⟩, -, hlength, -, -, -, -, -, -, hrest⟩ := h
      obtain ⟨hfits, hdistinct, hothers⟩ := ih hrest
      refine ⟨List.forall_mem_cons.mpr ⟨⟨hid, hname, Nat.le_of_not_lt hlength⟩, hfits⟩, ?_, ?_⟩
      · refine List.nodup_cons.mpr ⟨fun hmem => ?_, hdistinct⟩
        exact hothers _ hmem List.mem_cons_self
      · refine List.forall_mem_cons.mpr ⟨hfresh, fun id hid' hmem => ?_⟩
        exact hothers id hid' (List.mem_cons_of_mem _ hmem)

theorem assertPresets_eq_ok {names ids : List String} (hdistinct : names.Nodup)
    (hfresh : ∀ name ∈ names, name ∉ ids) (actionIndex index : Nat) :
    assertPresets actionIndex index names ids = .ok () := by
  induction names generalizing ids index with
  | nil => rfl
  | cons name names ih =>
      rw [List.forall_mem_cons] at hfresh
      rw [List.nodup_cons] at hdistinct
      have hname : failIf (name ∈ ids) (fail "AGENT_PROFILE_COLLISION"
          ("/actions/" ++ toString actionIndex ++ "/presets/" ++ toString index ++ "/presetId")
          "PRESET_DUPLICATE") = .ok ⟨⟩ :=
        failIf_eq_ok.mpr hfresh.1
      have hrest : ∀ other ∈ names, other ∉ name :: ids := by
        intro other hother hmem
        rcases List.mem_cons.mp hmem with rfl | hmem
        · exact hdistinct.1 hother
        · exact hfresh.2 other hother hmem
      rw [assertPresets, bind_of_eq_ok hname, ih hdistinct.2 hrest]

/-- What the loop over the actions establishes. -/
structure ActionsChecked (actions : List (ProfileAction ν)) (ids aliases ids' aliases' : List String) :
    Prop where
  ids : ids' = (actions.map ProfileAction.action_id).reverse ++ ids
  aliases : ∀ name, name ∈ aliases' ↔ (∃ action ∈ actions, name ∈ action.aliases) ∨ name ∈ aliases
  fits : ∀ action ∈ actions, ActionFits action

theorem checkActions_cons {action : ProfileAction ν} {actions : List (ProfileAction ν)}
    {ids aliases : List String} {result : List String × List String}
    (h : checkActions serde (action :: actions) ids aliases = .ok result) :
    ActionFits action ∧ action.action_id ∉ ids ∧
      (action.presets.map ProfilePreset.preset_id).Nodup ∧
      ∃ middle, AliasesChecked action.aliases aliases middle ∧
        checkActions serde actions (action.action_id :: ids) middle = .ok result := by
  simp only [checkActions, bind_eq_ok, failIf_eq_ok, not_not] at h
  obtain ⟨-, ⟨hid, hfresh⟩, -, hmetadata, middle, haliases, _, hpresets, hrest⟩ := h
  have hchecked := checkAliases_checked haliases
  obtain ⟨hfits, hdistinct, -⟩ := checkPresets_checked hpresets
  exact ⟨⟨hid, hmetadata, hchecked.form, hchecked.distinct, hfits⟩, hfresh, hdistinct, middle,
    hchecked, hrest⟩

theorem checkActions_checked {actions : List (ProfileAction ν)} {ids aliases ids' aliases' : List String}
    (h : checkActions serde actions ids aliases = .ok (ids', aliases')) :
    ActionsChecked actions ids aliases ids' aliases' := by
  induction actions generalizing ids aliases with
  | nil =>
      cases h
      exact ⟨rfl, by simp, nofun⟩
  | cons action actions ih =>
      obtain ⟨hfits, -, -, middle, hchecked, hrest⟩ := checkActions_cons h
      have hactions := ih hrest
      refine ⟨?_, fun name => ?_, List.forall_mem_cons.mpr ⟨hfits, hactions.fits⟩⟩
      · rw [hactions.ids, List.map_cons, List.reverse_cons, List.append_assoc]
        rfl
      · rw [hactions.aliases, hchecked.result, List.mem_append, List.mem_reverse]
        simp only [List.mem_cons, exists_eq_or_imp, ← or_assoc, or_comm]

/-- An action as both sides read it. -/
structure SameAction (item : Json ν) (action : ProfileAction ν) : Prop where
  actionId : text item "actionId" = action.action_id
  aliases : aliasesOf item = action.aliases
  presetIds : presetIdsOf item = action.presets.map ProfilePreset.preset_id

theorem sameAction {item : Json ν} {action : ProfileAction ν} (hread : readAction item = some action)
    (hportable : PortableAction item) : SameAction item action := by
  obtain ⟨hobj, -, hpresets⟩ := hportable
  obtain ⟨switches, items, hmembers⟩ := readAction_members hread hobj
  rw [listOf_of_get hmembers.presets] at hpresets
  have hread := hmembers.presetsRead
  refine ⟨text_of_get hmembers.actionId, ?_, ?_⟩
  · rw [aliasesOf, listOf_of_get hmembers.aliases]
    exact textsOf_map_str action.aliases
  · rw [presetIdsOf, listOf_of_get hmembers.presets]
    clear hmembers
    generalize action.presets = presets at hread
    induction hread with
    | nil => rfl
    | cons hpreset _ ih =>
        rw [List.forall_mem_cons] at hpresets
        rw [List.map_cons, List.map_cons, ih hpresets.2,
          text_of_get (readPreset_members hpreset hpresets.1.1).presetId]

/-- The browser accepts the ids and aliases that the desktop does. -/
theorem assertActions_of_checkActions {items : List (Json ν)} {actions : List (ProfileAction ν)}
    {ids aliases ids' aliases' : List String}
    (h : checkActions serde actions ids aliases = .ok (ids', aliases'))
    (hsame : List.Forall₂ SameAction items actions) (hdisjoint : ∀ name ∈ aliases', name ∉ ids')
    (index : Nat) : assertActions index items ids aliases = .ok (ids', aliases') := by
  induction hsame generalizing ids aliases index with
  | nil =>
      cases h
      rfl
  | @cons item action items actions hitem _ ih =>
      obtain ⟨-, hfresh, hdistinct, middle, hchecked, hrest⟩ := checkActions_cons h
      have hactions := checkActions_checked hrest
      have hid : failIf (action.action_id ∈ ids) (fail "AGENT_PROFILE_COLLISION"
          ("/actions/" ++ toString index ++ "/actionId") "ACTION_DUPLICATE") = .ok ⟨⟩ :=
        failIf_eq_ok.mpr hfresh
      have hnotIds : ∀ name ∈ action.aliases, name ∉ action.action_id :: ids := by
        intro name hname hmem
        have hmiddle : name ∈ middle := by
          rw [hchecked.result]
          exact List.mem_append_left _ (List.mem_reverse.mpr hname)
        have hids : name ∈ ids' := by
          rw [hactions.ids]
          exact List.mem_append_right _ hmem
        exact hdisjoint name ((hactions.aliases name).mpr (.inr hmiddle)) hids
      have hnone : ∀ id ∈ action.presets.map ProfilePreset.preset_id, id ∉ ([] : List String) :=
        fun _ _ => List.not_mem_nil
      have hpresets := assertPresets_eq_ok hdistinct hnone index 0
      rw [assertActions, hitem.actionId, hitem.aliases, hitem.presetIds, bind_of_eq_ok hid,
        bind_of_eq_ok (hchecked.assertAliases hnotIds index 0), bind_of_eq_ok hpresets]
      exact ih hrest (index + 1)

end Loops

/-! ## The document -/

section Documents

variable {serde : SerdeJson ν} {JSON_parse : List Char → Option (Json ν)}
  {jsNumber : ν → List Char}

/-- The members of a profile that is an object. -/
structure ProfileMembers (value : Json ν) (profile : Profile ν) (items : List (Json ν)) : Prop where
  keys : ∀ key ∈ value.keys, key ∈ profileKeys
  schemaVersion : value.get "schemaVersion" = some (.str profile.schema_version)
  profileId : value.get "profileId" = some (.str profile.profile_id)
  name : value.get "name" = some (.str profile.name)
  actions : value.get "actions" = some (.arr items)
  actionsRead : List.Forall₂ (fun item action => readAction item = some action) items profile.actions

theorem from_value_members {value : Json ν} {profile : Profile ν}
    (h : from_value value = some profile) (hobj : isObject value = true) :
    ∃ items, ProfileMembers value profile items := by
  obtain ⟨fields, hfields, h⟩ := Option.bind_eq_some_iff.mp h
  obtain ⟨hkeys, hmembers⟩ := structFields_object hfields hobj
  simp only [profileKeys, List.forall₂_cons_left_iff, List.forall₂_nil_left_iff] at hmembers
  obtain ⟨_, _, hschemaVersion, ⟨_, _, hprofileId, ⟨_, _, hname, ⟨_, _, hactions, rfl, rfl⟩, rfl⟩,
    rfl⟩, rfl⟩ := hmembers
  simp only [Option.bind_eq_bind, Option.bind_eq_some_iff, readString_eq_some, readVec_eq_some,
    Option.pure_def, Option.some_inj] at h
  obtain ⟨_, rfl, _, rfl, _, rfl, _, ⟨items, rfl, hread⟩, rfl⟩ := h
  exact ⟨items, hkeys, hschemaVersion, hprofileId, hname, hactions, hread⟩

/-- What the desktop establishes of a profile that it accepts. -/
structure DesktopAccepts (serde : SerdeJson ν) (value : Json ν) (profile : Profile ν) : Prop where
  walk : ∃ nodes, inspect_value value = .ok nodes
  read : from_value value = some profile
  metadata : metadataFits profile
  actions : ∃ ids aliases, checkActions serde profile.actions [] [] = .ok (ids, aliases) ∧
    ∀ name ∈ aliases, name ∉ ids
  aliasTotal : (profile.actions.map fun action => action.aliases.length).sum ≤ MAX_ALIASES_TOTAL
  presetTotal : (profile.actions.map fun action => action.presets.length).sum ≤ MAX_PRESETS_TOTAL

/-- The text that is stored of a value. -/
def storedText (number : ν → List Char) (value : Value ν) : List Char :=
  to_string_pretty number value.tree ++ ['\n']

theorem canonicalize_value_eq_self (value : Value ν) : canonicalize_value value.tree = value.tree :=
  Json.sortKeys_eq_self byteLe (fun _ _ => le_of_lt) value.sorted

theorem parse_and_validate_profile_eq_ok {text canonical : List Char} {profile : Profile ν} :
    parse_and_validate_profile serde text = .ok (profile, canonical) ↔
      Json.byteSize text ≤ PROFILE_MAX_BYTES ∧ ∃ value, serde.from_str text = some value ∧
        DesktopAccepts serde value.tree profile ∧ canonical = storedText serde.number value := by
  unfold parse_and_validate_profile
  simp only [bind_eq_ok, failIf_eq_ok, orFail_eq_ok, pure_eq_ok, canonicalize_value_eq_self,
    Prod.mk.injEq, not_not, not_lt, not_or, not_exists, not_and]
  constructor
  · rintro ⟨-, hsize, value, hvalue, ⟨nodes, hwalk, profile, hread, -, hmetadata, ⟨ids, aliases⟩,
      hactions, -, ⟨haliases, hpresets⟩, -, hdisjoint, rfl, rfl⟩⟩
    exact ⟨hsize, value, hvalue,
      ⟨⟨nodes, hwalk⟩, hread, hmetadata, ⟨ids, aliases, hactions, hdisjoint⟩, haliases, hpresets⟩, rfl⟩
  · rintro ⟨hsize, value, hvalue,
      ⟨⟨nodes, hwalk⟩, hread, hmetadata, ⟨ids, aliases, hactions, hdisjoint⟩, haliases, hpresets⟩, rfl⟩
    exact ⟨⟨⟩, hsize, value, hvalue, nodes, hwalk, profile, hread, ⟨⟩, hmetadata, (ids, aliases),
      hactions, ⟨⟩, ⟨haliases, hpresets⟩, ⟨⟩, hdisjoint, rfl, rfl⟩

theorem validateProfileSchema_eq_nil {value : Json ν} {profile : Profile ν}
    (h : DesktopAccepts serde value profile) :
    validateProfileSchema value = [] ↔ PortableProfile value := by
  unfold validateProfileSchema PortableProfile
  cases hobj : isObject value with
  | false => simp
  | true =>
      obtain ⟨items, hmembers⟩ := from_value_members h.read hobj
      obtain ⟨hversion, hid, hname, hlength⟩ := h.metadata
      obtain ⟨ids, aliases, hactions, -⟩ := h.actions
      have hrequired : requireKeys value profileKeys "" = [] := by
        rw [requireKeys_eq_nil]
        simp [profileKeys, hmembers.schemaVersion, hmembers.profileId, hmembers.name,
          hmembers.actions]
      have hitems : ∀ item ∈ items, ∀ index : Nat,
          validateAction item ("/actions" ++ "/" ++ toString index) = [] ↔ PortableAction item := by
        intro item hitem index
        obtain ⟨action, haction, hread⟩ := exists_of_forall₂ hmembers.actionsRead item hitem
        exact validateAction_eq_nil hread ((checkActions_checked hactions).fits action haction) _
      have hfew : items.length ≤ 128 := hmembers.actionsRead.length_eq.trans_le hlength
      have hversionText : profile.schema_version = PROFILE_SCHEMA_VERSION := hversion
      have hnonempty := utf16Length_pos hname.1
      simp only [not_true_eq_false, if_false, List.append_eq_nil_iff, hrequired,
        rejectUnknownKeys_eq_nil.mpr hmembers.keys, ifOwn_of_get hmembers.schemaVersion,
        ifOwn_of_get hmembers.profileId, ifOwn_of_get hmembers.name, ifOwn_of_get hmembers.actions,
        errorIf_eq_nil, isText_iff, hversionText, validateStableId_eq_nil hid, stringInRange_iff,
        validateActions_arr_eq_nil, hfew, forEach_eq_nil hitems, text_of_get hmembers.name,
        listOf_of_get hmembers.actions, true_and, not_not, not_false_eq_true]
      exact and_congr_left fun _ => and_iff_right hnonempty

/-- The size of a value in the browser. -/
def compactDocumentSize (jsNumber : ν → List Char) (value : Json ν) : Nat :=
  Json.layoutSize (fun _ => 0) 1 (fun s => Json.byteSize (quoteText s))
    (fun n => Json.byteSize (jsNumber n)) 0 value

/-- The size of a value on lines of its own, with the last line break. -/
def storedDocumentSize (serde : SerdeJson ν) (value : Json ν) : Nat :=
  Json.layoutSize (fun depth => 1 + 2 * depth) 2 (fun s => Json.byteSize (quoteText s))
    (fun n => Json.byteSize (serde.number n)) 0 value + 1

theorem utf8Bytes_eq (value : Json ν) : utf8Bytes jsNumber value = compactDocumentSize jsNumber value := by
  rw [utf8Bytes, ← Json.layout_eq_render quoteText jsNumber 0]
  exact Json.byteSize_layout (fun _ => []) [':'] quoteText jsNumber 0 value

theorem byteSize_lineBreak (depth : Nat) : Json.byteSize (lineBreak depth) = 1 + 2 * depth := by
  have hspaces : ∀ n, Json.byteSize (List.replicate n ' ') = n := by
    intro n
    induction n with
    | zero => rfl
    | succ n ih =>
        rw [List.replicate_succ, Json.byteSize_cons, ih, Nat.add_comm]
        rfl
  rw [lineBreak, Json.byteSize_cons, hspaces]
  rfl

theorem byteSize_storedText (value : Value ν) :
    Json.byteSize (storedText serde.number value) = storedDocumentSize serde value.tree := by
  rw [storedText, Json.byteSize_append, to_string_pretty, Json.byteSize_layout]
  simp only [byteSize_lineBreak]
  rfl

/-- The browser accepts a profile that the desktop accepts when it is portable and short. -/
theorem assertProfileDocument_eq_ok {value : Json ν} {profile : Profile ν}
    (h : DesktopAccepts serde value profile) :
    assertProfileDocument jsNumber value = .ok () ↔
      compactDocumentSize jsNumber value ≤ PROFILE_LIMITS.bytes ∧ PortableProfile value := by
  obtain ⟨nodes, hwalk⟩ := h.walk
  obtain ⟨ids, aliases, hactions, hdisjoint⟩ := h.actions
  unfold assertProfileDocument
  simp only [bind_eq_ok, failIf_eq_ok, not_lt, not_not, utf8Bytes_eq,
    validateProfileSchema_eq_nil h]
  constructor
  · rintro ⟨-, hsize, -, -, -, hportable, -⟩
    exact ⟨hsize, hportable⟩
  · rintro ⟨hsize, hportable⟩
    obtain ⟨items, hmembers⟩ := from_value_members h.read hportable.1
    have hportableItems := hportable.2.2
    rw [listOf_of_get hmembers.actions] at hportableItems
    have hsame : List.Forall₂ SameAction items profile.actions := by
      have hread := hmembers.actionsRead
      clear hmembers
      generalize profile.actions = actions at hread
      induction hread with
      | nil => exact .nil
      | cons hitem _ ih =>
          rw [List.forall_mem_cons] at hportableItems
          exact .cons (sameAction hitem hportableItems.1) (ih hportableItems.2)
    have haliasTotal : (items.map fun action => (aliasesOf action).length) =
        profile.actions.map fun action => action.aliases.length := by
      clear hmembers hportableItems
      generalize profile.actions = actions at hsame
      induction hsame with
      | nil => rfl
      | cons hitem _ ih => rw [List.map_cons, List.map_cons, ih, hitem.aliases]
    have hpresetTotal : (items.map fun action => (presetIdsOf action).length) =
        profile.actions.map fun action => action.presets.length := by
      clear hmembers hportableItems haliasTotal
      generalize profile.actions = actions at hsame
      induction hsame with
      | nil => rfl
      | cons hitem _ ih => rw [List.map_cons, List.map_cons, ih, hitem.presetIds, List.length_map]
    refine ⟨⟨⟩, hsize, nodes, inspectTree_of_inspect_value hwalk, ⟨⟩, hportable, (ids, aliases), ?_, ?_⟩
    · rw [listOf_of_get hmembers.actions]
      exact assertActions_of_checkActions hactions hsame hdisjoint 0
    · rw [listOf_of_get hmembers.actions, haliasTotal, hpresetTotal]
      refine ⟨⟨⟩, ?_, ⟨⟩, h.aliasTotal, h.presetTotal⟩
      rintro ⟨name, hname, hmem⟩
      exact hdisjoint name hname hmem

/-- Both readers read what the desktop has written back to the same value. -/
structure ReadBack (serde : SerdeJson ν) (JSON_parse : List Char → Option (Json ν)) : Prop where
  from_str : ∀ text value, serde.from_str text = some value →
    serde.from_str (storedText serde.number value) = some value
  parse : ∀ text value, serde.from_str text = some value →
    JSON_parse (storedText serde.number value) = some value.tree

/-- A stored text reads back to itself on the desktop and passes the checks of the browser. -/
structure Readable (serde : SerdeJson ν) (JSON_parse : List Char → Option (Json ν))
    (jsNumber : ν → List Char) (canonical : List Char) : Prop where
  desktop : ∃ profile, parse_and_validate_profile serde canonical = .ok (profile, canonical)
  size : Json.byteSize canonical ≤ PROFILE_LIMITS.bytes
  browser : ∃ value, JSON_parse canonical = some value ∧ assertProfileDocument jsNumber value = .ok ()

/-- **A saved profile is readable everywhere exactly when its structs are objects, its names have
at most 120 UTF-16 units, and both its texts are short enough.** -/
theorem readable_iff (hback : ReadBack serde JSON_parse) {text canonical : List Char}
    {profile : Profile ν} (h : parse_and_validate_profile serde text = .ok (profile, canonical)) :
    Readable serde JSON_parse jsNumber canonical ↔
      ∃ value, serde.from_str text = some value ∧ PortableProfile value.tree ∧
        storedDocumentSize serde value.tree ≤ PROFILE_MAX_BYTES ∧
        compactDocumentSize jsNumber value.tree ≤ PROFILE_LIMITS.bytes := by
  obtain ⟨-, value, hvalue, haccepts, rfl⟩ := parse_and_validate_profile_eq_ok.mp h
  have hparse := hback.parse text value hvalue
  constructor
  · rintro ⟨-, hsize, value', hvalue', hdocument⟩
    rw [hparse] at hvalue'
    cases hvalue'
    rw [byteSize_storedText] at hsize
    obtain ⟨hcompact, hportable⟩ := (assertProfileDocument_eq_ok haccepts).mp hdocument
    exact ⟨value, hvalue, hportable, hsize, hcompact⟩
  · rintro ⟨value', hvalue', hportable, hsize, hcompact⟩
    rw [hvalue] at hvalue'
    cases hvalue'
    rw [← byteSize_storedText] at hsize
    refine ⟨⟨profile, ?_⟩, hsize, value.tree, hparse, ?_⟩
    · exact parse_and_validate_profile_eq_ok.mpr
        ⟨hsize, value, hback.from_str text value hvalue, haccepts, rfl⟩
    · exact (assertProfileDocument_eq_ok haccepts).mpr ⟨hcompact, hportable⟩

end Documents

/-! ## Profiles without actions -/

def emptyProfile (name : String) : Json Nat :=
  .obj [("actions", .arr []), ("name", .str name), ("profileId", .str "default"),
    ("schemaVersion", .str "useful.agent-profile.v1")]

def emptyProfileValue (name : String) : Value Nat where
  tree := emptyProfile name
  sorted := by
    simp only [Json.KeysSorted, emptyProfile, Json.forallObjects_obj, Json.forallObjects_str,
      Json.forallObjects_arr, List.map_cons, List.map_nil, List.forall_mem_cons]
    exact ⟨by unfold byteLt; decide, nofun, trivial, trivial, trivial, nofun⟩

/-- The text of that profile. -/
def emptyProfileText (name : String) : List Char := storedText decimalNat (emptyProfileValue name)

/-- A reader of that text. -/
def emptyProfileSerde (name : String) : SerdeJson Nat where
  from_str := fun text => if text = emptyProfileText name then some (emptyProfileValue name) else none
  as_i64 := fun n => some n
  number := decimalNat

def emptyProfileParse (name : String) (text : List Char) : Option (Json Nat) :=
  if text = emptyProfileText name then some (emptyProfile name) else none

theorem from_str_emptyProfileText (name : String) :
    (emptyProfileSerde name).from_str (emptyProfileText name) = some (emptyProfileValue name) :=
  if_pos rfl

theorem parse_emptyProfileText (name : String) :
    emptyProfileParse name (emptyProfileText name) = some (emptyProfile name) :=
  if_pos rfl

theorem readBack_emptyProfile (name : String) :
    ReadBack (emptyProfileSerde name) (emptyProfileParse name) where
  from_str text value h := by
    simp only [emptyProfileSerde, Option.ite_none_right_eq_some, Option.some_inj] at h
    obtain ⟨-, rfl⟩ := h
    exact from_str_emptyProfileText name
  parse text value h := by
    simp only [emptyProfileSerde, Option.ite_none_right_eq_some, Option.some_inj] at h
    obtain ⟨-, rfl⟩ := h
    exact parse_emptyProfileText name

theorem accepts_emptyProfile {name : String} (h : nameFits name) :
    DesktopAccepts (emptyProfileSerde name) (emptyProfile name)
      ⟨"useful.agent-profile.v1", "default", name, []⟩ where
  walk := by
    refine ⟨5, ?_⟩
    have hname : containsExpression name = false := Bool.eq_false_iff.mpr h.2.2
    have hid : containsExpression "default" = false := by decide
    have hversion : containsExpression "useful.agent-profile.v1" = false := by decide
    simp only [inspect_value, emptyProfile, inspect, inspectMembers, inspectItems, hname, hid, hversion]
    rfl
  read := rfl
  metadata := ⟨rfl, (by decide : is_stable_id "default" 64 = true), h, Nat.zero_le _⟩
  actions := ⟨[], [], rfl, nofun⟩
  aliasTotal := Nat.zero_le _
  presetTotal := Nat.zero_le _

theorem parse_emptyProfile {name : String} (h : nameFits name)
    (hsize : Json.byteSize (emptyProfileText name) ≤ PROFILE_MAX_BYTES) :
    parse_and_validate_profile (emptyProfileSerde name) (emptyProfileText name) =
      .ok (⟨"useful.agent-profile.v1", "default", name, []⟩, emptyProfileText name) :=
  parse_and_validate_profile_eq_ok.mpr
    ⟨hsize, emptyProfileValue name, from_str_emptyProfileText name, accepts_emptyProfile h, rfl⟩

/-- The size of the text depends on the name only. -/
theorem byteSize_emptyProfileText (name : String) :
    Json.byteSize (emptyProfileText name) = Json.byteSize (quoteText name) + 104 := by
  have hactions : Json.byteSize (quoteText "actions") = 9 := by decide
  have hname : Json.byteSize (quoteText "name") = 6 := by decide
  have hprofileId : Json.byteSize (quoteText "profileId") = 11 := by decide
  have hdefault : Json.byteSize (quoteText "default") = 9 := by decide
  have hversion : Json.byteSize (quoteText "schemaVersion") = 15 := by decide
  have hschema : Json.byteSize (quoteText "useful.agent-profile.v1") = 25 := by decide
  refine (@byteSize_storedText Nat (emptyProfileSerde name) (emptyProfileValue name)).trans ?_
  simp only [storedDocumentSize, emptyProfileValue, emptyProfile, Json.layoutSize,
    Json.layoutMemberSizes, Json.layoutItemSizes, Json.joinedSize, List.isEmpty_cons,
    List.isEmpty_nil, List.sum_cons, List.sum_nil, List.length_cons, List.length_nil, hactions,
    hname, hprofileId, hdefault, hversion, hschema, if_true, Bool.false_eq_true, if_false]
  omega

theorem readable_default :
    Readable (emptyProfileSerde "Default") (emptyProfileParse "Default") decimalNat
      (emptyProfileText "Default") :=
  (readable_iff (readBack_emptyProfile "Default")
    (parse_emptyProfile (by decide) (by decide))).mpr
    ⟨emptyProfileValue "Default", from_str_emptyProfileText "Default",
      ⟨rfl, by decide, nofun⟩, by decide, by decide⟩

/-- A name of 61 characters and 122 UTF-16 units. -/
def smileys : String := String.ofList (List.replicate 61 '😀')

theorem toList_smileys : smileys.toList = List.replicate 61 '😀' := String.toList_ofList

theorem nameFits_smileys : nameFits smileys := by
  simp only [nameFits, containsExpression, toList_smileys]
  decide

theorem utf16Length_smileys : utf16Length smileys = 122 := by
  rw [utf16Length, toList_smileys]
  decide

theorem byteSize_smileys : Json.byteSize (emptyProfileText smileys) ≤ PROFILE_MAX_BYTES := by
  have hquote : Json.byteSize (quoteText smileys) = 246 := by
    rw [quoteText, toList_smileys]
    decide +kernel
  rw [byteSize_emptyProfileText, hquote]
  decide

theorem not_readable_smileys :
    ReadBack (emptyProfileSerde smileys) (emptyProfileParse smileys) ∧
      parse_and_validate_profile (emptyProfileSerde smileys) (emptyProfileText smileys) =
        .ok (⟨"useful.agent-profile.v1", "default", smileys, []⟩, emptyProfileText smileys) ∧
      ¬ Readable (emptyProfileSerde smileys) (emptyProfileParse smileys) decimalNat
        (emptyProfileText smileys) := by
  refine ⟨readBack_emptyProfile smileys, parse_emptyProfile nameFits_smileys byteSize_smileys,
    fun h => ?_⟩
  obtain ⟨value, hvalue, hdocument⟩ := h.browser
  obtain rfl := Option.some_inj.mp ((parse_emptyProfileText smileys).symm.trans hvalue)
  have hportable :=
    ((assertProfileDocument_eq_ok (accepts_emptyProfile nameFits_smileys)).mp hdocument).2
  have hname : utf16Length smileys ≤ 120 := hportable.2.1
  rw [utf16Length_smileys] at hname
  exact absurd hname (by decide)

end Useful.AgentProfile
