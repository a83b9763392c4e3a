/-
# Profiles on the desktop

`parse_and_validate_profile` reads the text of a profile, checks it a second time, in the terms
of its own types, and writes the text that is stored. A struct is read from an object or, field
by field, from an array.
-/

import Useful.AgentProfile.Document
import Useful.Math.JsonLayout
import Useful.Tuf.Metadata
import Mathlib.Data.List.SplitOn

namespace Useful.AgentProfile

open Useful.Math
open Useful.Actions (isLower isUpper isDigit isIdRest quoteText)
open Useful.Tuf (byteLt byteLe)

variable {ν : Type}

/-! ## Values of `serde_json` -/

/-- A value. The map of an object keeps its keys in order. -/
structure Value (ν : Type) where
  tree : Json ν
  sorted : tree.KeysSorted byteLt

/-- What is used of `serde_json`: its reader, and what it knows of a number. -/
structure SerdeJson (ν : Type) where
  from_str : List Char → Option (Value ν)
  as_i64 : ν → Option Int
  number : ν → List Char

/-- A line break and two spaces for every level. -/
def lineBreak (depth : Nat) : List Char := '\n' :: List.replicate (2 * depth) ' '

/-- `serde_json::to_string_pretty` -/
def to_string_pretty (number : ν → List Char) (value : Json ν) : List Char :=
  Json.layout lineBreak [':', ' '] quoteText number 0 value

/-! ## Types -/

structure SurfaceEnabled where
  cli : Bool
  mcp : Bool

structure ProfilePreset (ν : Type) where
  preset_id : String
  name : String
  defaults : List (String × Json ν)

structure ProfileAction (ν : Type) where
  action_id : String
  expected_contract_version : String
  expected_action_version : String
  expected_source_kind : String
  expected_publisher_id : String
  enabled : SurfaceEnabled
  aliases : List String
  presets : List (ProfilePreset ν)

structure Profile (ν : Type) where
  schema_version : String
  profile_id : String
  name : String
  actions : List (ProfileAction ν)

/-- The fields of a struct: an object has these and no others, an array lists them in order. -/
def structFields (names : List String) : Json ν → Option (List (Json ν))
  | .obj members =>
      if ∀ member ∈ members, member.1 ∈ names then names.mapM fun name => members.lookup name
      else none
  | .arr items => if items.length = names.length then some items else none
  | _ => none

def readBool : Json ν → Option Bool
  | .bool b => some b
  | _ => none

def readString : Json ν → Option String
  | .str s => some s
  | _ => none

def readVec {α : Type} (read : Json ν → Option α) : Json ν → Option (List α)
  | .arr items => items.mapM read
  | _ => none

def readMap : Json ν → Option (List (String × Json ν))
  | .obj members => some members
  | _ => none

def readEnabled (value : Json ν) : Option SurfaceEnabled := do
  match ← structFields ["cli", "mcp"] value with
  | [cli, mcp] => return ⟨← readBool cli, ← readBool mcp⟩
  | _ => none

def readPreset (value : Json ν) : Option (ProfilePreset ν) := do
  match ← structFields presetKeys value with
  | [presetId, name, defaults] =>
      return ⟨← readString presetId, ← readString name, ← readMap defaults⟩
  | _ => none

def readAction (value : Json ν) : Option (ProfileAction ν) := do
  match ← structFields actionKeys value with
  | [actionId, contractVersion, actionVersion, sourceKind, publisherId, enabled, aliases, presets] =>
      return {
        action_id := ← readString actionId
        expected_contract_version := ← readString contractVersion
        expected_action_version := ← readString actionVersion
        expected_source_kind := ← readString sourceKind
        expected_publisher_id := ← readString publisherId
        enabled := ← readEnabled enabled
        aliases := ← readVec readString aliases
        presets := ← readVec readPreset presets }
  | _ => none

/-- `serde_json::from_value` -/
def from_value (value : Json ν) : Option (Profile ν) := do
  match ← structFields profileKeys value with
  | [schemaVersion, profileId, name, actions] =>
      return ⟨← readString schemaVersion, ← readString profileId, ← readString name,
        ← readVec readAction actions⟩
  | _ => none

/-! ## Checks -/

def PROFILE_SCHEMA : String := "useful.agent-profile.v1"

def PROFILE_MAX_BYTES : Nat := 256 * 1024

def DEFAULTS_MAX_BYTES : Nat := 32 * 1024

def MAX_DEPTH : Nat := 16

def MAX_NODES : Nat := 4096

def MAX_ACTIONS : Nat := 128

def MAX_ALIASES_TOTAL : Nat := 256

def MAX_PRESETS_TOTAL : Nat := 256

def FORBIDDEN_DEFAULT_KEYS : List String :=
  ["command", "rawcommand", "flags", "argv", "env", "path", "pathtemplate", "cwd",
    "workingdirectory", "entry", "args", "target", "text"]

/-- `CmdError` -/
abbrev CmdError := String

def profile_error (path code : String) : CmdError :=
  "AGENT_PROFILE_INVALID:" ++ path ++ ":" ++ code

/-- `inspect_value` -/
def inspect_value (value : Json ν) : Except CmdError Nat :=
  inspect MAX_DEPTH MAX_NODES (fun path key => path ++ "/" ++ key) profile_error value "" 0 0

def isAscii (c : Char) : Bool := c.toNat < 128

/-- The length of a text in bytes. -/
def len (value : String) : Nat := Json.byteSize value.toList

/-- The loop of `is_stable_id`: letters and digits, and separators one at a time. -/
def separated : Bool → List Char → Bool
  | separator, [] => !separator
  | separator, c :: rest =>
      if isAlnum c then separated false rest
      else if (c = '.' ∨ c = '_' ∨ c = '-') ∧ ¬ separator then separated true rest
      else false

def is_stable_id (value : String) (max : Nat) : Bool :=
  decide (0 < len value ∧ len value ≤ max) && value.toList.all isAscii &&
    value.toList.head?.any isLower && separated false value.toList

/-- A segment of an action id, of which the first begins with a letter. -/
def isSegment (first : Bool) : List Char → Bool
  | [] => false
  | c :: rest =>
      (isAlnum c || isUpper c) && (!first || isLower c) && (c :: rest).all isIdRest

def is_action_id (value : String) : Bool :=
  decide (3 ≤ len value ∧ len value ≤ 200) && value.toList.all isAscii &&
    match value.toList.splitOn '.' with
    | [] => false
    | first :: segments =>
        segments.length ≠ 0 && isSegment true first && segments.all (isSegment false)

def is_alias (value : String) : Bool :=
  decide (2 ≤ len value) && is_stable_id value 64 && decide ('.' ∉ value.toList) &&
    decide ('_' ∉ value.toList)

def is_semver (value : String) : Bool :=
  let core := value.toList.takeWhile (· ≠ '-')
  let prerelease := value.toList.dropWhile (· ≠ '-')
  decide (len value ≤ 80 ∧ '+' ∉ value.toList) && decide ((core.splitOn '.').length = 3) &&
    (core.splitOn '.').all (fun part => !part.isEmpty && part.all isDigit) &&
    match prerelease with
    | [] => true
    | _ :: part => !part.isEmpty && part.all isPrerelease

/-- `canonicalize_value` -/
def canonicalize_value (value : Json ν) : Json ν := value.sortKeys byteLe

/-- The size of `serde_json::to_vec` of an object. -/
def compactSize (number : ν → List Char) (members : List (String × Json ν)) : Nat :=
  Json.byteSize (Json.render quoteText number (.obj members))

section Validation

variable (serde : SerdeJson ν)

/-- A default, if there is one, that is one of some words. -/
def wordAmong (words : List String) (defaults : List (String × Json ν)) (key : String) : Prop :=
  ∀ value, defaults.lookup key = some value → ∃ word ∈ words, isText value word

instance (words : List String) (defaults : List (String × Json ν)) (key : String) :
    Decidable (wordAmong words defaults key) :=
  match h : defaults.lookup key with
  | none => .isTrue fun value hvalue => by rw [h] at hvalue; cases hvalue
  | some value => decidable_of_iff (∃ word ∈ words, isText value word)
      ⟨fun hword value' hvalue' => by rw [h] at hvalue'; cases hvalue'; exact hword,
        fun hall => hall value h⟩

def indentFits (defaults : List (String × Json ν)) : Bool :=
  match defaults.lookup "indent" with
  | none => true
  | some (.num n) => (serde.as_i64 n).any fun i => 0 ≤ i && i ≤ 8
  | some _ => false

def allowedDefaults (action_id : String) : Option (List String) :=
  if action_id = "builtin.utilities.json" then some ["operation", "indent"]
  else if action_id = "builtin.utilities.base64" then some ["operation"]
  else if action_id = "builtin.utilities.hash" then some ["algorithm"]
  else none

def validate_known_builtin_defaults (action_id : String) (defaults : List (String × Json ν)) :
    Except CmdError Unit := do
  failIf (∃ allowed ∈ allowedDefaults action_id, ∃ member ∈ defaults, member.1 ∉ allowed)
    (profile_error "/actions/presets/defaults" "DEFAULT_UNKNOWN_OR_SENSITIVE")
  let invalid := profile_error "/actions/presets/defaults" "DEFAULT_VALUE_INVALID"
  failIf (action_id = "builtin.utilities.json" ∧
    ¬ (wordAmong ["format", "minify"] defaults "operation" ∧ indentFits serde defaults)) invalid
  failIf (action_id = "builtin.utilities.base64" ∧
    ¬ wordAmong ["encode", "decode"] defaults "operation") invalid
  failIf (action_id = "builtin.utilities.hash" ∧
    ¬ wordAmong ["SHA-1", "SHA-256", "SHA-384", "SHA-512"] defaults "algorithm") invalid

def nameFits (name : String) : Prop :=
  name.toList ≠ [] ∧ name.toList.length ≤ 120 ∧ ¬ containsExpression name

instance (name : String) : Decidable (nameFits name) :=
  inferInstanceAs (Decidable (_ ∧ _ ∧ _))

def normalizedKey (key : String) : String :=
  String.ofList ((key.toList.map Char.toLower).filter fun c => c ≠ '_' ∧ c ≠ '-' ∧ c ≠ '.')

/-- The loop over the presets of an action, with the ids so far. -/
def checkPresets (action_id : String) :
    List (ProfilePreset ν) → List String → Except CmdError Unit
  | [], _ => .ok ()
  | preset :: presets, preset_ids => do
      failIf (¬ (is_stable_id preset.preset_id 64 ∧ preset.preset_id ∉ preset_ids ∧
          nameFits preset.name))
        (profile_error "/actions/presets" "PRESET_METADATA_INVALID")
      failIf (64 < preset.defaults.length)
        (profile_error "/actions/presets/defaults" "DEFAULTS_PROPERTY_LIMIT")
      failIf (DEFAULTS_MAX_BYTES < compactSize serde.number preset.defaults)
        (profile_error "/actions/presets/defaults" "DEFAULTS_BYTE_LIMIT")
      failIf (∃ member ∈ preset.defaults,
          member.1 ∈ DANGEROUS_KEYS ∨ normalizedKey member.1 ∈ FORBIDDEN_DEFAULT_KEYS)
        (profile_error "/actions/presets/defaults" "DEFAULT_KEY_FORBIDDEN")
      validate_known_builtin_defaults serde action_id preset.defaults
      checkPresets action_id presets (preset.preset_id :: preset_ids)

def checkAliases : List String → List String → Except CmdError (List String)
  | [], aliases => .ok aliases
  | name :: names, aliases => do
      failIf (¬ (is_alias name ∧ name ∉ aliases))
        (profile_error "/actions/aliases" "ALIAS_INVALID_OR_DUPLICATE")
      checkAliases names (name :: aliases)

def actionMetadataFits (action : ProfileAction ν) : Prop :=
  action.expected_contract_version = "1.0" ∧ is_semver action.expected_action_version ∧
    action.expected_source_kind ∈ ["builtin", "plugin", "local"] ∧
    0 < len action.expected_publisher_id ∧ len action.expected_publisher_id ≤ 256 ∧
    ¬ containsExpression action.expected_publisher_id ∧ action.aliases.length ≤ 16 ∧
    action.presets.length ≤ 32

instance (action : ProfileAction ν) : Decidable (actionMetadataFits action) :=
  inferInstanceAs (Decidable (_ ∧ _))

/-- The loop over the actions, with the ids and aliases so far. -/
def checkActions : List (ProfileAction ν) → List String → List String →
    Except CmdError (List String × List String)
  | [], action_ids, aliases => .ok (action_ids, aliases)
  | action :: actions, action_ids, aliases => do
      failIf (¬ (is_action_id action.action_id ∧ action.action_id ∉ action_ids))
        (profile_error "/actions/actionId" "ACTION_ID_INVALID_OR_DUPLICATE")
      failIf (¬ actionMetadataFits action) (profile_error "/actions" "ACTION_METADATA_INVALID")
      let aliases ← checkAliases action.aliases aliases
      checkPresets serde action.action_id action.presets []
      checkActions actions (action.action_id :: action_ids) aliases

def metadataFits (profile : Profile ν) : Prop :=
  profile.schema_version = PROFILE_SCHEMA ∧ is_stable_id profile.profile_id 64 ∧
    nameFits profile.name ∧ profile.actions.length ≤ MAX_ACTIONS

instance (profile : Profile ν) : Decidable (metadataFits profile) :=
  inferInstanceAs (Decidable (_ ∧ _))

/-- `parse_and_validate_profile` -/
def parse_and_validate_profile (profile_json : List Char) :
    Except CmdError (Profile ν × List Char) := do
  failIf (PROFILE_MAX_BYTES < Json.byteSize profile_json) (profile_error "" "BYTE_LIMIT")
  let value ← orFail (profile_error "" "JSON_INVALID") (serde.from_str profile_json)
  let _ ← inspect_value value.tree
  let profile ← orFail (profile_error "" "SHAPE_INVALID") (from_value value.tree)
  failIf (¬ metadataFits profile) (profile_error "" "METADATA_INVALID")
  let (action_ids, aliases) ← checkActions serde profile.actions [] []
  failIf (MAX_ALIASES_TOTAL < (profile.actions.map fun action => action.aliases.length).sum ∨
      MAX_PRESETS_TOTAL < (profile.actions.map fun action => action.presets.length).sum)
    (profile_error "/actions" "TOTAL_LIMIT")
  failIf (∃ name ∈ aliases, name ∈ action_ids)
    (profile_error "/actions/aliases" "ALIAS_ACTION_COLLISION")
  return (profile, to_string_pretty serde.number (canonicalize_value value.tree) ++ ['\n'])

end Validation

end Useful.AgentProfile
