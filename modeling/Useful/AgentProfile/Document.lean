/-
# Agent profiles

`assertProfileDocument` checks a profile by itself: its size, the tree of its values, a fixed
schema, and the ids and aliases against one another. The schema lists all errors of a document,
and the other checks stop at the first.
-/

import Useful.Actions.Values
import Useful.Math.Checks

namespace Useful.AgentProfile

open Useful.Math
open Useful.Actions (isLower isUpper isDigit isIdRest quoteText utf16Length)

variable {ν : Type}

def PROFILE_SCHEMA_VERSION : String := "useful.agent-profile.v1"

structure ProfileLimits where
  bytes : Nat
  aliasesTotal : Nat
  presetsTotal : Nat
  defaultsBytes : Nat
  depth : Nat
  nodes : Nat

def PROFILE_LIMITS : ProfileLimits where
  bytes := 256 * 1024
  aliasesTotal := 256
  presetsTotal := 256
  defaultsBytes := 32 * 1024
  depth := 16
  nodes := 4096

structure ProfileIssue where
  path : String
  code : String
  deriving DecidableEq

structure AgentProfileError where
  code : String
  issues : List ProfileIssue
  deriving DecidableEq

def fail (code path issueCode : String) : AgentProfileError := ⟨code, [⟨path, issueCode⟩]⟩

/-! ## The tree of values -/

def DANGEROUS_KEYS : List String := ["__proto__", "prototype", "constructor"]

def EXPRESSION_MARKERS : List String := ["$\x7b", "\x7b\x7b", "\x7d\x7d", "$(", "<%", "%>"]

def containsExpression (text : String) : Bool :=
  EXPRESSION_MARKERS.any fun marker => marker.toList <:+: text.toList

section Inspect

variable {ε : Type} (maxDepth maxNodes : Nat) (childPath : String → String → String)
  (reject : String → String → ε)

/-- The checks of every node, and how many nodes were met. -/
def enter (path : String) (depth nodes : Nat) : Except ε Nat := do
  failIf (maxDepth < depth) (reject path "DEPTH_LIMIT")
  failIf (maxNodes < nodes + 1) (reject path "NODE_LIMIT")
  return nodes + 1

mutual

/-- The walk over the nodes of a document, in the browser and on the desktop. They differ in
their paths and errors. -/
def inspect : Json ν → String → Nat → Nat → Except ε Nat
  | .null, path, depth, nodes => enter maxDepth maxNodes reject path depth nodes
  | .bool _, path, depth, nodes => enter maxDepth maxNodes reject path depth nodes
  | .num _, path, depth, nodes => enter maxDepth maxNodes reject path depth nodes
  | .str text, path, depth, nodes => do
      let nodes ← enter maxDepth maxNodes reject path depth nodes
      failIf (containsExpression text) (reject path "EXPRESSION_FORBIDDEN")
      return nodes
  | .arr items, path, depth, nodes => do
      let nodes ← enter maxDepth maxNodes reject path depth nodes
      inspectItems items path 0 (depth + 1) nodes
  | .obj members, path, depth, nodes => do
      let nodes ← enter maxDepth maxNodes reject path depth nodes
      inspectMembers members path (depth + 1) nodes

def inspectItems : List (Json ν) → String → Nat → Nat → Nat → Except ε Nat
  | [], _, _, _, nodes => .ok nodes
  | item :: items, path, index, depth, nodes => do
      let nodes ← inspect item (childPath path (toString index)) depth nodes
      inspectItems items path (index + 1) depth nodes

def inspectMembers : List (String × Json ν) → String → Nat → Nat → Except ε Nat
  | [], _, _, nodes => .ok nodes
  | (key, child) :: members, path, depth, nodes => do
      failIf (key ∈ DANGEROUS_KEYS) (reject (childPath path key) "DANGEROUS_KEY")
      let nodes ← inspect child (childPath path key) depth nodes
      inspectMembers members path depth nodes

end

end Inspect

/-- `key.replaceAll("~", "~0").replaceAll("/", "~1")` -/
def escapePointer (key : String) : String :=
  String.ofList (key.toList.flatMap fun c =>
    if c = '~' then ['~', '0'] else if c = '/' then ['~', '1'] else [c])

def inspectTree (value : Json ν) : Except AgentProfileError Nat :=
  inspect PROFILE_LIMITS.depth PROFILE_LIMITS.nodes (fun path key => path ++ "/" ++ escapePointer key)
    (fail "AGENT_PROFILE_INVALID") value "" 0 0

/-! ## The schema -/

section Patterns

open Regex

def isAlnum (c : Char) : Bool := isLower c || isDigit c

/-- Words of lower case letters and digits with single separators between them. -/
def idPattern (separator : Char → Bool) : Regex Char :=
  seq (cls isLower) (seq (star (cls isAlnum)) (star (seq (cls separator) (plus (cls isAlnum)))))

/-- `/^[a-z][a-z0-9]*(?:[._-][a-z0-9]+)*$/` -/
def STABLE_ID : Regex Char := idPattern fun c => c = '.' || c = '_' || c = '-'

/-- `/^[a-z][a-z0-9_-]*(\.[a-z0-9][a-z0-9_-]*)+$/` -/
def ACTION_ID : Regex Char :=
  seq (cls isLower) (seq (star (cls isIdRest))
    (plus (seq (letter '.') (seq (cls isAlnum) (star (cls isIdRest))))))

/-- `[0-9A-Za-z.-]` -/
def isPrerelease (c : Char) : Bool := isDigit c || isUpper c || isLower c || c = '.' || c = '-'

/-- `/^[0-9]+\.[0-9]+\.[0-9]+(?:-[0-9A-Za-z.-]+)?$/` -/
def SEMVER : Regex Char :=
  seq (plus (cls isDigit)) (seq (letter '.') (seq (plus (cls isDigit)) (seq (letter '.')
    (seq (plus (cls isDigit)) (opt (seq (letter '-') (plus (cls isPrerelease))))))))

/-- `/^[a-z][a-z0-9]*(?:-[a-z0-9]+)*$/` -/
def ALIAS : Regex Char := idPattern fun c => c = '-'

end Patterns

def SOURCE_KINDS : List String := ["builtin", "plugin", "local"]

structure SchemaError where
  instancePath : String
  keyword : String
  message : String
  deriving DecidableEq

def errorIf (c : Prop) [Decidable c] (path keyword message : String) : List SchemaError :=
  if c then [⟨path, keyword, message⟩] else []

def isObject : Json ν → Bool
  | .obj _ => true
  | _ => false

def isArray : Json ν → Bool
  | .arr _ => true
  | _ => false

def isBoolean : Json ν → Bool
  | .bool _ => true
  | _ => false

def isText : Json ν → String → Bool
  | .str s, text => s == text
  | _, _ => false

def stringInRange (min max : Nat) : Json ν → Bool
  | .str s => min ≤ utf16Length s && utf16Length s ≤ max
  | _ => false

/-- A string of that length that matches the pattern. -/
def validatePattern (min max : Nat) (pattern : Regex Char) (message : String) (value : Json ν)
    (path : String) : List SchemaError :=
  match value with
  | .str s => errorIf (¬ (stringInRange min max value ∧ pattern.test s.toList)) path "pattern" message
  | _ => [⟨path, "pattern", message⟩]

def validateStableId : Json ν → String → List SchemaError :=
  validatePattern 1 64 STABLE_ID "stableId invalid"

def validateActionId : Json ν → String → List SchemaError :=
  validatePattern 3 200 ACTION_ID "actionId invalid"

def validateAlias : Json ν → String → List SchemaError :=
  validatePattern 2 64 ALIAS "alias invalid"

def validateSemver : Json ν → String → List SchemaError :=
  validatePattern 1 80 SEMVER "semver invalid"

def rejectUnknownKeys (value : Json ν) (allowed : List String) (path : String) : List SchemaError :=
  value.keys.flatMap fun key =>
    errorIf (key ∉ allowed) (path ++ "/" ++ key) "additionalProperties" "unknown key"

def requireKeys (value : Json ν) (required : List String) (path : String) : List SchemaError :=
  required.flatMap fun key =>
    errorIf ((value.get key).isNone) (path ++ "/" ++ key) "required" "missing required key"

/-- A check of a member that is there. -/
def ifOwn (value : Json ν) (key : String) (check : Json ν → List SchemaError) : List SchemaError :=
  ((value.get key).map check).getD []

def validateEnabled (value : Json ν) (path : String) : List SchemaError :=
  if ¬ isObject value then [⟨path, "type", "enabled must be object"⟩]
  else
    requireKeys value ["cli", "mcp"] path ++
    rejectUnknownKeys value ["cli", "mcp"] path ++
    ifOwn value "cli" (fun cli =>
      errorIf (¬ isBoolean cli) (path ++ "/cli") "type" "cli must be boolean") ++
    ifOwn value "mcp" fun mcp =>
      errorIf (¬ isBoolean mcp) (path ++ "/mcp") "type" "mcp must be boolean"

def validateDefaults (value : Json ν) (path : String) : List SchemaError :=
  if ¬ isObject value then [⟨path, "type", "defaults must be object"⟩]
  else errorIf (64 < value.members.length) path "maxProperties" "defaults has too many properties"

def presetKeys : List String := ["presetId", "name", "defaults"]

/-- `validatePreset` of the schema. -/
def validatePresetShape (value : Json ν) (path : String) : List SchemaError :=
  if ¬ isObject value then [⟨path, "type", "preset must be object"⟩]
  else
    requireKeys value presetKeys path ++
    rejectUnknownKeys value presetKeys path ++
    ifOwn value "presetId" (fun id => validateStableId id (path ++ "/presetId")) ++
    ifOwn value "name" (fun name =>
      errorIf (¬ stringInRange 1 120 name) (path ++ "/name") "type" "name length invalid") ++
    ifOwn value "defaults" fun defaults => validateDefaults defaults (path ++ "/defaults")

/-- A check of every item, with its index. -/
def forEach (check : Json ν → Nat → List SchemaError) : Nat → List (Json ν) → List SchemaError
  | _, [] => []
  | index, item :: items => check item index ++ forEach check (index + 1) items

/-- The aliases of an action, after those that were seen. -/
def aliasErrors (path : String) : Nat → List String → List (Json ν) → List SchemaError
  | _, _, [] => []
  | index, seen, item :: items =>
      let itemPath := path ++ "/" ++ toString index
      validateAlias item itemPath ++
      match item with
      | .str text =>
          errorIf (text ∈ seen) itemPath "uniqueItems" "duplicate alias" ++
          aliasErrors path (index + 1) (text :: seen) items
      | _ => aliasErrors path (index + 1) seen items

def validateAliases (value : Json ν) (path : String) : List SchemaError :=
  if ¬ isArray value then [⟨path, "type", "aliases must be array"⟩]
  else
    errorIf (16 < value.elements.length) path "maxItems" "too many aliases" ++
    aliasErrors path 0 [] value.elements

def validatePresets (value : Json ν) (path : String) : List SchemaError :=
  if ¬ isArray value then [⟨path, "type", "presets must be array"⟩]
  else
    errorIf (32 < value.elements.length) path "maxItems" "too many presets" ++
    forEach (fun preset index => validatePresetShape preset (path ++ "/" ++ toString index)) 0
      value.elements

def actionKeys : List String :=
  ["actionId", "expectedContractVersion", "expectedActionVersion", "expectedSourceKind",
    "expectedPublisherId", "enabled", "aliases", "presets"]

def validateAction (value : Json ν) (path : String) : List SchemaError :=
  if ¬ isObject value then [⟨path, "type", "action must be object"⟩]
  else
    requireKeys value actionKeys path ++
    rejectUnknownKeys value actionKeys path ++
    ifOwn value "actionId" (fun id => validateActionId id (path ++ "/actionId")) ++
    ifOwn value "expectedContractVersion" (fun version =>
      errorIf (¬ isText version "1.0") (path ++ "/expectedContractVersion") "const" "must be 1.0") ++
    ifOwn value "expectedActionVersion" (fun version =>
      validateSemver version (path ++ "/expectedActionVersion")) ++
    ifOwn value "expectedSourceKind" (fun kind =>
      errorIf (¬ SOURCE_KINDS.any (isText kind)) (path ++ "/expectedSourceKind") "enum"
        "invalid source kind") ++
    ifOwn value "expectedPublisherId" (fun publisher =>
      errorIf (¬ stringInRange 1 256 publisher) (path ++ "/expectedPublisherId") "type"
        "publisher id invalid") ++
    ifOwn value "enabled" (fun enabled => validateEnabled enabled (path ++ "/enabled")) ++
    ifOwn value "aliases" (fun aliases => validateAliases aliases (path ++ "/aliases")) ++
    ifOwn value "presets" fun presets => validatePresets presets (path ++ "/presets")

def validateActions (value : Json ν) (path : String) : List SchemaError :=
  if ¬ isArray value then [⟨path, "type", "actions must be array"⟩]
  else
    errorIf (128 < value.elements.length) path "maxItems" "too many actions" ++
    forEach (fun action index => validateAction action (path ++ "/" ++ toString index)) 0
      value.elements

def profileKeys : List String := ["schemaVersion", "profileId", "name", "actions"]

/-- The errors that `validateProfileSchema` finds. -/
def validateProfileSchema (profile : Json ν) : List SchemaError :=
  if ¬ isObject profile then [⟨"", "type", "profile must be object"⟩]
  else
    requireKeys profile profileKeys "" ++
    rejectUnknownKeys profile profileKeys "" ++
    ifOwn profile "schemaVersion" (fun version =>
      errorIf (¬ isText version PROFILE_SCHEMA_VERSION) "/schemaVersion" "const"
        "schemaVersion must be useful.agent-profile.v1") ++
    ifOwn profile "profileId" (fun id => validateStableId id "/profileId") ++
    ifOwn profile "name" (fun name =>
      errorIf (¬ stringInRange 1 120 name) "/name" "type" "name length invalid") ++
    ifOwn profile "actions" fun actions => validateActions actions "/actions"

def schemaIssues (errors : List SchemaError) : List ProfileIssue :=
  errors.map fun entry => ⟨entry.instancePath, "SCHEMA_" ++ entry.keyword.toUpper⟩

/-! ## The document -/

/-- A member that is a string. The schema has checked that it is one. -/
def text (value : Json ν) (key : String) : String :=
  match value.get key with
  | some (.str s) => s
  | _ => ""

/-- A member that is an array. -/
def listOf (value : Json ν) (key : String) : List (Json ν) :=
  ((value.get key).map Json.elements).getD []

/-- The strings of an array of strings. -/
def textsOf (items : List (Json ν)) : List String :=
  items.filterMap fun
    | .str s => some s
    | _ => none

def assertAliases (actionIndex : Nat) (actionIds : List String) :
    Nat → List String → List String → Except AgentProfileError (List String)
  | _, [], aliases => .ok aliases
  | index, name :: rest, aliases => do
      failIf (name ∈ aliases ∨ name ∈ actionIds) (fail "AGENT_PROFILE_COLLISION"
        ("/actions/" ++ toString actionIndex ++ "/aliases/" ++ toString index) "ALIAS_COLLISION")
      assertAliases actionIndex actionIds (index + 1) rest (name :: aliases)

def assertPresets (actionIndex : Nat) :
    Nat → List String → List String → Except AgentProfileError Unit
  | _, [], _ => .ok ()
  | index, presetId :: rest, presetIds => do
      failIf (presetId ∈ presetIds) (fail "AGENT_PROFILE_COLLISION"
        ("/actions/" ++ toString actionIndex ++ "/presets/" ++ toString index ++ "/presetId")
        "PRESET_DUPLICATE")
      assertPresets actionIndex (index + 1) rest (presetId :: presetIds)

def aliasesOf (action : Json ν) : List String := textsOf (listOf action "aliases")

def presetIdsOf (action : Json ν) : List String :=
  (listOf action "presets").map fun preset => text preset "presetId"

/-- The loop over the actions, with the ids and aliases so far. -/
def assertActions : Nat → List (Json ν) → List String → List String →
    Except AgentProfileError (List String × List String)
  | _, [], actionIds, aliases => .ok (actionIds, aliases)
  | index, action :: actions, actionIds, aliases => do
      failIf (text action "actionId" ∈ actionIds) (fail "AGENT_PROFILE_COLLISION"
        ("/actions/" ++ toString index ++ "/actionId") "ACTION_DUPLICATE")
      let aliases ← assertAliases index (text action "actionId" :: actionIds) 0 (aliasesOf action)
        aliases
      assertPresets index 0 (presetIdsOf action) []
      assertActions (index + 1) actions (text action "actionId" :: actionIds) aliases

section Document

-- The text of a number.
variable (number : ν → List Char)

/-- The size of `JSON.stringify(value)`. -/
def utf8Bytes (value : Json ν) : Nat := (utf8 (Json.render quoteText number value)).length

def assertProfileDocument (profile : Json ν) : Except AgentProfileError Unit := do
  failIf (PROFILE_LIMITS.bytes < utf8Bytes number profile)
    (fail "AGENT_PROFILE_TOO_LARGE" "" "AGENT_PROFILE_TOO_LARGE")
  let _ ← inspectTree profile
  failIf (validateProfileSchema profile ≠ [])
    ⟨"AGENT_PROFILE_INVALID", schemaIssues (validateProfileSchema profile)⟩
  let actions := listOf profile "actions"
  let (actionIds, aliases) ← assertActions 0 actions [] []
  failIf (∃ name ∈ aliases, name ∈ actionIds)
    (fail "AGENT_PROFILE_COLLISION" "" "ALIAS_ACTION_COLLISION")
  failIf (PROFILE_LIMITS.aliasesTotal < (actions.map fun action => (aliasesOf action).length).sum)
    (fail "AGENT_PROFILE_INVALID" "/actions" "ALIAS_TOTAL_LIMIT")
  failIf (PROFILE_LIMITS.presetsTotal < (actions.map fun action => (presetIdsOf action).length).sum)
    (fail "AGENT_PROFILE_INVALID" "/actions" "PRESET_TOTAL_LIMIT")

end Document

/-! ## Single checks -/

theorem errorIf_eq_nil {c : Prop} [Decidable c] {path keyword message : String} :
    errorIf c path keyword message = [] ↔ ¬ c := by
  unfold errorIf
  split_ifs with h <;> simp [h]

theorem requireKeys_eq_nil {value : Json ν} {required : List String} {path : String} :
    requireKeys value required path = [] ↔ ∀ key ∈ required, (value.get key).isSome := by
  simp only [requireKeys, List.flatMap_eq_nil_iff, errorIf_eq_nil, Bool.not_eq_true,
    Option.isNone_eq_false_iff]

theorem rejectUnknownKeys_eq_nil {value : Json ν} {allowed : List String} {path : String} :
    rejectUnknownKeys value allowed path = [] ↔ ∀ key ∈ value.keys, key ∈ allowed := by
  simp only [rejectUnknownKeys, List.flatMap_eq_nil_iff, errorIf_eq_nil, not_not]

theorem ifOwn_of_get {value member : Json ν} {key : String} {check : Json ν → List SchemaError}
    (h : value.get key = some member) : ifOwn value key check = check member := by
  rw [ifOwn, h]
  rfl

theorem isText_iff {value other : String} : isText (.str value : Json ν) other = true ↔ value = other := by
  rw [isText, beq_iff_eq]

theorem stringInRange_iff {min max : Nat} {value : String} :
    stringInRange min max (.str value : Json ν) = true ↔
      min ≤ utf16Length value ∧ utf16Length value ≤ max := by
  rw [stringInRange, Bool.and_eq_true, decide_eq_true_eq, decide_eq_true_eq]

theorem text_of_get {value : Json ν} {key s : String} (h : value.get key = some (.str s)) :
    text value key = s := by
  rw [text, h]

theorem listOf_of_get {value : Json ν} {key : String} {items : List (Json ν)}
    (h : value.get key = some (.arr items)) : listOf value key = items := by
  rw [listOf, h]
  rfl

theorem validateDefaults_eq_nil {members : List (String × Json ν)} {path : String} :
    validateDefaults (.obj members) path = [] ↔ members.length ≤ 64 :=
  errorIf_eq_nil.trans not_lt

theorem validatePresets_arr_eq_nil {items : List (Json ν)} {path : String} :
    validatePresets (.arr items) path = [] ↔ items.length ≤ 32 ∧
      forEach (fun preset index => validatePresetShape preset (path ++ "/" ++ toString index)) 0
        items = [] :=
  List.append_eq_nil_iff.trans (and_congr (errorIf_eq_nil.trans not_lt) Iff.rfl)

theorem validateAliases_arr_eq_nil {items : List (Json ν)} {path : String} :
    validateAliases (.arr items) path = [] ↔ items.length ≤ 16 ∧ aliasErrors path 0 [] items = [] :=
  List.append_eq_nil_iff.trans (and_congr (errorIf_eq_nil.trans not_lt) Iff.rfl)

theorem validateActions_arr_eq_nil {items : List (Json ν)} {path : String} :
    validateActions (.arr items) path = [] ↔ items.length ≤ 128 ∧
      forEach (fun action index => validateAction action (path ++ "/" ++ toString index)) 0
        items = [] :=
  List.append_eq_nil_iff.trans (and_congr (errorIf_eq_nil.trans not_lt) Iff.rfl)

theorem textsOf_map_str (names : List String) :
    textsOf (names.map fun name => (.str name : Json ν)) = names := by
  rw [textsOf, List.filterMap_map]
  exact List.filterMap_some

end Useful.AgentProfile
