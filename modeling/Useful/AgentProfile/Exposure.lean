/-
# What a profile exposes

`validateProfileAgainstRegistry` pins every action of a profile to an action of the registry and
checks its presets and aliases. The `AgentExposure` that it returns stands in front of the
registry: on each surface it shows the enabled actions of the profile, and nothing else.
-/

import Useful.AgentProfile.Document
import Useful.Actions.Executor
import Useful.Math.Table

namespace Useful.AgentProfile

open Useful.Math
open Useful.Actions (Registry Entry actionNames field truthy utf8JsonBytes validateValue isUiOnly)

variable {H : Type}

/-! ## The exposure -/

/-- The key of a preset in the presets of its action. -/
def presetKey (preset : JsonValue) : String := text preset "presetId"

/-- An action of the profile, with the descriptor it is pinned to. -/
structure Exposed where
  config : JsonValue
  descriptor : JsonValue
  presets : Table JsonValue presetKey

def actionIdOf (action : JsonValue) : String := text action "actionId"

def Exposed.actionId (exposed : Exposed) : String := actionIdOf exposed.config

structure AgentExposure (H : Type) where
  profile : JsonValue
  registry : Registry H
  actions : Table Exposed Exposed.actionId
  aliases : Table (String × String) Prod.fst

/-! ## Presets -/

def FORBIDDEN_DEFAULT_NAMES : List String :=
  ["command", "rawcommand", "flags", "argv", "env", "path", "pathtemplate", "cwd",
    "workingdirectory", "entry", "args", "target"]

/-- Every occurrence of a pair of characters replaced by one. -/
def replacePair (first second new : Char) : List Char → List Char
  | c :: d :: rest =>
      if c = first ∧ d = second then new :: replacePair first second new rest
      else c :: replacePair first second new (d :: rest)
  | text => text

/-- `first.replaceAll("~1", "/").replaceAll("~0", "~")` -/
def unescapePointer (segment : List Char) : List Char :=
  replacePair '~' '0' '~' (replacePair '~' '1' '/' segment)

/-- The pointers of the sensitive parts of the input. -/
def sensitivePointers (descriptor : JsonValue) : List String :=
  textsOf (((field descriptor ["sensitive", "input"]).map Json.elements).getD [])

/-- The top level key that a pointer goes through. -/
def firstKey (pointer : String) : Option String :=
  ((pointer.toList.splitOn '/')[1]?).map fun segment => String.ofList (unescapePointer segment)

/-- `sensitiveTopLevelKeys`. The whole input may be sensitive. -/
def sensitiveTopLevelKeys (descriptor : JsonValue) : Option (List String) :=
  if "" ∈ sensitivePointers descriptor then none
  else some ((sensitivePointers descriptor).filterMap firstKey)

def isSensitive (descriptor : JsonValue) (key : String) : Bool :=
  match sensitiveTopLevelKeys descriptor with
  | none => true
  | some keys => key ∈ keys

/-- The properties of an input schema that is an object with no others. -/
def closedProperties (descriptor : JsonValue) : Option JsonValue :=
  (field descriptor ["inputSchema", "properties"]).filter fun properties =>
    truthy (some properties) &&
      Actions.isText (field descriptor ["inputSchema", "type"]) "object" &&
      Actions.isBool (field descriptor ["inputSchema", "additionalProperties"]) false

section Validation

-- The text of a number, and `String.prototype.toLowerCase`.
variable (numberText : ℚ → String) (toLowerCase : String → String)

/-- `key.toLowerCase().replaceAll(/[_\-.]/g, "")` -/
def normalizedDefault (key : String) : String :=
  String.ofList ((toLowerCase key).toList.filter fun c => c ≠ '_' ∧ c ≠ '-' ∧ c ≠ '.')

def presetPath (action preset : JsonValue) : String :=
  "/actions/" ++ actionIdOf action ++ "/presets/" ++ presetKey preset

/-- The defaults of a preset. -/
def defaultsOf (preset : JsonValue) : JsonValue := (preset.get "defaults").getD (.obj [])

/-- The checks of one default. -/
def checkDefault (descriptor properties : JsonValue) (path : String) (member : String × JsonValue) :
    Except AgentProfileError Unit := do
  failIf ((properties.get member.1).isNone)
    (fail "AGENT_PROFILE_PRESET_INVALID" path "DEFAULT_UNKNOWN_FIELD")
  failIf (normalizedDefault toLowerCase member.1 ∈ FORBIDDEN_DEFAULT_NAMES)
    (fail "AGENT_PROFILE_PRESET_INVALID" path "DEFAULT_FORBIDDEN_FIELD")
  failIf (isSensitive descriptor member.1)
    (fail "AGENT_PROFILE_PRESET_INVALID" path "DEFAULT_SENSITIVE_FIELD")
  failIf (validateValue numberText (properties.get member.1) member.2 ≠ [])
    (fail "AGENT_PROFILE_PRESET_INVALID" path "DEFAULT_VALUE_INVALID")

def checkDefaults (descriptor properties : JsonValue) (path : String) :
    List (String × JsonValue) → Except AgentProfileError Unit
  | [] => .ok ()
  | member :: members => do
      checkDefault numberText toLowerCase descriptor properties
        (path ++ "/defaults/" ++ member.1) member
      checkDefaults descriptor properties path members

def validatePreset (action preset descriptor : JsonValue) : Except AgentProfileError Unit := do
  failIf (PROFILE_LIMITS.defaultsBytes < utf8JsonBytes numberText (defaultsOf preset))
    (fail "AGENT_PROFILE_PRESET_INVALID" (presetPath action preset) "DEFAULTS_TOO_LARGE")
  let properties ← orFail
    (fail "AGENT_PROFILE_PRESET_INVALID" (presetPath action preset) "INPUT_SCHEMA_UNSUPPORTED")
    (closedProperties descriptor)
  checkDefaults numberText toLowerCase descriptor properties (presetPath action preset)
    (defaultsOf preset).members

/-! ## The registry -/

/-- The action of the profile is the action that its pins describe. -/
def pinsMatch (action descriptor : JsonValue) : Bool :=
  Actions.isText (descriptor.get "contractVersion") (text action "expectedContractVersion") &&
    Actions.isText (descriptor.get "version") (text action "expectedActionVersion") &&
    Actions.isText (field descriptor ["source", "kind"]) (text action "expectedSourceKind") &&
    Actions.isText (field descriptor ["source", "publisher", "id"])
      (text action "expectedPublisherId")

def addAliases (allRegistryNames : List String) (actionId : String) :
    List String → Table (String × String) Prod.fst →
      Except AgentProfileError (Table (String × String) Prod.fst)
  | [], aliases => .ok aliases
  | name :: names, aliases => do
      failIf (name ∈ allRegistryNames ∨ (aliases.find name).isSome)
        (fail "AGENT_PROFILE_COLLISION" ("/actions/" ++ actionId ++ "/aliases")
          "ALIAS_REGISTRY_COLLISION")
      addAliases allRegistryNames actionId names (aliases.put (name, actionId))

/-- The registered action of that id. -/
def registered (registry : Registry H) (actionId : String) : Option (Entry H) :=
  (registry.resolve actionId).filter fun entry =>
    Actions.isText (entry.descriptor.get "actionId") actionId

end Validation

/-! ## Questions to an exposure -/

/-- `config.enabled[surface] === true` -/
def enabledOn (config : JsonValue) (surface : String) : Bool :=
  Actions.isBool (field config ["enabled", surface]) true

/-- `{ ...descriptor, aliases }` -/
def withAliases (descriptor : JsonValue) (aliases : List JsonValue) : JsonValue :=
  .obj (descriptor.members.map fun member =>
    if member.1 = "aliases" then (member.1, .arr aliases) else member)

/-- A descriptor as it is shown on a surface. -/
def shown (surface : String) (config descriptor : JsonValue) : JsonValue :=
  withAliases descriptor (if surface = "cli" then listOf config "aliases" else [])

/-- What `resolve` returns. -/
structure Resolved (H : Type) where
  actionId : String
  entry : Option (Entry H)
  config : JsonValue

namespace AgentExposure

variable (exposure : AgentExposure H)

def list (surface : String) : List JsonValue :=
  (exposure.actions.rows.filter fun exposed => enabledOn exposed.config surface).map fun exposed =>
    shown surface exposed.config exposed.descriptor

/-- The id that a name stands for. -/
def canonical (name surface : String) : Option String :=
  if (exposure.actions.find name).isSome then some name
  else if surface = "cli" then (exposure.aliases.find name).map Prod.snd
  else none

def notExposed : AgentProfileError := fail "AGENT_PROFILE_SURFACE_DISABLED" "" "ACTION_NOT_EXPOSED"

def resolve (name surface : String) : Except AgentProfileError (Resolved H) := do
  let canonical ← orFail notExposed (exposure.canonical name surface)
  let exposed ← orFail notExposed (if canonical = "" then none else exposure.actions.find canonical)
  failIf (¬ enabledOn exposed.config surface) notExposed
  return ⟨canonical, exposure.registry.resolve canonical, exposed.config⟩

/-- The members of one object, and those of another that it lacks, with the values of the other
where both have one. -/
def spread {V : Type} (first second : List (String × V)) : List (String × V) :=
  first.map (fun member => (member.1, (second.lookup member.1).getD member.2)) ++
    second.filter fun member => (first.lookup member.1).isNone

end AgentExposure

end Useful.AgentProfile
