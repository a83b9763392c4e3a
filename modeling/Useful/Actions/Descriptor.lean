/-
# Action descriptors

`validateActionDescriptor` of the action contract lists the issues of a descriptor. It
goes through the members in turn, and the lists of names, the objects and the value
schemas in them have checkers of their own. A member that is absent is `none`.
-/

import Useful.Math.JsonSchema
import Useful.Math.Unicode

namespace Useful.Actions

open Useful.Math

structure Issue where
  path : String
  message : String
  deriving DecidableEq, Repr

/-! ## Constants -/

def CONTRACT_VERSION : String := "1.0"

def isLower (c : Char) : Bool := 'a' ≤ c && c ≤ 'z'

def isUpper (c : Char) : Bool := 'A' ≤ c && c ≤ 'Z'

def isDigit (c : Char) : Bool := '0' ≤ c && c ≤ '9'

section Patterns

open Regex

/-- `[a-z0-9_-]` -/
def isIdRest (c : Char) : Bool := isLower c || isDigit c || c = '_' || c = '-'

/-- `/^[a-z][a-z0-9_-]*(\.[a-z0-9][a-z0-9_-]*)+$/` -/
def ACTION_ID : Regex Char :=
  seq (cls isLower) (seq (star (cls isIdRest))
    (plus (seq (letter '.') (seq (cls fun c => isLower c || isDigit c) (star (cls isIdRest))))))

/-- `/^[0-9]+\.[0-9]+\.[0-9]+(?:-[0-9A-Za-z.-]+)?$/` -/
def SEMVER : Regex Char :=
  seq (plus (cls isDigit)) (seq (letter '.') (seq (plus (cls isDigit)) (seq (letter '.')
    (seq (plus (cls isDigit)) (opt (seq (letter '-')
      (plus (cls fun c => isDigit c || isUpper c || isLower c || c = '.' || c = '-'))))))))

/-- `/^[a-f0-9]{64}$/` -/
def SHA256 : Regex Char := times (cls fun c => 'a' ≤ c && c ≤ 'f' || isDigit c) 64

/-- `/^(?:\/(?:[^~/]|~0|~1)*)*$/` -/
def JSON_POINTER : Regex Char :=
  star (seq (letter '/') (star (alt (cls fun c => c ≠ '~' ∧ c ≠ '/')
    (alt (word ['~', '0']) (word ['~', '1'])))))

end Patterns

def EXECUTION_MODES : List String := ["pure", "host", "worker", "ui-only"]

def JSON_TYPES : List String :=
  ["object", "array", "string", "number", "integer", "boolean", "null"]

def SCHEMA_KEYS : List String :=
  ["$schema", "type", "title", "description", "properties", "required", "additionalProperties",
    "items", "enum", "const", "minLength", "maxLength", "minimum", "maximum", "minItems",
    "maxItems", "uniqueItems"]

def SCHEMA_DIALECT : String := "https://json-schema.org/draft/2020-12/schema"

def RESERVED_ACTION_NAMES : List String :=
  ["useful.actions.search", "useful.actions.describe", "useful.actions.suggest",
    "useful.actions.recipe"]

/-! ## JavaScript -/

/-- `value === "text"`. -/
def isText (value : Option JsonValue) (text : String) : Bool :=
  match value with
  | some (.str s) => s == text
  | _ => false

/-- `typeof value === "string"`, with a test of the string. -/
def stringWith (test : String → Bool) (value : Option JsonValue) : Bool :=
  match value with
  | some (.str s) => test s
  | _ => false

/-- `value === b`. -/
def isBool (value : Option JsonValue) (b : Bool) : Bool :=
  match value with
  | some (.bool c) => c == b
  | _ => false

def isBoolean (value : Option JsonValue) : Bool :=
  match value with
  | some (.bool _) => true
  | _ => false

/-- `typeof value === "number"`; the numbers of JSON are finite. -/
def isNumber (value : Option JsonValue) : Bool :=
  match value with
  | some (.num _) => true
  | _ => false

/-- `Number.isInteger(value)`, and the integer is in bounds. -/
def integerWith (test : ℚ → Bool) (value : Option JsonValue) : Bool :=
  match value with
  | some (.num q) => q.isInt && test q
  | _ => false

def isObject (value : Option JsonValue) : Bool :=
  match value with
  | some (.obj _) => true
  | _ => false

def isArray (value : Option JsonValue) : Bool :=
  match value with
  | some (.arr _) => true
  | _ => false

def isNonemptyArray (value : Option JsonValue) : Bool :=
  match value with
  | some (.arr (_ :: _)) => true
  | _ => false

/-- Conversion to boolean. -/
def truthy (value : Option JsonValue) : Bool :=
  match value with
  | none | some .null => false
  | some (.bool b) => b
  | some (.num q) => q ≠ 0
  | some (.str s) => s ≠ ""
  | some (.arr _) | some (.obj _) => true

/-- `value?.length`, converted to boolean. -/
def hasLength (value : Option JsonValue) : Bool :=
  match value with
  | some (.str s) => s ≠ ""
  | some (.arr items) => items ≠ []
  | some (.obj members) => truthy (members.lookup "length")
  | _ => false

/-- `value.startsWith(prefix)`. -/
def startsWith (start value : String) : Bool := start.toList.isPrefixOf value.toList

/-- The length of a string in UTF-16 code units. -/
def utf16Length (value : String) : Nat := (utf16 value.toList).length

def isReservedActionName (value : Option JsonValue) : Bool :=
  stringWith (· ∈ RESERVED_ACTION_NAMES) value

/-! ## The checkers -/

def issueIf (c : Prop) [Decidable c] (path message : String) : List Issue :=
  if c then [⟨path, message⟩] else []

/-- The issues that `requireKeys` finds with the members of an object. -/
def keyIssues (value : JsonValue) (required allowed : List String) (path : String) : List Issue :=
  (required.filter (· ∉ value.keys)).map (fun key => ⟨s!"{path}/{key}", "缺少必填字段"⟩) ++
    (value.keys.filter (· ∉ allowed)).map fun key => ⟨s!"{path}/{key}", "未知字段被拒绝"⟩

/-- `requireKeys`, and what is checked in case it is an object. -/
def requireKeys (value : Option JsonValue) (required allowed : List String) (path : String)
    (inside : JsonValue → List Issue) : List Issue :=
  match value with
  | some (.obj members) =>
      keyIssues (.obj members) required allowed path ++ inside (.obj members)
  | _ => [⟨path, "必须是对象"⟩]

/-- The loop of `stringArray`, with the strings seen so far. -/
@[grind =]
def stringEntries (path : String) (allowEmpty : Bool) : Nat → List String → List JsonValue → List Issue
  | _, _, [] => []
  | index, seen, .str s :: rest =>
      (if ¬ allowEmpty ∧ s = "" then [⟨s!"{path}/{index}", "必须是非空字符串"⟩]
        else issueIf (s ∈ seen) s!"{path}/{index}" "不允许重复项") ++
        stringEntries path allowEmpty (index + 1) (s :: seen) rest
  | index, seen, _ :: rest =>
      ⟨s!"{path}/{index}", if allowEmpty then "必须是字符串" else "必须是非空字符串"⟩ ::
        stringEntries path allowEmpty (index + 1) seen rest

/-- `stringArray`. -/
def stringArray (value : Option JsonValue) (path : String) (maxItems : Nat) (allowEmpty : Bool) :
    List Issue :=
  match value with
  | some (.arr items) =>
      issueIf (items.length > maxItems) path s!"最多 {maxItems} 项" ++
        stringEntries path allowEmpty 0 [] items
  | _ => [⟨path, "必须是字符串数组"⟩]

/-- The types that a value schema declares. -/
def declaredTypes (schema : JsonValue) : List (Option JsonValue) :=
  match schema.get "type" with
  | some (.arr items) => items.map some
  | type => [type]

/-- `types.includes(type)`. -/
def includesType (schema : JsonValue) (type : String) : Bool :=
  (declaredTypes schema).any fun declared => isText declared type

/-- The part of `validateSchemaShape` that does not look into nested schemas. -/
def schemaKeywords (schema : JsonValue) (path : String) : List Issue :=
  (schema.keys.filter (· ∉ SCHEMA_KEYS)).map
      (fun key => ⟨s!"{path}/{key}", "Action v1 不支持此 schema 关键字"⟩) ++
    issueIf ((schema.get "$schema").isSome ∧ ¬ isText (schema.get "$schema") SCHEMA_DIALECT)
      s!"{path}/$schema" "只接受 JSON Schema 2020-12" ++
    issueIf (declaredTypes schema = [] ∨
        (declaredTypes schema).any fun type => !stringWith (· ∈ JSON_TYPES) type)
      s!"{path}/type" "必须声明受支持的 JSON type" ++
    issueIf ((schema.get "enum").isSome ∧ ¬ isNonemptyArray (schema.get "enum"))
      s!"{path}/enum" "enum 必须是非空数组" ++
    ["minLength", "maxLength", "minItems", "maxItems"].flatMap (fun key =>
      issueIf ((schema.get key).isSome ∧ ¬ integerWith (0 ≤ ·) (schema.get key))
        s!"{path}/{key}" "必须是非负整数") ++
    ["minimum", "maximum"].flatMap (fun key =>
      issueIf ((schema.get key).isSome ∧ ¬ isNumber (schema.get key))
        s!"{path}/{key}" "必须是有限数字") ++
    issueIf ((schema.get "uniqueItems").isSome ∧ ¬ isBoolean (schema.get "uniqueItems"))
      s!"{path}/uniqueItems" "必须是 boolean" ++
    (if (schema.get "required").isSome then stringArray (schema.get "required") s!"{path}/required" 128 false
      else [])

/-- `validateSchemaShape` of a value that is there. -/
@[grind =]
def schemaShape (schema : JsonValue) (path : String) : List Issue :=
  if isObject (some schema) then
    schemaKeywords schema path ++
    (if includesType schema "object" then
      issueIf (¬ isObject (schema.get "properties"))
          s!"{path}/properties" "object schema 必须声明 properties" ++
        issueIf (¬ isBool (schema.get "additionalProperties") false)
          s!"{path}/additionalProperties" "object schema 必须 fail closed（值为 false）" ++
        match h : schema.get "properties" with
        | some properties =>
            properties.members.attach.flatMap fun ⟨(name, child), hchild⟩ =>
              have : child.depth < schema.depth :=
                (Json.depth_lt_of_mem_members hchild).trans (Json.depth_lt_of_get h)
              schemaShape child s!"{path}/properties/{name}"
        | none => []
    else []) ++
    (if includesType schema "array" then
      issueIf (¬ isObject (schema.get "items")) s!"{path}/items" "array schema 必须声明单一 items schema" ++
        match h : schema.get "items" with
        | some items =>
            have : items.depth < schema.depth := Json.depth_lt_of_get h
            if isObject (some items) then schemaShape items s!"{path}/items" else []
        | none => []
    else [])
  else
    [⟨path, "JSON Schema 必须是对象"⟩]
termination_by schema.depth

/-- `validateSchemaShape`. -/
def validateSchemaShape (schema : Option JsonValue) (path : String) : List Issue :=
  match schema with
  | some schema => schemaShape schema path
  | none => [⟨path, "JSON Schema 必须是对象"⟩]

/-! ## The descriptor -/

def topRequired : List String :=
  ["contractVersion", "actionId", "version", "source", "title", "description", "keywords",
    "aliases", "inputSchema", "outputSchema", "examples", "testVectors", "execution", "behavior",
    "permissions", "sensitive"]

def topAllowed : List String := topRequired ++ ["presentation"]

/-- `aliases?.forEach(…)`: a value that is there and has no such method throws. -/
def forEachAlias (aliases : Option JsonValue) (f : Nat → JsonValue → List Issue) :
    Except String (List Issue) :=
  match aliases with
  | none | some .null => .ok []
  | some (.arr items) => .ok (items.zipIdx.flatMap fun item => f item.2 item.1)
  | some _ => .error "value.aliases?.forEach is not a function"

def reservedAlias (index : Nat) (entry : JsonValue) : List Issue :=
  issueIf (isReservedActionName (some entry)) s!"/aliases/{index}" "alias 是 Useful discovery 保留名"

def builtinAlias (index : Nat) (entry : JsonValue) : List Issue :=
  issueIf (stringWith (startsWith "builtin.") (some entry))
    s!"/aliases/{index}" "非 builtin source alias 不得使用 builtin.* 命名空间"

/-- A plugin's action whose id is outside the tool's namespace. -/
def outsideTool (actionId toolId : Option JsonValue) : Bool :=
  stringWith (fun tool => stringWith (fun action => !startsWith (tool ++ ".") action) actionId) toolId

section

variable (value : JsonValue)

/-- The ids and texts at the top. -/
def headIssues : List Issue :=
  issueIf (¬ isText (value.get "contractVersion") CONTRACT_VERSION) "/contractVersion" "只支持 1.0" ++
    issueIf (¬ stringWith (fun s => ACTION_ID.test s.toList) (value.get "actionId"))
      "/actionId" "actionId 格式非法" ++
    issueIf (isReservedActionName (value.get "actionId"))
      "/actionId" "actionId 是 Useful discovery 保留名" ++
    issueIf (¬ stringWith (fun s => SEMVER.test s.toList) (value.get "version"))
      "/version" "version 必须是 semver" ++
    issueIf (¬ stringWith (· ≠ "") (value.get "title")) "/title" "title 必须非空" ++
    issueIf (¬ stringWith (· ≠ "") (value.get "description")) "/description" "description 必须非空" ++
    stringArray (value.get "keywords") "/keywords" 64 false ++
    stringArray (value.get "aliases") "/aliases" 32 false

/-- The namespaces of a source, with the issues of its aliases. -/
def namespaceIssues (aliasIssues : List Issue) (source : JsonValue) : List Issue :=
  if isText (source.get "kind") "builtin" then
    issueIf (¬ stringWith (startsWith "builtin.") (value.get "actionId"))
        "/actionId" "builtin source 必须使用 builtin.* 命名空间" ++
      issueIf (¬ stringWith (startsWith "builtin.") (source.get "toolId"))
        "/source/toolId" "builtin source toolId 必须使用 builtin.* 命名空间"
  else
    issueIf (stringWith (startsWith "builtin.") (value.get "actionId"))
        "/actionId" "非 builtin source 不得使用 builtin.* 命名空间" ++
      issueIf (stringWith (startsWith "builtin.") (source.get "toolId"))
        "/source/toolId" "非 builtin source 不得使用 builtin.* 命名空间" ++
      aliasIssues ++
      issueIf (isText (source.get "kind") "plugin" ∧
          outsideTool (value.get "actionId") (source.get "toolId"))
        "/actionId" "plugin actionId 必须位于 source.toolId 命名空间"

def sourceIssues (aliasIssues : List Issue) : List Issue :=
  requireKeys (value.get "source") ["kind", "toolId", "publisher", "digest"]
    ["kind", "toolId", "publisher", "digest"] "/source" fun source =>
      issueIf (¬ stringWith (· ∈ ["builtin", "plugin", "local"]) (source.get "kind"))
          "/source/kind" "source.kind 非法" ++
        issueIf (¬ stringWith (· ≠ "") (source.get "toolId")) "/source/toolId" "toolId 必须非空" ++
        issueIf (¬ stringWith (fun s => SHA256.test s.toList) (source.get "digest"))
          "/source/digest" "digest 必须是 SHA-256 hex" ++
        requireKeys (source.get "publisher") ["id"] ["id", "name"] "/source/publisher"
          (fun publisher =>
            issueIf (¬ stringWith (· ≠ "") (publisher.get "id"))
              "/source/publisher/id" "publisher.id 必须非空") ++
        namespaceIssues value aliasIssues source

def testVectorIssues (index : Nat) (vector : JsonValue) : List Issue :=
  requireKeys (some vector) ["name", "input"] ["name", "input", "expectedOutput", "expectedErrorCode"]
    s!"/testVectors/{index}" fun vector =>
      issueIf ((decide ("expectedOutput" ∈ vector.keys)).toNat +
          (decide ("expectedErrorCode" ∈ vector.keys)).toNat ≠ 1)
        s!"/testVectors/{index}" "必须且只能声明 expectedOutput 或 expectedErrorCode"

def exampleIssues : List Issue :=
  issueIf (¬ isArray (value.get "examples")) "/examples" "examples 必须是数组" ++
    issueIf (¬ isNonemptyArray (value.get "testVectors")) "/testVectors" "至少需要一个 test vector" ++
    match value.get "testVectors" with
    | some (.arr vectors) => vectors.zipIdx.flatMap fun vector => testVectorIssues vector.2 vector.1
    | _ => []

def limits : List (String × ℚ) :=
  [("timeoutMs", 3600000), ("maxInputBytes", 16777216), ("maxOutputBytes", 16777216)]

def executionIssues : List Issue :=
  requireKeys (value.get "execution")
    ["mode", "timeoutMs", "maxInputBytes", "maxOutputBytes", "supportsCancellation"]
    ["mode", "handler", "timeoutMs", "maxInputBytes", "maxOutputBytes", "supportsCancellation"]
    "/execution" fun execution =>
      issueIf (¬ stringWith (· ∈ EXECUTION_MODES) (execution.get "mode"))
          "/execution/mode" "execution.mode 非法" ++
        issueIf (isText (execution.get "mode") "ui-only" ∧ (execution.get "handler").isSome)
          "/execution/handler" "ui-only 不得声明 headless handler" ++
        issueIf (¬ isText (execution.get "mode") "ui-only" ∧
            ¬ stringWith (· ≠ "") (execution.get "handler"))
          "/execution/handler" "headless action 必须显式声明 handler" ++
        limits.flatMap (fun limit =>
          issueIf (¬ integerWith (fun q => 1 ≤ q && q ≤ limit.2) (execution.get limit.1))
            s!"/execution/{limit.1}" s!"必须是 1..{limit.2.num} 的整数") ++
        issueIf (¬ isBoolean (execution.get "supportsCancellation"))
          "/execution/supportsCancellation" "必须是 boolean"

def behaviorFlags : List String :=
  ["readOnly", "destructive", "idempotent", "openWorld", "requiresConfirmation"]

/-- `value.execution?.mode === "pure"`. -/
def isPure : Bool := isText ((value.get "execution").bind fun execution => execution.get "mode") "pure"

def behaviorIssues : List Issue :=
  requireKeys (value.get "behavior")
    ["readOnly", "destructive", "idempotent", "openWorld", "sideEffects", "requiresConfirmation"]
    ["readOnly", "destructive", "idempotent", "openWorld", "sideEffects", "requiresConfirmation"]
    "/behavior" fun behavior =>
      behaviorFlags.flatMap (fun name =>
          issueIf (¬ isBoolean (behavior.get name)) s!"/behavior/{name}" "必须是 boolean") ++
        stringArray (behavior.get "sideEffects") "/behavior/sideEffects" 32 false ++
        issueIf (truthy (behavior.get "destructive") ∧ ¬ truthy (behavior.get "requiresConfirmation"))
          "/behavior/requiresConfirmation" "destructive action 必须确认" ++
        issueIf (isPure value ∧ (truthy (behavior.get "openWorld") ∨
            truthy (behavior.get "destructive") ∨ hasLength (behavior.get "sideEffects")))
          "/behavior" "pure action 不得 destructive、openWorld 或有副作用"

def permissionIssues : List Issue :=
  requireKeys (value.get "permissions") ["required", "capabilities"] ["required", "capabilities"]
    "/permissions" fun permissions =>
      stringArray (permissions.get "required") "/permissions/required" 128 false ++
        stringArray (permissions.get "capabilities") "/permissions/capabilities" 128 false ++
        issueIf (isPure value ∧ (hasLength (permissions.get "required") ∨
            hasLength (permissions.get "capabilities")))
          "/permissions" "pure action 不得请求宿主权限或能力"

/-- The pointers of `/sensitive/{name}`. -/
def pointerIssues (name : String) (pointers : Option JsonValue) : List Issue :=
  match pointers with
  | some (.arr items) => items.zipIdx.flatMap fun item =>
      let index := item.2
      issueIf (stringWith (fun s => !JSON_POINTER.test s.toList) (some item.1))
        s!"/sensitive/{name}/{index}" "必须是合法 JSON Pointer"
  | _ => []

def sensitiveIssues : List Issue :=
  requireKeys (value.get "sensitive") ["input", "output", "redactLogs"]
    ["input", "output", "redactLogs"] "/sensitive" fun sensitive =>
      ["input", "output"].flatMap (fun name =>
          stringArray (sensitive.get name) s!"/sensitive/{name}" 64 true ++
            pointerIssues name (sensitive.get name)) ++
        issueIf (¬ isBool (sensitive.get "redactLogs") true)
          "/sensitive/redactLogs" "日志脱敏必须开启"

def presentationFields : List (String × Nat) := [("route", 512), ("icon", 128), ("category", 128)]

def presentationIssues : List Issue :=
  if (value.get "presentation").isSome then
    requireKeys (value.get "presentation") [] ["route", "icon", "category"] "/presentation"
      fun presentation =>
        presentationFields.flatMap fun field =>
          let (name, maximum) := field
          issueIf ((presentation.get name).isSome ∧
              ¬ stringWith (fun s => 1 ≤ utf16Length s && utf16Length s ≤ maximum)
                (presentation.get name))
            s!"/presentation/{name}" s!"必须是 1..{maximum} 字符的字符串"
  else
    []

/-- `validateActionDescriptor`. -/
def validateActionDescriptor : Except String (List Issue) := do
  match value with
  | .obj _ =>
      let reserved ← forEachAlias (value.get "aliases") reservedAlias
      let builtin ← forEachAlias (value.get "aliases") builtinAlias
      return keyIssues value topRequired topAllowed "" ++ headIssues value ++ reserved ++
        sourceIssues value builtin ++ validateSchemaShape (value.get "inputSchema") "/inputSchema" ++
        validateSchemaShape (value.get "outputSchema") "/outputSchema" ++ exampleIssues value ++
        executionIssues value ++ behaviorIssues value ++ permissionIssues value ++
        sensitiveIssues value ++ presentationIssues value
  | _ => return [⟨"", "必须是对象"⟩]

end

end Useful.Actions
