/-
# References in recipes and pipelines

The templates of `action-runtime/src/recipe.mjs` and of `plugin-actions/src/pipeline.mjs`
refer to the input and to the outputs of earlier steps by pointers. Both follow a pointer
along the own properties of JavaScript values, and an array owns its `length` besides its
items. The built-in action for JSON, in `semantics.mjs`, takes only indices on arrays.
-/

import Useful.Actions.Values
import Useful.Math.Checks
import Useful.Math.JsonPointer

namespace Useful.Recipes

open Useful.Math Useful.Math.JsonPointer Useful.Actions

def FORBIDDEN_KEYS : List String := ["__proto__", "prototype", "constructor"]

/-- `/^(?:\/input(?:\/(?:[^~/]|~0|~1)*)*|\/steps\/([a-z][a-z0-9_-]{0,31})\/output(?:\/(?:[^~/]|~0|~1)*)*)$/` -/
def REFERENCE : Regex Char :=
  .alt (.seq (.word "/input".toList) JSON_POINTER)
    (.seq (.word "/steps/".toList) (.seq (.cls isLower) (.seq ((Regex.cls isIdRest).upTo 31)
      (.seq (.word "/output".toList) JSON_POINTER))))

/-- The two evaluators. -/
inductive Engine
  | recipe
  | pipeline
  deriving DecidableEq

/-- The error codes of an engine. -/
structure Codes where
  forbiddenKey : String
  referenceInvalid : String
  forwardReference : String
  referenceMissing : String
  expansionTooLarge : String

def Engine.codes : Engine → Codes
  | .recipe =>
      ⟨"ACTION_RECIPE_FORBIDDEN_KEY", "ACTION_RECIPE_REFERENCE_INVALID",
        "ACTION_RECIPE_FORWARD_REFERENCE", "ACTION_RECIPE_REFERENCE_MISSING",
        "ACTION_RECIPE_EXPANSION_TOO_LARGE"⟩
  | .pipeline =>
      ⟨"PIPELINE_FORBIDDEN_KEY", "PIPELINE_REFERENCE_INVALID", "PIPELINE_FORWARD_REFERENCE",
        "PIPELINE_REFERENCE_MISSING", "PIPELINE_EXPANSION_TOO_LARGE"⟩

/-! ## Pointers -/

section Pointers

variable (engine : Engine)

def decodePointerSegment (segment : List Char) : Except String String :=
  let decoded := String.ofList (unescape segment)
  if decoded ∈ FORBIDDEN_KEYS then .error engine.codes.forbiddenKey else .ok decoded

/-- The step that a reference names, in the group of its pattern. -/
def referencedStep (pointer : List Char) : Option String :=
  if "/steps/".toList <+: pointer then
    some (String.ofList ((pointer.drop 7).takeWhile (· ≠ '/')))
  else none

/-- `validateReference`. -/
def validateReference (pointer : JsonValue) (completed : List String) : Except String Unit :=
  match pointer with
  | .str p => do
      failIf (REFERENCE.test p.toList = false) engine.codes.referenceInvalid
      failIf ((referencedStep p.toList).any (· ∉ completed) = true) engine.codes.forwardReference
      (tokens p.toList).forM fun segment => do
        let _ ← decodePointerSegment engine segment
        return ⟨⟩
  | _ => .error engine.codes.referenceInvalid

/-- `Object.hasOwn(current, segment)` and `current[segment]`. -/
def ownProperty (current : JsonValue) (segment : String) : Option JsonValue :=
  match current with
  | .arr items =>
      if segment = "length" then some (.num items.length)
      else (arrayIndex segment.toList).bind (itemAt items)
  | .obj members => members.lookup segment
  | _ => none

/-- `pointerValue`. -/
def pointerValue (root : JsonValue) (pointer : String) : Except String JsonValue :=
  (tokens pointer.toList).foldlM (fun current raw => do
    let segment ← decodePointerSegment engine raw
    orFail engine.codes.referenceMissing (ownProperty current segment)) root

end Pointers

/-- A token of the built-in action. -/
def resolveToken (token : List Char) : Except String String :=
  if badEscape token then .error "JSON Pointer 转义不合法" else .ok (String.ofList (unescape token))

def resolveStep (current : JsonValue) (token : String) : Except String JsonValue :=
  match current with
  | .arr items =>
      match arrayIndex token.toList with
      | none => .error "JSON Pointer 数组索引不合法"
      | some index =>
          if 2 ^ 53 - 1 < index then .error "JSON Pointer 路径不存在"
          else orFail "JSON Pointer 路径不存在" (itemAt items index)
  | current => orFail "JSON Pointer 路径不存在" (current.get token)

/-- `resolveJsonPointer`. -/
def resolveJsonPointer (root : JsonValue) (pointer : String) : Except String JsonValue :=
  match pointer.toList with
  | [] => .ok root
  | '/' :: rest => do
      let path ← (rest.splitOn '/').mapM resolveToken
      path.foldlM resolveStep root
  | _ => .error "JSON Pointer 不符合契约"

/-! ## Templates -/

/-- The pointer of a reference node, an object with the only key `$ref`. -/
def referenceOf (members : List (String × JsonValue)) : Option JsonValue :=
  match members with
  | [(key, pointer)] => if key = "$ref" then some pointer else none
  | _ => none

/-- `hasInterpolation` -/
def hasInterpolation : List Char → Bool
  | '$' :: '\x7b' :: rest => rest.contains '\x7d'
  | _ :: rest => hasInterpolation rest
  | [] => false

mutual

/-- `walk` of `inspectTemplate`: the nodes seen so far go along. -/
def inspectNode (completed : List String) : JsonValue → Nat → Nat → Except String Nat
  | current, depth, nodes => do
      failIf (4096 < nodes + 1) "ACTION_RECIPE_TEMPLATE_TOO_LARGE"
      failIf (32 < depth) "ACTION_RECIPE_TEMPLATE_TOO_DEEP"
      match current with
      | .str s =>
          failIf (hasInterpolation s.toList = true) "ACTION_RECIPE_INTERPOLATION_FORBIDDEN"
          return nodes + 1
      | .arr items => inspectItems completed items (depth + 1) (nodes + 1)
      | .obj members =>
          match referenceOf members with
          | some pointer => do
              validateReference .recipe pointer completed
              return nodes + 1
          | none => inspectMembers completed members (depth + 1) (nodes + 1)
      | _ => return nodes + 1

def inspectItems (completed : List String) : List JsonValue → Nat → Nat → Except String Nat
  | [], _, nodes => .ok nodes
  | item :: rest, depth, nodes => do
      inspectItems completed rest depth (← inspectNode completed item depth nodes)

def inspectMembers (completed : List String) :
    List (String × JsonValue) → Nat → Nat → Except String Nat
  | [], _, nodes => .ok nodes
  | (key, child) :: rest, depth, nodes => do
      failIf (key ∈ FORBIDDEN_KEYS) "ACTION_RECIPE_FORBIDDEN_KEY"
      inspectMembers completed rest depth (← inspectNode completed child depth nodes)

end

mutual

/-- `walk` of `inspectJson`. -/
def jsonNode : JsonValue → Nat → Nat → Except String Nat
  | current, depth, nodes => do
      failIf (4096 < nodes + 1) "PIPELINE_TEMPLATE_TOO_LARGE"
      failIf (32 < depth) "PIPELINE_TEMPLATE_TOO_DEEP"
      match current with
      | .arr items => jsonItems items (depth + 1) (nodes + 1)
      | .obj members => jsonMembers members (depth + 1) (nodes + 1)
      | _ => return nodes + 1

def jsonItems : List JsonValue → Nat → Nat → Except String Nat
  | [], _, nodes => .ok nodes
  | item :: rest, depth, nodes => do
      jsonItems rest depth (← jsonNode item depth nodes)

def jsonMembers : List (String × JsonValue) → Nat → Nat → Except String Nat
  | [], _, nodes => .ok nodes
  | (key, child) :: rest, depth, nodes => do
      failIf (key ∈ FORBIDDEN_KEYS) "PIPELINE_FORBIDDEN_KEY"
      jsonMembers rest depth (← jsonNode child depth nodes)

end

mutual

/-- `walk` of `validateTemplate`. -/
def checkNode (completed : List String) : JsonValue → Except String Unit
  | .str s => failIf (hasInterpolation s.toList = true) "PIPELINE_INTERPOLATION_FORBIDDEN"
  | .arr items => checkItems completed items
  | .obj members =>
      match referenceOf members with
      | some pointer => validateReference .pipeline pointer completed
      | none => checkMembers completed members
  | _ => .ok ⟨⟩

def checkItems (completed : List String) : List JsonValue → Except String Unit
  | [] => .ok ⟨⟩
  | item :: rest => do
      checkNode completed item
      checkItems completed rest

def checkMembers (completed : List String) : List (String × JsonValue) → Except String Unit
  | [] => .ok ⟨⟩
  | (_, child) :: rest => do
      checkNode completed child
      checkMembers completed rest

end

section Templates

-- The text of a number.
variable (numberText : ℚ → String)

/-- `inspectTemplate`. -/
def inspectTemplate (template : JsonValue) (completed : List String) : Except String Unit := do
  let _ ← inspectNode completed template 0 0
  failIf (262144 < utf8JsonBytes numberText template) "ACTION_RECIPE_TEMPLATE_TOO_LARGE"

/-- `inspectJson`, as far as the bytes. -/
def inspectJson (value : JsonValue) : Except String Nat := do
  let _ ← jsonNode value 0 0
  return utf8JsonBytes numberText value

/-- `validateTemplate`. -/
def validateTemplate (template : JsonValue) (completed : List String) : Except String Unit := do
  let bytes ← inspectJson numberText template
  failIf (262144 < bytes) "PIPELINE_TEMPLATE_TOO_LARGE"
  checkNode completed template

/-- How an engine checks a template. -/
def Engine.accepts (engine : Engine) (template : JsonValue) (completed : List String) :
    Except String Unit :=
  match engine with
  | .recipe => inspectTemplate numberText template completed
  | .pipeline => validateTemplate numberText template completed

/-- The bytes of what a template was expanded to. -/
def Engine.measure (engine : Engine) (expanded : JsonValue) : Except String Nat :=
  match engine with
  | .recipe => .ok (utf8JsonBytes numberText expanded)
  | .pipeline => inspectJson numberText expanded

mutual

/-- `walk` of `expandTemplate`. -/
def expandNode (engine : Engine) (root : JsonValue) : JsonValue → Except String JsonValue
  | .arr items => do return .arr (← expandItems engine root items)
  | .obj members =>
      match referenceOf members with
      | some (.str pointer) => pointerValue engine root pointer
      | some _ => .error "TypeError"
      | none => do return .obj (← expandMembers engine root members)
  | current => .ok current

def expandItems (engine : Engine) (root : JsonValue) :
    List JsonValue → Except String (List JsonValue)
  | [] => .ok []
  | item :: rest => do
      return (← expandNode engine root item) :: (← expandItems engine root rest)

def expandMembers (engine : Engine) (root : JsonValue) :
    List (String × JsonValue) → Except String (List (String × JsonValue))
  | [] => .ok []
  | (key, child) :: rest => do
      return (key, ← expandNode engine root child) :: (← expandMembers engine root rest)

end

/-- `expandTemplate`. -/
def expandTemplate (engine : Engine) (template root : JsonValue) : Except String JsonValue := do
  let expanded ← expandNode engine root template
  let bytes ← engine.measure numberText expanded
  failIf (1048576 < bytes) engine.codes.expansionTooLarge
  return expanded

end Templates

/-! ## What references mean -/

/-- The state that references look into: the input, and the outputs of the completed steps. -/
structure RunState where
  input : JsonValue
  outputs : List (String × JsonValue)

def RunState.root (state : RunState) : JsonValue :=
  .obj [("input", state.input),
    ("steps", .obj (state.outputs.map fun step => (step.1, .obj [("output", step.2)])))]

def RunState.completed (state : RunState) : List String := state.outputs.map Prod.fst

mutual

/-- The pointers of the reference nodes of a template. -/
def references : JsonValue → List JsonValue
  | .arr items => referencesItems items
  | .obj members =>
      match referenceOf members with
      | some pointer => [pointer]
      | none => referencesMembers members
  | _ => []

def referencesItems : List JsonValue → List JsonValue
  | [] => []
  | item :: rest => references item ++ referencesItems rest

def referencesMembers : List (String × JsonValue) → List JsonValue
  | [] => []
  | (_, child) :: rest => references child ++ referencesMembers rest

end

/-- A value is a template with the reference nodes replaced by what they refer to, and with
nothing else changed. -/
inductive Replaces (value : String → Option JsonValue) : JsonValue → JsonValue → Prop
  | reference {pointer : String} {v : JsonValue} (h : value pointer = some v) :
      Replaces value (.obj [("$ref", .str pointer)]) v
  | array {items items' : List JsonValue} (hlength : items.length = items'.length)
      (h : ∀ pair ∈ items.zip items', Replaces value pair.1 pair.2) :
      Replaces value (.arr items) (.arr items')
  | object {members members' : List (String × JsonValue)} (hplain : referenceOf members = none)
      (hkeys : members.map Prod.fst = members'.map Prod.fst)
      (h : ∀ pair ∈ members.zip members', Replaces value pair.1.2 pair.2.2) :
      Replaces value (.obj members) (.obj members')
  | null : Replaces value .null .null
  | bool (b : Bool) : Replaces value (.bool b) (.bool b)
  | num (q : ℚ) : Replaces value (.num q) (.num q)
  | str (s : String) : Replaces value (.str s) (.str s)

/-- A pointer goes through an array and ends with its `length`. -/
def AsksLength (root : JsonValue) (pointer : String) : Prop :=
  ∃ path items, (tokens pointer.toList).map (String.ofList ∘ unescape) = path ++ ["length"] ∧
    evaluate root path = some (.arr items)

end Useful.Recipes
