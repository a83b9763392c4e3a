/-
# What value schemas mean

A value schema, as a document, is translated into the keywords of JSON Schema. The walk of
`validateValue` makes the same checks, but it compares the texts of values, in which the order
of members counts, and counts the UTF-16 units of strings. So some checks have two readings: as
they are coded and as they are meant.
-/

import Useful.Actions.AcceptedDescriptor
import Useful.Actions.Values

namespace Useful.Actions

open Useful.Math

/-! ## The meaning of a schema -/

def jsonType : String → Option JsonType
  | "object" => some .object
  | "array" => some .array
  | "string" => some .string
  | "number" => some .number
  | "integer" => some .integer
  | "boolean" => some .boolean
  | "null" => some .null
  | _ => none

section Keywords

variable (schema : JsonValue)

def typeKeyword : Schema :=
  .anyOf ((textsOf (declaredTypes schema)).filterMap fun name => (jsonType name).map .type)

def valueKeywords : List Schema :=
  (schema.get "const").toList.map .const ++
    match schema.get "enum" with
    | some (.arr values) => [.enum values]
    | _ => []

/-- What a schema says with a number. -/
def withNumber {α : Type} (key : String) (make : ℚ → α) : List α :=
  match schema.get key with
  | some (.num q) => [make q]
  | _ => []

def boundKeywords : List Schema :=
  withNumber schema "minLength" (fun q => .minLength q.num.toNat) ++
    withNumber schema "maxLength" (fun q => .maxLength q.num.toNat) ++
    withNumber schema "minimum" .minimum ++ withNumber schema "maximum" .maximum ++
    withNumber schema "minItems" (fun q => .minItems q.num.toNat) ++
    withNumber schema "maxItems" (fun q => .maxItems q.num.toNat)

def uniqueKeyword : List Schema := if isBool (schema.get "uniqueItems") true then [.uniqueItems] else []

/-- The names that `required` lists. -/
def requiredNames : List String :=
  textsOf (((schema.get "required").map Json.elements).getD [] |>.map some)

/-- The names that `properties` lists. -/
def propertyNames : List String := ((schema.get "properties").map Json.keys).getD []

/-- The keywords without schemas inside. -/
def plainKeywords : List Schema :=
  typeKeyword schema :: (valueKeywords schema ++ boundKeywords schema ++ uniqueKeyword schema ++
    [.required (requiredNames schema)])

end Keywords

/-- The schema that a document writes down. -/
def meaning (schema : JsonValue) : Schema :=
  match schema with
  | .bool b => if b then .anything else .not .anything
  | schema =>
      .all (plainKeywords schema ++
        (match h : schema.get "properties" with
          | some parts =>
              [.properties (parts.members.attach.map fun ⟨(name, part), hpart⟩ =>
                have : part.depth < schema.depth :=
                  (Json.depth_lt_of_mem_members hpart).trans (Json.depth_lt_of_get h)
                (name, meaning part))]
          | none => []) ++
        (match h : schema.get "additionalProperties" with
          | some part =>
              have : part.depth < schema.depth := Json.depth_lt_of_get h
              [.additional (propertyNames schema) (meaning part)]
          | none => []) ++
        match h : schema.get "items" with
          | some part =>
              have : part.depth < schema.depth := Json.depth_lt_of_get h
              [.items (meaning part)]
          | none => [])
termination_by schema.depth

/-! ## Checks -/

/-- What the walk checks: values against values, sizes of strings, and what has one reading. -/
inductive Check
  | plain (holds : Prop)
  | const (current expected : JsonValue)
  | enum (current : JsonValue) (values : List JsonValue)
  | minLength (s : String) (q : ℚ)
  | maxLength (s : String) (q : ℚ)
  | uniqueItems (items : List JsonValue)

namespace Check

/-- The check as it is coded: values are told apart by the order of members too, and strings have
the length of their UTF-16 units. -/
def Coded : Check → Prop
  | plain holds => holds
  | const current expected => current = expected
  | enum current values => current ∈ values
  | minLength s q => q ≤ utf16Length s
  | maxLength s q => utf16Length s ≤ q
  | uniqueItems items => items.Nodup

/-- The check as it is meant. -/
def Meant : Check → Prop
  | plain holds => holds
  | const current expected => JsonValue.Same current expected
  | enum current values => ∃ w ∈ values, JsonValue.Same current w
  | minLength s q => q ≤ s.toList.length
  | maxLength s q => s.toList.length ≤ q
  | uniqueItems items => items.Pairwise fun x y => ¬ JsonValue.Same x y

/-- A check with different readings alone makes the verdict: the others pass either way. -/
def Decides (checks : List Check) (c : Check) : Prop :=
  (c.Coded ∧ ¬ c.Meant ∧ ∀ c' ∈ checks, c'.Coded) ∨ (c.Meant ∧ ¬ c.Coded ∧ ∀ c' ∈ checks, c'.Meant)

end Check

section Checks

variable (schema : JsonValue)

def valueChecks (current : JsonValue) : List Check :=
  (schema.get "const").toList.map (.const current) ++
    match schema.get "enum" with
    | some (.arr values) => [.enum current values]
    | _ => []

/-- The checks for one kind of value. -/
def kindChecks : JsonValue → List Check
  | .str s => withNumber schema "minLength" (.minLength s) ++ withNumber schema "maxLength" (.maxLength s)
  | .num p =>
      withNumber schema "minimum" (fun q => .plain (q ≤ p)) ++
        withNumber schema "maximum" fun q => .plain (p ≤ q)
  | .arr items =>
      withNumber schema "minItems" (fun q => .plain (q ≤ items.length)) ++
        withNumber schema "maxItems" (fun q => .plain (items.length ≤ q)) ++
        if isBool (schema.get "uniqueItems") true then [.uniqueItems items] else []
  | .obj members => (requiredNames schema).map fun name => .plain (name ∈ Json.keys (.obj members))
  | _ => []

/-- The checks at a value of a declared type, but those of its parts. -/
def ownChecks (current : JsonValue) : List Check := valueChecks schema current ++ kindChecks schema current

end Checks

mutual

/-- The checks of the walk along a schema. -/
def checks (schema : JsonValue) : JsonValue → List Check
  | .arr items =>
      if compatible schema "array" then
        ownChecks schema (.arr items) ++ itemChecks (schema.get "items") items
      else [.plain False]
  | .obj members =>
      if compatible schema "object" then
        ownChecks schema (.obj members) ++ memberChecks (schema.get "properties") members
      else [.plain False]
  | current =>
      if compatible schema (actualType current) then ownChecks schema current else [.plain False]

def itemChecks (schema : Option JsonValue) : List JsonValue → List Check
  | [] => []
  | entry :: rest =>
      (match schema with
        | some schema => checks schema entry
        | none => []) ++ itemChecks schema rest

def memberChecks (properties : Option JsonValue) : List (String × JsonValue) → List Check
  | [] => []
  | (name, entry) :: rest =>
      (match properties.bind fun properties => properties.get name with
        | some schema => checks schema entry
        | none => [.plain False]) ++ memberChecks properties rest

end

end Useful.Actions
