/-
# Values under a schema

`validateValue` of the action contract walks through a value along its schema. Values are
compared by their `JSON.stringify` texts, and the size of a value is that of its text.
-/

import Useful.Actions.Descriptor
import Useful.Math.JsonReader

namespace Useful.Actions

open Useful.Math

/-! ## Texts -/

/-- Two hexadecimal digits. -/
def hexByte (n : Nat) : List Char := [Nat.digitChar (n / 16), Nat.digitChar (n % 16)]

/-- How `JSON.stringify` writes a character of a string. -/
def escapeCharacter (c : Char) : List Char :=
  if c = '"' then ['\\', '"']
  else if c = '\\' then ['\\', '\\']
  else if c.toNat = 8 then ['\\', 'b']
  else if c.toNat = 12 then ['\\', 'f']
  else if c = '\n' then ['\\', 'n']
  else if c = '\r' then ['\\', 'r']
  else if c = '\t' then ['\\', 't']
  else if c.toNat < 32 then ['\\', 'u', '0', '0'] ++ hexByte c.toNat
  else [c]

def quoteText (s : String) : List Char := '"' :: (s.toList.flatMap escapeCharacter ++ ['"'])

/-- Control characters are written by their codes. -/
theorem unitChar_hexByte {c : Char} (hc : c.toNat < 32) :
    (Json.hexNumber? ('0' :: '0' :: hexByte c.toNat)).bind Json.unitChar? = some c := by
  have hall : ∀ n < 32, (Json.hexNumber? ('0' :: '0' :: hexByte n)).bind Json.unitChar? =
      some (Char.ofNat n) := by
    decide
  rw [hall c.toNat hc, Char.ofNat_toNat]

theorem readString_escapeCharacter (c : Char) (rest : List Char) :
    Json.readString (escapeCharacter c ++ rest) =
      (Json.readString rest).map fun read => (c :: read.1, read.2) := by
  unfold escapeCharacter
  split
  · rename_i heq
    rw [heq]
    exact Json.readString_escape (by decide)
  split
  · rename_i heq
    rw [heq]
    exact Json.readString_escape (by decide)
  split
  · rename_i heq
    rw [← Char.ofNat_toNat c, heq]
    exact Json.readString_escape (by decide)
  split
  · rename_i heq
    rw [← Char.ofNat_toNat c, heq]
    exact Json.readString_escape (by decide)
  split
  · rename_i heq
    rw [heq]
    exact Json.readString_escape (by decide)
  split
  · rename_i heq
    rw [heq]
    exact Json.readString_escape (by decide)
  split
  · rename_i heq
    rw [heq]
    exact Json.readString_escape (by decide)
  split
  · rename_i hcontrol
    exact Json.readString_unit (unitChar_hexByte hcontrol)
  · rename_i hquote hslash _ _ _ _ _ hcontrol
    exact Json.readString_plain (not_lt.mp hcontrol) hquote hslash

theorem readsStrings_quoteText : Json.ReadsStrings quoteText := by
  intro s rest
  refine ⟨s.toList.flatMap escapeCharacter ++ ['"'], rfl, ?_⟩
  induction s.toList with
  | nil => rfl
  | cons c text ih =>
      rw [List.flatMap_cons, List.append_assoc, List.append_assoc, readString_escapeCharacter,
        ← List.append_assoc, ih]
      rfl

/-- Safe integers are written as their numerals, and these are read without rounding. -/
structure SafeIntegers (numberText : ℚ → String) (toNumber : ℚ → ℚ) : Prop where
  written : ∀ n : Nat, n ≤ 9007199254740991 → (numberText n).toList = decimalNat n
  read : ∀ n : Nat, n ≤ 9007199254740991 → toNumber n = n

def isSafeInteger (q : ℚ) : Bool := q.isInt && (0 ≤ q && q ≤ 9007199254740991)

theorem readsNumber_of_isSafeInteger {numberText : ℚ → String} {toNumber : ℚ → ℚ}
    (h : SafeIntegers numberText toNumber) {q : ℚ} (hq : isSafeInteger q = true) :
    Json.ReadsNumber (fun q => (numberText q).toList)
      (fun text => (Json.readNumeral text).map fun read => (toNumber read.1, read.2)) q := by
  simp only [isSafeInteger, Bool.and_eq_true, decide_eq_true_eq] at hq
  obtain ⟨hint, hnonneg, hsmall⟩ := hq
  obtain ⟨n, rfl⟩ : ∃ n : Nat, q = n := by
    refine ⟨q.num.toNat, ?_⟩
    have hden : (q.num : ℚ) = q := (Rat.den_eq_one_iff q).mp (by simpa [Rat.isInt] using hint)
    have hnum : (q.num.toNat : ℤ) = q.num := Int.toNat_of_nonneg (Rat.num_nonneg.mpr hnonneg)
    rw [← hden, ← Int.cast_natCast, hden, hnum]
    exact hden.symm
  have hn : n ≤ 9007199254740991 := by exact_mod_cast hsmall
  constructor
  · show ∃ c text, (numberText n).toList = c :: text ∧ (c = '-' ∨ c.isDigit = true)
    rw [h.written n hn]
    cases hdigits : decimalNat n with
    | nil => exact absurd hdigits Nat.toDigits_ne_nil
    | cons c text =>
        exact ⟨c, text, rfl, .inr (isDigit_of_mem_decimalNat (hdigits ▸ List.mem_cons_self))⟩
  · intro rest hrest
    show ((Json.readNumeral ((numberText n).toList ++ rest)).map fun read =>
      (toNumber read.1, read.2)) = _
    rw [h.written n hn, Json.readNumeral_decimalNat n hrest, Option.map_some, h.read n hn]

theorem safeIntegers_decimal :
    SafeIntegers (fun q => String.ofList (decimalNat q.num.toNat)) id where
  written n _ := by rw [String.toList_ofList, Rat.num_natCast, Int.toNat_natCast]
  read _ _ := rfl

section Code

-- The text of a number.
variable (numberText : ℚ → String)

/-- `JSON.stringify` of a JSON value. -/
def stringify (value : JsonValue) : List Char :=
  Json.render quoteText (fun q => (numberText q).toList) value

/-- `utf8JsonBytes` of a JSON value. -/
def utf8JsonBytes (value : JsonValue) : Nat := (utf8 (stringify numberText value)).length

/-- `deepEqual`. -/
def deepEqual (left right : JsonValue) : Bool := stringify numberText left == stringify numberText right

/-! ## The walk -/

def actualType : JsonValue → String
  | .null => "null"
  | .arr _ => "array"
  | .num q => if q.isInt then "integer" else "number"
  | .str _ => "string"
  | .bool _ => "boolean"
  | .obj _ => "object"

def compatible (schema : JsonValue) (type : String) : Bool :=
  includesType schema type || (type == "integer" && includesType schema "number")

/-- The texts among some values. -/
def textsOf (values : List (Option JsonValue)) : List String :=
  values.filterMap fun
    | some (.str s) => some s
    | _ => none

def typeIssue (schema current : JsonValue) (path : String) : Issue :=
  let expected := "|".intercalate (textsOf (declaredTypes schema))
  ⟨path, s!"期望 {expected}，实际 {actualType current}"⟩

/-- A lower bound that the schema states. -/
def belowIssue (schema : JsonValue) (key : String) (size : ℚ) (path : String)
    (message : String → String) : List Issue :=
  match schema.get key with
  | some (.num q) => issueIf (size < q) path (message (numberText q))
  | _ => []

/-- An upper bound that the schema states. -/
def aboveIssue (schema : JsonValue) (key : String) (size : ℚ) (path : String)
    (message : String → String) : List Issue :=
  match schema.get key with
  | some (.num q) => issueIf (q < size) path (message (numberText q))
  | _ => []

/-- What the walk checks at a value of a declared type before it goes into its parts. -/
def ownIssues (schema current : JsonValue) (path : String) : List Issue :=
  issueIf ((schema.get "const").any fun expected => !deepEqual numberText current expected)
      path "不等于 const" ++
    issueIf (isArray (schema.get "enum") ∧
        ¬ (schema.get "enum").any fun choices =>
          choices.elements.any fun entry => deepEqual numberText entry current)
      path "不在 enum 中" ++
    match current with
    | .str s =>
        belowIssue numberText schema "minLength" (utf16Length s) path (fun q => s!"长度小于 {q}") ++
          aboveIssue numberText schema "maxLength" (utf16Length s) path fun q => s!"长度大于 {q}"
    | .num q =>
        belowIssue numberText schema "minimum" q path (fun q => s!"小于 {q}") ++
          aboveIssue numberText schema "maximum" q path fun q => s!"大于 {q}"
    | .arr items =>
        belowIssue numberText schema "minItems" items.length path (fun q => s!"少于 {q} 项") ++
          aboveIssue numberText schema "maxItems" items.length path (fun q => s!"多于 {q} 项") ++
          issueIf (isBool (schema.get "uniqueItems") true ∧ ¬ (items.map (stringify numberText)).Nodup)
            path "不允许重复项"
    | .obj members =>
        (textsOf (((schema.get "required").map Json.elements).getD [] |>.map some)).flatMap fun key =>
          issueIf (key ∉ (Json.obj members : JsonValue).keys) s!"{path}/{key}" "缺少必填字段"
    | _ => []

mutual

/-- `walk`. -/
@[grind =]
def walk (schema : JsonValue) : JsonValue → String → List Issue
  | .arr items, path =>
      if compatible schema "array" then
        ownIssues numberText schema (.arr items) path ++ walkItems (schema.get "items") path 0 items
      else [typeIssue schema (.arr items) path]
  | .obj members, path =>
      if compatible schema "object" then
        ownIssues numberText schema (.obj members) path ++
          walkMembers (schema.get "properties") path members
      else [typeIssue schema (.obj members) path]
  | current, path =>
      if compatible schema (actualType current) then ownIssues numberText schema current path
      else [typeIssue schema current path]

/-- The items of an array. A schema that was checked has a schema for them. -/
@[grind =]
def walkItems (schema : Option JsonValue) (path : String) : Nat → List JsonValue → List Issue
  | _, [] => []
  | index, entry :: rest =>
      (match schema with
        | some schema => walk schema entry s!"{path}/{index}"
        | none => []) ++ walkItems schema path (index + 1) rest

/-- The members of an object, each under the schema of its name. -/
@[grind =]
def walkMembers (properties : Option JsonValue) (path : String) :
    List (String × JsonValue) → List Issue
  | [] => []
  | (name, entry) :: rest =>
      (match properties.bind fun properties => properties.get name with
        | some schema => walk schema entry s!"{path}/{name}"
        | none => [⟨s!"{path}/{name}", "未知字段被拒绝"⟩]) ++ walkMembers properties path rest

end

/-- `validateValue`. -/
def validateValue (schema : Option JsonValue) (value : JsonValue) : List Issue :=
  match validateSchemaShape schema "", schema with
  | [], some schema => walk numberText schema value ""
  | issues, _ => issues

end Code

end Useful.Actions
