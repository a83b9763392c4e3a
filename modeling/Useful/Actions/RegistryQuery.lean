/-
# The registry and its queries

`ActionRegistry` of `registry.mjs` keeps two maps: the entries by the ids of their actions, and
by each of their names. A registration changes both, after all its checks. A query ranks the
listed actions and answers with one page of them, and with a cursor if there are more.
-/

import Useful.Actions.Executor
import Useful.Math.Comparator
import Useful.Math.JsonPointer
import Useful.Math.Program
import Useful.Math.Table

namespace Useful.Actions

open Useful.Math Program

variable {H : Type}

/-! ## Registration -/

inductive ListOrder
  | actionId
  | registration
  deriving DecidableEq

/-- A text, where a descriptor has one. -/
def textAt (descriptor : JsonValue) (keys : List String) : String :=
  match field descriptor keys with
  | some (.str s) => s
  | _ => ""

def actionIdOf (descriptor : JsonValue) : String := textAt descriptor ["actionId"]

/-- The texts of an array, where a descriptor has one. -/
def textListAt (descriptor : JsonValue) (key : String) : List String :=
  textsOf ((((descriptor.get key).map Json.elements).getD []).map some)

structure ActionRegistry (H : Type) where
  listOrder : ListOrder
  entries : Table (String × Entry H) Prod.fst
  names : Table (String × Entry H) Prod.fst

/-- What stands at `handler` in a call of `register`. -/
inductive HandlerArgument (H : Type)
  | undefined
  | function (handler : H)
  | other

def HandlerArgument.toHandler : HandlerArgument H → Option H
  | function handler => some handler
  | _ => none

def HandlerArgument.isFunction : HandlerArgument H → Bool
  | function _ => true
  | _ => false

def HandlerArgument.isUndefined : HandlerArgument H → Bool
  | undefined => true
  | _ => false

/-- A call of `register`. -/
structure Registration (H : Type) where
  descriptor : JsonValue
  handler : HandlerArgument H

namespace ActionRegistry

def new (listOrder : ListOrder) : ActionRegistry H := ⟨listOrder, ∅, ∅⟩

def register (call : Registration H) : Program RegistrationError (ActionRegistry H) Unit := do
  let issues ← ofExcept ((validateActionDescriptor call.descriptor).mapError .thrown)
  ofExcept (failIf (issues ≠ []) (.descriptorInvalid issues))
  let names := actionNames call.descriptor
  ofExcept (failIf (¬ names.Nodup) .nameCollision)
  let registry ← state
  names.forM fun name => ofExcept (failIf ((registry.names.find name).isSome) .nameCollision)
  ofExcept (failIf (¬ isUiOnly call.descriptor ∧ ¬ call.handler.isFunction) .missingHandler)
  ofExcept (failIf (isUiOnly call.descriptor ∧ ¬ call.handler.isUndefined) .unexpectedHandler)
  let entry : Entry H := ⟨call.descriptor, call.handler.toHandler⟩
  modify fun registry =>
    { registry with entries := registry.entries.put (actionIdOf call.descriptor, entry) }
  modify fun registry =>
    { registry with names := names.foldl (fun table name => table.put (name, entry)) registry.names }

/-- The constructor, with its option. -/
def construct (entries : List (Registration H)) (listOrder : ListOrder) :
    Except RegistrationError (ActionRegistry H) :=
  match (entries.forM register : Program _ _ _) (new listOrder) with
  | (.ok _, registry) => .ok registry
  | (.error e, _) => .error e

/-- The registries that calls build. A call that throws leaves the registry that it has
changed so far. -/
inductive Reachable : ActionRegistry H → Prop
  | construct {entries : List (Registration H)} {listOrder : ListOrder}
      {registry : ActionRegistry H} (h : construct entries listOrder = .ok registry) :
      Reachable registry
  | register {registry : ActionRegistry H} (h : Reachable registry) (call : Registration H) :
      Reachable (register call registry).2

def resolve (registry : ActionRegistry H) (name : String) : Option (Entry H) :=
  (registry.names.find name).map Prod.snd

def compareCodePoints (left right : String) : ℤ := compareChars left.toList right.toList

/-- The entries, in the order of registration. -/
def registered (registry : ActionRegistry H) : List (Entry H) :=
  registry.entries.rows.map Prod.snd

/-- `list`; an array has at most `2 ^ 32 - 1` items. -/
def list (registry : ActionRegistry H) : Except String (List JsonValue) := do
  failIf (2 ^ 32 - 1 < registry.registered.length) "RangeError"
  let descriptors := registry.registered.map Entry.descriptor
  match registry.listOrder with
  | .registration => return descriptors
  | .actionId =>
      return descriptors.mergeSort fun left right =>
        compareCodePoints (actionIdOf left) (actionIdOf right) ≤ 0

end ActionRegistry

/-! ## Options of a query -/

def QUERY_INVALID : String := "ACTION_QUERY_INVALID"

inductive QuerySort
  | relevance
  | actionId
  | title
  | category
  deriving DecidableEq

inductive QueryDirection
  | asc
  | desc
  deriving DecidableEq

def SOURCE_KINDS : List String := ["builtin", "plugin", "local"]

/-- What `trim` removes and `\s` matches. -/
def isSpace (c : Char) : Bool :=
  let n := c.toNat
  (9 ≤ n && n ≤ 13) || (0x2000 ≤ n && n ≤ 0x200A) ||
    [0x20, 0xA0, 0x1680, 0x2028, 0x2029, 0x202F, 0x205F, 0x3000, 0xFEFF].contains n

def trimSpaces (text : String) : String :=
  String.ofList ((text.toList.dropWhile isSpace).reverse.dropWhile isSpace).reverse

/-- `value ?? …` -/
def given (value : Option JsonValue) : Option JsonValue :=
  match value with
  | some .null => none
  | value => value

/-- What a query asks for. -/
structure QuerySettings where
  searchText : String
  searchTokens : List String
  sort : QuerySort
  direction : QueryDirection
  limit : Nat
  sourceKinds : Option (List String)
  categories : Option (List String)
  executionModes : Option (List String)
  readOnly : Option Bool
  idempotent : Option Bool

def validateStringFilter (value : Option JsonValue) (allowed : Option (List String))
    (maxItems : Nat) : Except String (Option (List String)) :=
  match value with
  | none => .ok none
  | some (.arr items) => do
      let texts := textsOf (items.map some)
      failIf (maxItems < items.length ∨ texts.length ≠ items.length ∨ ¬ texts.Nodup)
        QUERY_INVALID
      failIf (texts.any fun text => text = "" || allowed.any (text ∉ ·)) QUERY_INVALID
      return some texts
  | _ => .error QUERY_INVALID

def booleanFilter (value : Option JsonValue) : Except String (Option Bool) :=
  match value with
  | none => .ok none
  | some (.bool b) => .ok (some b)
  | _ => .error QUERY_INVALID

def querySort (value : Option JsonValue) (searchText : String) : Except String QuerySort :=
  match given value with
  | none => .ok (if searchText ≠ "" then .relevance else .actionId)
  | some (.str "relevance") => .ok .relevance
  | some (.str "actionId") => .ok .actionId
  | some (.str "title") => .ok .title
  | some (.str "category") => .ok .category
  | _ => .error QUERY_INVALID

def queryDirection (value : Option JsonValue) (sort : QuerySort) :
    Except String QueryDirection :=
  match given value with
  | none => .ok (if sort = .relevance then .desc else .asc)
  | some (.str "asc") => .ok .asc
  | some (.str "desc") => .ok .desc
  | _ => .error QUERY_INVALID

def queryLimit (value : Option JsonValue) : Except String Nat :=
  match given value with
  | none => .ok 50
  | some (.num q) => do
      failIf (¬ q.isInt ∨ q < 1 ∨ 100 < q) QUERY_INVALID
      return q.num.toNat
  | _ => .error QUERY_INVALID

/-- `/^v1:(?:0|[1-9]\d*)$/` -/
def queryOffset (cursor : Option JsonValue) : Except String Nat :=
  match cursor with
  | none => .ok 0
  | some (.str cursor) => do
      failIf (¬ "v1:".toList <+: cursor.toList) QUERY_INVALID
      let offset ← orFail QUERY_INVALID (JsonPointer.arrayIndex (cursor.toList.drop 3))
      failIf (2 ^ 53 - 1 < offset) QUERY_INVALID
      return offset
  | _ => .error QUERY_INVALID

section Query

-- `normalize("NFKC")` and `toLowerCase`.
variable (normalizeSearchText : String → String)

def querySearchText (value : Option JsonValue) : Except String String :=
  match value with
  | none => .ok ""
  | some (.str s) => .ok (normalizeSearchText (trimSpaces s))
  | _ => .error QUERY_INVALID

/-- `searchText.split(/\s+/u).filter(Boolean)` -/
def searchTokensOf (searchText : String) : List String :=
  ((searchText.toList.splitOnP isSpace).filter (· ≠ [])).map String.ofList

/-- The checks of `query`, but that of the cursor. -/
def readQuery (options : JsonValue) : Except String QuerySettings := do
  failIf (¬ isObject (some options)) QUERY_INVALID
  failIf (options.keys.any
    (· ∉ ["query", "filters", "sort", "direction", "limit", "cursor"])) QUERY_INVALID
  let searchText ← querySearchText normalizeSearchText (options.get "query")
  failIf (512 < utf16Length searchText ∨ '\x00' ∈ searchText.toList) QUERY_INVALID
  let searchTokens := searchTokensOf searchText
  failIf (32 < searchTokens.length) QUERY_INVALID
  let sort ← querySort (options.get "sort") searchText
  let direction ← queryDirection (options.get "direction") sort
  let limit ← queryLimit (options.get "limit")
  let filters := (given (options.get "filters")).getD (.obj [])
  failIf (¬ isObject (some filters)) QUERY_INVALID
  failIf (filters.keys.any
    (· ∉ ["sourceKinds", "categories", "executionModes", "readOnly", "idempotent"])) QUERY_INVALID
  let sourceKinds ← validateStringFilter (filters.get "sourceKinds") (some SOURCE_KINDS) 3
  let categories ← validateStringFilter (filters.get "categories") none 32
  let executionModes ← validateStringFilter (filters.get "executionModes") (some EXECUTION_MODES) 4
  let readOnly ← booleanFilter (filters.get "readOnly")
  let idempotent ← booleanFilter (filters.get "idempotent")
  return {
    searchText, searchTokens, sort, direction, limit, sourceKinds, categories, executionModes,
    readOnly, idempotent }

/-! ## Relevance -/

/-- `left.includes(right)` -/
def includes (left right : String) : Bool := right.toList <:+: left.toList

def tokenRelevance (descriptor : JsonValue) (query : String) : ℤ :=
  let actionId := normalizeSearchText (actionIdOf descriptor)
  let aliases := (textListAt descriptor "aliases").map normalizeSearchText
  let title := normalizeSearchText (textAt descriptor ["title"])
  let keywords := (textListAt descriptor "keywords").map normalizeSearchText
  let description := normalizeSearchText (textAt descriptor ["description"])
  if actionId = query then 1000
  else if query ∈ aliases then 900
  else if startsWith query actionId then 800
  else if aliases.any (startsWith query) then 700
  else if title = query then 650
  else if query ∈ keywords then 600
  else if includes title query then 500
  else if keywords.any (includes · query) then 450
  else if includes actionId query || aliases.any (includes · query) then 400
  else if includes description query then 100
  else -1

def relevance (descriptor : JsonValue) (query : String) (tokens : List String) : ℤ :=
  if tokens = [] then 0
  else
    let scores := tokens.map (tokenRelevance normalizeSearchText descriptor)
    if scores.any (· < 0) then -1
    else
      let title := normalizeSearchText (textAt descriptor ["title"])
      let description := normalizeSearchText (textAt descriptor ["description"])
      let phraseBonus := if includes title query then 75 else if includes description query then 25 else 0
      scores.sum + phraseBonus

/-! ## Queries -/

def QuerySettings.score (settings : QuerySettings) (descriptor : JsonValue) : ℤ :=
  relevance normalizeSearchText descriptor settings.searchText settings.searchTokens

/-- The filter of `query`. -/
def QuerySettings.selects (settings : QuerySettings) (descriptor : JsonValue) : Bool :=
  0 ≤ settings.score normalizeSearchText descriptor &&
    settings.sourceKinds.all (textAt descriptor ["source", "kind"] ∈ ·) &&
    settings.categories.all (textAt descriptor ["presentation", "category"] ∈ ·) &&
    settings.executionModes.all (textAt descriptor ["execution", "mode"] ∈ ·) &&
    settings.readOnly.all (isBool (field descriptor ["behavior", "readOnly"])) &&
    settings.idempotent.all (isBool (field descriptor ["behavior", "idempotent"]))

/-- `field(entry)` -/
def QuerySettings.field (settings : QuerySettings) (descriptor : JsonValue) : String :=
  match settings.sort with
  | .title => textAt descriptor ["title"]
  | .category => textAt descriptor ["presentation", "category"]
  | _ => actionIdOf descriptor

/-- The comparator of `ranked.sort`. -/
def QuerySettings.compare (settings : QuerySettings) (left right : JsonValue) : ℤ :=
  let result :=
    if settings.sort = .relevance then
      settings.score normalizeSearchText left - settings.score normalizeSearchText right
    else ActionRegistry.compareCodePoints (settings.field left) (settings.field right)
  let result := if settings.direction = .desc then -result else result
  if result ≠ 0 then result
  else ActionRegistry.compareCodePoints (actionIdOf left) (actionIdOf right)

structure Page where
  actions : List JsonValue
  nextCursor : Option String

/-- The listed actions that a query selects, in its order. -/
def QuerySettings.rank (settings : QuerySettings) (descriptors : List JsonValue) :
    List JsonValue :=
  (descriptors.filter (settings.selects normalizeSearchText)).mergeSort fun left right =>
    settings.compare normalizeSearchText left right ≤ 0

namespace ActionRegistry

def query (registry : ActionRegistry H) (options : JsonValue) : Except String Page := do
  let settings ← readQuery normalizeSearchText options
  let offset ← queryOffset (options.get "cursor")
  let ranked := settings.rank normalizeSearchText (← registry.list)
  failIf (ranked.length < offset) QUERY_INVALID
  let page := (ranked.drop offset).take settings.limit
  let nextOffset := offset + page.length
  return ⟨page, if nextOffset < ranked.length then some ("v1:" ++ toString nextOffset) else none⟩

end ActionRegistry

/-- `{ ...options, cursor }` -/
def withCursor (options : JsonValue) (cursor : Option String) : JsonValue :=
  match cursor with
  | none => options
  | some cursor => .obj (options.members ++ [("cursor", .str cursor)])

/-- Following `nextCursor` until it is absent collects some actions. -/
inductive Follows (registry : ActionRegistry H) (options : JsonValue) :
    Option String → List JsonValue → Prop
  | last {cursor : Option String} {page : Page}
      (h : registry.query normalizeSearchText (withCursor options cursor) = .ok page)
      (hlast : page.nextCursor = none) : Follows registry options cursor page.actions
  | next {cursor : Option String} {page : Page} {next : String} {rest : List JsonValue}
      (h : registry.query normalizeSearchText (withCursor options cursor) = .ok page)
      (hnext : page.nextCursor = some next) (hrest : Follows registry options (some next) rest) :
      Follows registry options cursor (page.actions ++ rest)

end Query

end Useful.Actions
