/-
# Accepted descriptors

What the checkers of the action contract ask of a descriptor, member by member. Each
checker has one lemma that says when it finds no issue, and `WellFormed` puts them
together: it holds of the descriptors that `validateActionDescriptor` accepts.
-/

import Useful.Actions.Descriptor
import Useful.Math.Checks

namespace Useful.Actions

open Useful.Math

/-! ## Members that pass -/

/-- The member is a text with a property. -/
def TextWith (P : String → Prop) (value : Option JsonValue) : Prop :=
  ∃ s, value = some (.str s) ∧ P s

/-- The member is a list of different texts with a property. -/
def TextList (maxItems : Nat) (P : String → Prop) (value : Option JsonValue) : Prop :=
  ∃ texts : List String, value = some (.arr (texts.map .str)) ∧ texts.length ≤ maxItems ∧
    texts.Nodup ∧ ∀ s ∈ texts, P s

/-- The member is an object with the required members and only allowed ones. -/
structure ObjectWith (required allowed : List String) (P : JsonValue → Prop)
    (value : Option JsonValue) : Prop where
  intro ::
  exists_obj : ∃ members, value = some (.obj members) ∧
    (∀ key ∈ required, key ∈ (Json.obj members : JsonValue).keys) ∧
    (∀ key ∈ (Json.obj members : JsonValue).keys, key ∈ allowed) ∧ P (.obj members)

theorem issueIf_eq_nil {c : Prop} [Decidable c] {path message : String} :
    issueIf c path message = [] ↔ ¬ c := by
  unfold issueIf
  split_ifs with h <;> simp [h]

theorem stringWith_iff {test : String → Bool} {value : Option JsonValue} :
    stringWith test value = true ↔ TextWith (fun s => test s = true) value := by
  unfold stringWith TextWith
  split <;> simp_all

theorem isText_iff {value : Option JsonValue} {text : String} :
    isText value text = true ↔ value = some (.str text) := by
  unfold isText
  split <;> simp_all

theorem isBool_iff {value : Option JsonValue} {b : Bool} :
    isBool value b = true ↔ value = some (.bool b) := by
  rcases value with _ | v
  · simp [isBool]
  · cases v <;> simp [isBool]

theorem isBoolean_iff {value : Option JsonValue} :
    isBoolean value = true ↔ ∃ b, value = some (.bool b) := by
  unfold isBoolean
  split <;> simp_all

theorem isNumber_iff {value : Option JsonValue} :
    isNumber value = true ↔ ∃ q, value = some (.num q) := by
  unfold isNumber
  split <;> simp_all

theorem isObject_iff {value : Option JsonValue} :
    isObject value = true ↔ ∃ members, value = some (.obj members) := by
  unfold isObject
  split <;> simp_all

theorem isArray_iff {value : Option JsonValue} :
    isArray value = true ↔ ∃ items, value = some (.arr items) := by
  unfold isArray
  split <;> simp_all

theorem isNonemptyArray_iff {value : Option JsonValue} :
    isNonemptyArray value = true ↔ ∃ items, value = some (.arr items) ∧ items ≠ [] := by
  unfold isNonemptyArray
  split
  · simp
  · rename_i hno
    simp only [Bool.false_eq_true, false_iff, not_exists, not_and, not_not]
    rintro (_ | ⟨item, items⟩) rfl
    · rfl
    · exact absurd rfl (hno item items)

theorem integerWith_iff {test : ℚ → Bool} {value : Option JsonValue} :
    integerWith test value = true ↔ ∃ q, value = some (.num q) ∧ q.isInt = true ∧ test q = true := by
  unfold integerWith
  split <;> simp_all

theorem keyIssues_eq_nil {value : JsonValue} {required allowed : List String} {path : String} :
    keyIssues value required allowed path = [] ↔
      (∀ key ∈ required, key ∈ value.keys) ∧ ∀ key ∈ value.keys, key ∈ allowed := by
  simp [keyIssues]

theorem requireKeys_eq_nil {value : Option JsonValue} {required allowed : List String}
    {path : String} {inside : JsonValue → List Issue} :
    requireKeys value required allowed path inside = [] ↔
      ObjectWith required allowed (fun w => inside w = []) value := by
  unfold requireKeys
  split
  · rw [List.append_eq_nil_iff, keyIssues_eq_nil]
    constructor
    · rintro ⟨⟨hrequired, hallowed⟩, hinside⟩
      exact ⟨_, rfl, hrequired, hallowed, hinside⟩
    · rintro ⟨_, heq, hrequired, hallowed, hinside⟩
      cases heq
      exact ⟨⟨hrequired, hallowed⟩, hinside⟩
  · rename_i hno
    simp only [List.cons_ne_nil, false_iff]
    rintro ⟨members, rfl, -⟩
    exact hno members rfl

/-- The loop finds nothing in different texts, none of which was seen before. -/
theorem stringEntries_eq_nil {path : String} {allowEmpty : Bool} {items : List JsonValue}
    {index : Nat} {seen : List String} :
    stringEntries path allowEmpty index seen items = [] ↔
      ∃ texts : List String, items = texts.map .str ∧ texts.Nodup ∧
        ∀ s ∈ texts, s ∉ seen ∧ (allowEmpty = true ∨ s ≠ "") := by
  induction items generalizing index seen with
  | nil =>
      refine iff_of_true rfl ⟨[], rfl, List.nodup_nil, ?_⟩
      simp
  | cons item items ih =>
      cases item with
      | str s =>
          have hentry : (if ¬ allowEmpty = true ∧ s = "" then
                [Issue.mk s!"{path}/{index}" "必须是非空字符串"]
              else issueIf (s ∈ seen) s!"{path}/{index}" "不允许重复项") = [] ↔
              s ∉ seen ∧ (allowEmpty = true ∨ s ≠ "") := by
            split_ifs with hempty
            · simp [hempty]
            · rw [issueIf_eq_nil]
              rw [not_and_or, not_not] at hempty
              exact (and_iff_left hempty).symm
          rw [stringEntries, List.append_eq_nil_iff, hentry, ih]
          constructor
          · rintro ⟨hs, texts, rfl, hnodup, hall⟩
            refine ⟨s :: texts, rfl, List.nodup_cons.mpr ⟨?_, hnodup⟩, ?_⟩
            · exact fun hmem => (hall s hmem).1 List.mem_cons_self
            · rintro t (_ | ⟨_, ht⟩)
              · exact hs
              · exact ⟨fun hseen => (hall t ht).1 (List.mem_cons_of_mem _ hseen), (hall t ht).2⟩
          · rintro ⟨_ | ⟨t, texts⟩, heq, hnodup, hall⟩
            · cases heq
            · obtain ⟨rfl, rfl⟩ : s = t ∧ items = texts.map .str := by simpa using heq
              rw [List.nodup_cons] at hnodup
              refine ⟨hall s List.mem_cons_self, texts, rfl, hnodup.2, ?_⟩
              intro t ht
              obtain ⟨hseen, hempty⟩ := hall t (List.mem_cons_of_mem _ ht)
              refine ⟨?_, hempty⟩
              rintro (_ | ⟨_, hmem⟩)
              · exact hnodup.1 ht
              · exact hseen hmem
      | _ =>
          refine iff_of_false (by simp [stringEntries]) ?_
          rintro ⟨_ | ⟨t, texts⟩, heq, -⟩ <;> cases heq

theorem stringArray_eq_nil {value : Option JsonValue} {path : String} {maxItems : Nat}
    {allowEmpty : Bool} :
    stringArray value path maxItems allowEmpty = [] ↔
      TextList maxItems (fun s => allowEmpty = true ∨ s ≠ "") value := by
  unfold stringArray
  split
  · rw [List.append_eq_nil_iff, issueIf_eq_nil, stringEntries_eq_nil, not_lt]
    constructor
    · rintro ⟨hlength, texts, rfl, hnodup, hall⟩
      exact ⟨texts, rfl, by simpa using hlength, hnodup, fun s hs => (hall s hs).2⟩
    · rintro ⟨texts, heq, hlength, hnodup, hall⟩
      cases heq
      exact ⟨by simpa using hlength, texts, rfl, hnodup, fun s hs => ⟨List.not_mem_nil, hall s hs⟩⟩
  · rename_i hno
    simp only [List.cons_ne_nil, false_iff]
    rintro ⟨texts, rfl, -⟩
    exact hno _ rfl

/-! ## Value schemas that pass -/

/-- A member that may be absent. -/
def IfPresent (P : JsonValue → Prop) (value : Option JsonValue) : Prop :=
  ∀ x, value = some x → P x

/-- What `validateSchemaShape` asks of a value schema besides its nested schemas. -/
structure SchemaKeywords (schema : JsonValue) : Prop where
  object : ∃ members, schema = .obj members
  keys : ∀ key ∈ schema.keys, key ∈ SCHEMA_KEYS
  dialect : IfPresent (· = .str SCHEMA_DIALECT) (schema.get "$schema")
  types : declaredTypes schema ≠ [] ∧
    ∀ type ∈ declaredTypes schema, TextWith (· ∈ JSON_TYPES) type
  enum : IfPresent (fun x => ∃ items, x = .arr items ∧ items ≠ []) (schema.get "enum")
  bounds : ∀ key ∈ ["minLength", "maxLength", "minItems", "maxItems"],
    IfPresent (fun x => ∃ q, x = .num q ∧ q.isInt = true ∧ 0 ≤ q) (schema.get key)
  numbers : ∀ key ∈ ["minimum", "maximum"], IfPresent (fun x => ∃ q, x = .num q) (schema.get key)
  uniqueItems : IfPresent (fun x => ∃ b, x = .bool b) (schema.get "uniqueItems")
  required : IfPresent (fun x => TextList 128 (· ≠ "") (some x)) (schema.get "required")
  closed : includesType schema "object" = true →
    (∃ members, schema.get "properties" = some (.obj members)) ∧
      schema.get "additionalProperties" = some (.bool false)
  single : includesType schema "array" = true → ∃ members, schema.get "items" = some (.obj members)

/-- A value schema with which `validateSchemaShape` finds no issue. -/
inductive ValueSchema : JsonValue → Prop
  | intro {schema : JsonValue} (keywords : SchemaKeywords schema)
      (properties : includesType schema "object" = true →
        ∀ x, schema.get "properties" = some x → ∀ m ∈ x.members, ValueSchema m.2)
      (items : includesType schema "array" = true →
        ∀ x, schema.get "items" = some x → ValueSchema x) :
      ValueSchema schema

/-- The test of a member that may be absent. -/
theorem ifPresent_iff {v : Option JsonValue} {P : JsonValue → Prop}
    {Q : Option JsonValue → Bool} (h : ∀ x, Q (some x) = true ↔ P x) :
    ¬ (v.isSome = true ∧ ¬ Q v = true) ↔ IfPresent P v := by
  unfold IfPresent
  cases v with
  | none => simp
  | some x => simp [h x]

theorem schemaKeywords_eq_nil {schema : JsonValue} {path : String}
    (hobject : ∃ members, schema = .obj members) :
    (schemaKeywords schema path = [] ∧
      (includesType schema "object" = true → isObject (schema.get "properties") = true ∧
        isBool (schema.get "additionalProperties") false = true) ∧
      (includesType schema "array" = true → isObject (schema.get "items") = true)) ↔
        SchemaKeywords schema := by
  have hdialect := ifPresent_iff (v := schema.get "$schema") (P := (· = .str SCHEMA_DIALECT))
    (Q := fun x => isText x SCHEMA_DIALECT) (by simp [isText_iff])
  have henum := ifPresent_iff (v := schema.get "enum")
    (P := fun x => ∃ items, x = .arr items ∧ items ≠ []) (Q := isNonemptyArray)
    (by simp [isNonemptyArray_iff])
  have hunique := ifPresent_iff (v := schema.get "uniqueItems")
    (P := fun x => ∃ b, x = .bool b) (Q := isBoolean) (by simp [isBoolean_iff])
  have hbound (key : String) := ifPresent_iff (v := schema.get key)
    (P := fun x => ∃ q, x = .num q ∧ q.isInt = true ∧ 0 ≤ q) (Q := integerWith (0 ≤ ·))
    (by simp [integerWith_iff])
  have hnumber (key : String) := ifPresent_iff (v := schema.get key)
    (P := fun x => ∃ q, x = .num q) (Q := isNumber) (by simp [isNumber_iff])
  have hrequired : (if (schema.get "required").isSome = true then
        stringArray (schema.get "required") s!"{path}/required" 128 false else []) = [] ↔
      IfPresent (fun x => TextList 128 (· ≠ "") (some x)) (schema.get "required") := by
    unfold IfPresent
    cases schema.get "required" <;> simp [stringArray_eq_nil]
  have htypes : ¬ (declaredTypes schema = [] ∨
        ((declaredTypes schema).any fun type => !stringWith (· ∈ JSON_TYPES) type) = true) ↔
      declaredTypes schema ≠ [] ∧ ∀ type ∈ declaredTypes schema, TextWith (· ∈ JSON_TYPES) type := by
    simp [stringWith_iff]
  unfold schemaKeywords
  simp only [List.append_eq_nil_iff, issueIf_eq_nil, List.flatMap_eq_nil_iff, List.map_eq_nil_iff,
    List.filter_eq_nil_iff, hdialect, henum, hunique, hbound, hnumber, hrequired, htypes,
    isObject_iff, isBool_iff, decide_not, Bool.not_eq_true', decide_eq_false_iff_not, not_not]
  constructor
  · rintro ⟨⟨⟨⟨⟨⟨⟨⟨hkeys, hdialect⟩, htypes⟩, henum⟩, hbounds⟩, hnumbers⟩, hunique⟩, hrequired⟩,
      hclosed, hsingle⟩
    exact ⟨hobject, hkeys, hdialect, htypes, henum, hbounds, hnumbers, hunique, hrequired, hclosed,
      hsingle⟩
  · rintro ⟨-, hkeys, hdialect, htypes, henum, hbounds, hnumbers, hunique, hrequired, hclosed,
      hsingle⟩
    exact ⟨⟨⟨⟨⟨⟨⟨⟨hkeys, hdialect⟩, htypes⟩, henum⟩, hbounds⟩, hnumbers⟩, hunique⟩, hrequired⟩,
      hclosed, hsingle⟩

/-- The nested schemas of `properties`. -/
def propertyIssues (schema : JsonValue) (path : String) : List Issue :=
  match schema.get "properties" with
  | some properties => properties.members.flatMap fun m =>
      let name := m.1
      schemaShape m.2 s!"{path}/properties/{name}"
  | none => []

/-- The nested schema of `items`. -/
def itemIssues (schema : JsonValue) (path : String) : List Issue :=
  match schema.get "items" with
  | some items => if isObject (some items) then schemaShape items s!"{path}/items" else []
  | none => []

/-- `validateSchemaShape` calls itself on the nested schemas. -/
theorem schemaShape_of_object {schema : JsonValue} {path : String}
    (h : isObject (some schema) = true) :
    schemaShape schema path = schemaKeywords schema path ++
      (if includesType schema "object" then
        issueIf (¬ isObject (schema.get "properties"))
            s!"{path}/properties" "object schema 必须声明 properties" ++
          issueIf (¬ isBool (schema.get "additionalProperties") false)
            s!"{path}/additionalProperties" "object schema 必须 fail closed（值为 false）" ++
          propertyIssues schema path
      else []) ++
      (if includesType schema "array" then
        issueIf (¬ isObject (schema.get "items"))
            s!"{path}/items" "array schema 必须声明单一 items schema" ++
          itemIssues schema path
      else []) := by
  rw [schemaShape, if_pos h]
  unfold propertyIssues itemIssues
  congr 2
  · split_ifs
    · congr 1
      split
      · rename_i properties hproperties
        simp only [hproperties]
        rw [List.flatMap_subtype (g := fun m => schemaShape m.2 s!"{path}/properties/{m.1}")
          fun _ _ => rfl, List.unattach_attach]
      · rename_i hproperties
        simp only [hproperties]
    · rfl
  · congr 1
    split
    · rename_i items hitems
      simp only [hitems]
    · rename_i hitems
      simp only [hitems]

/-- The checker of value schemas finds nothing in those it accepts. -/
theorem schemaShape_eq_nil {schema : JsonValue} {path : String} :
    schemaShape schema path = [] ↔ ValueSchema schema := by
  induction hdepth : schema.depth using Nat.strong_induction_on generalizing schema path with
  | _ depth ih =>
    subst hdepth
    cases hobject : isObject (some schema) with
    | false =>
        rw [schemaShape, if_neg (by simp [hobject])]
        refine iff_of_false (List.cons_ne_nil _ _) ?_
        rintro ⟨keywords, -, -⟩
        obtain ⟨members, rfl⟩ := keywords.object
        cases hobject
    | true =>
        have hproperties : propertyIssues schema path = [] ↔
            ∀ x, schema.get "properties" = some x → ∀ m ∈ x.members, ValueSchema m.2 := by
          unfold propertyIssues
          cases hx : schema.get "properties" with
          | none => simp
          | some x =>
              simp only [List.flatMap_eq_nil_iff, Option.some.injEq, forall_eq']
              refine forall₂_congr fun m hm => ih _ ?_ rfl
              exact (Json.depth_lt_of_mem_members hm).trans (Json.depth_lt_of_get hx)
        have hitems (hsingle : isObject (schema.get "items") = true) :
            itemIssues schema path = [] ↔ ∀ x, schema.get "items" = some x → ValueSchema x := by
          unfold itemIssues
          cases hx : schema.get "items" with
          | none => simp
          | some x =>
              rw [hx] at hsingle
              simp only [hsingle, if_true, Option.some.injEq, forall_eq']
              exact ih _ (Json.depth_lt_of_get hx) rfl
        have hmembers : ∃ members, schema = .obj members := by
          simpa using isObject_iff.mp hobject
        rw [schemaShape_of_object hobject]
        constructor
        · intro h
          simp only [List.append_eq_nil_iff, ite_eq_right_iff, issueIf_eq_nil, not_not] at h
          obtain ⟨⟨hkeywords, hclosed⟩, hsingle⟩ := h
          refine ⟨(schemaKeywords_eq_nil hmembers).mp ⟨hkeywords, ?_, ?_⟩, ?_, ?_⟩
          · exact fun htype => (hclosed htype).1
          · exact fun htype => (hsingle htype).1
          · exact fun htype => hproperties.mp (hclosed htype).2
          · exact fun htype => (hitems (hsingle htype).1).mp (hsingle htype).2
        · rintro ⟨keywords, hchildren, hchild⟩
          obtain ⟨hkeywords, hclosed, hsingle⟩ : schemaKeywords schema path = [] ∧ _ :=
            (schemaKeywords_eq_nil hmembers).mpr keywords
          simp only [List.append_eq_nil_iff, ite_eq_right_iff, issueIf_eq_nil, not_not]
          refine ⟨⟨hkeywords, ?_⟩, ?_⟩
          · exact fun htype => ⟨hclosed htype, hproperties.mpr (hchildren htype)⟩
          · exact fun htype => ⟨hsingle htype, (hitems (hsingle htype)).mpr (hchild htype)⟩

theorem validateSchemaShape_eq_nil {schema : Option JsonValue} {path : String} :
    validateSchemaShape schema path = [] ↔ ∃ x, schema = some x ∧ ValueSchema x := by
  cases schema with
  | none => simp [validateSchemaShape]
  | some x => simp [validateSchemaShape, schemaShape_eq_nil]

/-! ## Descriptors that pass -/

/-- Names that no action and no alias may have. -/
def NotReserved (s : String) : Prop := s ∉ RESERVED_ACTION_NAMES

/-- Where the ids of a descriptor lie, by the kind of its source. -/
structure Namespaced (value source : JsonValue) : Prop where
  builtin : source.get "kind" = some (.str "builtin") →
    TextWith (fun s => startsWith "builtin." s = true) (value.get "actionId") ∧
      TextWith (fun s => startsWith "builtin." s = true) (source.get "toolId")
  other : source.get "kind" ≠ some (.str "builtin") →
    (∀ s, value.get "actionId" = some (.str s) → startsWith "builtin." s = false) ∧
      (∀ s, source.get "toolId" = some (.str s) → startsWith "builtin." s = false) ∧
      ∀ texts : List String, value.get "aliases" = some (.arr (texts.map .str)) →
        ∀ s ∈ texts, startsWith "builtin." s = false
  plugin : source.get "kind" = some (.str "plugin") → ∀ action tool,
    value.get "actionId" = some (.str action) → source.get "toolId" = some (.str tool) →
      startsWith (tool ++ ".") action = true

/-- The source of a descriptor. -/
structure SourceWith (value source : JsonValue) : Prop where
  kind : TextWith (· ∈ ["builtin", "plugin", "local"]) (source.get "kind")
  toolId : TextWith (· ≠ "") (source.get "toolId")
  digest : TextWith (fun s => s.toList ∈ SHA256.lang) (source.get "digest")
  publisher : ObjectWith ["id"] ["id", "name"] (fun publisher =>
    TextWith (· ≠ "") (publisher.get "id")) (source.get "publisher")
  namespaced : Namespaced value source

/-- A test vector declares what it expects in one way. -/
def TestVector (vector : JsonValue) : Prop :=
  ObjectWith ["name", "input"] ["name", "input", "expectedOutput", "expectedErrorCode"] (fun vector =>
    ("expectedOutput" ∈ vector.keys ↔ "expectedErrorCode" ∉ vector.keys)) (some vector)

structure ExecutionWith (execution : JsonValue) : Prop where
  mode : TextWith (· ∈ EXECUTION_MODES) (execution.get "mode")
  handler : execution.get "mode" = some (.str "ui-only") ∧ execution.get "handler" = none ∨
    execution.get "mode" ≠ some (.str "ui-only") ∧ TextWith (· ≠ "") (execution.get "handler")
  limits : ∀ limit ∈ limits, ∃ q, execution.get limit.1 = some (.num q) ∧ q.isInt = true ∧
    1 ≤ q ∧ q ≤ limit.2
  supportsCancellation : ∃ b, execution.get "supportsCancellation" = some (.bool b)

structure BehaviorWith (value behavior : JsonValue) : Prop where
  flags : ∀ name ∈ behaviorFlags, ∃ b, behavior.get name = some (.bool b)
  sideEffects : TextList 32 (· ≠ "") (behavior.get "sideEffects")
  confirmed : behavior.get "destructive" = some (.bool true) →
    behavior.get "requiresConfirmation" = some (.bool true)
  harmless : isPure value = true → behavior.get "openWorld" = some (.bool false) ∧
    behavior.get "destructive" = some (.bool false) ∧ behavior.get "sideEffects" = some (.arr [])

structure PermissionsWith (value permissions : JsonValue) : Prop where
  required : TextList 128 (· ≠ "") (permissions.get "required")
  capabilities : TextList 128 (· ≠ "") (permissions.get "capabilities")
  harmless : isPure value = true →
    permissions.get "required" = some (.arr []) ∧ permissions.get "capabilities" = some (.arr [])

structure SensitiveWith (sensitive : JsonValue) : Prop where
  pointers : ∀ name ∈ ["input", "output"],
    TextList 64 (fun s => s.toList ∈ JSON_POINTER.lang) (sensitive.get name)
  redactLogs : sensitive.get "redactLogs" = some (.bool true)

/-- A descriptor that passes every check. -/
structure WellFormed (value : JsonValue) : Prop where
  keys : ObjectWith topRequired topAllowed (fun _ => True) (some value)
  contractVersion : value.get "contractVersion" = some (.str CONTRACT_VERSION)
  actionId : TextWith (fun s => s.toList ∈ ACTION_ID.lang ∧ NotReserved s) (value.get "actionId")
  version : TextWith (fun s => s.toList ∈ SEMVER.lang) (value.get "version")
  title : TextWith (· ≠ "") (value.get "title")
  description : TextWith (· ≠ "") (value.get "description")
  keywords : TextList 64 (· ≠ "") (value.get "keywords")
  aliases : TextList 32 (fun s => s ≠ "" ∧ NotReserved s) (value.get "aliases")
  source : ObjectWith ["kind", "toolId", "publisher", "digest"]
    ["kind", "toolId", "publisher", "digest"] (SourceWith value) (value.get "source")
  inputSchema : ∃ x, value.get "inputSchema" = some x ∧ ValueSchema x
  outputSchema : ∃ x, value.get "outputSchema" = some x ∧ ValueSchema x
  examples : ∃ items, value.get "examples" = some (.arr items)
  testVectors : ∃ items, value.get "testVectors" = some (.arr items) ∧ items ≠ [] ∧
    ∀ vector ∈ items, TestVector vector
  execution : ObjectWith
    ["mode", "timeoutMs", "maxInputBytes", "maxOutputBytes", "supportsCancellation"]
    ["mode", "handler", "timeoutMs", "maxInputBytes", "maxOutputBytes", "supportsCancellation"]
    ExecutionWith (value.get "execution")
  behavior : ObjectWith
    ["readOnly", "destructive", "idempotent", "openWorld", "sideEffects", "requiresConfirmation"]
    ["readOnly", "destructive", "idempotent", "openWorld", "sideEffects", "requiresConfirmation"]
    (BehaviorWith value) (value.get "behavior")
  permissions : ObjectWith ["required", "capabilities"] ["required", "capabilities"]
    (PermissionsWith value) (value.get "permissions")
  sensitive : ObjectWith ["input", "output", "redactLogs"] ["input", "output", "redactLogs"]
    SensitiveWith (value.get "sensitive")
  presentation : IfPresent (fun x => ObjectWith [] ["route", "icon", "category"] (fun presentation =>
    ∀ field ∈ presentationFields, IfPresent (fun x => ∃ s, x = .str s ∧ 1 ≤ utf16Length s ∧
      utf16Length s ≤ field.2) (presentation.get field.1)) (some x)) (value.get "presentation")

/-! ## The parts of the validator -/

theorem TextWith.imp {P Q : String → Prop} {value : Option JsonValue} (h : TextWith P value)
    (hPQ : ∀ s, P s → Q s) : TextWith Q value := by
  obtain ⟨s, hs, hP⟩ := h
  exact ⟨s, hs, hPQ s hP⟩

theorem ObjectWith.imp {required allowed : List String} {P Q : JsonValue → Prop}
    {value : Option JsonValue} (h : ObjectWith required allowed P value)
    (hPQ : ∀ x, value = some x → P x → Q x) : ObjectWith required allowed Q value := by
  obtain ⟨members, rfl, hrequired, hallowed, hP⟩ := h
  exact ⟨members, rfl, hrequired, hallowed, hPQ _ rfl hP⟩

theorem objectWith_congr {required allowed : List String} {P Q : JsonValue → Prop}
    {value : Option JsonValue} (h : ∀ x, value = some x → (P x ↔ Q x)) :
    ObjectWith required allowed P value ↔ ObjectWith required allowed Q value :=
  ⟨fun hP => hP.imp fun x hx => (h x hx).mp, fun hQ => hQ.imp fun x hx => (h x hx).mpr⟩

/-- Checks of the items of a list, one by one. -/
theorem flatMap_zipIdx_eq_nil {xs : List JsonValue} {f : Nat → JsonValue → List Issue}
    {P : JsonValue → Prop} (h : ∀ index x, f index x = [] ↔ P x) :
    xs.zipIdx.flatMap (fun item => f item.2 item.1) = [] ↔ ∀ x ∈ xs, P x := by
  simp only [List.flatMap_eq_nil_iff, h]
  constructor
  · intro hall x hx
    obtain ⟨index, hlt, rfl⟩ := List.getElem_of_mem hx
    exact hall (xs[index], index) (List.mk_mem_zipIdx_iff_getElem?.mpr (by simp [hlt]))
  · rintro hall ⟨x, index⟩ hx
    exact hall x (List.fst_mem_of_mem_zipIdx hx)

theorem isReservedActionName_str {s : String} :
    isReservedActionName (some (.str s)) = true ↔ ¬ NotReserved s := by
  simp [isReservedActionName, stringWith, NotReserved]

/-- The texts at the top. -/
theorem headIssues_eq_nil {value : JsonValue} :
    headIssues value = [] ↔
      value.get "contractVersion" = some (.str CONTRACT_VERSION) ∧
      TextWith (fun s => s.toList ∈ ACTION_ID.lang ∧ NotReserved s) (value.get "actionId") ∧
      TextWith (fun s => s.toList ∈ SEMVER.lang) (value.get "version") ∧
      TextWith (· ≠ "") (value.get "title") ∧ TextWith (· ≠ "") (value.get "description") ∧
      TextList 64 (· ≠ "") (value.get "keywords") ∧ TextList 32 (· ≠ "") (value.get "aliases") := by
  have hactionId : (TextWith (fun s => ACTION_ID.test s.toList = true) (value.get "actionId") ∧
      ¬ isReservedActionName (value.get "actionId") = true) ↔
        TextWith (fun s => s.toList ∈ ACTION_ID.lang ∧ NotReserved s) (value.get "actionId") := by
    constructor
    · rintro ⟨⟨s, hs, htest⟩, hreserved⟩
      rw [hs, isReservedActionName_str, not_not] at hreserved
      exact ⟨s, hs, Regex.test_iff.mp htest, hreserved⟩
    · rintro ⟨s, hs, hlang, hreserved⟩
      rw [hs, isReservedActionName_str, not_not]
      exact ⟨⟨s, rfl, Regex.test_iff.mpr hlang⟩, hreserved⟩
  unfold headIssues
  simp only [List.append_eq_nil_iff, issueIf_eq_nil, not_not, isText_iff, stringWith_iff,
    stringArray_eq_nil, Bool.false_eq_true, false_or, decide_eq_true_eq]
  rw [← hactionId]
  simp only [Regex.test_iff, and_assoc]

/-- The loops over the aliases, where these are texts. -/
theorem forEachAlias_eq {texts : List String} {f : Nat → JsonValue → List Issue} :
    forEachAlias (some (.arr (texts.map .str))) f =
      .ok ((texts.map .str).zipIdx.flatMap fun item => f item.2 item.1) :=
  rfl

theorem reservedAlias_eq_nil {texts : List String} :
    ((texts.map .str).zipIdx.flatMap fun item => reservedAlias item.2 item.1) = [] ↔
      ∀ s ∈ texts, NotReserved s := by
  rw [flatMap_zipIdx_eq_nil (f := reservedAlias)
    (P := fun x => ¬ isReservedActionName (some x) = true) fun _ _ => issueIf_eq_nil,
    List.forall_mem_map]
  exact forall₂_congr fun s _ => by rw [isReservedActionName_str, not_not]

theorem builtinAlias_eq_nil {texts : List String} :
    ((texts.map .str).zipIdx.flatMap fun item => builtinAlias item.2 item.1) = [] ↔
      ∀ s ∈ texts, startsWith "builtin." s = false := by
  rw [flatMap_zipIdx_eq_nil (f := builtinAlias)
    (P := fun x => ¬ stringWith (startsWith "builtin.") (some x) = true) fun _ _ => issueIf_eq_nil]
  simp [stringWith]

/-- The namespaces of a source whose ids are texts. -/
theorem namespaceIssues_eq_nil {value source : JsonValue} {texts : List String}
    (haliases : value.get "aliases" = some (.arr (texts.map .str))) {action tool : String}
    (haction : value.get "actionId" = some (.str action))
    (htool : source.get "toolId" = some (.str tool)) :
    namespaceIssues value
        ((texts.map .str).zipIdx.flatMap fun item => builtinAlias item.2 item.1) source = [] ↔
      Namespaced value source := by
  unfold namespaceIssues
  split_ifs with hkind
  · rw [isText_iff] at hkind
    simp only [List.append_eq_nil_iff, issueIf_eq_nil, not_not, stringWith_iff]
    constructor
    · refine fun h => ⟨fun _ => h, fun hno => absurd hkind hno, ?_⟩
      exact fun hplugin => absurd (hkind.symm.trans hplugin) (by simp)
    · exact fun h => h.builtin hkind
  · have hkind' : source.get "kind" ≠ some (.str "builtin") := fun h => hkind (isText_iff.mpr h)
    have hplugin : issueIf (isText (source.get "kind") "plugin" = true ∧
          outsideTool (value.get "actionId") (source.get "toolId") = true)
          "/actionId" "plugin actionId 必须位于 source.toolId 命名空间" = [] ↔
        (source.get "kind" = some (.str "plugin") → startsWith (tool ++ ".") action = true) := by
      rw [issueIf_eq_nil, haction, htool, isText_iff]
      simp [outsideTool, stringWith]
    rw [List.append_eq_nil_iff, List.append_eq_nil_iff, List.append_eq_nil_iff, hplugin,
      builtinAlias_eq_nil, issueIf_eq_nil, issueIf_eq_nil, haction, htool]
    simp only [stringWith, Bool.not_eq_true]
    constructor
    · rintro ⟨⟨⟨haction', htool'⟩, haliases'⟩, hplugin⟩
      refine ⟨fun h => absurd h hkind', fun _ => ⟨?_, ?_, ?_⟩, ?_⟩
      · intro s hs
        rw [haction] at hs
        cases hs
        exact haction'
      · intro s hs
        rw [htool] at hs
        cases hs
        exact htool'
      · intro texts' htexts'
        rw [haliases] at htexts'
        have hsame : texts = texts' := by
          apply List.map_injective_iff.mpr (fun _ _ h => Json.str.inj h)
          simpa using htexts'
        exact hsame ▸ haliases'
      · intro hkind action' tool' haction'' htool''
        rw [haction] at haction''
        rw [htool] at htool''
        cases haction''
        cases htool''
        exact hplugin hkind
    · intro h
      obtain ⟨haction', htool', haliases'⟩ := h.other hkind'
      exact ⟨⟨⟨haction' _ haction, htool' _ htool⟩, haliases' _ haliases⟩,
        fun hkind => h.plugin hkind _ _ haction htool⟩

theorem sourceIssues_eq_nil {value : JsonValue} {texts : List String}
    (haliases : value.get "aliases" = some (.arr (texts.map .str))) {action : String}
    (haction : value.get "actionId" = some (.str action)) :
    sourceIssues value
        ((texts.map .str).zipIdx.flatMap fun item => builtinAlias item.2 item.1) = [] ↔
      ObjectWith ["kind", "toolId", "publisher", "digest"] ["kind", "toolId", "publisher", "digest"]
        (SourceWith value) (value.get "source") := by
  unfold sourceIssues
  rw [requireKeys_eq_nil]
  apply objectWith_congr
  intro source _
  simp only [List.append_eq_nil_iff, issueIf_eq_nil, not_not, stringWith_iff, requireKeys_eq_nil,
    decide_eq_true_eq, Regex.test_iff]
  constructor
  · rintro ⟨⟨⟨⟨hkind, htoolId⟩, hdigest⟩, hpublisher⟩, hnamespace⟩
    obtain ⟨tool, htool, -⟩ := id htoolId
    exact ⟨hkind, htoolId, hdigest, hpublisher,
      (namespaceIssues_eq_nil haliases haction htool).mp hnamespace⟩
  · rintro ⟨hkind, htoolId, hdigest, hpublisher, hnamespace⟩
    obtain ⟨tool, htool, -⟩ := id htoolId
    exact ⟨⟨⟨⟨hkind, htoolId⟩, hdigest⟩, hpublisher⟩,
      (namespaceIssues_eq_nil haliases haction htool).mpr hnamespace⟩

theorem testVectorIssues_eq_nil {index : Nat} {vector : JsonValue} :
    testVectorIssues index vector = [] ↔ TestVector vector := by
  unfold testVectorIssues TestVector
  rw [requireKeys_eq_nil]
  apply objectWith_congr
  intro vector _
  rw [issueIf_eq_nil, not_not]
  by_cases houtput : "expectedOutput" ∈ vector.keys <;>
    by_cases hcode : "expectedErrorCode" ∈ vector.keys <;> simp [houtput, hcode]

theorem exampleIssues_eq_nil {value : JsonValue} :
    exampleIssues value = [] ↔ (∃ items, value.get "examples" = some (.arr items)) ∧
      ∃ items, value.get "testVectors" = some (.arr items) ∧ items ≠ [] ∧
        ∀ vector ∈ items, TestVector vector := by
  have hexamples : isArray (value.get "examples") = true ↔
      ∃ items, value.get "examples" = some (.arr items) := by
    unfold isArray
    split <;> simp_all
  have hall {items : List JsonValue} : _ ↔ ∀ x ∈ items, TestVector x := flatMap_zipIdx_eq_nil
    (f := testVectorIssues) (P := TestVector) fun _ _ => testVectorIssues_eq_nil
  unfold exampleIssues
  rw [List.append_eq_nil_iff, List.append_eq_nil_iff, issueIf_eq_nil, issueIf_eq_nil, not_not,
    not_not, hexamples, isNonemptyArray_iff, and_assoc]
  refine and_congr_right fun _ => ?_
  constructor
  · rintro ⟨⟨items, hitems, hne⟩, hvectors⟩
    rw [hitems] at hvectors
    exact ⟨items, hitems, hne, hall.mp hvectors⟩
  · rintro ⟨items, hitems, hne, hvectors⟩
    rw [hitems]
    exact ⟨⟨items, rfl, hne⟩, hall.mpr hvectors⟩

theorem executionIssues_eq_nil {value : JsonValue} :
    executionIssues value = [] ↔ ObjectWith
      ["mode", "timeoutMs", "maxInputBytes", "maxOutputBytes", "supportsCancellation"]
      ["mode", "handler", "timeoutMs", "maxInputBytes", "maxOutputBytes", "supportsCancellation"]
      ExecutionWith (value.get "execution") := by
  unfold executionIssues
  rw [requireKeys_eq_nil]
  apply objectWith_congr
  intro execution _
  simp only [List.append_eq_nil_iff, issueIf_eq_nil, not_not, stringWith_iff, isText_iff,
    List.flatMap_eq_nil_iff, integerWith_iff, isBoolean_iff, Bool.and_eq_true, decide_eq_true_eq]
  constructor
  · rintro ⟨⟨⟨⟨hmode, hui⟩, hheadless⟩, hlimits⟩, hcancel⟩
    refine ⟨hmode, ?_, hlimits, hcancel⟩
    by_cases hkind : execution.get "mode" = some (.str "ui-only")
    · exact .inl ⟨hkind, by simpa [hkind] using hui⟩
    · exact .inr ⟨hkind, by simpa [hkind] using hheadless⟩
  · rintro ⟨hmode, ⟨hkind, hhandler⟩ | ⟨hkind, hhandler⟩, hlimits, hcancel⟩
    · exact ⟨⟨⟨⟨hmode, by simp [hhandler]⟩, by simp [hkind]⟩, hlimits⟩, hcancel⟩
    · exact ⟨⟨⟨⟨hmode, by simp [hkind]⟩, by simp [hhandler]⟩, hlimits⟩, hcancel⟩

/-- A list of texts without a length is empty. -/
theorem hasLength_textList {maxItems : Nat} {P : String → Prop} {value : Option JsonValue}
    (h : TextList maxItems P value) : ¬ hasLength value = true ↔ value = some (.arr []) := by
  obtain ⟨texts, rfl, -⟩ := h
  simp [hasLength]

theorem behaviorIssues_eq_nil {value : JsonValue} :
    behaviorIssues value = [] ↔ ObjectWith
      ["readOnly", "destructive", "idempotent", "openWorld", "sideEffects", "requiresConfirmation"]
      ["readOnly", "destructive", "idempotent", "openWorld", "sideEffects", "requiresConfirmation"]
      (BehaviorWith value) (value.get "behavior") := by
  unfold behaviorIssues
  rw [requireKeys_eq_nil]
  apply objectWith_congr
  intro behavior _
  simp only [List.append_eq_nil_iff, issueIf_eq_nil, not_not, isBoolean_iff,
    List.flatMap_eq_nil_iff, stringArray_eq_nil, Bool.false_eq_true, false_or]
  have htruthy {name : String} {b : Bool} (h : behavior.get name = some (.bool b)) :
      truthy (behavior.get name) = b := by
    rw [h]
    rfl
  constructor
  · rintro ⟨⟨⟨hflags, heffects⟩, hconfirmed⟩, hharmless⟩
    obtain ⟨destructive, hdestructive⟩ := hflags "destructive" (by simp [behaviorFlags])
    obtain ⟨confirmation, hconfirmation⟩ := hflags "requiresConfirmation" (by simp [behaviorFlags])
    obtain ⟨openWorld, hopen⟩ := hflags "openWorld" (by simp [behaviorFlags])
    rw [htruthy hdestructive, htruthy hconfirmation] at hconfirmed
    rw [htruthy hdestructive, htruthy hopen] at hharmless
    refine ⟨hflags, heffects, ?_, ?_⟩
    · intro h
      rw [hdestructive] at h
      cases h
      rw [hconfirmation]
      simpa using hconfirmed
    · intro hpure
      have hquiet : ¬ hasLength (behavior.get "sideEffects") = true := by
        intro h
        exact hharmless ⟨hpure, .inr (.inr h)⟩
      refine ⟨?_, ?_, (hasLength_textList heffects).mp hquiet⟩
      · rw [hopen]
        cases openWorld
        · rfl
        · exact absurd ⟨hpure, .inl rfl⟩ hharmless
      · rw [hdestructive]
        cases destructive
        · rfl
        · exact absurd ⟨hpure, .inr (.inl rfl)⟩ hharmless
  · rintro ⟨hflags, heffects, hconfirmed, hharmless⟩
    obtain ⟨destructive, hdestructive⟩ := hflags "destructive" (by simp [behaviorFlags])
    refine ⟨⟨⟨hflags, heffects⟩, ?_⟩, ?_⟩
    · rintro ⟨hyes, hno⟩
      rw [htruthy hdestructive] at hyes
      subst hyes
      rw [hconfirmed hdestructive] at hno
      exact hno rfl
    · rintro ⟨hpure, hsome⟩
      obtain ⟨hopen, hdestructive', hquiet⟩ := hharmless hpure
      rw [hopen, hdestructive', hquiet] at hsome
      simp [truthy, hasLength] at hsome

theorem permissionIssues_eq_nil {value : JsonValue} :
    permissionIssues value = [] ↔ ObjectWith ["required", "capabilities"]
      ["required", "capabilities"] (PermissionsWith value) (value.get "permissions") := by
  unfold permissionIssues
  rw [requireKeys_eq_nil]
  apply objectWith_congr
  intro permissions _
  simp only [List.append_eq_nil_iff, issueIf_eq_nil, stringArray_eq_nil, Bool.false_eq_true,
    false_or]
  constructor
  · rintro ⟨⟨hrequired, hcapabilities⟩, hharmless⟩
    refine ⟨hrequired, hcapabilities, fun hpure => ⟨?_, ?_⟩⟩
    · exact (hasLength_textList hrequired).mp fun h => hharmless ⟨hpure, .inl h⟩
    · exact (hasLength_textList hcapabilities).mp fun h => hharmless ⟨hpure, .inr h⟩
  · rintro ⟨hrequired, hcapabilities, hharmless⟩
    refine ⟨⟨hrequired, hcapabilities⟩, ?_⟩
    rintro ⟨hpure, hsome⟩
    obtain ⟨hr, hc⟩ := hharmless hpure
    rw [hr, hc] at hsome
    simp [hasLength] at hsome

/-- A list of pointers passes both checks of it. -/
theorem pointers_eq_nil {name path : String} {value : Option JsonValue} :
    stringArray value path 64 true = [] ∧ pointerIssues name value = [] ↔
      TextList 64 (fun s => s.toList ∈ JSON_POINTER.lang) value := by
  have hall {texts : List String} : pointerIssues name (some (.arr (texts.map .str))) = [] ↔
      ∀ s ∈ texts, s.toList ∈ JSON_POINTER.lang := by
    refine (flatMap_zipIdx_eq_nil
      (f := fun index x => issueIf (stringWith (fun s => !JSON_POINTER.test s.toList) (some x))
        s!"/sensitive/{name}/{index}" "必须是合法 JSON Pointer")
      (P := fun x => ¬ stringWith (fun s => !JSON_POINTER.test s.toList) (some x) = true)
      fun _ _ => issueIf_eq_nil).trans ?_
    simp [stringWith, Regex.test_iff]
  rw [stringArray_eq_nil]
  constructor
  · rintro ⟨⟨texts, rfl, hlength, hnodup, -⟩, hpointers⟩
    exact ⟨texts, rfl, hlength, hnodup, hall.mp hpointers⟩
  · rintro ⟨texts, rfl, hlength, hnodup, hpointers⟩
    exact ⟨⟨texts, rfl, hlength, hnodup, fun _ _ => .inl rfl⟩, hall.mpr hpointers⟩

theorem sensitiveIssues_eq_nil {value : JsonValue} :
    sensitiveIssues value = [] ↔ ObjectWith ["input", "output", "redactLogs"]
      ["input", "output", "redactLogs"] SensitiveWith (value.get "sensitive") := by
  unfold sensitiveIssues
  rw [requireKeys_eq_nil]
  apply objectWith_congr
  intro sensitive _
  simp only [List.append_eq_nil_iff, issueIf_eq_nil, not_not, List.flatMap_eq_nil_iff,
    pointers_eq_nil, isBool_iff]
  exact ⟨fun h => ⟨h.1, h.2⟩, fun h => ⟨h.pointers, h.redactLogs⟩⟩

theorem presentationIssues_eq_nil {value : JsonValue} :
    presentationIssues value = [] ↔
      IfPresent (fun x => ObjectWith [] ["route", "icon", "category"] (fun presentation =>
        ∀ field ∈ presentationFields, IfPresent (fun x => ∃ s, x = .str s ∧ 1 ≤ utf16Length s ∧
          utf16Length s ≤ field.2) (presentation.get field.1)) (some x))
        (value.get "presentation") := by
  unfold presentationIssues IfPresent
  cases value.get "presentation" with
  | none => simp
  | some presentation =>
      simp only [Option.isSome_some, if_true, Option.some.injEq, forall_eq', requireKeys_eq_nil]
      apply objectWith_congr
      intro presentation _
      rw [List.flatMap_eq_nil_iff]
      refine forall₂_congr fun field _ => ?_
      rw [issueIf_eq_nil]
      apply ifPresent_iff (P := fun x => ∃ s, x = .str s ∧ 1 ≤ utf16Length s ∧
        utf16Length s ≤ field.2)
        (Q := stringWith fun s => 1 ≤ utf16Length s && utf16Length s ≤ field.2)
      simp [stringWith_iff, TextWith]

/-- The descriptors that the validator accepts. -/
theorem validateActionDescriptor_eq_nil {value : JsonValue} :
    validateActionDescriptor value = .ok [] ↔ WellFormed value := by
  have hkeys (members : List (String × JsonValue)) :
      keyIssues (.obj members) topRequired topAllowed "" = [] ↔
        ObjectWith topRequired topAllowed (fun _ => True) (some (.obj members)) := by
    rw [keyIssues_eq_nil]
    constructor
    · rintro ⟨hrequired, hallowed⟩
      exact ⟨members, rfl, hrequired, hallowed, trivial⟩
    · rintro ⟨_, heq, hrequired, hallowed, -⟩
      cases heq
      exact ⟨hrequired, hallowed⟩
  constructor
  · intro h
    unfold validateActionDescriptor at h
    split at h
    · rename_i members
      obtain ⟨reserved, hreserved, builtin, hbuiltin, h⟩ := by
        simpa only [bind_eq_ok, pure_eq_ok] using h
      simp only [List.append_eq_nil_iff] at h
      obtain ⟨⟨⟨⟨⟨⟨⟨⟨⟨⟨⟨hobject, hhead⟩, hnames⟩, hsource⟩, hinput⟩, houtput⟩, hexamples⟩,
        hexecution⟩, hbehavior⟩, hpermissions⟩, hsensitive⟩, hpresentation⟩ := h
      obtain ⟨hcontract, haction, hversion, htitle, hdescription, hkeywords, haliases⟩ :=
        headIssues_eq_nil.mp hhead
      obtain ⟨texts, htexts, hlength, hnodup, hnonempty⟩ := haliases
      obtain ⟨action, hactionId, -⟩ := id haction
      rw [htexts, forEachAlias_eq] at hreserved hbuiltin
      cases hreserved
      cases hbuiltin
      have hreserved := reservedAlias_eq_nil.mp hnames
      obtain ⟨hexamples, hvectors⟩ := exampleIssues_eq_nil.mp hexamples
      exact ⟨(hkeys members).mp hobject, hcontract, haction, hversion, htitle, hdescription,
        hkeywords, ⟨texts, htexts, hlength, hnodup, fun s hs => ⟨hnonempty s hs, hreserved s hs⟩⟩,
        (sourceIssues_eq_nil htexts hactionId).mp hsource, validateSchemaShape_eq_nil.mp hinput,
        validateSchemaShape_eq_nil.mp houtput, hexamples, hvectors,
        executionIssues_eq_nil.mp hexecution, behaviorIssues_eq_nil.mp hbehavior,
        permissionIssues_eq_nil.mp hpermissions, sensitiveIssues_eq_nil.mp hsensitive,
        presentationIssues_eq_nil.mp hpresentation⟩
    · cases h
  · intro h
    obtain ⟨members, heq, -⟩ := id h.keys
    cases heq
    obtain ⟨texts, htexts, hlength, hnodup, hall⟩ := h.aliases
    obtain ⟨action, hactionId, -⟩ := id h.actionId
    have hhead := headIssues_eq_nil.mpr ⟨h.contractVersion, h.actionId, h.version, h.title,
      h.description, h.keywords, texts, htexts, hlength, hnodup, fun s hs => (hall s hs).1⟩
    unfold validateActionDescriptor
    rw [htexts, forEachAlias_eq, forEachAlias_eq]
    show Except.ok (keyIssues _ _ _ _ ++ _ ++ _ ++ _ ++ _ ++ _ ++ _ ++ _ ++ _ ++ _ ++ _ ++ _) = _
    rw [(hkeys members).mpr h.keys, hhead, reservedAlias_eq_nil.mpr fun s hs => (hall s hs).2,
      (sourceIssues_eq_nil htexts hactionId).mpr h.source,
      validateSchemaShape_eq_nil.mpr h.inputSchema, validateSchemaShape_eq_nil.mpr h.outputSchema,
      exampleIssues_eq_nil.mpr ⟨h.examples, h.testVectors⟩, executionIssues_eq_nil.mpr h.execution,
      behaviorIssues_eq_nil.mpr h.behavior, permissionIssues_eq_nil.mpr h.permissions,
      sensitiveIssues_eq_nil.mpr h.sensitive, presentationIssues_eq_nil.mpr h.presentation]
    rfl

/-- The aliases of an object can be listed: there are none, or they are an array. -/
def AliasesListable (value : JsonValue) : Prop :=
  ∀ members, value = .obj members →
    value.get "aliases" = none ∨ value.get "aliases" = some .null ∨
      ∃ items, value.get "aliases" = some (.arr items)

/-- The validator returns unless the aliases cannot be listed. -/
theorem validateActionDescriptor_returns_iff {value : JsonValue} :
    (∃ issues, validateActionDescriptor value = .ok issues) ↔ AliasesListable value := by
  have hloop (aliases : Option JsonValue) (f : Nat → JsonValue → List Issue) :
      (∃ issues, forEachAlias aliases f = .ok issues) ↔
        aliases = none ∨ aliases = some .null ∨ ∃ items, aliases = some (.arr items) := by
    unfold forEachAlias
    split <;> simp_all
  constructor
  · rintro ⟨issues, h⟩ members rfl
    unfold validateActionDescriptor at h
    obtain ⟨reserved, hreserved, -⟩ := bind_eq_ok.mp h
    exact (hloop _ _).mp ⟨reserved, hreserved⟩
  · intro h
    cases value with
    | obj members =>
        obtain ⟨reserved, hreserved⟩ := (hloop _ reservedAlias).mpr (h members rfl)
        obtain ⟨builtin, hbuiltin⟩ := (hloop _ builtinAlias).mpr (h members rfl)
        unfold validateActionDescriptor
        rw [hreserved, hbuiltin]
        exact ⟨_, rfl⟩
    | _ => exact ⟨_, rfl⟩

end Useful.Actions
