/-
# The published schema of action descriptors

`action-descriptor.schema.json`, keyword by keyword, beside the hand-written validator.
The schema bounds the lengths of texts and the shape of examples, test vectors and nested
value schemas; the validator has no check for these. `WithinSchema` lists them: on the
descriptors that the validator accepts it is what validity comes to.
-/

import Useful.Actions.AcceptedDescriptor

namespace Useful.Actions

open Useful.Math Schema

/-! ## The schema -/

/-- `{ "type": "string", "minLength": low, "maxLength": high }` -/
def text (low high : Nat) : Schema := all [type .string, minLength low, maxLength high]

/-- An array of at most that many different items. -/
def uniqueList (max : Nat) (item : Schema) : Schema :=
  all [type .array, maxItems max, uniqueItems, items item]

/-- An object with `additionalProperties: false`. -/
def closedObject (names : List String) (members : List (String × Schema)) : Schema :=
  all [type .object, closed (members.map Prod.fst), required names, properties members]

/-- `"enum"` of texts. -/
def oneOfTexts (texts : List String) : Schema := enum (texts.map .str)

/-- `"^builtin\\."` -/
def builtinStart : Regex Char := .seq (.word "builtin.".toList) .any

/-- `"^builtin(?:\\.|$)"` -/
def builtinName : Regex Char :=
  .seq (.word "builtin".toList) (.alt .eps (.seq (.letter '.') .any))

/-- `#/$defs/jsonPointer` -/
def jsonPointer : Schema := all [type .string, pattern JSON_POINTER]

def jsonTypeName : Schema := oneOfTexts JSON_TYPES

def count : Schema := all [type .integer, minimum 0]

/-- `#/$defs/valueSchema` -/
def valueSchema : Schema :=
  all [
    closedObject ["type"] [
      ("$schema", const (.str SCHEMA_DIALECT)),
      ("type", oneOf [jsonTypeName, all [type .array, minItems 1, uniqueItems, items jsonTypeName]]),
      ("title", type .string),
      ("description", type .string),
      ("properties", all [type .object, additional [] (ref "valueSchema")]),
      ("required", uniqueList 128 (all [type .string, minLength 1])),
      ("additionalProperties", const (.bool false)),
      ("items", ref "valueSchema"),
      ("enum", all [type .array, minItems 1]),
      ("const", anything),
      ("minLength", count),
      ("maxLength", count),
      ("minimum", type .number),
      ("maximum", type .number),
      ("minItems", count),
      ("maxItems", count),
      ("uniqueItems", type .boolean)],
    ifThen (all [properties [("type", const (.str "object"))], required ["type"]])
      (all [properties [("properties", anything), ("additionalProperties", anything)],
        required ["properties", "additionalProperties"]]),
    ifThen (all [properties [("type", const (.str "array"))], required ["type"]])
      (all [properties [("items", anything)], required ["items"]])]

/-- `$defs` -/
def defs : List (String × Schema) := [("jsonPointer", jsonPointer), ("valueSchema", valueSchema)]

def reservedName : Schema := oneOfTexts RESERVED_ACTION_NAMES

def sourceSchema : Schema :=
  closedObject ["kind", "toolId", "publisher", "digest"] [
    ("kind", oneOfTexts ["builtin", "plugin", "local"]),
    ("toolId", text 1 200),
    ("publisher", closedObject ["id"] [("id", text 1 256), ("name", text 1 200)]),
    ("digest", all [type .string, pattern SHA256])]

def exampleSchema : Schema :=
  closedObject ["name", "input", "output"]
    [("name", text 1 200), ("input", anything), ("output", anything)]

def testVectorSchema : Schema :=
  all [
    closedObject ["name", "input"] [
      ("name", text 1 200),
      ("input", anything),
      ("expectedOutput", anything),
      ("expectedErrorCode", text 1 80)],
    oneOf [
      all [properties [("expectedOutput", anything)], required ["expectedOutput"]],
      all [properties [("expectedErrorCode", anything)], required ["expectedErrorCode"]]]]

def limit (maximum : ℚ) : Schema := all [type .integer, minimum 1, .maximum maximum]

def executionSchema : Schema :=
  closedObject ["mode", "timeoutMs", "maxInputBytes", "maxOutputBytes", "supportsCancellation"] [
    ("mode", oneOfTexts ["pure", "host", "worker", "ui-only"]),
    ("handler", text 1 200),
    ("timeoutMs", limit 3600000),
    ("maxInputBytes", limit 16777216),
    ("maxOutputBytes", limit 16777216),
    ("supportsCancellation", type .boolean)]

def behaviorSchema : Schema :=
  closedObject
    ["readOnly", "destructive", "idempotent", "openWorld", "sideEffects", "requiresConfirmation"] [
    ("readOnly", type .boolean),
    ("destructive", type .boolean),
    ("idempotent", type .boolean),
    ("openWorld", type .boolean),
    ("sideEffects", uniqueList 32 (text 1 120)),
    ("requiresConfirmation", type .boolean)]

def permissionsSchema : Schema :=
  closedObject ["required", "capabilities"] [
    ("required", uniqueList 128 (text 1 128)),
    ("capabilities", uniqueList 128 (text 1 128))]

def sensitiveSchema : Schema :=
  closedObject ["input", "output", "redactLogs"] [
    ("input", uniqueList 64 (ref "jsonPointer")),
    ("output", uniqueList 64 (ref "jsonPointer")),
    ("redactLogs", const (.bool true))]

def presentationSchema : Schema :=
  closedObject [] [("route", text 1 512), ("icon", text 1 128), ("category", text 1 128)]

/-- A condition on the kind of the source. -/
def whenKind (kind : Schema) : Schema :=
  properties [("source", all [type .object, properties [("kind", kind)]])]

def builtinRule : Schema :=
  ifThen (whenKind (const (.str "builtin")))
    (properties [
      ("actionId", all [type .string, pattern builtinStart]),
      ("source", all [type .object,
        properties [("toolId", all [type .string, pattern builtinStart])]])])

def otherRule : Schema :=
  ifThen (whenKind (oneOfTexts ["plugin", "local"]))
    (properties [
      ("actionId", all [type .string, not (pattern builtinStart)]),
      ("source", all [type .object,
        properties [("toolId", all [type .string, not (pattern builtinName)])]]),
      ("aliases", all [type .array, items (all [type .string, not (pattern builtinStart)])])])

/-- `action-descriptor.schema.json` -/
def actionDescriptorSchema : Schema :=
  all [
    closedObject topRequired [
      ("contractVersion", const (.str "1.0")),
      ("actionId", all [type .string, minLength 3, maxLength 200, pattern ACTION_ID,
        not reservedName]),
      ("version", all [type .string, pattern SEMVER]),
      ("source", sourceSchema),
      ("title", text 1 200),
      ("description", text 1 4000),
      ("keywords", uniqueList 64 (text 1 80)),
      ("aliases", uniqueList 32 (all [text 1 80, not reservedName])),
      ("inputSchema", ref "valueSchema"),
      ("outputSchema", ref "valueSchema"),
      ("examples", all [type .array, maxItems 32, items exampleSchema]),
      ("testVectors", all [type .array, minItems 1, maxItems 64, items testVectorSchema]),
      ("execution", executionSchema),
      ("behavior", behaviorSchema),
      ("permissions", permissionsSchema),
      ("sensitive", sensitiveSchema),
      ("presentation", presentationSchema)],
    builtinRule,
    otherRule]

/-- Validity under the published schema. -/
def ValidDescriptor (value : JsonValue) : Prop := Valid defs actionDescriptorSchema value

/-- Validity under `#/$defs/valueSchema`. -/
def ValidValueSchema (value : JsonValue) : Prop := Deref defs "valueSchema" value

/-! ## What only the schema asks -/

/-- The texts have at most that many characters. -/
def AtMost (max : Nat) (s : String) : Prop := s.toList.length ≤ max

/-- The bounds and shapes of a value schema that `validateSchemaShape` has no check for. -/
inductive SchemaWithin : JsonValue → Prop
  | intro {schema : JsonValue}
      (title : IfPresent (fun x => ∃ s, x = .str s) (schema.get "title"))
      (description : IfPresent (fun x => ∃ s, x = .str s) (schema.get "description"))
      (types : IfPresent (fun x => x.elements.Pairwise fun y z => ¬ JsonValue.Same y z)
        (schema.get "type"))
      (properties : includesType schema "object" = true →
        ∀ x, schema.get "properties" = some x → ∀ m ∈ x.members, SchemaWithin m.2)
      (otherProperties : includesType schema "object" = false → IfPresent (fun x =>
        (∃ members, x = .obj members) ∧ ∀ m ∈ x.members, ValidValueSchema m.2)
        (schema.get "properties"))
      (otherAdditional : includesType schema "object" = false →
        IfPresent (· = .bool false) (schema.get "additionalProperties"))
      (items : includesType schema "array" = true →
        ∀ x, schema.get "items" = some x → SchemaWithin x)
      (otherItems : includesType schema "array" = false →
        IfPresent ValidValueSchema (schema.get "items")) :
      SchemaWithin schema

/-- A member that is a text of that many characters. -/
def TextOfLength (low high : Nat) (value : JsonValue) : Prop :=
  ∃ s, value = .str s ∧ low ≤ s.toList.length ∧ s.toList.length ≤ high

/-- The bounds and shapes of a descriptor that the validator has no check for. -/
structure WithinSchema (value : JsonValue) : Prop where
  actionId : TextWith (AtMost 200) (value.get "actionId")
  toolId : ∀ source, value.get "source" = some source →
    TextWith (fun s => AtMost 200 s ∧ s ≠ "builtin") (source.get "toolId")
  publisher : ∀ source publisher, value.get "source" = some source →
    source.get "publisher" = some publisher → TextWith (AtMost 256) (publisher.get "id") ∧
      IfPresent (TextOfLength 1 200) (publisher.get "name")
  title : TextWith (AtMost 200) (value.get "title")
  description : TextWith (AtMost 4000) (value.get "description")
  keywords : TextList 64 (AtMost 80) (value.get "keywords")
  aliases : TextList 32 (AtMost 80) (value.get "aliases")
  inputSchema : IfPresent SchemaWithin (value.get "inputSchema")
  outputSchema : IfPresent SchemaWithin (value.get "outputSchema")
  examples : IfPresent (fun x => x.elements.length ≤ 32 ∧ ∀ item ∈ x.elements,
    ObjectWith ["name", "input", "output"] ["name", "input", "output"] (fun item =>
      IfPresent (TextOfLength 1 200) (item.get "name")) (some item)) (value.get "examples")
  testVectors : IfPresent (fun x => x.elements.length ≤ 64 ∧ ∀ vector ∈ x.elements,
    IfPresent (TextOfLength 1 200) (vector.get "name") ∧
      IfPresent (TextOfLength 1 80) (vector.get "expectedErrorCode")) (value.get "testVectors")
  handler : ∀ execution, value.get "execution" = some execution →
    IfPresent (TextOfLength 1 200) (execution.get "handler")
  sideEffects : ∀ behavior, value.get "behavior" = some behavior →
    TextList 32 (AtMost 120) (behavior.get "sideEffects")
  permissions : ∀ permissions, value.get "permissions" = some permissions →
    TextList 128 (AtMost 128) (permissions.get "required") ∧
      TextList 128 (AtMost 128) (permissions.get "capabilities")

/-! ## Keywords on members that pass -/

section Keywords

variable {deref : String → JsonValue → Prop} {value : Option JsonValue} {w : JsonValue}

@[simp]
theorem ifPresent_none {P : JsonValue → Prop} : IfPresent P none ↔ True := by
  simp [IfPresent]

@[simp]
theorem ifPresent_some {P : JsonValue → Prop} {x : JsonValue} : IfPresent P (some x) ↔ P x := by
  simp [IfPresent]

theorem ifPresent_congr {P Q : JsonValue → Prop} (h : ∀ x, value = some x → (P x ↔ Q x)) :
    IfPresent P value ↔ IfPresent Q value :=
  forall₂_congr h

theorem holds_text {low high : Nat} {x : JsonValue} :
    Holds deref (text low high) x ↔ TextOfLength low high x := by
  unfold text TextOfLength
  rw [holds_all]
  cases x <;> simp [Holds, JsonType.Holds]

theorem ifPresent_text {low high : Nat} :
    IfPresent (Holds deref (text low high)) value ↔ IfPresent (TextOfLength low high) value :=
  ifPresent_congr fun _ _ => holds_text

theorem one_le_length {s : String} (h : s ≠ "") : 1 ≤ s.toList.length := by
  rw [Nat.one_le_iff_ne_zero, Ne, List.length_eq_zero_iff, String.toList_eq_nil_iff]
  exact h

/-- A bound on a text that is not empty. -/
theorem textWith_text {high : Nat} (h : TextWith (· ≠ "") value) :
    IfPresent (Holds deref (text 1 high)) value ↔ TextWith (AtMost high) value := by
  obtain ⟨s, rfl, hs⟩ := h
  rw [ifPresent_some, holds_text]
  simp [TextOfLength, TextWith, AtMost, one_le_length hs]

theorem textList_congr {max : Nat} {P Q R : String → Prop} (h : TextList max P value)
    (hQR : ∀ s, P s → (Q s ↔ R s)) : TextList max Q value ↔ TextList max R value := by
  obtain ⟨texts, rfl, hlength, hnodup, hP⟩ := h
  have hsame {S : String → Prop} : TextList max S (some (.arr (texts.map .str))) ↔
      ∀ s ∈ texts, S s := by
    constructor
    · rintro ⟨texts', heq, -, -, hS⟩
      have : texts = texts' := by
        apply List.map_injective_iff.mpr (fun _ _ h => Json.str.inj h)
        simpa using heq
      exact this ▸ hS
    · exact fun hS => ⟨texts, rfl, hlength, hnodup, hS⟩
  rw [hsame, hsame]
  exact forall₂_congr fun s hs => hQR s (hP s hs)

/-- What a list of different texts has to meet in addition. -/
theorem textList_uniqueList {max : Nat} {P : String → Prop} {item : Schema}
    (h : TextList max P value) :
    IfPresent (Holds deref (uniqueList max item)) value ↔
      TextList max (fun s => Holds deref item (.str s)) value := by
  obtain ⟨texts, rfl, hlength, hnodup, -⟩ := id h
  have hlist : Holds deref (uniqueList max item) (.arr (texts.map .str)) ↔
      ∀ s ∈ texts, Holds deref item (.str s) := by
    unfold uniqueList
    rw [holds_all]
    simp [Holds, JsonType.Holds, hlength, JsonValue.pairwise_not_same_iff_nodup, hnodup]
  rw [ifPresent_some, hlist]
  constructor
  · exact fun hall => ⟨texts, rfl, hlength, hnodup, hall⟩
  · rintro ⟨texts', heq, -, -, hall⟩
    have : texts = texts' := by
      apply List.map_injective_iff.mpr (fun _ _ h => Json.str.inj h)
      simpa using heq
    exact this ▸ hall

/-- A bound on the texts of a list that are not empty. -/
theorem textList_text {max high : Nat} {P : String → Prop} (h : TextList max P value)
    (hP : ∀ s, P s → s ≠ "") :
    IfPresent (Holds deref (uniqueList max (text 1 high))) value ↔
      TextList max (AtMost high) value := by
  rw [textList_uniqueList h]
  apply textList_congr h
  intro s hs
  rw [holds_text]
  simp [TextOfLength, AtMost, one_le_length (hP s hs)]

theorem holds_closedObject {names : List String} {members : List (String × Schema)} :
    Holds deref (closedObject names members) w ↔ (∃ ms, w = .obj ms) ∧
      (∀ key ∈ w.keys, key ∈ members.map Prod.fst) ∧ (∀ name ∈ names, name ∈ w.keys) ∧
      ∀ m ∈ members, IfPresent (Holds deref m.2) (w.get m.1) := by
  unfold closedObject
  rw [holds_all]
  simp only [List.mem_cons, List.not_mem_nil, or_false, forall_eq_or_imp, forall_eq,
    holds_properties]
  constructor
  · rintro ⟨hobject, hclosed, hrequired, hmembers⟩
    obtain ⟨ms, rfl⟩ := id hobject
    exact ⟨hobject, hclosed, hrequired ms rfl, hmembers⟩
  · rintro ⟨hobject, hclosed, hrequired, hmembers⟩
    exact ⟨hobject, hclosed, fun _ _ => hrequired, hmembers⟩

/-- What an object with the right members has to meet in addition. -/
theorem objectWith_closedObject {required allowed : List String} {P : JsonValue → Prop}
    {members : List (String × Schema)} (h : ObjectWith required allowed P (some w))
    (hmembers : ∀ key ∈ allowed, key ∈ members.map Prod.fst) :
    Holds deref (closedObject required members) w ↔
      ∀ m ∈ members, IfPresent (Holds deref m.2) (w.get m.1) := by
  obtain ⟨ms, heq, hrequired, hallowed, -⟩ := h
  obtain rfl := Option.some.inj heq
  rw [holds_closedObject]
  constructor
  · exact fun h => h.2.2.2
  · exact fun h => ⟨⟨ms, rfl⟩, fun key hkey => hmembers key (hallowed key hkey), hrequired, h⟩

theorem holds_count {x : JsonValue} :
    Holds deref count x ↔ ∃ q, x = .num q ∧ q.isInt = true ∧ 0 ≤ q := by
  unfold count
  rw [holds_all]
  cases x <;> simp [Holds, JsonType.Holds]

theorem holds_limit {maximum : ℚ} {x : JsonValue} :
    Holds deref (limit maximum) x ↔ ∃ q, x = .num q ∧ q.isInt = true ∧ 1 ≤ q ∧ q ≤ maximum := by
  unfold limit
  rw [holds_all]
  cases x <;> simp [Holds, JsonType.Holds]

theorem holds_oneOfTexts {texts : List String} {x : JsonValue} :
    Holds deref (oneOfTexts texts) x ↔ ∃ s ∈ texts, x = .str s :=
  holds_enum_str

/-- A condition on a member that is required and has to be one text. -/
theorem holds_member_const {name s : String} :
    Holds deref (all [properties [(name, const (.str s))], required [name]]) w ↔
      ((∃ members, w = .obj members) → w.get name = some (.str s)) := by
  rw [holds_all]
  simp only [List.mem_cons, List.not_mem_nil, or_false, forall_eq_or_imp, forall_eq,
    holds_properties, holds_const_str]
  constructor
  · rintro ⟨hconst, hrequired⟩ ⟨members, rfl⟩
    obtain ⟨x, hx⟩ := Json.mem_keys.mp (hrequired members rfl name (by simp))
    rw [hx, hconst x hx]
  · intro h
    constructor
    · intro x hx
      rw [h (Json.exists_obj_of_get hx)] at hx
      exact (Option.some.inj hx).symm
    · rintro members rfl key hkey
      obtain rfl := List.mem_singleton.mp hkey
      exact Json.mem_keys.mpr ⟨_, h ⟨members, rfl⟩⟩

/-- Members that are required, whatever they are. -/
theorem holds_present {names : List String} {members : List (String × Schema)}
    (hmembers : ∀ m ∈ members, m.2 = anything) (hobject : ∃ ms, w = .obj ms) :
    Holds deref (all [properties members, required names]) w ↔ ∀ name ∈ names, name ∈ w.keys := by
  obtain ⟨ms, rfl⟩ := hobject
  rw [holds_all]
  simp only [List.mem_cons, List.not_mem_nil, or_false, forall_eq_or_imp, forall_eq,
    holds_properties]
  constructor
  · exact fun h => h.2 ms rfl
  · refine fun h => ⟨fun m hm x _ => ?_, fun _ _ => h⟩
    rw [hmembers m hm]
    exact holds_anything

end Keywords

/-! ## Value schemas -/

/-- The type that a value schema declares, or its types. -/
theorem SchemaKeywords.type_cases {schema : JsonValue} (h : SchemaKeywords schema) :
    (∃ s, schema.get "type" = some (.str s) ∧ s ∈ JSON_TYPES) ∨
      ∃ texts : List String, schema.get "type" = some (.arr (texts.map .str)) ∧ texts ≠ [] ∧
        ∀ s ∈ texts, s ∈ JSON_TYPES := by
  obtain ⟨hsome, hall⟩ := h.types
  unfold declaredTypes at hsome hall
  split at hsome
  · rename_i items hitems
    rw [hitems] at hall
    refine .inr ?_
    have htexts : ∃ texts : List String, items = texts.map .str ∧ ∀ s ∈ texts, s ∈ JSON_TYPES := by
      clear hitems hsome
      induction items with
      | nil => exact ⟨[], rfl, by simp⟩
      | cons item items ih =>
          obtain ⟨s, hs, hmem⟩ := hall (some item) (by simp)
          obtain rfl := Option.some.inj hs
          obtain ⟨texts, rfl, htexts⟩ := ih fun type htype => hall type (by simp_all)
          exact ⟨s :: texts, rfl, List.forall_mem_cons.mpr ⟨hmem, htexts⟩⟩
    obtain ⟨texts, rfl, htexts⟩ := htexts
    exact ⟨texts, hitems, by simpa using hsome, htexts⟩
  · rename_i hno
    have hone := hall (schema.get "type") (by
      split
      · rename_i items hitems
        exact absurd hitems (hno items)
      · exact List.mem_singleton_self _)
    obtain ⟨s, hs, hmem⟩ := hone
    exact .inl ⟨s, hs, hmem⟩

/-- A declared type counts, alone or in a list. -/
theorem includesType_of_eq {schema : JsonValue} {type : String}
    (h : schema.get "type" = some (.str type)) : includesType schema type = true := by
  simp [includesType, declaredTypes, h, isText]

section ValueSchemas

variable {deref : String → JsonValue → Prop}

/-- Types that pass are valid if none is declared twice. -/
theorem holds_type {schema : JsonValue} (h : SchemaKeywords schema) :
    IfPresent (Holds deref (oneOf [jsonTypeName,
        all [type .array, minItems 1, uniqueItems, items jsonTypeName]])) (schema.get "type") ↔
      IfPresent (fun x => x.elements.Pairwise fun y z => ¬ JsonValue.Same y z)
        (schema.get "type") := by
  rcases h.type_cases with ⟨s, hs, hmem⟩ | ⟨texts, htexts, hne, hall⟩
  · rw [hs, ifPresent_some, ifPresent_some]
    have hname : Holds deref jsonTypeName (.str s) := holds_oneOfTexts.mpr ⟨s, hmem, rfl⟩
    have hlist : ¬ Holds deref (all [type .array, minItems 1, uniqueItems, items jsonTypeName])
        (.str s) := by
      rw [holds_all]
      simp [Holds, JsonType.Holds]
    simp [holds_oneOf, hname, hlist, Json.elements]
  · rw [htexts, ifPresent_some, ifPresent_some]
    have hname : ¬ Holds deref jsonTypeName (.arr (texts.map .str)) := by
      rw [jsonTypeName, holds_oneOfTexts]
      simp
    have hlist : Holds deref (all [type .array, minItems 1, uniqueItems, items jsonTypeName])
        (.arr (texts.map .str)) ↔
          (texts.map Json.str).Pairwise fun y z => ¬ JsonValue.Same y z := by
      have hitems : ∀ s ∈ texts, Holds deref jsonTypeName (.str s) := fun s hs =>
        holds_oneOfTexts.mpr ⟨s, hall s hs, rfl⟩
      have hlength : 1 ≤ texts.length := by
        rw [Nat.one_le_iff_ne_zero, Ne, List.length_eq_zero_iff]
        exact hne
      rw [holds_all]
      simpa [Holds, JsonType.Holds, hlength] using fun _ => hitems
    rw [Json.elements_arr, ← hlist]
    simp [holds_oneOf, hname]

/-- What the published schema asks of a value schema whose own keywords pass. -/
theorem holds_valueSchema {schema : JsonValue} (h : SchemaKeywords schema) :
    Holds deref valueSchema schema ↔
      IfPresent (fun x => x.elements.Pairwise fun y z => ¬ JsonValue.Same y z)
        (schema.get "type") ∧
      IfPresent (fun x => ∃ s, x = .str s) (schema.get "title") ∧
      IfPresent (fun x => ∃ s, x = .str s) (schema.get "description") ∧
      IfPresent (fun x => (∃ members, x = .obj members) ∧
        ∀ m ∈ x.members, deref "valueSchema" m.2) (schema.get "properties") ∧
      IfPresent (· = .bool false) (schema.get "additionalProperties") ∧
      IfPresent (deref "valueSchema") (schema.get "items") := by
  have hobject : ObjectWith ["type"] SCHEMA_KEYS (fun _ => True) (some schema) := by
    obtain ⟨members, rfl⟩ := h.object
    refine ⟨members, rfl, ?_, h.keys, trivial⟩
    intro key hkey
    obtain rfl := List.mem_singleton.mp hkey
    rcases h.type_cases with ⟨s, hs, -⟩ | ⟨texts, htexts, -⟩
    · exact Json.mem_keys.mpr ⟨_, hs⟩
    · exact Json.mem_keys.mpr ⟨_, htexts⟩
  have hdialect : IfPresent (Holds deref (const (.str SCHEMA_DIALECT))) (schema.get "$schema") :=
    (ifPresent_congr fun _ _ => holds_const_str).mpr h.dialect
  have hcount {key : String} (hkey : key ∈ ["minLength", "maxLength", "minItems", "maxItems"]) :
      IfPresent (Holds deref count) (schema.get key) :=
    (ifPresent_congr fun _ _ => holds_count).mpr (h.bounds key hkey)
  have hnumber {key : String} (hkey : key ∈ ["minimum", "maximum"]) :
      IfPresent (Holds deref (type .number)) (schema.get key) := h.numbers key hkey
  have hrequired : IfPresent (Holds deref (uniqueList 128 (all [type .string, minLength 1])))
      (schema.get "required") := by
    intro x hx
    have hlist := h.required x hx
    refine (textList_uniqueList hlist).mpr ?_ x rfl
    refine (textList_congr hlist fun s hs => ?_).mp hlist
    rw [holds_all]
    simp [Holds, JsonType.Holds, hs, one_le_length hs]
  have henum : IfPresent (Holds deref (all [type .array, minItems 1])) (schema.get "enum") := by
    intro x hx
    obtain ⟨items, rfl, hne⟩ := h.enum x hx
    rw [holds_all]
    have hlength : 1 ≤ items.length := by
      rw [Nat.one_le_iff_ne_zero, Ne, List.length_eq_zero_iff]
      exact hne
    simp [Holds, JsonType.Holds, hlength]
  have hproperties : IfPresent (Holds deref (all [type .object, additional [] (ref "valueSchema")]))
        (schema.get "properties") ↔
      IfPresent (fun x => (∃ members, x = .obj members) ∧
        ∀ m ∈ x.members, deref "valueSchema" m.2) (schema.get "properties") := by
    apply ifPresent_congr
    intro x _
    rw [holds_all]
    simp [Holds, JsonType.Holds]
  have hadditional : IfPresent (Holds deref (const (.bool false)))
        (schema.get "additionalProperties") ↔
      IfPresent (· = .bool false) (schema.get "additionalProperties") :=
    ifPresent_congr fun _ _ => holds_const_bool
  have hmustObject : Holds deref (all [properties [("type", const (.str "object"))],
      required ["type"]]) schema → Holds deref (all [properties [("properties", anything),
        ("additionalProperties", anything)], required ["properties", "additionalProperties"]])
        schema := by
    intro htype
    have hclosed := h.closed (includesType_of_eq (holds_member_const.mp htype h.object))
    obtain ⟨⟨members, hmembers⟩, hfalse⟩ := hclosed
    rw [holds_present (by simp) h.object]
    simp [Json.mem_keys, hmembers, hfalse]
  have hmustArray : Holds deref (all [properties [("type", const (.str "array"))],
      required ["type"]]) schema → Holds deref (all [properties [("items", anything)],
        required ["items"]]) schema := by
    intro htype
    obtain ⟨members, hmembers⟩ :=
      h.single (includesType_of_eq (holds_member_const.mp htype h.object))
    rw [holds_present (by simp) h.object]
    simp [Json.mem_keys, hmembers]
  rw [valueSchema, holds_all]
  simp only [List.forall_mem_cons, List.not_mem_nil, false_imp_iff, implies_true, and_true]
  rw [objectWith_closedObject hobject (by decide)]
  simp only [List.forall_mem_cons, List.not_mem_nil, false_imp_iff, implies_true, and_true]
  rw [holds_type h, hproperties, hadditional]
  constructor
  · rintro ⟨⟨-, htype, htitle, hdescription, hprops, -, hadd, hitems, -⟩, -⟩
    exact ⟨htype, htitle, hdescription, hprops, hadd, hitems⟩
  · rintro ⟨htype, htitle, hdescription, hprops, hadd, hitems⟩
    exact ⟨⟨hdialect, htype, htitle, hdescription, hprops, hrequired, hadd, hitems, henum,
      fun _ _ => holds_anything, hcount (by simp), hcount (by simp), hnumber (by simp),
      hnumber (by simp), hcount (by simp), hcount (by simp),
      h.uniqueItems⟩, hmustObject, hmustArray⟩

end ValueSchemas

/-- A reference is followed on the parts of a value. -/
theorem validValueSchema_unfold {schema : JsonValue} :
    ValidValueSchema schema ↔
      Holds (fun name x => ∃ _ : x.depth < schema.depth, Deref defs name x) valueSchema schema := by
  rw [ValidValueSchema, Deref]
  constructor
  · rintro ⟨part, hpart, h⟩
    obtain rfl : valueSchema = part := Option.some.inj hpart
    exact h
  · exact fun h => ⟨valueSchema, rfl, h⟩

/-- A value schema that passes is valid when it keeps within the schema's bounds. -/
theorem validValueSchema_iff {schema : JsonValue} (h : ValueSchema schema) :
    ValidValueSchema schema ↔ SchemaWithin schema := by
  induction h with
  | @intro schema keywords hproperties hitems ihproperties ihitems =>
    have hchildren : IfPresent (fun x => (∃ members, x = .obj members) ∧ ∀ m ∈ x.members,
          ∃ _ : m.2.depth < schema.depth, Deref defs "valueSchema" m.2) (schema.get "properties") ↔
        IfPresent (fun x => (∃ members, x = .obj members) ∧ ∀ m ∈ x.members,
          ValidValueSchema m.2) (schema.get "properties") := by
      apply ifPresent_congr
      intro x hx
      refine and_congr_right fun _ => forall₂_congr fun m hm => ?_
      have hdepth := (Json.depth_lt_of_mem_members hm).trans (Json.depth_lt_of_get hx)
      simp [hdepth, ValidValueSchema]
    have hchild : IfPresent (fun x => ∃ _ : x.depth < schema.depth, Deref defs "valueSchema" x)
          (schema.get "items") ↔ IfPresent ValidValueSchema (schema.get "items") := by
      apply ifPresent_congr
      intro x hx
      simp [Json.depth_lt_of_get hx, ValidValueSchema]
    rw [validValueSchema_unfold, holds_valueSchema keywords, hchildren, hchild]
    constructor
    · rintro ⟨htype, htitle, hdescription, hprops, hadd, hitem⟩
      refine ⟨htitle, hdescription, htype, ?_, fun _ => hprops, fun _ => hadd, ?_, fun _ => hitem⟩
      · intro hobject x hx m hm
        exact (ihproperties hobject x hx m hm).mp ((hprops x hx).2 m hm)
      · intro harray x hx
        exact (ihitems harray x hx).mp (hitem x hx)
    · rintro ⟨htitle, hdescription, htype, hprops, hprops', hadd', hitem, hitem'⟩
      refine ⟨htype, htitle, hdescription, ?_, ?_, ?_⟩
      · cases hobject : includesType schema "object" with
        | false => exact hprops' hobject
        | true =>
            intro x hx
            obtain ⟨⟨members, hmembers⟩, -⟩ := keywords.closed hobject
            obtain rfl := Option.some.inj (hmembers.symm.trans hx)
            refine ⟨⟨members, rfl⟩, fun m hm => ?_⟩
            exact (ihproperties hobject _ hx m hm).mpr (hprops hobject _ hx m hm)
      · cases hobject : includesType schema "object" with
        | false => exact hadd' hobject
        | true =>
            rw [(keywords.closed hobject).2, ifPresent_some]
      · cases harray : includesType schema "array" with
        | false => exact hitem' harray
        | true =>
            exact fun x hx => (ihitems harray x hx).mpr (hitem harray x hx)

/-! ## Patterns -/

/-- An action id has at least three characters. -/
theorem three_le_of_actionId {w : List Char} (h : w ∈ ACTION_ID.lang) : 3 ≤ w.length := by
  obtain ⟨_, ⟨a, -, rfl⟩, v, hv, rfl⟩ := Regex.mem_seq.mp h
  obtain ⟨u, -, x, hx, rfl⟩ := Regex.mem_seq.mp hv
  obtain ⟨part, hpart, rest, -, rfl⟩ := Regex.mem_seq.mp hx
  obtain ⟨_, hdot, y, hy, rfl⟩ := Regex.mem_seq.mp hpart
  obtain rfl := Regex.mem_letter.mp hdot
  obtain ⟨_, ⟨b, -, rfl⟩, z, -, rfl⟩ := Regex.mem_seq.mp hy
  simp only [List.length_append, List.length_cons, List.length_nil]
  omega

theorem mem_builtinStart {s : String} :
    s.toList ∈ builtinStart.lang ↔ startsWith "builtin." s = true := by
  rw [builtinStart, Regex.mem_word_any, startsWith, List.isPrefixOf_iff_prefix]

theorem mem_builtinName {s : String} :
    s.toList ∈ builtinName.lang ↔ s = "builtin" ∨ startsWith "builtin." s = true := by
  rw [← mem_builtinStart, builtinStart, Regex.mem_word_any, builtinName, Regex.mem_seq]
  have hword : "builtin.".toList = "builtin".toList ++ ['.'] := by decide
  constructor
  · rintro ⟨u, hu, v, hv, heq⟩
    rw [Regex.mem_word.mp hu] at heq
    rcases hv with hv | hv
    · rw [Regex.mem_eps.mp hv, List.append_nil] at heq
      exact .inl (String.toList_inj.mp heq.symm)
    · obtain ⟨_, hdot, rest, -, rfl⟩ := Regex.mem_seq.mp hv
      rw [Regex.mem_letter.mp hdot] at heq
      refine .inr ⟨rest, ?_⟩
      rw [hword, List.append_assoc, heq]
  · rintro (rfl | ⟨rest, heq⟩)
    · exact ⟨_, Regex.mem_word.mpr rfl, [], .inl rfl, List.append_nil _⟩
    · refine ⟨_, Regex.mem_word.mpr rfl, '.' :: rest, .inr ?_, ?_⟩
      · exact Regex.mem_seq.mpr ⟨['.'], Regex.mem_letter.mpr rfl, rest,
          Regex.mem_star_cls.mpr fun _ _ => rfl, rfl⟩
      · rw [← heq, hword, List.append_assoc]
        rfl

/-- A text has no more characters than code units. -/
theorem length_le_utf16Length (s : String) : s.toList.length ≤ utf16Length s := by
  unfold utf16Length
  induction s.toList with
  | nil => exact Nat.zero_le _
  | cons c text ih =>
      have hone : 1 ≤ (utf16Char c).length := by
        rw [Nat.one_le_iff_ne_zero, Ne, List.length_eq_zero_iff]
        exact utf16Char_ne_nil c
      rw [utf16_cons, List.length_append, List.length_cons]
      omega

/-! ## Descriptors -/

section Descriptors

variable {value : JsonValue}

/-- Every reference to a pointer is about its pattern. -/
theorem deref_jsonPointer {s : String} :
    Deref defs "jsonPointer" (.str s) ↔ s.toList ∈ JSON_POINTER.lang := by
  rw [Deref]
  constructor
  · rintro ⟨part, hpart, h⟩
    obtain rfl : jsonPointer = part := Option.some.inj hpart
    rw [jsonPointer, holds_all] at h
    exact h (pattern JSON_POINTER) (by simp) s rfl
  · intro h
    refine ⟨jsonPointer, rfl, ?_⟩
    rw [jsonPointer, holds_all]
    simpa [Holds, JsonType.Holds] using h

theorem actionId_within
    (h : TextWith (fun s => s.toList ∈ ACTION_ID.lang ∧ NotReserved s) (value.get "actionId")) :
    IfPresent (Holds (Deref defs) (all [type .string, minLength 3, maxLength 200,
        pattern ACTION_ID, not reservedName])) (value.get "actionId") ↔
      TextWith (AtMost 200) (value.get "actionId") := by
  obtain ⟨s, hs, hlang, hreserved⟩ := h
  have hname : ¬ Holds (Deref defs) reservedName (.str s) := by
    rw [reservedName, holds_oneOfTexts]
    rintro ⟨t, ht, heq⟩
    exact hreserved (Json.str.inj heq ▸ ht)
  rw [hs, ifPresent_some, holds_all]
  simp [Holds, JsonType.Holds, TextWith, AtMost, three_le_of_actionId hlang, hlang, hname]

theorem source_within (h : ObjectWith ["kind", "toolId", "publisher", "digest"]
      ["kind", "toolId", "publisher", "digest"] (SourceWith value) (value.get "source")) :
    IfPresent (Holds (Deref defs) sourceSchema) (value.get "source") ↔
      (∀ source, value.get "source" = some source → TextWith (AtMost 200) (source.get "toolId")) ∧
      ∀ source publisher, value.get "source" = some source →
        source.get "publisher" = some publisher → TextWith (AtMost 256) (publisher.get "id") ∧
          IfPresent (TextOfLength 1 200) (publisher.get "name") := by
  obtain ⟨members, hsource, hrequired, hallowed, source⟩ := h
  obtain ⟨kind, hkind, hmem⟩ := source.kind
  obtain ⟨digest, hdigest, hlang⟩ := source.digest
  obtain ⟨pubMembers, hpublisher, hid, hnames, hpub⟩ := source.publisher
  have hobject : ObjectWith ["kind", "toolId", "publisher", "digest"]
      ["kind", "toolId", "publisher", "digest"] (fun _ => True) (some (.obj members)) :=
    ⟨members, rfl, hrequired, hallowed, trivial⟩
  have hpubObject : ObjectWith ["id"] ["id", "name"] (fun _ => True) (some (.obj pubMembers)) :=
    ⟨pubMembers, rfl, hid, hnames, trivial⟩
  have hkind' : Holds (Deref defs) (oneOfTexts ["builtin", "plugin", "local"]) (.str kind) :=
    holds_oneOfTexts.mpr ⟨kind, hmem, rfl⟩
  have hdigest' : Holds (Deref defs) (all [type .string, pattern SHA256]) (.str digest) := by
    rw [holds_all]
    simpa [Holds, JsonType.Holds] using hlang
  rw [hsource, ifPresent_some, sourceSchema, objectWith_closedObject hobject (by decide)]
  simp only [List.forall_mem_cons, List.not_mem_nil, false_imp_iff, implies_true, and_true, hkind,
    hdigest, hpublisher, ifPresent_some, hkind', hdigest', true_and, textWith_text source.toolId,
    Option.some.injEq, forall_eq']
  rw [objectWith_closedObject hpubObject (by decide)]
  simp only [List.forall_mem_cons, List.not_mem_nil, false_imp_iff, implies_true, and_true,
    textWith_text hpub, ifPresent_text]
  refine and_congr_right fun _ => ?_
  constructor
  · rintro hfields source publisher rfl hpublisher'
    obtain rfl := Option.some.inj (hpublisher.symm.trans hpublisher')
    exact hfields
  · exact fun h => h _ _ rfl hpublisher

theorem examples_within (h : ∃ items, value.get "examples" = some (.arr items)) :
    IfPresent (Holds (Deref defs) (all [type .array, maxItems 32, items exampleSchema]))
        (value.get "examples") ↔
      IfPresent (fun x => x.elements.length ≤ 32 ∧ ∀ item ∈ x.elements,
        ObjectWith ["name", "input", "output"] ["name", "input", "output"] (fun item =>
          IfPresent (TextOfLength 1 200) (item.get "name")) (some item)) (value.get "examples") := by
  obtain ⟨items, hitems⟩ := h
  have hexample (item : JsonValue) : Holds (Deref defs) exampleSchema item ↔
      ObjectWith ["name", "input", "output"] ["name", "input", "output"] (fun item =>
        IfPresent (TextOfLength 1 200) (item.get "name")) (some item) := by
    rw [exampleSchema, holds_closedObject]
    simp only [List.forall_mem_cons (p := fun m : String × Schema => _), List.not_mem_nil,
      false_imp_iff, implies_true, and_true, ifPresent_text]
    constructor
    · rintro ⟨⟨members, rfl⟩, hclosed, hrequired, hname, -⟩
      exact ⟨members, rfl, hrequired, hclosed, hname⟩
    · rintro ⟨members, heq, hrequired, hclosed, hname⟩
      obtain rfl := Option.some.inj heq
      exact ⟨⟨members, rfl⟩, hclosed, hrequired, hname, fun _ _ => holds_anything,
        fun _ _ => holds_anything⟩
  rw [hitems, ifPresent_some, ifPresent_some, holds_all]
  simp [Holds, JsonType.Holds, hexample]

theorem testVectors_within (h : ∃ items, value.get "testVectors" = some (.arr items) ∧
      items ≠ [] ∧ ∀ vector ∈ items, TestVector vector) :
    IfPresent (Holds (Deref defs) (all [type .array, minItems 1, maxItems 64,
        items testVectorSchema])) (value.get "testVectors") ↔
      IfPresent (fun x => x.elements.length ≤ 64 ∧ ∀ vector ∈ x.elements,
        IfPresent (TextOfLength 1 200) (vector.get "name") ∧
          IfPresent (TextOfLength 1 80) (vector.get "expectedErrorCode"))
        (value.get "testVectors") := by
  obtain ⟨items, hitems, hne, hvectors⟩ := h
  have hlength : 1 ≤ items.length := by
    rw [Nat.one_le_iff_ne_zero, Ne, List.length_eq_zero_iff]
    exact hne
  have hvector : ∀ vector ∈ items, (Holds (Deref defs) testVectorSchema vector ↔
      IfPresent (TextOfLength 1 200) (vector.get "name") ∧
        IfPresent (TextOfLength 1 80) (vector.get "expectedErrorCode")) := by
    intro vector hmem
    have hone := hvectors vector hmem
    obtain ⟨members, heq, -, -, hexpected⟩ := id hone
    obtain rfl := Option.some.inj heq
    rw [testVectorSchema, holds_all]
    simp only [List.forall_mem_cons, List.not_mem_nil, false_imp_iff, implies_true, and_true]
    rw [objectWith_closedObject hone (by decide), holds_oneOf,
      holds_present (by simp) ⟨members, rfl⟩, holds_present (by simp) ⟨members, rfl⟩]
    simp only [List.forall_mem_cons, List.not_mem_nil, false_imp_iff, implies_true, and_true,
      ifPresent_text]
    constructor
    · rintro ⟨⟨hname, -, -, hcode⟩, -⟩
      exact ⟨hname, hcode⟩
    · rintro ⟨hname, hcode⟩
      refine ⟨⟨hname, fun _ _ => holds_anything, fun _ _ => holds_anything, hcode⟩, ?_⟩
      by_cases houtput : "expectedOutput" ∈ (Json.obj members : JsonValue).keys
      · exact .inl ⟨houtput, hexpected.mp houtput⟩
      · exact .inr ⟨houtput, not_not.mp fun hcode => houtput (hexpected.mpr hcode)⟩
  rw [hitems, ifPresent_some, ifPresent_some, holds_all]
  simp only [List.forall_mem_cons, List.not_mem_nil, false_imp_iff, implies_true, and_true]
  simp only [Holds, JsonType.Holds, Json.elements_arr, Json.arr.injEq, forall_eq', exists_eq',
    true_and, hlength]
  exact and_congr_right fun _ => forall₂_congr hvector

theorem execution_within (h : ObjectWith
      ["mode", "timeoutMs", "maxInputBytes", "maxOutputBytes", "supportsCancellation"]
      ["mode", "handler", "timeoutMs", "maxInputBytes", "maxOutputBytes", "supportsCancellation"]
      ExecutionWith (value.get "execution")) :
    IfPresent (Holds (Deref defs) executionSchema) (value.get "execution") ↔
      ∀ execution, value.get "execution" = some execution →
        IfPresent (TextOfLength 1 200) (execution.get "handler") := by
  obtain ⟨members, hexecution, hrequired, hallowed, execution⟩ := h
  have hobject : ObjectWith
      ["mode", "timeoutMs", "maxInputBytes", "maxOutputBytes", "supportsCancellation"]
      ["mode", "handler", "timeoutMs", "maxInputBytes", "maxOutputBytes", "supportsCancellation"]
      (fun _ => True) (some (.obj members)) := ⟨members, rfl, hrequired, hallowed, trivial⟩
  have hlimit {name : String} {maximum : ℚ} (hmem : (name, maximum) ∈ limits) :
      IfPresent (Holds (Deref defs) (limit maximum)) ((Json.obj members : JsonValue).get name) := by
    obtain ⟨q, hq, hbounds⟩ := execution.limits _ hmem
    rw [hq, ifPresent_some, holds_limit]
    exact ⟨q, rfl, hbounds⟩
  obtain ⟨mode, hmode, hmodes⟩ := execution.mode
  obtain ⟨b, hb⟩ := execution.supportsCancellation
  have hmode' : Holds (Deref defs) (oneOfTexts ["pure", "host", "worker", "ui-only"]) (.str mode) :=
    holds_oneOfTexts.mpr ⟨mode, hmodes, rfl⟩
  have hb' : Holds (Deref defs) (type .boolean) (.bool b) := ⟨b, rfl⟩
  rw [hexecution, ifPresent_some, executionSchema, objectWith_closedObject hobject (by decide)]
  simp only [List.forall_mem_cons, List.not_mem_nil, false_imp_iff, implies_true, and_true, hmode,
    hb, ifPresent_some, hmode', hb', true_and, ifPresent_text, Option.some.injEq, forall_eq']
  exact and_iff_left ⟨hlimit (by simp [limits]), hlimit (by simp [limits]), hlimit (by simp [limits])⟩

theorem behavior_within (h : ObjectWith
      ["readOnly", "destructive", "idempotent", "openWorld", "sideEffects", "requiresConfirmation"]
      ["readOnly", "destructive", "idempotent", "openWorld", "sideEffects", "requiresConfirmation"]
      (BehaviorWith value) (value.get "behavior")) :
    IfPresent (Holds (Deref defs) behaviorSchema) (value.get "behavior") ↔
      ∀ behavior, value.get "behavior" = some behavior →
        TextList 32 (AtMost 120) (behavior.get "sideEffects") := by
  obtain ⟨members, hbehavior, hrequired, hallowed, behavior⟩ := h
  have hobject : ObjectWith
      ["readOnly", "destructive", "idempotent", "openWorld", "sideEffects", "requiresConfirmation"]
      ["readOnly", "destructive", "idempotent", "openWorld", "sideEffects", "requiresConfirmation"]
      (fun _ => True) (some (.obj members)) := ⟨members, rfl, hrequired, hallowed, trivial⟩
  have hflag {name : String} (hname : name ∈ behaviorFlags) :
      IfPresent (Holds (Deref defs) (type .boolean)) ((Json.obj members : JsonValue).get name) := by
    obtain ⟨b, hb⟩ := behavior.flags name hname
    rw [hb, ifPresent_some]
    exact ⟨b, rfl⟩
  rw [hbehavior, ifPresent_some, behaviorSchema, objectWith_closedObject hobject (by decide)]
  simp only [List.forall_mem_cons, List.not_mem_nil, false_imp_iff, implies_true, and_true,
    textList_text behavior.sideEffects (fun _ => id), Option.some.injEq, forall_eq']
  constructor
  · exact fun h => h.2.2.2.2.1
  · exact fun h => ⟨hflag (by simp [behaviorFlags]), hflag (by simp [behaviorFlags]),
      hflag (by simp [behaviorFlags]), hflag (by simp [behaviorFlags]), h,
      hflag (by simp [behaviorFlags])⟩

theorem permissions_within (h : ObjectWith ["required", "capabilities"]
      ["required", "capabilities"] (PermissionsWith value) (value.get "permissions")) :
    IfPresent (Holds (Deref defs) permissionsSchema) (value.get "permissions") ↔
      ∀ permissions, value.get "permissions" = some permissions →
        TextList 128 (AtMost 128) (permissions.get "required") ∧
          TextList 128 (AtMost 128) (permissions.get "capabilities") := by
  obtain ⟨members, hpermissions, hrequired, hallowed, permissions⟩ := h
  have hobject : ObjectWith ["required", "capabilities"] ["required", "capabilities"]
      (fun _ => True) (some (.obj members)) := ⟨members, rfl, hrequired, hallowed, trivial⟩
  rw [hpermissions, ifPresent_some, permissionsSchema,
    objectWith_closedObject hobject (by decide)]
  simp only [List.forall_mem_cons, List.not_mem_nil, false_imp_iff, implies_true, and_true,
    textList_text permissions.required (fun _ => id),
    textList_text permissions.capabilities (fun _ => id), Option.some.injEq, forall_eq']

theorem sensitive_within (h : ObjectWith ["input", "output", "redactLogs"]
      ["input", "output", "redactLogs"] SensitiveWith (value.get "sensitive")) :
    IfPresent (Holds (Deref defs) sensitiveSchema) (value.get "sensitive") := by
  obtain ⟨members, hsensitive, hrequired, hallowed, sensitive⟩ := h
  have hobject : ObjectWith ["input", "output", "redactLogs"] ["input", "output", "redactLogs"]
      (fun _ => True) (some (.obj members)) := ⟨members, rfl, hrequired, hallowed, trivial⟩
  have hpointers {name : String} (hname : name ∈ ["input", "output"]) :
      IfPresent (Holds (Deref defs) (uniqueList 64 (ref "jsonPointer")))
        ((Json.obj members : JsonValue).get name) := by
    have hlist := sensitive.pointers name hname
    refine (textList_uniqueList hlist).mpr ((textList_congr hlist fun s hs => ?_).mp hlist)
    exact iff_of_true hs (deref_jsonPointer.mpr hs)
  rw [hsensitive, ifPresent_some, sensitiveSchema, objectWith_closedObject hobject (by decide)]
  simp only [List.forall_mem_cons, List.not_mem_nil, false_imp_iff, implies_true, and_true,
    sensitive.redactLogs, ifPresent_some, holds_const_bool]
  exact ⟨hpointers (by simp), hpointers (by simp)⟩

/-- A text that passes the check on code units is within the bound on characters. -/
theorem presentation_within (h : IfPresent (fun x => ObjectWith [] ["route", "icon", "category"]
      (fun presentation => ∀ field ∈ presentationFields, IfPresent (fun x =>
        ∃ s, x = .str s ∧ 1 ≤ utf16Length s ∧ utf16Length s ≤ field.2)
        (presentation.get field.1)) (some x)) (value.get "presentation")) :
    IfPresent (Holds (Deref defs) presentationSchema) (value.get "presentation") := by
  intro x hx
  obtain ⟨members, heq, hrequired, hallowed, hfields⟩ := id (h x hx)
  have hfield {name : String} {maximum : Nat} (hmem : (name, maximum) ∈ presentationFields) :
      IfPresent (Holds (Deref defs) (text 1 maximum)) (x.get name) := by
    obtain rfl := Option.some.inj heq
    intro y hy
    obtain ⟨s, rfl, hlow, hhigh⟩ := hfields _ hmem y hy
    have hne : s ≠ "" := by
      rintro rfl
      exact absurd hlow (by decide)
    exact holds_text.mpr ⟨s, rfl, one_le_length hne, (length_le_utf16Length s).trans hhigh⟩
  rw [presentationSchema, objectWith_closedObject (h x hx) (by decide)]
  simp only [List.forall_mem_cons, List.not_mem_nil, false_imp_iff, implies_true, and_true]
  exact ⟨hfield (by simp [presentationFields]), hfield (by simp [presentationFields]),
    hfield (by simp [presentationFields])⟩

/-- The condition on the kind of a source that is an object with a kind. -/
theorem holds_whenKind {kind : Schema} {source x : JsonValue} (hsource : value.get "source" = some source)
    (hobject : ∃ members, source = .obj members) (hx : source.get "kind" = some x) :
    Holds (Deref defs) (whenKind kind) value ↔ Holds (Deref defs) kind x := by
  rw [whenKind, holds_properties]
  simp only [forall_eq, hsource, Option.some.injEq, forall_eq', holds_all,
    List.mem_cons, List.not_mem_nil, or_false, forall_eq_or_imp, holds_properties, hx]
  exact and_iff_right hobject

/-- The rules on namespaces: only the bare name `builtin` is left to the schema. -/
theorem rules_within (h : WellFormed value) :
    Holds (Deref defs) builtinRule value ∧ Holds (Deref defs) otherRule value ↔
      ∀ source, value.get "source" = some source →
        TextWith (· ≠ "builtin") (source.get "toolId") := by
  obtain ⟨members, hsource, -, -, source⟩ := h.source
  obtain ⟨kind, hkind, hkinds⟩ := source.kind
  obtain ⟨tool, htool, -⟩ := source.toolId
  obtain ⟨action, haction, -⟩ := h.actionId
  obtain ⟨texts, htexts, -⟩ := h.aliases
  have hbuiltin : Holds (Deref defs) builtinRule value := by
    intro hwhen
    rw [holds_whenKind hsource ⟨members, rfl⟩ hkind, holds_const_str] at hwhen
    obtain ⟨⟨a, ha, hastart⟩, t, ht, htstart⟩ := source.namespaced.builtin (by rw [hkind, hwhen])
    rw [holds_properties]
    simp only [List.forall_mem_cons, List.not_mem_nil, false_imp_iff, implies_true, and_true, ha,
      hsource, Option.some.injEq, forall_eq', holds_all, holds_properties, ht]
    simp [Holds, JsonType.Holds, mem_builtinStart, hastart, htstart]
  have hother : Holds (Deref defs) otherRule value ↔ (kind ≠ "builtin" → tool ≠ "builtin") := by
    have hwhen : Holds (Deref defs) (whenKind (oneOfTexts ["plugin", "local"])) value ↔
        kind ≠ "builtin" := by
      rw [holds_whenKind hsource ⟨members, rfl⟩ hkind, holds_oneOfTexts]
      simp only [List.mem_cons, List.not_mem_nil, or_false] at hkinds
      rcases hkinds with rfl | rfl | rfl <;> simp
    rw [otherRule, Holds, hwhen]
    refine imp_congr_right fun hne => ?_
    obtain ⟨haction', htool', haliases'⟩ := source.namespaced.other (by
      rw [hkind]
      simpa using hne)
    have hfalse := htool' tool htool
    have haliases := haliases' texts htexts
    rw [holds_properties]
    simp only [List.forall_mem_cons, List.not_mem_nil, false_imp_iff, implies_true, and_true,
      haction, hsource, htexts, Option.some.injEq, forall_eq', holds_all, holds_properties, htool]
    simp only [Holds, JsonType.Holds, HoldsAll, Json.str.injEq, forall_eq', exists_eq', true_and,
      mem_builtinStart, mem_builtinName, haction' action haction, hfalse, Json.obj.injEq,
      Json.arr.injEq, Json.elements_arr, List.forall_mem_map, and_true, not_or]
    constructor
    · exact fun h => h.2.1.1
    · exact fun h => ⟨by simp, ⟨h, by simp⟩, fun s hs => by simp [haliases s hs]⟩
  rw [hother]
  constructor
  · rintro ⟨-, htool'⟩ source' hsource'
    obtain rfl := Option.some.inj (hsource.symm.trans hsource')
    refine ⟨tool, htool, ?_⟩
    by_cases hbuiltin : kind = "builtin"
    · rintro rfl
      obtain ⟨-, t, ht, hstart⟩ := source.namespaced.builtin (by rw [hkind, hbuiltin])
      obtain rfl := Json.str.inj (Option.some.inj (htool.symm.trans ht))
      exact absurd hstart (by decide)
    · exact htool' hbuiltin
  · intro hall
    refine ⟨hbuiltin, fun _ => ?_⟩
    obtain ⟨t, ht, hne⟩ := hall _ hsource
    obtain rfl := Json.str.inj (Option.some.inj (htool.symm.trans ht))
    exact hne

/-- A value that passes every check of the validator is valid under the published schema
exactly when it keeps within the bounds that only the schema states. -/
theorem validDescriptor_iff (h : WellFormed value) : ValidDescriptor value ↔ WithinSchema value := by
  obtain ⟨input, hinput, hinputs⟩ := h.inputSchema
  obtain ⟨output, houtput, houtputs⟩ := h.outputSchema
  have hcontract : Holds (Deref defs) (const (.str "1.0")) (.str CONTRACT_VERSION) :=
    holds_const_str.mpr rfl
  have hversion : IfPresent (Holds (Deref defs) (all [type .string, pattern SEMVER]))
      (value.get "version") := by
    obtain ⟨s, hs, hlang⟩ := h.version
    rw [hs, ifPresent_some, holds_all]
    simpa [Holds, JsonType.Holds] using hlang
  have haliases : IfPresent (Holds (Deref defs) (uniqueList 32 (all [text 1 80, not reservedName])))
      (value.get "aliases") ↔ TextList 32 (AtMost 80) (value.get "aliases") := by
    rw [textList_uniqueList h.aliases]
    apply textList_congr h.aliases
    rintro s ⟨hne, hreserved⟩
    have hname : ¬ Holds (Deref defs) reservedName (.str s) := by
      rw [reservedName, holds_oneOfTexts]
      rintro ⟨t, ht, heq⟩
      exact hreserved (Json.str.inj heq ▸ ht)
    rw [holds_all]
    simp only [List.forall_mem_cons, List.not_mem_nil, false_imp_iff, implies_true, and_true,
      holds_text]
    simp [Holds, hname, TextOfLength, AtMost, one_le_length hne]
  have hschema {x : JsonValue} (hx : ValueSchema x) :
      Holds (Deref defs) (ref "valueSchema") x ↔ SchemaWithin x := validValueSchema_iff hx
  unfold ValidDescriptor Valid
  rw [actionDescriptorSchema, holds_all]
  simp only [List.forall_mem_cons, List.not_mem_nil, false_imp_iff, implies_true, and_true]
  rw [rules_within h, objectWith_closedObject h.keys (by decide)]
  simp only [List.forall_mem_cons, List.not_mem_nil, false_imp_iff, implies_true, and_true]
  rw [h.contractVersion, ifPresent_some, actionId_within h.actionId, source_within h.source,
    textWith_text h.title, textWith_text h.description, textList_text h.keywords (fun _ => id),
    haliases, hinput, houtput, ifPresent_some, ifPresent_some, hschema hinputs, hschema houtputs,
    examples_within h.examples, testVectors_within h.testVectors, execution_within h.execution,
    behavior_within h.behavior, permissions_within h.permissions]
  constructor
  · rintro ⟨⟨-, haction, -, ⟨htool, hpublisher⟩, htitle, hdescription, hkeywords, haliases, hin, hout,
      hexamples, hvectors, hhandler, heffects, hpermissions, -⟩, hbare⟩
    refine ⟨haction, ?_, hpublisher, htitle, hdescription, hkeywords, haliases, ?_, ?_, hexamples,
      hvectors, hhandler, heffects, hpermissions⟩
    · intro source hsource
      obtain ⟨s, hs, hlength⟩ := htool source hsource
      obtain ⟨t, ht, hne⟩ := hbare source hsource
      obtain rfl := Json.str.inj (Option.some.inj (hs.symm.trans ht))
      exact ⟨s, hs, hlength, hne⟩
    · rw [hinput, ifPresent_some]
      exact hin
    · rw [houtput, ifPresent_some]
      exact hout
  · intro hwithin
    have hin := hwithin.inputSchema
    have hout := hwithin.outputSchema
    rw [hinput, ifPresent_some] at hin
    rw [houtput, ifPresent_some] at hout
    refine ⟨⟨hcontract, hwithin.actionId, hversion, ⟨?_, hwithin.publisher⟩, hwithin.title,
      hwithin.description, hwithin.keywords, hwithin.aliases, hin, hout, hwithin.examples,
      hwithin.testVectors, hwithin.handler, hwithin.sideEffects, hwithin.permissions,
      sensitive_within h.sensitive, presentation_within h.presentation⟩, ?_⟩
    · exact fun source hsource => (hwithin.toolId source hsource).imp fun _ hs => hs.1
    · exact fun source hsource => (hwithin.toolId source hsource).imp fun _ hs => hs.2

end Descriptors

/-- On which values the validator returns and accepts only what the schema accepts. -/
theorem descriptor_agreement_iff (value : JsonValue) :
    ((∃ issues, validateActionDescriptor value = .ok issues) ∧
        (validateActionDescriptor value = .ok [] → ValidDescriptor value)) ↔
      AliasesListable value ∧ (WellFormed value → WithinSchema value) := by
  rw [validateActionDescriptor_returns_iff, validateActionDescriptor_eq_nil]
  exact and_congr_right fun _ => forall_congr' fun h => validDescriptor_iff h

/-- A descriptor whose aliases are a text: the validator throws. -/
theorem textual_aliases_throw :
    ¬ ((∃ issues, validateActionDescriptor (.obj [("aliases", .str "a")]) = .ok issues) ∧
      (validateActionDescriptor (.obj [("aliases", .str "a")]) = .ok [] →
        ValidDescriptor (.obj [("aliases", .str "a")]))) := by
  rintro ⟨⟨issues, h⟩, -⟩
  cases h

end Useful.Actions
