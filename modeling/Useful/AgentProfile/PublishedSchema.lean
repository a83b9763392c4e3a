/-
# The published schema of agent profiles

`useful.agent-profile.v1.schema.json`, keyword by keyword, beside the hand-written validator. Both
ask the same of a profile but for one thing: the schema counts the characters of a text and the
validator counts UTF-16 units. The patterns match ASCII only, where the two counts agree, so that
what is left are the texts without a pattern: names and publisher ids.
-/

import Useful.Actions.DescriptorSchema
import Useful.AgentProfile.SavedProfile

namespace Useful.AgentProfile

open Useful.Math Schema
open Useful.Actions (closedObject oneOfTexts IfPresent utf16Length length_le_utf16Length
  holds_closedObject holds_oneOfTexts ifPresent_congr isLower isUpper isDigit isIdRest)

/-! ## The schema -/

/-- A string of that length with a pattern. -/
def patternText (low high : Nat) (r : Regex Char) : Schema :=
  all [type .string, minLength low, maxLength high, pattern r]

/-- `#/$defs/stableId` -/
def stableId : Schema := patternText 1 64 STABLE_ID

/-- `#/$defs/actionId` -/
def actionId : Schema := patternText 3 200 ACTION_ID

/-- `#/$defs/semver` -/
def semver : Schema := all [type .string, maxLength 80, pattern SEMVER]

/-- `#/$defs/alias` -/
def aliasSchema : Schema := patternText 2 64 ALIAS

/-- `#/$defs/enabled` -/
def enabledSchema : Schema :=
  closedObject ["cli", "mcp"] [("cli", type .boolean), ("mcp", type .boolean)]

/-- `#/$defs/preset` -/
def presetSchema : Schema :=
  closedObject ["presetId", "name", "defaults"] [
    ("presetId", ref "stableId"),
    ("name", Actions.text 1 120),
    ("defaults", all [type .object, maxProperties 64, additional [] anything])]

/-- `#/$defs/action` -/
def actionSchema : Schema :=
  closedObject
    ["actionId", "expectedContractVersion", "expectedActionVersion", "expectedSourceKind",
      "expectedPublisherId", "enabled", "aliases", "presets"] [
    ("actionId", ref "actionId"),
    ("expectedContractVersion", const (.str "1.0")),
    ("expectedActionVersion", ref "semver"),
    ("expectedSourceKind", oneOfTexts ["builtin", "plugin", "local"]),
    ("expectedPublisherId", Actions.text 1 256),
    ("enabled", ref "enabled"),
    ("aliases", all [type .array, maxItems 16, uniqueItems, items (ref "alias")]),
    ("presets", all [type .array, maxItems 32, items (ref "preset")])]

/-- `$defs` -/
def profileDefs : List (String × Schema) :=
  [("stableId", stableId), ("actionId", actionId), ("semver", semver), ("alias", aliasSchema),
    ("enabled", enabledSchema), ("preset", presetSchema), ("action", actionSchema)]

/-- `useful.agent-profile.v1.schema.json` -/
def profileSchema : Schema :=
  closedObject ["schemaVersion", "profileId", "name", "actions"] [
    ("schemaVersion", const (.str "useful.agent-profile.v1")),
    ("profileId", ref "stableId"),
    ("name", Actions.text 1 120),
    ("actions", all [type .array, maxItems 128, items (ref "action")])]

/-- Validity under the published schema. -/
def ValidProfile (value : JsonValue) : Prop := Valid profileDefs profileSchema value

/-! ## What the validator asks in addition -/

/-- A member that is a text has at most that many UTF-16 units. -/
def UnitsAtMost (high : Nat) (value : JsonValue) (key : String) : Prop :=
  ∀ s, value.get key = some (.str s) → utf16Length s ≤ high

/-- The names and publisher ids are within their bounds in UTF-16 units. -/
structure UnitsFit (profile : JsonValue) : Prop where
  name : UnitsAtMost 120 profile "name"
  publishers : ∀ action ∈ listOf profile "actions", UnitsAtMost 256 action "expectedPublisherId"
  presets : ∀ action ∈ listOf profile "actions", ∀ preset ∈ listOf action "presets",
    UnitsAtMost 120 preset "name"

/-! ## Texts -/

section Texts

variable {defs : List (String × Schema)} {deref : String → JsonValue → Prop} {value : JsonValue}
  {path : String}

/-- Letters of the Basic Multilingual Plane are one UTF-16 unit each. -/
theorem utf16Length_eq_length {s : String} (h : ∀ c ∈ s.toList, c.toNat < 0x10000) :
    utf16Length s = s.toList.length := by
  unfold utf16Length
  generalize s.toList = word at h
  induction word with
  | nil => rfl
  | cons c word ih =>
      rw [List.forall_mem_cons] at h
      have hc : (utf16Char c).length = 1 := by
        unfold utf16Char
        rw [if_pos h.1]
        rfl
      rw [utf16_cons, List.length_append, ih h.2, hc, List.length_cons, Nat.add_comm]

theorem validatePattern_iff {low high : Nat} {r : Regex Char} {message : String} :
    validatePattern low high r message value path = [] ↔ ∃ s, value = .str s ∧
      low ≤ utf16Length s ∧ utf16Length s ≤ high ∧ s.toList ∈ r.lang := by
  cases value with
  | str s =>
      rw [validatePattern, errorIf_eq_nil, not_not, stringInRange_iff, Regex.test_iff]
      simp [and_assoc]
  | _ => simp [validatePattern]

theorem holds_patternText {low high : Nat} {r : Regex Char} :
    Holds deref (patternText low high r) value ↔ ∃ s, value = .str s ∧
      low ≤ s.toList.length ∧ s.toList.length ≤ high ∧ s.toList ∈ r.lang := by
  rw [patternText, holds_all]
  cases value <;> simp [Holds, JsonType.Holds]

/-- On the words of a pattern without large code points the two counts agree. -/
theorem validatePattern_holds {low high : Nat} {r : Regex Char} {message : String}
    (h : r.Letters fun c => c.toNat < 0x10000) :
    validatePattern low high r message value path = [] ↔ Holds deref (patternText low high r) value := by
  rw [validatePattern_iff, holds_patternText]
  refine exists_congr fun s => and_congr_right fun _ => ?_
  constructor
  · rintro ⟨hlow, hhigh, hlang⟩
    rw [utf16Length_eq_length (h.forall_mem hlang)] at hlow hhigh
    exact ⟨hlow, hhigh, hlang⟩
  · rintro ⟨hlow, hhigh, hlang⟩
    rw [utf16Length_eq_length (h.forall_mem hlang)]
    exact ⟨hlow, hhigh, hlang⟩

/-- A text without a pattern. -/
theorem stringInRange_iff_valid {high : Nat} :
    stringInRange 1 high value = true ↔
      Valid profileDefs (Actions.text 1 high) value ∧ ∀ s, value = .str s → utf16Length s ≤ high := by
  rw [Valid, Actions.holds_text]
  cases value with
  | str s =>
      have hcount := length_le_utf16Length s
      have hempty : s.toList.length = 0 → utf16Length s = 0 := by
        intro h
        rw [utf16Length, List.length_eq_zero_iff.mp h]
        rfl
      simp only [stringInRange_iff, Actions.TextOfLength, Json.str.injEq, exists_eq_left',
        forall_eq']
      omega
  | _ => simp [stringInRange, Actions.TextOfLength]

theorem isLower_le {c : Char} (h : isLower c = true) : c.toNat < 0x10000 := by
  rw [isLower, Bool.and_eq_true, decide_eq_true_eq, decide_eq_true_eq] at h
  exact (show c.toNat ≤ 122 from h.2).trans_lt (by decide)

theorem isUpper_le {c : Char} (h : isUpper c = true) : c.toNat < 0x10000 := by
  rw [isUpper, Bool.and_eq_true, decide_eq_true_eq, decide_eq_true_eq] at h
  exact (show c.toNat ≤ 90 from h.2).trans_lt (by decide)

theorem isDigit_le {c : Char} (h : isDigit c = true) : c.toNat < 0x10000 := by
  rw [isDigit, Bool.and_eq_true, decide_eq_true_eq, decide_eq_true_eq] at h
  exact (show c.toNat ≤ 57 from h.2).trans_lt (by decide)

theorem isAlnum_le {c : Char} (h : isAlnum c = true) : c.toNat < 0x10000 := by
  rcases Bool.or_eq_true_iff.mp h with h | h
  · exact isLower_le h
  · exact isDigit_le h

theorem punctuation_le {c : Char} (h : c = '.' ∨ c = '_' ∨ c = '-') : c.toNat < 0x10000 := by
  rcases h with rfl | rfl | rfl <;> decide

theorem isIdRest_le {c : Char} (h : isIdRest c = true) : c.toNat < 0x10000 := by
  simp only [isIdRest, Bool.or_eq_true, decide_eq_true_eq] at h
  rcases h with ((h | h) | h) | h
  · exact isLower_le h
  · exact isDigit_le h
  · exact punctuation_le (.inr (.inl h))
  · exact punctuation_le (.inr (.inr h))

theorem isPrerelease_le {c : Char} (h : isPrerelease c = true) : c.toNat < 0x10000 := by
  simp only [isPrerelease, Bool.or_eq_true, decide_eq_true_eq] at h
  rcases h with (((h | h) | h) | h) | h
  · exact isDigit_le h
  · exact isUpper_le h
  · exact isLower_le h
  · exact punctuation_le (.inl h)
  · exact punctuation_le (.inr (.inr h))

theorem idPattern_letters {separator : Char → Bool}
    (h : ∀ c, separator c = true → c = '.' ∨ c = '_' ∨ c = '-') :
    (idPattern separator).Letters fun c => c.toNat < 0x10000 :=
  ⟨fun _ => isLower_le, fun _ => isAlnum_le, fun c hc => punctuation_le (h c hc),
    fun _ => isAlnum_le, fun _ => isAlnum_le⟩

theorem letter_letters {a : Char} (h : a = '.' ∨ a = '_' ∨ a = '-') :
    (Regex.letter a).Letters fun c => c.toNat < 0x10000 :=
  fun _ hc => punctuation_le (of_decide_eq_true hc ▸ h)

theorem actionId_letters : ACTION_ID.Letters fun c => c.toNat < 0x10000 :=
  have hrest : (Regex.seq (.letter '.') (.seq (.cls isAlnum) (.star (.cls isIdRest)))).Letters
      fun c => c.toNat < 0x10000 :=
    ⟨letter_letters (.inl rfl), fun _ => isAlnum_le, fun _ => isIdRest_le⟩
  ⟨fun _ => isLower_le, fun _ => isIdRest_le, hrest, hrest⟩

theorem semver_letters : SEMVER.Letters fun c => c.toNat < 0x10000 :=
  have hdigits : (Regex.cls isDigit).plus.Letters fun c => c.toNat < 0x10000 :=
    ⟨fun _ => isDigit_le, fun _ => isDigit_le⟩
  ⟨hdigits, letter_letters (.inl rfl), hdigits, letter_letters (.inl rfl), hdigits, trivial,
    letter_letters (.inr (.inr rfl)), fun _ => isPrerelease_le, fun _ => isPrerelease_le⟩

end Texts

/-! ## The definitions -/

section Definitions

variable {value : JsonValue} {path : String}

theorem ifOwn_eq_nil {key : String} {check : JsonValue → List SchemaError} :
    ifOwn value key check = [] ↔ IfPresent (fun x => check x = []) (value.get key) := by
  unfold ifOwn IfPresent
  cases value.get key <;> simp

theorem isObject_iff : isObject value = true ↔ ∃ ms, value = .obj ms := by
  cases value <;> simp [isObject]

theorem ifPresent_and {P Q : JsonValue → Prop} {member : Option JsonValue} :
    IfPresent (fun x => P x ∧ Q x) member ↔ IfPresent P member ∧ IfPresent Q member :=
  forall₂_and

theorem holds_closedObject_iff {deref : String → JsonValue → Prop} {names : List String}
    {members : List (String × Schema)} :
    Holds deref (closedObject names members) value ↔ isObject value = true ∧
      (∀ name ∈ names, name ∈ value.keys) ∧ (∀ key ∈ value.keys, key ∈ members.map Prod.fst) ∧
        ∀ m ∈ members, IfPresent (Holds deref m.2) (value.get m.1) := by
  rw [holds_closedObject, isObject_iff]
  exact and_congr_right fun _ => and_left_comm

/-- A reference to an object with certain members. -/
theorem deref_closedObject {name : String} {names : List String} {members : List (String × Schema)}
    (h : profileDefs.lookup name = some (closedObject names members)) :
    Valid profileDefs (ref name) value ↔ isObject value = true ∧
      (∀ name ∈ names, name ∈ value.keys) ∧ (∀ key ∈ value.keys, key ∈ members.map Prod.fst) ∧
        ∀ m ∈ members, IfPresent (Valid profileDefs m.2) (value.get m.1) := by
  rw [Valid, Holds, deref_iff h, holds_closedObject_iff]
  refine and_congr_right fun _ => and_congr_right fun _ => and_congr_right fun _ => ?_
  exact forall₂_congr fun m _ => ifPresent_congr fun x hx => holds_deref_iff (Json.depth_lt_of_get hx)

theorem requireKeys_iff {names : List String} :
    requireKeys value names path = [] ↔ ∀ name ∈ names, name ∈ value.keys := by
  simp only [requireKeys_eq_nil, Json.mem_keys, Option.isSome_iff_exists]

/-- A reference to a text with a pattern. -/
theorem validatePattern_ref {name message : String} {low high : Nat} {r : Regex Char}
    (hname : profileDefs.lookup name = some (patternText low high r))
    (hr : r.Letters fun c => c.toNat < 0x10000) :
    validatePattern low high r message value path = [] ↔ Valid profileDefs (ref name) value :=
  (validatePattern_holds hr).trans (deref_iff hname).symm

theorem validateStableId_iff :
    validateStableId value path = [] ↔ Valid profileDefs (ref "stableId") value :=
  validatePattern_ref rfl (idPattern_letters fun c hc => by simpa [or_assoc] using hc)

theorem validateActionId_iff :
    validateActionId value path = [] ↔ Valid profileDefs (ref "actionId") value :=
  validatePattern_ref rfl actionId_letters

theorem validateAlias_iff :
    validateAlias value path = [] ↔ Valid profileDefs (ref "alias") value :=
  validatePattern_ref rfl (idPattern_letters fun _ hc => .inr (.inr (of_decide_eq_true hc)))

/-- The schema leaves it to the pattern that a version is not empty. -/
theorem validateSemver_iff :
    validateSemver value path = [] ↔ Valid profileDefs (ref "semver") value := by
  have hname : profileDefs.lookup "semver" = some semver := rfl
  have hnonempty : ¬ [] ∈ SEMVER.lang := by
    rw [← Regex.nullable_iff]
    decide
  have hpattern : validateSemver value path = [] ↔
      Holds (Deref profileDefs) (patternText 1 80 SEMVER) value :=
    validatePattern_holds semver_letters
  rw [hpattern, Valid, Holds, deref_iff hname, holds_patternText, semver, holds_all]
  cases value with
  | str s =>
      simp only [List.forall_mem_cons, List.not_mem_nil, false_imp_iff, implies_true, and_true, Holds,
        JsonType.Holds, Json.str.injEq, exists_eq_left', forall_eq', exists_eq', true_and]
      refine and_iff_right_of_imp fun h => Nat.one_le_iff_ne_zero.mpr fun hlength => ?_
      rw [List.length_eq_zero_iff.mp hlength] at h
      exact hnonempty h.2
  | _ => simp [Holds, JsonType.Holds]

/-! ## Objects and arrays -/

theorem validateEnabled_iff :
    validateEnabled value path = [] ↔ Valid profileDefs (ref "enabled") value := by
  have hname : profileDefs.lookup "enabled" = some enabledSchema := rfl
  have hboolean (x : JsonValue) : isBoolean x = true ↔ Valid profileDefs (type .boolean) x := by
    cases x <;> simp [isBoolean, Valid, Holds, JsonType.Holds]
  rw [deref_closedObject hname, validateEnabled]
  cases isObject value with
  | false => simp
  | true =>
      simp only [not_true_eq_false, if_false, List.append_eq_nil_iff, requireKeys_iff,
        rejectUnknownKeys_eq_nil, ifOwn_eq_nil, errorIf_eq_nil, not_not, hboolean, true_and,
        List.map_cons, List.map_nil, List.forall_mem_cons, List.not_mem_nil, false_imp_iff,
        implies_true, and_true, and_assoc]

/-- Any object of at most 64 members. -/
theorem validateDefaults_iff : validateDefaults value path = [] ↔
    Valid profileDefs (all [type .object, maxProperties 64, additional [] anything]) value := by
  rw [Valid, holds_all]
  cases value with
  | obj members =>
      rw [validateDefaults_eq_nil]
      simp [Holds, JsonType.Holds, holds_anything]
  | _ => simp [validateDefaults, isObject, Holds, JsonType.Holds]

theorem unitsAtMost_iff {high : Nat} {key : String} : UnitsAtMost high value key ↔
    IfPresent (fun x => ∀ s, x = .str s → utf16Length s ≤ high) (value.get key) := by
  constructor
  · intro h x hx s hs
    exact h s (hs ▸ hx)
  · intro h s hs
    exact h (.str s) hs s rfl

theorem forall_listOf_iff {key : String} {P : JsonValue → Prop} :
    (∀ x ∈ listOf value key, P x) ↔ IfPresent (fun list => ∀ x ∈ list.elements, P x) (value.get key) := by
  unfold listOf IfPresent
  cases value.get key <;> simp

theorem isText_iff_valid {s : String} :
    isText value s = true ↔ Valid profileDefs (const (.str s)) value := by
  rw [Valid, holds_const_str]
  cases value <;> simp [isText]

theorem sourceKind_iff_valid : SOURCE_KINDS.any (isText value) = true ↔
    Valid profileDefs (oneOfTexts ["builtin", "plugin", "local"]) value := by
  rw [Valid, holds_oneOfTexts, List.any_eq_true]
  cases value <;> simp [isText, SOURCE_KINDS]

theorem validatePresetShape_iff : validatePresetShape value path = [] ↔
    Valid profileDefs (ref "preset") value ∧ UnitsAtMost 120 value "name" := by
  have hname : profileDefs.lookup "preset" = some presetSchema := rfl
  rw [deref_closedObject hname, validatePresetShape, unitsAtMost_iff]
  cases isObject value with
  | false => simp
  | true =>
      simp only [not_true_eq_false, if_false, List.append_eq_nil_iff, requireKeys_iff,
        rejectUnknownKeys_eq_nil, ifOwn_eq_nil, errorIf_eq_nil, not_not, validateStableId_iff,
        stringInRange_iff_valid, validateDefaults_iff, true_and, presetKeys,
        List.map_cons, List.map_nil, List.forall_mem_cons, List.not_mem_nil, false_imp_iff,
        implies_true, and_true, and_assoc, ifPresent_and]
      tauto

/-- An array of at most that many items of a definition. -/
theorem holds_listOf {high : Nat} {name : String} :
    Valid profileDefs (all [type .array, maxItems high, items (ref name)]) value ↔
      ∃ xs, value = .arr xs ∧ xs.length ≤ high ∧ ∀ x ∈ xs, Valid profileDefs (ref name) x := by
  rw [Valid, holds_all]
  cases value <;> simp [Holds, JsonType.Holds, Valid]

/-- Different aliases of the right form, none of which was seen before. -/
theorem aliasErrors_iff {items : List JsonValue} {index : Nat} {seen : List String} :
    aliasErrors path index seen items = [] ↔ (∀ item ∈ items, Valid profileDefs (ref "alias") item) ∧
      items.Pairwise (fun x y => ¬ JsonValue.Same x y) ∧ ∀ s ∈ seen, .str s ∉ items := by
  induction items generalizing index seen with
  | nil => simp [aliasErrors]
  | cons item items ih =>
      rw [aliasErrors.eq_def, List.append_eq_nil_iff, validateAlias_iff, List.forall_mem_cons,
        and_assoc]
      refine and_congr_right fun hitem => ?_
      obtain ⟨text, rfl⟩ : ∃ text, item = .str text := by
        obtain ⟨text, htext, -⟩ := holds_patternText.mp ((deref_iff rfl).mp hitem)
        exact ⟨text, htext⟩
      have hsame (x : JsonValue) : JsonValue.Same (.str text) x ↔ x = .str text := by
        cases x <;> simp [JsonValue.Same, eq_comm]
      simp only [List.append_eq_nil_iff, errorIf_eq_nil, ih, List.pairwise_cons, hsame,
        List.mem_cons, not_or, Json.str.injEq, forall₂_and]
      constructor
      · rintro ⟨hnew, hitems, hpairwise, hseen⟩
        exact ⟨hitems, ⟨fun x hx heq => hseen text (.inl rfl) (heq ▸ hx), hpairwise⟩,
          fun s hs heq => hnew (heq ▸ hs), fun s hs => hseen s (.inr hs)⟩
      · rintro ⟨hitems, ⟨htext, hpairwise⟩, hnew, hseen⟩
        refine ⟨fun hmem => hnew text hmem rfl, hitems, hpairwise, ?_⟩
        rintro s (rfl | hs)
        · exact fun hmem => htext _ hmem rfl
        · exact hseen s hs

/-- What is asked of the items of an array of definitions. -/
theorem forEach_iff {items : List JsonValue} {check : JsonValue → Nat → List SchemaError}
    {name : String} {Q : JsonValue → Prop} {index : Nat}
    (h : ∀ item index, check item index = [] ↔ Valid profileDefs (ref name) item ∧ Q item) :
    forEach check index items = [] ↔
      (∀ item ∈ items, Valid profileDefs (ref name) item) ∧ ∀ item ∈ items, Q item := by
  rw [forEach_eq_nil fun item _ index => h item index, forall₂_and]

theorem validateAliases_iff : validateAliases value path = [] ↔
    Valid profileDefs (all [type .array, maxItems 16, uniqueItems, items (ref "alias")]) value := by
  rw [Valid, holds_all]
  cases value with
  | arr xs =>
      rw [validateAliases_arr_eq_nil, aliasErrors_iff]
      simp only [List.forall_mem_cons, List.not_mem_nil, false_imp_iff, implies_true, and_true, Holds,
        JsonType.Holds, Json.arr.injEq, exists_eq', forall_eq', true_and, Json.elements_arr, Valid]
      tauto
  | _ => simp [validateAliases, isArray, Holds, JsonType.Holds]

theorem validatePresets_iff : validatePresets value path = [] ↔
    Valid profileDefs (all [type .array, maxItems 32, items (ref "preset")]) value ∧
      ∀ preset ∈ value.elements, UnitsAtMost 120 preset "name" := by
  rw [holds_listOf]
  cases value with
  | arr xs =>
      rw [validatePresets_arr_eq_nil, forEach_iff fun _ _ => validatePresetShape_iff]
      simp [and_assoc]
  | _ => simp [validatePresets, isArray]

theorem validateAction_iff : validateAction value path = [] ↔
    Valid profileDefs (ref "action") value ∧ UnitsAtMost 256 value "expectedPublisherId" ∧
      ∀ preset ∈ listOf value "presets", UnitsAtMost 120 preset "name" := by
  have hname : profileDefs.lookup "action" = some actionSchema := rfl
  rw [deref_closedObject hname, validateAction, unitsAtMost_iff, forall_listOf_iff]
  cases isObject value with
  | false => simp
  | true =>
      simp only [not_true_eq_false, if_false, List.append_eq_nil_iff, requireKeys_iff,
        rejectUnknownKeys_eq_nil, ifOwn_eq_nil, errorIf_eq_nil, not_not, validateActionId_iff,
        isText_iff_valid, sourceKind_iff_valid, validateSemver_iff, validateEnabled_iff,
        validateAliases_iff, validatePresets_iff,
        stringInRange_iff_valid, true_and, actionKeys,
        List.map_cons, List.map_nil, List.forall_mem_cons, List.not_mem_nil, false_imp_iff,
        implies_true, and_true, and_assoc, ifPresent_and]
      tauto

theorem validateActions_iff : validateActions value path = [] ↔
    Valid profileDefs (all [type .array, maxItems 128, items (ref "action")]) value ∧
      ∀ action ∈ value.elements, UnitsAtMost 256 action "expectedPublisherId" ∧
        ∀ preset ∈ listOf action "presets", UnitsAtMost 120 preset "name" := by
  rw [holds_listOf]
  cases value with
  | arr xs =>
      rw [validateActions_arr_eq_nil, forEach_iff fun _ _ => validateAction_iff]
      simp [and_assoc]
  | _ => simp [validateActions, isArray]

end Definitions

/-! ## Profiles -/

theorem validateProfileSchema_iff (profile : JsonValue) :
    validateProfileSchema profile = [] ↔ ValidProfile profile ∧ UnitsFit profile := by
  have hunits : UnitsFit profile ↔ UnitsAtMost 120 profile "name" ∧
      ∀ action ∈ listOf profile "actions", UnitsAtMost 256 action "expectedPublisherId" ∧
        ∀ preset ∈ listOf action "presets", UnitsAtMost 120 preset "name" :=
    ⟨fun h => ⟨h.name, fun action ha => ⟨h.publishers action ha, h.presets action ha⟩⟩,
      fun h => ⟨h.1, fun action ha => (h.2 action ha).1, fun action ha => (h.2 action ha).2⟩⟩
  rw [hunits, ValidProfile, Valid, profileSchema, holds_closedObject_iff, validateProfileSchema,
    unitsAtMost_iff, forall_listOf_iff]
  cases isObject profile with
  | false => simp
  | true =>
      simp only [not_true_eq_false, if_false, List.append_eq_nil_iff, requireKeys_iff,
        rejectUnknownKeys_eq_nil, ifOwn_eq_nil, errorIf_eq_nil, not_not, validateStableId_iff,
        isText_iff_valid, validateActions_iff,
        stringInRange_iff_valid, true_and, profileKeys,
        List.map_cons, List.map_nil, List.forall_mem_cons, List.not_mem_nil, false_imp_iff,
        implies_true, and_true, and_assoc, ifPresent_and]
      simp only [Valid, PROFILE_SCHEMA_VERSION]
      tauto

/-- The validator accepts no more than the schema. The two agree on a profile just if the schema
rejects it or its names and publisher ids are short in UTF-16 units too. -/
theorem profile_lockstep_iff (profile : JsonValue) :
    (validateProfileSchema profile = [] → ValidProfile profile) ∧
      ((validateProfileSchema profile = [] ↔ ValidProfile profile) ↔
        (ValidProfile profile → UnitsFit profile)) := by
  rw [validateProfileSchema_iff]
  tauto

/-- A profile without actions. -/
def namedProfile (name : String) : JsonValue :=
  .obj [("schemaVersion", .str "useful.agent-profile.v1"), ("profileId", .str "default"),
    ("name", .str name), ("actions", .arr [])]

/-- A name of 61 characters outside the Basic Multilingual Plane has 122 UTF-16 units. -/
theorem long_name_rejected : ValidProfile (namedProfile smileys) ∧
    validateProfileSchema (namedProfile smileys) ≠ [] := by
  constructor
  · rw [ValidProfile, Valid, profileSchema, holds_closedObject_iff]
    refine ⟨rfl, by decide, by decide, ?_⟩
    simp only [List.forall_mem_cons, List.not_mem_nil, false_imp_iff, implies_true, and_true]
    refine ⟨?_, ?_, ?_, ?_⟩
    · rintro x ⟨⟩
      exact holds_const_str.mpr rfl
    · rintro x ⟨⟩
      have hid : validateStableId (.str "default" : JsonValue) "/profileId" = [] := by decide
      exact validateStableId_iff.mp hid
    · rintro x ⟨⟩
      refine Actions.holds_text.mpr ⟨smileys, rfl, ?_⟩
      rw [toList_smileys]
      decide
    · rintro x ⟨⟩
      exact holds_listOf.mpr ⟨[], rfl, by decide, fun _ hmem => absurd hmem List.not_mem_nil⟩
  · intro h
    have hname := ((validateProfileSchema_iff _).mp h).2.name smileys rfl
    rw [utf16Length_smileys] at hname
    exact absurd hname (by decide)

end Useful.AgentProfile
