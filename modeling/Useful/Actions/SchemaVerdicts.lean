/-
# Verdicts under value schemas

`validateValue` finds no issue when every check passes as it is coded, and the schema holds when
every check passes as it is meant. So the two verdicts are the same unless a check with different
readings alone makes one of them: a constant, an enumeration or unique items, equal up to the
order of members, or the length of a string outside the basic plane.
-/

import Useful.Actions.SchemaMeaning

namespace Useful.Actions

open Useful.Math

/-! ## Values that were read -/

/-- A value as it is read: no object repeats a key, and its numbers can be represented. -/
structure Parsed (double : ℚ → Bool) (v : JsonValue) : Prop where
  keys : v.DistinctKeys
  numbers : v.anyNum (fun q => !double q) = false

section Parsed

variable {double : ℚ → Bool} {v : JsonValue}

theorem Parsed.item {items : List JsonValue} (h : Parsed double (.arr items)) (hv : v ∈ items) :
    Parsed double v := by
  obtain ⟨hkeys, hnumbers⟩ := h
  rw [Json.DistinctKeys, Json.forallObjects_arr] at hkeys
  rw [Json.anyNum_arr, List.any_eq_false] at hnumbers
  exact ⟨hkeys v hv, by simpa using hnumbers v hv⟩

theorem Parsed.member {members : List (String × JsonValue)} {m : String × JsonValue}
    (h : Parsed double (.obj members)) (hm : m ∈ members) : Parsed double m.2 := by
  obtain ⟨hkeys, hnumbers⟩ := h
  rw [Json.DistinctKeys, Json.forallObjects_obj] at hkeys
  rw [Json.anyNum_obj, List.any_eq_false] at hnumbers
  exact ⟨hkeys.2 m hm, by simpa using hnumbers m hm⟩

theorem Parsed.get {w : JsonValue} {key : String} (h : Parsed double v) (hw : v.get key = some w) :
    Parsed double w := by
  obtain ⟨members, rfl⟩ := Json.exists_obj_of_get hw
  exact h.member (Json.mem_of_get hw)

end Parsed

/-! ## Checks as they are coded -/

theorem forall_mem_withNumber {α : Type} {schema : JsonValue} {key : String} {make : ℚ → α}
    {P : α → Prop} :
    (∀ a ∈ withNumber schema key make, P a) ↔ ∀ q, schema.get key = some (.num q) → P (make q) := by
  unfold withNumber
  split
  · rename_i q hq
    simp [hq]
  · rename_i hno
    refine iff_of_true (fun a ha => by cases ha) fun q hq => absurd hq (hno q)

theorem forall_itemChecks {schema : Option JsonValue} {items : List JsonValue} {P : Check → Prop} :
    (∀ c ∈ itemChecks schema items, P c) ↔
      ∀ part, schema = some part → ∀ x ∈ items, ∀ c ∈ checks part x, P c := by
  induction items with
  | nil => simp [itemChecks]
  | cons x items ih =>
      rw [itemChecks.eq_def]
      show (∀ c ∈ _ ++ itemChecks schema items, P c) ↔ _
      rw [List.forall_mem_append, ih]
      cases schema with
      | none => simp
      | some part => simp

theorem forall_memberChecks {parts : Option JsonValue} {members : List (String × JsonValue)}
    {P : Check → Prop} :
    (∀ c ∈ memberChecks parts members, P c) ↔
      ∀ m ∈ members, (∀ part, (parts.bind fun parts => parts.get m.1) = some part →
          ∀ c ∈ checks part m.2, P c) ∧
        ((parts.bind fun parts => parts.get m.1) = none → P (.plain False)) := by
  induction members with
  | nil => simp [memberChecks]
  | cons m members ih =>
      rw [memberChecks, List.forall_mem_append, ih, List.forall_mem_cons]
      refine and_congr_left fun _ => ?_
      cases parts.bind fun parts => parts.get m.1 with
      | none => simp
      | some part => simp

section Coded

variable {numberText : ℚ → String} {double : ℚ → Bool} {readNumber : List Char → Option (ℚ × List Char)}

theorem belowIssue_eq_nil {schema : JsonValue} {key path : String} {size : ℚ}
    {message : String → String} {make : ℚ → Check} (h : ∀ q, (make q).Coded ↔ q ≤ size) :
    belowIssue numberText schema key size path message = [] ↔
      ∀ c ∈ withNumber schema key make, c.Coded := by
  rw [forall_mem_withNumber, belowIssue]
  split
  · rename_i q hq
    simp [hq, h, issueIf_eq_nil]
  · rename_i hno
    exact iff_of_true rfl fun q hq => absurd hq (hno q)

theorem aboveIssue_eq_nil {schema : JsonValue} {key path : String} {size : ℚ}
    {message : String → String} {make : ℚ → Check} (h : ∀ q, (make q).Coded ↔ size ≤ q) :
    aboveIssue numberText schema key size path message = [] ↔
      ∀ c ∈ withNumber schema key make, c.Coded := by
  rw [forall_mem_withNumber, aboveIssue]
  split
  · rename_i q hq
    simp [hq, h, issueIf_eq_nil]
  · rename_i hno
    exact iff_of_true rfl fun q hq => absurd hq (hno q)

theorem walkItems_eq_nil {schema : Option JsonValue} {items : List JsonValue} {path : String}
    {index : Nat} (h : ∀ part, schema = some part → ∀ x ∈ items, ∀ path,
      walk numberText part x path = [] ↔ ∀ c ∈ checks part x, c.Coded) :
    walkItems numberText schema path index items = [] ↔ ∀ c ∈ itemChecks schema items, c.Coded := by
  induction items generalizing index with
  | nil => simp [walkItems, itemChecks]
  | cons x items ih =>
      have hrest := @ih (index + 1) fun part hpart y hy =>
        h part hpart y (List.mem_cons_of_mem _ hy)
      cases schema with
      | none => simpa [walkItems, itemChecks] using hrest
      | some part =>
          rw [walkItems, itemChecks, List.append_eq_nil_iff, List.forall_mem_append, hrest]
          exact and_congr_left fun _ => h part rfl x List.mem_cons_self _

theorem walkMembers_eq_nil {parts : Option JsonValue} {members : List (String × JsonValue)}
    {path : String} (h : ∀ m ∈ members, ∀ part, (parts.bind fun parts => parts.get m.1) = some part →
      ∀ path, walk numberText part m.2 path = [] ↔ ∀ c ∈ checks part m.2, c.Coded) :
    walkMembers numberText parts path members = [] ↔ ∀ c ∈ memberChecks parts members, c.Coded := by
  induction members with
  | nil => simp [walkMembers, memberChecks]
  | cons m members ih =>
      have hrest := ih fun m' hm' => h m' (List.mem_cons_of_mem _ hm')
      obtain ⟨name, entry⟩ := m
      rw [walkMembers, memberChecks, List.append_eq_nil_iff, List.forall_mem_append, hrest]
      refine and_congr_left fun _ => ?_
      cases hpart : parts.bind fun parts => parts.get name with
      | none => simp [Check.Coded]
      | some part => exact h (name, entry) List.mem_cons_self part hpart _

-- Numbers that can be represented are read back from their texts.
variable (hnumbers : ∀ q, double q = true →
  Json.ReadsNumber (fun q => (numberText q).toList) readNumber q)

include hnumbers

/-- Values that were read are equal when their texts are. -/
theorem stringify_inj {v w : JsonValue} (hv : Parsed double v) (hw : Parsed double w) :
    stringify numberText v = stringify numberText w ↔ v = w := by
  refine ⟨fun h => ?_, fun h => by rw [h]⟩
  have hread {u : JsonValue} (hu : Parsed double u) :
      Json.parse readNumber (stringify numberText u) = some u :=
    Json.parse_render readsStrings_quoteText hnumbers hu.keys hu.numbers
  exact Option.some.inj ((hread hv).symm.trans (h ▸ hread hw))

theorem deepEqual_iff {v w : JsonValue} (hv : Parsed double v) (hw : Parsed double w) :
    deepEqual numberText v w = true ↔ v = w := by
  rw [deepEqual, beq_iff_eq, stringify_inj hnumbers hv hw]

theorem nodup_stringify {items : List JsonValue} (h : Parsed double (.arr items)) :
    (items.map (stringify numberText)).Nodup ↔ items.Nodup := by
  refine ⟨List.Nodup.of_map _, fun hnodup => hnodup.map_on fun v hv w hw heq => ?_⟩
  exact (stringify_inj hnumbers (h.item hv) (h.item hw)).mp heq

theorem enumIssue_eq_nil {schema current : JsonValue} {path : String} (hschema : Parsed double schema)
    (hcurrent : Parsed double current) :
    issueIf (isArray (schema.get "enum") ∧
        ¬ (schema.get "enum").any fun choices =>
          choices.elements.any fun entry => deepEqual numberText entry current) path "不在 enum 中" = [] ↔
      ∀ c ∈ (match schema.get "enum" with
        | some (.arr values) => [Check.enum current values]
        | _ => []), c.Coded := by
  rw [issueIf_eq_nil]
  split
  · rename_i values hget
    have hvalues := hschema.get hget
    have hany : (values.any fun entry => deepEqual numberText entry current) = true ↔
        current ∈ values := by
      rw [List.any_eq_true]
      constructor
      · rintro ⟨entry, hmem, heq⟩
        exact (deepEqual_iff hnumbers (hvalues.item hmem) hcurrent).mp heq ▸ hmem
      · exact fun hmem => ⟨current, hmem, (deepEqual_iff hnumbers hcurrent hcurrent).mpr rfl⟩
    simp [hget, isArray, hany, Check.Coded]
  · rename_i hno
    refine iff_of_true (fun h => ?_) fun c hc => by cases hc
    obtain ⟨values, hvalues⟩ := isArray_iff.mp h.1
    exact hno values hvalues

/-- The checks at a value, but those of its parts. -/
theorem ownIssues_eq_nil {schema current : JsonValue} {path : String} (hschema : Parsed double schema)
    (hcurrent : Parsed double current) :
    ownIssues numberText schema current path = [] ↔ ∀ c ∈ ownChecks schema current, c.Coded := by
  have hconst : issueIf ((schema.get "const").any fun expected => !deepEqual numberText current expected)
        path "不等于 const" = [] ↔
      ∀ c ∈ (schema.get "const").toList.map (Check.const current), c.Coded := by
    rw [issueIf_eq_nil]
    cases hget : schema.get "const" with
    | none => simp
    | some expected => simp [Check.Coded, deepEqual_iff hnumbers hcurrent (hschema.get hget)]
  unfold ownIssues ownChecks valueChecks kindChecks
  rw [List.append_eq_nil_iff, List.append_eq_nil_iff, hconst, enumIssue_eq_nil hnumbers hschema hcurrent,
    List.forall_mem_append, List.forall_mem_append]
  refine and_congr_right fun _ => ?_
  cases current with
  | str s =>
      rw [List.append_eq_nil_iff, List.forall_mem_append]
      exact and_congr (belowIssue_eq_nil fun _ => Iff.rfl) (aboveIssue_eq_nil fun _ => Iff.rfl)
  | num p =>
      rw [List.append_eq_nil_iff, List.forall_mem_append]
      exact and_congr (belowIssue_eq_nil fun _ => Iff.rfl) (aboveIssue_eq_nil fun _ => Iff.rfl)
  | arr items =>
      rw [List.append_eq_nil_iff, List.append_eq_nil_iff, List.forall_mem_append,
        List.forall_mem_append, issueIf_eq_nil, nodup_stringify hnumbers hcurrent]
      refine and_congr (and_congr ?_ ?_) ?_
      · exact belowIssue_eq_nil fun _ => Iff.rfl
      · exact aboveIssue_eq_nil fun _ => Iff.rfl
      · split_ifs with hunique
        · simp [hunique, Check.Coded]
        · simp [hunique]
  | obj members => simp [requiredNames, issueIf_eq_nil, Check.Coded]
  | _ => simp

/-- The walk finds nothing when every check passes as it is coded. -/
theorem walk_eq_nil {schema v : JsonValue} {path : String} (hschema : Parsed double schema)
    (hv : Parsed double v) :
    walk numberText schema v path = [] ↔ ∀ c ∈ checks schema v, c.Coded := by
  have hissue : False ↔ ∀ c ∈ [Check.plain False], c.Coded := by simp [Check.Coded]
  induction v using Json.induct generalizing schema path with
  | arr items ih =>
      rw [walk, checks]
      split_ifs
      · rw [List.append_eq_nil_iff, List.forall_mem_append, ownIssues_eq_nil hnumbers hschema hv,
          walkItems_eq_nil]
        intro part hpart x hx path
        exact ih x hx (hschema.get hpart) (hv.item hx)
      · exact hissue
  | obj members ih =>
      rw [walk, checks]
      split_ifs
      · rw [List.append_eq_nil_iff, List.forall_mem_append, ownIssues_eq_nil hnumbers hschema hv,
          walkMembers_eq_nil]
        intro m hm part hpart path
        obtain ⟨parts, hparts, hpart⟩ := Option.bind_eq_some_iff.mp hpart
        exact ih m hm ((hschema.get hparts).get hpart) (hv.member hm)
      · exact hissue
  | null | bool _ | num _ | str _ =>
      rw [walk, checks]
      · split_ifs
        · exact ownIssues_eq_nil hnumbers hschema hv
        · exact hissue
      all_goals intro _ h; cases h

end Coded

/-! ## Checks as they are meant -/

section Meant

variable {double : ℚ → Bool} {deref : String → JsonValue → Prop} {schema v : JsonValue}

theorem includesType_iff {type : String} :
    includesType schema type = true ↔ type ∈ textsOf (declaredTypes schema) := by
  rw [includesType, List.any_eq_true, textsOf, List.mem_filterMap]
  refine exists_congr fun declared => and_congr_right fun _ => ?_
  rw [isText_iff]
  constructor
  · rintro rfl
    rfl
  · intro h
    split at h
    · rw [Option.some.inj h]
    · cases h

/-- What a named type asks. -/
theorem jsonType_holds {name : String} :
    (∃ kind, jsonType name = some kind ∧ kind.Holds v) ↔
      name = actualType v ∨ actualType v = "integer" ∧ name = "number" := by
  unfold jsonType
  split <;> cases v <;> simp [JsonType.Holds, actualType]
  all_goals grind

theorem holds_typeKeyword :
    (typeKeyword schema).Holds deref v ↔ compatible schema (actualType v) = true := by
  rw [typeKeyword, Schema.holds_anyOf, compatible, Bool.or_eq_true, Bool.and_eq_true, beq_iff_eq,
    includesType_iff, includesType_iff]
  have hparts : (∃ part ∈ (textsOf (declaredTypes schema)).filterMap
        fun name => (jsonType name).map Schema.type, part.Holds deref v) ↔
      ∃ name ∈ textsOf (declaredTypes schema), ∃ kind, jsonType name = some kind ∧ kind.Holds v := by
    constructor
    · rintro ⟨part, hpart, hholds⟩
      obtain ⟨name, hname, hmap⟩ := List.mem_filterMap.mp hpart
      obtain ⟨kind, hkind, rfl⟩ := Option.map_eq_some_iff.mp hmap
      rw [Schema.Holds] at hholds
      exact ⟨name, hname, kind, hkind, hholds⟩
    · rintro ⟨name, hname, kind, hkind, hholds⟩
      refine ⟨.type kind, List.mem_filterMap.mpr ⟨name, hname, by rw [hkind]; rfl⟩, ?_⟩
      rw [Schema.Holds]
      exact hholds
  rw [hparts]
  simp only [jsonType_holds, and_or_left, exists_or, exists_eq_right]
  refine or_congr_right ⟨?_, fun h => ⟨_, h.2, h.1, rfl⟩⟩
  rintro ⟨_, hname, hinteger, rfl⟩
  exact ⟨hinteger, hname⟩

/-- A bound that an accepted schema states is a natural number. -/
theorem SchemaKeywords.num_toNat (h : SchemaKeywords schema) {key : String}
    (hkey : key ∈ ["minLength", "maxLength", "minItems", "maxItems"]) {q : ℚ}
    (hq : schema.get key = some (.num q)) : ((q.num.toNat : ℕ) : ℚ) = q := by
  obtain ⟨_, heq, hint, hnonneg⟩ := h.bounds key hkey _ hq
  cases heq
  have hnum : ((q.num.toNat : ℤ) : ℚ) = q.num := by rw [Int.toNat_of_nonneg (Rat.num_nonneg.mpr hnonneg)]
  rw [← Int.cast_natCast, hnum]
  exact (Rat.den_eq_one_iff q).mp (by simpa [Rat.isInt] using hint)

theorem holds_valueKeywords :
    (∀ k ∈ valueKeywords schema, k.Holds deref v) ↔ ∀ c ∈ valueChecks schema v, c.Meant := by
  rw [valueKeywords, valueChecks, List.forall_mem_append, List.forall_mem_append]
  refine and_congr ?_ ?_
  · cases schema.get "const" with
    | none => simp
    | some expected => simp [Schema.const, Schema.Holds, Check.Meant]
  · split
    · simp only [List.forall_mem_singleton, Schema.Holds, Check.Meant]
    · exact iff_of_true (fun k hk => by cases hk) fun c hc => by cases hc

/-- The keywords that ask something of one kind of value. -/
theorem holds_kindKeywords (h : SchemaKeywords schema) :
    (∀ k ∈ boundKeywords schema ++ uniqueKeyword schema ++ [.required (requiredNames schema)],
        k.Holds deref v) ↔ ∀ c ∈ kindChecks schema v, c.Meant := by
  have hnat {key : String} (hkey : key ∈ ["minLength", "maxLength", "minItems", "maxItems"]) {q : ℚ}
      (hq : schema.get key = some (.num q)) (n : ℕ) :
      (q.num.toNat ≤ n ↔ q ≤ n) ∧ (n ≤ q.num.toNat ↔ n ≤ q) := by
    rw [← Nat.cast_le (α := ℚ), ← Nat.cast_le (α := ℚ), h.num_toNat hkey hq]
    exact ⟨Iff.rfl, Iff.rfl⟩
  have hunique : (∀ k ∈ uniqueKeyword schema, k.Holds deref v) ↔
      (isBool (schema.get "uniqueItems") true = true → Schema.uniqueItems.Holds deref v) := by
    unfold uniqueKeyword
    split_ifs with h <;> simp [h]
  simp only [boundKeywords, List.forall_mem_append, forall_mem_withNumber, List.forall_mem_singleton,
    hunique, Schema.Holds]
  cases v with
  | str s =>
      simp only [kindChecks, List.forall_mem_append, forall_mem_withNumber, Check.Meant, reduceCtorEq,
        Json.str.injEq, forall_eq', false_imp_iff, implies_true, and_true]
      exact and_congr (forall₂_congr fun q hq => (hnat (by simp) hq _).1)
        (forall₂_congr fun q hq => (hnat (by simp) hq _).2)
  | num p =>
      simp only [kindChecks, List.forall_mem_append, forall_mem_withNumber, Check.Meant, reduceCtorEq,
        Json.num.injEq, forall_eq', false_imp_iff, implies_true, and_true, true_and]
  | arr items =>
      have hchecks : (∀ c ∈ (if isBool (schema.get "uniqueItems") true then [.uniqueItems items] else [] :
          List Check), c.Meant) ↔ (isBool (schema.get "uniqueItems") true = true →
            items.Pairwise fun x y => ¬ JsonValue.Same x y) := by
        split_ifs with h <;> simp [h, Check.Meant]
      simp only [kindChecks, List.forall_mem_append, forall_mem_withNumber, hchecks]
      simp only [Check.Meant, reduceCtorEq, Json.arr.injEq, forall_eq', false_imp_iff, implies_true,
        and_true, true_and]
      exact and_congr_left fun _ => and_congr (forall₂_congr fun q hq => (hnat (by simp) hq _).1)
        (forall₂_congr fun q hq => (hnat (by simp) hq _).2)
  | obj members =>
      simp only [kindChecks, List.forall_mem_map, reduceCtorEq, Json.obj.injEq, forall_eq',
        false_imp_iff, implies_true, true_and]
      rfl
  | _ => simp [kindChecks]

/-- What the parts of a value are asked. -/
structure PartsHold (deref : String → JsonValue → Prop) (schema v : JsonValue) : Prop where
  members : ∀ parts, schema.get "properties" = some parts → ∀ m ∈ parts.members, ∀ x,
    v.get m.1 = some x → (meaning m.2).Holds deref x
  others : ∀ part, schema.get "additionalProperties" = some part → ∀ m ∈ v.members,
    m.1 ∉ propertyNames schema → (meaning part).Holds deref m.2
  items : ∀ part, schema.get "items" = some part → ∀ x ∈ v.elements, (meaning part).Holds deref x

theorem holds_meaning {members : List (String × JsonValue)} (hschema : schema = .obj members) :
    (meaning schema).Holds deref v ↔
      (∀ k ∈ plainKeywords schema, k.Holds deref v) ∧ PartsHold deref schema v := by
  subst hschema
  have hparts {P Q R : Prop} (hmembers : P ↔ ∀ parts, Json.get (.obj members) "properties" = some parts →
        ∀ m ∈ parts.members, ∀ x, v.get m.1 = some x → (meaning m.2).Holds deref x)
      (hothers : Q ↔ ∀ part, Json.get (.obj members) "additionalProperties" = some part →
        ∀ m ∈ v.members, m.1 ∉ propertyNames (.obj members) → (meaning part).Holds deref m.2)
      (hitems : R ↔ ∀ part, Json.get (.obj members) "items" = some part →
        ∀ x ∈ v.elements, (meaning part).Holds deref x) :
      P ∧ Q ∧ R ↔ PartsHold deref (.obj members) v := by
    rw [hmembers, hothers, hitems]
    exact ⟨fun ⟨hmembers, hothers, hitems⟩ => ⟨hmembers, hothers, hitems⟩,
      fun ⟨hmembers, hothers, hitems⟩ => ⟨hmembers, hothers, hitems⟩⟩
  rw [meaning.eq_def]
  simp only [Schema.holds_all, List.forall_mem_append, and_assoc]
  refine and_congr_right fun _ => hparts ?_ ?_ ?_
  · split
    · rename_i parts hparts
      simp only [hparts, List.forall_mem_singleton, Schema.holds_properties, Option.some.injEq,
        forall_eq', List.forall_mem_map, List.mem_attach, true_imp_iff, Subtype.forall]
    · rename_i hno
      simp [hno]
  · split
    · rename_i part hpart
      simp only [hpart, List.forall_mem_singleton, Schema.Holds, Option.some.injEq, forall_eq']
    · rename_i hno
      simp [hno]
  · split
    · rename_i part hpart
      simp only [hpart, List.forall_mem_singleton, Schema.Holds, Option.some.injEq, forall_eq']
    · rename_i hno
      simp [hno]

/-- What a document asks of a value itself and of its parts. -/
theorem holds_meaning_own (h : SchemaKeywords schema) :
    (meaning schema).Holds deref v ↔
      compatible schema (actualType v) = true ∧ (∀ c ∈ ownChecks schema v, c.Meant) ∧
        PartsHold deref schema v := by
  obtain ⟨members, hobject⟩ := h.object
  rw [holds_meaning hobject, plainKeywords, List.forall_mem_cons, holds_typeKeyword, List.append_assoc,
    List.append_assoc, List.forall_mem_append, ← List.append_assoc, holds_valueKeywords,
    holds_kindKeywords h, ← List.forall_mem_append, ← ownChecks, and_assoc]

theorem not_holds_meaning_false : ¬ (meaning (.bool false)).Holds deref v := by
  rw [meaning.eq_def]
  simp [Schema.Holds, Schema.holds_anything]

/-- A check that fails stands for a value of another type. -/
theorem meant_unless {b : Bool} {cs : List Check} {P : Prop} (h : b = true → (P ↔ ∀ c ∈ cs, c.Meant)) :
    b = true ∧ P ↔ ∀ c ∈ (if b then cs else [.plain False]), c.Meant := by
  cases b with
  | false => simp [Check.Meant]
  | true => simpa using h rfl

theorem compatible_array : compatible schema "array" = includesType schema "array" := by
  rw [compatible, show ("array" == "integer") = false by decide, Bool.false_and, Bool.or_false]

theorem compatible_object : compatible schema "object" = includesType schema "object" := by
  rw [compatible, show ("object" == "integer") = false by decide, Bool.false_and, Bool.or_false]

/-- The members of a value are those that the closed schema has, each under its schema. -/
theorem forall_memberChecks_meant {members : List (String × JsonValue)} (h : SchemaKeywords schema)
    (hobject : includesType schema "object" = true) (hschema : Parsed double schema)
    (hv : (members.map Prod.fst).Nodup)
    (ih : ∀ m ∈ members, ∀ parts, schema.get "properties" = some parts → ∀ part,
      parts.get m.1 = some part →
        ((meaning part).Holds deref m.2 ↔ ∀ c ∈ checks part m.2, c.Meant)) :
    PartsHold deref schema (.obj members) ↔
      ∀ c ∈ memberChecks (schema.get "properties") members, c.Meant := by
  obtain ⟨⟨parts, hparts⟩, hclosed⟩ := h.closed hobject
  have hnodup : (parts.map Prod.fst).Nodup := by
    have hkeys := (hschema.get hparts).keys
    rw [Json.DistinctKeys, Json.forallObjects_obj] at hkeys
    exact hkeys.1
  rw [forall_memberChecks]
  constructor
  · rintro ⟨hmembers, hothers, -⟩ m hm
    rw [hparts, Option.bind_some]
    constructor
    · intro part hpart
      refine (ih m hm _ hparts part hpart).mp ?_
      exact hmembers _ hparts (m.1, part) (Json.lookup_mem hpart) m.2
        ((Json.lookup_eq_some_iff_mem hv).mpr hm)
    · intro hnone
      refine absurd (hothers _ hclosed m hm ?_) not_holds_meaning_false
      rw [propertyNames, hparts]
      intro hmem
      obtain ⟨part, hpart⟩ := Json.mem_keys.mp hmem
      rw [hpart] at hnone
      cases hnone
  · intro hall
    refine ⟨?_, ?_, ?_⟩
    · intro parts' hparts' m' hm' x hx
      obtain rfl := Option.some.inj (hparts.symm.trans hparts')
      have hm := Json.lookup_mem hx
      have hpart : Json.get (.obj parts) m'.1 = some m'.2 := (Json.lookup_eq_some_iff_mem hnodup).mpr hm'
      refine (ih _ hm _ hparts _ hpart).mpr ((hall _ hm).1 _ ?_)
      rw [hparts, Option.bind_some]
      exact hpart
    · intro part _ m hm hno
      refine ((hall m hm).2 ?_).elim
      rw [hparts, Option.bind_some, Option.eq_none_iff_forall_ne_some]
      intro part hpart
      rw [propertyNames, hparts] at hno
      exact hno (Json.mem_keys.mpr ⟨part, hpart⟩)
    · rintro _ _ _ ⟨⟩

/-- The schema holds when every check passes as it is meant. -/
theorem holds_meaning_iff (h : ValueSchema schema) (hschema : Parsed double schema)
    (hv : Parsed double v) :
    (meaning schema).Holds deref v ↔ ∀ c ∈ checks schema v, c.Meant := by
  induction v using Json.induct generalizing schema with
  | arr items ih =>
      obtain ⟨keywords, -, hpart⟩ := h
      rw [holds_meaning_own keywords, checks]
      refine meant_unless fun hcompatible => ?_
      rw [List.forall_mem_append, forall_itemChecks]
      refine and_congr_right fun _ => ?_
      rw [actualType, compatible_array] at hcompatible
      have hitem (part : JsonValue) (hitems : schema.get "items" = some part) (x : JsonValue)
          (hx : x ∈ items) :
          (meaning part).Holds deref x ↔ ∀ c ∈ checks part x, c.Meant :=
        ih x hx (hpart hcompatible part hitems) (hschema.get hitems) (hv.item hx)
      constructor
      · exact fun ⟨_, _, hall⟩ part hitems x hx => (hitem part hitems x hx).mp (hall part hitems x hx)
      · refine fun hall => ⟨?_, ?_, ?_⟩
        · rintro _ _ _ _ _ ⟨⟩
        · rintro _ _ _ ⟨⟩
        · exact fun part hitems x hx => (hitem part hitems x hx).mpr (hall part hitems x hx)
  | obj members ih =>
      obtain ⟨keywords, hparts, -⟩ := h
      rw [holds_meaning_own keywords, checks]
      refine meant_unless fun hcompatible => ?_
      rw [List.forall_mem_append]
      refine and_congr_right fun _ => ?_
      rw [actualType, compatible_object] at hcompatible
      have hnodup := hv.keys
      rw [Json.DistinctKeys, Json.forallObjects_obj] at hnodup
      refine forall_memberChecks_meant keywords hcompatible hschema hnodup.1
        fun m hm parts' hparts' part hpart => ?_
      exact ih m hm (hparts hcompatible parts' hparts' (m.1, part) (Json.mem_of_get hpart))
        ((hschema.get hparts').get hpart) (hv.member hm)
  | null | bool _ | num _ | str _ =>
      obtain ⟨keywords, -, -⟩ := h
      rw [holds_meaning_own keywords, checks]
      · refine meant_unless fun _ => and_iff_left ⟨?_, ?_, ?_⟩
        · rintro _ _ _ _ _ ⟨⟩
        · rintro _ _ _ ⟨⟩
        · rintro _ _ _ ⟨⟩
      all_goals intro _ h; cases h

end Meant

/-! ## Verdicts -/

/-- All checks pass in both readings or in neither, unless one decides. -/
theorem coded_iff_meant {cs : List Check} :
    ((∀ c ∈ cs, c.Coded) ↔ ∀ c ∈ cs, c.Meant) ↔ ∀ c ∈ cs, ¬ c.Decides cs := by
  constructor
  · rintro h c hc (⟨-, hmeant, hall⟩ | ⟨-, hcoded, hall⟩)
    · exact hmeant (h.mp hall c hc)
    · exact hcoded (h.mpr hall c hc)
  · intro h
    constructor
    · intro hall c hc
      by_contra hmeant
      exact h c hc (.inl ⟨hall c hc, hmeant, hall⟩)
    · intro hall c hc
      by_contra hcoded
      exact h c hc (.inr ⟨hall c hc, hcoded, hall⟩)

theorem validateSchemaShape_some {schema : JsonValue} (h : validateSchemaShape (some schema) "" = []) :
    ValueSchema schema := by
  obtain ⟨_, heq, haccepted⟩ := validateSchemaShape_eq_nil.mp h
  exact Option.some.inj heq ▸ haccepted

/-- `validateValue` finds no issue exactly in the values of the schema, unless a check with
different readings decides. -/
theorem validateValue_valid_iff {numberText : ℚ → String} {double : ℚ → Bool}
    {readNumber : List Char → Option (ℚ × List Char)}
    (hnumbers : ∀ q, double q = true → Json.ReadsNumber (fun q => (numberText q).toList) readNumber q)
    {schema v : JsonValue} (hshape : validateSchemaShape (some schema) "" = [])
    (hschema : Parsed double schema) (hv : Parsed double v) :
    (validateValue numberText (some schema) v = [] ↔ (meaning schema).Valid [] v) ↔
      ∀ c ∈ checks schema v, ¬ c.Decides (checks schema v) := by
  have haccepted := validateSchemaShape_some hshape
  have hwalk : validateValue numberText (some schema) v = walk numberText schema v "" := by
    rw [validateValue]
    exact hshape
  rw [hwalk, walk_eq_nil hnumbers hschema hv, Schema.Valid, holds_meaning_iff haccepted hschema hv,
    coded_iff_meant]

/-- The schema of strings of one character. -/
def oneCharacter : JsonValue := .obj [("type", .str "string"), ("maxLength", .num 1)]

theorem parsed_oneCharacter : Parsed isSafeInteger oneCharacter :=
  ⟨by simp [Json.DistinctKeys, oneCharacter, Json.ForallObjects], by decide⟩

theorem checks_oneCharacter (s : String) : checks oneCharacter (.str s) = [.maxLength s 1] := rfl

theorem oneCharacter_accepts :
    validateValue (fun q => String.ofList (decimalNat q.num.toNat)) (some oneCharacter) (.str "a") = [] ↔
      (meaning oneCharacter).Valid [] (.str "a") :=
  (validateValue_valid_iff (fun _ => readsNumber_of_isSafeInteger safeIntegers_decimal)
    (by decide +kernel) parsed_oneCharacter ⟨Json.forallObjects_str _ _, rfl⟩).mpr (by
      rw [checks_oneCharacter]
      intro c hc
      rw [List.mem_singleton.mp hc]
      rintro (⟨-, hmeant, -⟩ | ⟨-, hcoded, -⟩)
      · exact hmeant (show ((1 : ℕ) : ℚ) ≤ 1 by decide)
      · exact hcoded (show ((1 : ℕ) : ℚ) ≤ 1 by decide))

/-- One character outside the basic plane is refused for its length. -/
theorem astral_character_refused :
    ¬ ∀ schema v, validateSchemaShape (some schema) "" = [] → Parsed isSafeInteger schema →
      Parsed isSafeInteger v →
      (validateValue (fun q => String.ofList (decimalNat q.num.toNat)) (some schema) v = [] ↔
        (meaning schema).Valid [] v) := by
  intro h
  have hshape : validateSchemaShape (some oneCharacter) "" = [] := by decide +kernel
  have hv : Parsed isSafeInteger (.str "😀") := ⟨Json.forallObjects_str _ _, rfl⟩
  have hverdicts := h _ _ hshape parsed_oneCharacter hv
  have hvalid : (meaning oneCharacter).Valid [] (.str "😀") := by
    rw [Schema.Valid, holds_meaning_iff (validateSchemaShape_some hshape) parsed_oneCharacter hv,
      checks_oneCharacter, List.forall_mem_singleton]
    show (_ : ℚ) ≤ 1
    decide
  have hissues : validateValue (fun q => String.ofList (decimalNat q.num.toNat)) (some oneCharacter)
      (.str "😀") ≠ [] := by
    decide +kernel
  exact hissues (hverdicts.mpr hvalid)

end Useful.Actions
