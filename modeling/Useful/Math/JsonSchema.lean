/-
# JSON Schema

The keywords of JSON Schema 2020-12 that closed formats are described with, and what they
ask of a value. A keyword about one kind of value asks nothing of the others. References
to named definitions are followed on the parts of a value.
-/

import Useful.Math.Json
import Useful.Math.Regex
import Mathlib.Data.Rat.Defs
import Mathlib.Algebra.Order.Field.Rat

namespace Useful.Math

/-- JSON values, their numbers being rational. -/
abbrev JsonValue := Json ℚ

namespace Json

variable {ν : Type*}

/-- The members of an object. -/
def members : Json ν → List (String × Json ν)
  | .obj members => members
  | _ => []

/-- The items of an array. -/
def elements : Json ν → List (Json ν)
  | .arr items => items
  | _ => []

/-- The member of that name. -/
def get (v : Json ν) (key : String) : Option (Json ν) := v.members.lookup key

def keys (v : Json ν) : List String := v.members.map Prod.fst

@[simp]
theorem members_obj (members : List (String × Json ν)) : (Json.obj members).members = members :=
  rfl

@[simp]
theorem elements_arr (items : List (Json ν)) : (Json.arr items).elements = items :=
  rfl

theorem lookup_mem {α : Type*} {members : List (String × α)} {key : String} {a : α}
    (h : members.lookup key = some a) : (key, a) ∈ members := by
  induction members with
  | nil => cases h
  | cons m members ih =>
      rw [List.lookup_cons] at h
      split at h
      · rename_i heq
        obtain rfl : key = m.1 := by simpa using heq
        obtain rfl : m.2 = a := Option.some.inj h
        exact List.mem_cons_self
      · exact List.mem_cons_of_mem _ (ih h)

theorem mem_of_get {v w : Json ν} {key : String} (h : v.get key = some w) :
    (key, w) ∈ v.members :=
  lookup_mem h

/-- A value with a member is an object. -/
theorem exists_obj_of_get {v w : Json ν} {key : String} (h : v.get key = some w) :
    ∃ members, v = .obj members := by
  cases v with
  | obj members => exact ⟨members, rfl⟩
  | _ => cases h

/-- A key is listed when there is a member of that name. -/
theorem mem_keys {v : Json ν} {key : String} : key ∈ v.keys ↔ ∃ w, v.get key = some w := by
  unfold keys get
  induction v.members with
  | nil => simp
  | cons m members ih =>
      rw [List.map_cons, List.mem_cons, List.lookup_cons]
      split
      · rename_i heq
        simp [show key = m.1 by simpa using heq]
      · rename_i hne
        rw [ih]
        have : key ≠ m.1 := by simpa using hne
        simp [this]

/-! ## Depth -/

mutual

/-- How deep arrays and objects are nested. -/
@[grind =]
def depth : Json ν → Nat
  | .arr items => depthItems items + 1
  | .obj members => depthMembers members + 1
  | _ => 0

@[grind =]
def depthItems : List (Json ν) → Nat
  | [] => 0
  | v :: items => max (depth v) (depthItems items)

@[grind =]
def depthMembers : List (String × Json ν) → Nat
  | [] => 0
  | (_, v) :: members => max (depth v) (depthMembers members)

end

theorem depth_lt_of_mem_elements {v w : Json ν} (h : w ∈ v.elements) : w.depth < v.depth := by
  cases v with
  | arr items =>
      rw [elements_arr] at h
      rw [depth, Nat.lt_succ_iff]
      induction items with
      | nil => cases h
      | cons u items ih =>
          rw [depthItems]
          rcases List.mem_cons.mp h with rfl | h
          · exact le_max_left _ _
          · exact (ih h).trans (le_max_right _ _)
  | _ => cases h

theorem depth_lt_of_mem_members {v : Json ν} {m : String × Json ν} (h : m ∈ v.members) :
    m.2.depth < v.depth := by
  cases v with
  | obj members =>
      rw [members_obj] at h
      rw [depth, Nat.lt_succ_iff]
      induction members with
      | nil => cases h
      | cons m' members ih =>
          rw [depthMembers]
          rcases List.mem_cons.mp h with rfl | h
          · exact le_max_left _ _
          · exact (ih h).trans (le_max_right _ _)
  | _ => cases h

theorem depth_lt_of_get {v w : Json ν} {key : String} (h : v.get key = some w) :
    w.depth < v.depth :=
  depth_lt_of_mem_members (mem_of_get h)

end Json

namespace JsonValue

open Json

/-! ## Equality -/

mutual

/-- Equality of JSON values: the order of the members of an object does not count. -/
@[grind =]
def Same : JsonValue → JsonValue → Prop
  | .null, .null => True
  | .bool a, .bool b => a = b
  | .num a, .num b => a = b
  | .str a, .str b => a = b
  | .arr a, .arr b => SameItems a b
  | .obj a, .obj b => a.length = b.length ∧ SameMembers a b
  | _, _ => False

@[grind =]
def SameItems : List JsonValue → List JsonValue → Prop
  | [], [] => True
  | v :: a, w :: b => Same v w ∧ SameItems a b
  | _, _ => False

@[grind =]
def SameMembers : List (String × JsonValue) → List (String × JsonValue) → Prop
  | [], _ => True
  | (key, v) :: a, b => (∃ w, b.lookup key = some w ∧ Same v w) ∧ SameMembers a b

end

theorem same_str {s : String} {v : JsonValue} : Same v (.str s) ↔ v = .str s := by
  cases v <;> simp [Same]

theorem same_bool {b : Bool} {v : JsonValue} : Same v (.bool b) ↔ v = .bool b := by
  cases v <;> simp [Same]

/-- Different texts are different values. -/
theorem pairwise_not_same_iff_nodup {texts : List String} :
    (texts.map (Json.str (ν := ℚ))).Pairwise (fun v w => ¬ Same v w) ↔ texts.Nodup := by
  rw [List.pairwise_map, List.Nodup]
  simp [same_str]

end JsonValue

/-! ## Schemas -/

inductive JsonType
  | object
  | array
  | string
  | number
  | integer
  | boolean
  | null
  deriving DecidableEq, Repr

/-- A value of that type: an integer is a number without a fractional part. -/
def JsonType.Holds : JsonType → JsonValue → Prop
  | object, v => ∃ members, v = .obj members
  | array, v => ∃ items, v = .arr items
  | string, v => ∃ s, v = .str s
  | number, v => ∃ q, v = .num q
  | integer, v => ∃ q, v = .num q ∧ q.isInt = true
  | boolean, v => ∃ b, v = .bool b
  | null, v => v = .null

/-- Schemas by their keywords. `closed` and `additional` are `additionalProperties`, with
the names in `properties` beside it. -/
inductive Schema
  | all (parts : List Schema)
  | oneOf (parts : List Schema)
  | not (part : Schema)
  | ifThen (condition consequence : Schema)
  | ref (name : String)
  | type (kind : JsonType)
  | enum (values : List JsonValue)
  | minLength (n : Nat)
  | maxLength (n : Nat)
  | pattern (r : Regex Char)
  | minimum (q : ℚ)
  | maximum (q : ℚ)
  | minItems (n : Nat)
  | maxItems (n : Nat)
  | uniqueItems
  | maxProperties (n : Nat)
  | items (part : Schema)
  | required (names : List String)
  | properties (members : List (String × Schema))
  | closed (names : List String)
  | additional (names : List String) (part : Schema)

namespace Schema

/-- `const`. -/
def const (value : JsonValue) : Schema := enum [value]

/-- At least one of the schemas. -/
def anyOf (parts : List Schema) : Schema := not (all (parts.map not))

/-- The schema that accepts everything. -/
def anything : Schema := all []

section Holds

variable (deref : String → JsonValue → Prop)

mutual

/-- What a schema asks of a value, its references having a meaning. -/
@[grind =]
def Holds : Schema → JsonValue → Prop
  | all parts, v => HoldsAll parts v
  | oneOf parts, v => HoldsOne parts v
  | not part, v => ¬ Holds part v
  | ifThen condition consequence, v => Holds condition v → Holds consequence v
  | ref name, v => deref name v
  | type kind, v => kind.Holds v
  | enum values, v => ∃ w ∈ values, JsonValue.Same v w
  | minLength n, v => ∀ s, v = .str s → n ≤ s.toList.length
  | maxLength n, v => ∀ s, v = .str s → s.toList.length ≤ n
  | pattern r, v => ∀ s, v = .str s → s.toList ∈ r.lang
  | minimum q, v => ∀ p, v = .num p → q ≤ p
  | maximum q, v => ∀ p, v = .num p → p ≤ q
  | minItems n, v => ∀ items, v = .arr items → n ≤ items.length
  | maxItems n, v => ∀ items, v = .arr items → items.length ≤ n
  | uniqueItems, v => ∀ items, v = .arr items → items.Pairwise fun x y => ¬ JsonValue.Same x y
  | maxProperties n, v => ∀ members, v = .obj members → members.length ≤ n
  | items part, v => ∀ x ∈ v.elements, Holds part x
  | required names, v => ∀ members, v = .obj members → ∀ name ∈ names, name ∈ v.keys
  | properties members, v => HoldsMembers members v
  | closed names, v => ∀ key ∈ v.keys, key ∈ names
  | additional names part, v => ∀ m ∈ v.members, m.1 ∉ names → Holds part m.2

@[grind =]
def HoldsAll : List Schema → JsonValue → Prop
  | [], _ => True
  | part :: parts, v => Holds part v ∧ HoldsAll parts v

/-- Exactly one of the schemas accepts the value. -/
@[grind =]
def HoldsOne : List Schema → JsonValue → Prop
  | [], _ => False
  | part :: parts, v => Holds part v ∧ HoldsNone parts v ∨ ¬ Holds part v ∧ HoldsOne parts v

@[grind =]
def HoldsNone : List Schema → JsonValue → Prop
  | [], _ => True
  | part :: parts, v => ¬ Holds part v ∧ HoldsNone parts v

@[grind =]
def HoldsMembers : List (String × Schema) → JsonValue → Prop
  | [], _ => True
  | (name, part) :: members, v => (∀ x, v.get name = some x → Holds part x) ∧ HoldsMembers members v

end

end Holds

/-- The meaning of a reference: the definition of that name, references in it being
followed on the parts of the value. -/
def Deref (defs : List (String × Schema)) (name : String) (v : JsonValue) : Prop :=
  ∃ part, defs.lookup name = some part ∧
    part.Holds (fun name x => ∃ _ : x.depth < v.depth, Deref defs name x) v
termination_by v.depth

/-- Validity under a schema with definitions. -/
def Valid (defs : List (String × Schema)) (part : Schema) (v : JsonValue) : Prop :=
  part.Holds (Deref defs) v

/-! ## What the keywords ask -/

section Keywords

variable {deref : String → JsonValue → Prop} {v : JsonValue}

theorem holds_all {parts : List Schema} :
    Holds deref (all parts) v ↔ ∀ part ∈ parts, Holds deref part v := by
  show HoldsAll deref parts v ↔ _
  induction parts with
  | nil => exact iff_of_true trivial nofun
  | cons part parts ih =>
      show Holds deref part v ∧ HoldsAll deref parts v ↔ _
      rw [ih, List.forall_mem_cons]

theorem holds_properties {members : List (String × Schema)} :
    Holds deref (properties members) v ↔
      ∀ m ∈ members, ∀ x, v.get m.1 = some x → Holds deref m.2 x := by
  show HoldsMembers deref members v ↔ _
  induction members with
  | nil => exact iff_of_true trivial nofun
  | cons m members ih =>
      show (∀ x, v.get m.1 = some x → Holds deref m.2 x) ∧ HoldsMembers deref members v ↔ _
      rw [ih, List.forall_mem_cons]

/-- Exactly one of two schemas. -/
theorem holds_oneOf {part part' : Schema} :
    Holds deref (oneOf [part, part']) v ↔
      Holds deref part v ∧ ¬ Holds deref part' v ∨ ¬ Holds deref part v ∧ Holds deref part' v := by
  show Holds deref part v ∧ (¬ Holds deref part' v ∧ True) ∨
    ¬ Holds deref part v ∧ (Holds deref part' v ∧ True ∨ ¬ Holds deref part' v ∧ False) ↔ _
  simp only [and_true, and_false, or_false]

theorem holds_anyOf {parts : List Schema} :
    Holds deref (anyOf parts) v ↔ ∃ part ∈ parts, Holds deref part v := by
  have hnot : Holds deref (anyOf parts) v ↔ ¬ Holds deref (all (parts.map not)) v := Iff.rfl
  have hpart : ∀ part, Holds deref (not part) v ↔ ¬ Holds deref part v := fun _ => Iff.rfl
  simp only [hnot, holds_all, List.forall_mem_map, hpart, not_forall, not_not, exists_prop]

theorem holds_anything : Holds deref anything v :=
  holds_all.mpr fun _ h => by cases h

theorem holds_const {value : JsonValue} : Holds deref (const value) v ↔ JsonValue.Same v value := by
  show (∃ w ∈ [value], JsonValue.Same v w) ↔ _
  simp only [List.mem_singleton, exists_eq_left]

theorem holds_const_str {s : String} : Holds deref (const (.str s)) v ↔ v = .str s := by
  rw [holds_const, JsonValue.same_str]

theorem holds_const_bool {b : Bool} : Holds deref (const (.bool b)) v ↔ v = .bool b := by
  rw [holds_const, JsonValue.same_bool]

/-- An enumeration of texts. -/
theorem holds_enum_str {texts : List String} :
    Holds deref (enum (texts.map .str)) v ↔ ∃ s ∈ texts, v = .str s := by
  show (∃ w ∈ texts.map Json.str, JsonValue.Same v w) ↔ _
  simp only [List.mem_map, exists_exists_and_eq_and, JsonValue.same_str]

end Keywords

/-! ## References -/

section References

variable {deref deref' : String → JsonValue → Prop}

mutual

/-- What a schema asks of a value depends on its references on the value and its parts. -/
theorem holds_congr : ∀ {v : JsonValue} (part : Schema),
    (∀ name x, x.depth ≤ v.depth → (deref name x ↔ deref' name x)) →
      (Holds deref part v ↔ Holds deref' part v)
  | _, all parts, h => holdsAll_congr parts h
  | _, oneOf parts, h => holdsOne_congr parts h
  | _, not part, h => not_congr (holds_congr part h)
  | _, ifThen condition consequence, h =>
      imp_congr (holds_congr condition h) (holds_congr consequence h)
  | _, ref name, h => h name _ le_rfl
  | _, items part, h => forall₂_congr fun _ hx =>
      holds_congr part fun name y hy => h name y (hy.trans (Json.depth_lt_of_mem_elements hx).le)
  | _, properties members, h => holdsMembers_congr members h
  | _, additional _ part, h => forall₃_congr fun _ hm _ =>
      holds_congr part fun name y hy => h name y (hy.trans (Json.depth_lt_of_mem_members hm).le)
  | _, type _, _ | _, enum _, _ | _, minLength _, _ | _, maxLength _, _ | _, pattern _, _
  | _, minimum _, _ | _, maximum _, _ | _, minItems _, _ | _, maxItems _, _ | _, uniqueItems, _
  | _, maxProperties _, _ | _, required _, _ | _, closed _, _ => Iff.rfl

theorem holdsAll_congr : ∀ {v : JsonValue} (parts : List Schema),
    (∀ name x, x.depth ≤ v.depth → (deref name x ↔ deref' name x)) →
      (HoldsAll deref parts v ↔ HoldsAll deref' parts v)
  | _, [], _ => Iff.rfl
  | _, part :: parts, h => and_congr (holds_congr part h) (holdsAll_congr parts h)

theorem holdsOne_congr : ∀ {v : JsonValue} (parts : List Schema),
    (∀ name x, x.depth ≤ v.depth → (deref name x ↔ deref' name x)) →
      (HoldsOne deref parts v ↔ HoldsOne deref' parts v)
  | _, [], _ => Iff.rfl
  | _, part :: parts, h =>
      or_congr (and_congr (holds_congr part h) (holdsNone_congr parts h))
        (and_congr (not_congr (holds_congr part h)) (holdsOne_congr parts h))

theorem holdsNone_congr : ∀ {v : JsonValue} (parts : List Schema),
    (∀ name x, x.depth ≤ v.depth → (deref name x ↔ deref' name x)) →
      (HoldsNone deref parts v ↔ HoldsNone deref' parts v)
  | _, [], _ => Iff.rfl
  | _, part :: parts, h => and_congr (not_congr (holds_congr part h)) (holdsNone_congr parts h)

theorem holdsMembers_congr : ∀ {v : JsonValue} (members : List (String × Schema)),
    (∀ name x, x.depth ≤ v.depth → (deref name x ↔ deref' name x)) →
      (HoldsMembers deref members v ↔ HoldsMembers deref' members v)
  | _, [], _ => Iff.rfl
  | _, (_, part) :: members, h =>
      and_congr (forall₂_congr fun _ hx =>
          holds_congr part fun name y hy => h name y (hy.trans (Json.depth_lt_of_get hx).le))
        (holdsMembers_congr members h)

end

variable {defs : List (String × Schema)}

/-- On the parts of a value the references of a definition are followed like all others. -/
theorem holds_deref_iff {part : Schema} {v x : JsonValue} (hx : x.depth < v.depth) :
    Holds (fun name y => ∃ _ : y.depth < v.depth, Deref defs name y) part x ↔ Valid defs part x :=
  holds_congr part fun _ _ hy => ⟨fun h => h.2, fun h => ⟨hy.trans_lt hx, h⟩⟩

/-- A reference to a definition. -/
theorem deref_iff {name : String} {part : Schema} {v : JsonValue} (h : defs.lookup name = some part) :
    Deref defs name v ↔ Holds (fun name x => ∃ _ : x.depth < v.depth, Deref defs name x) part v := by
  rw [Deref]
  constructor
  · rintro ⟨part', hpart', hholds⟩
    obtain rfl := Option.some.inj (h.symm.trans hpart')
    exact hholds
  · exact fun hholds => ⟨part, h, hholds⟩

end References

end Schema

end Useful.Math
