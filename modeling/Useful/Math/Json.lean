/-
# JSON trees and their ordered text

A JSON value is a finite tree whose objects are association lists. Programs
differ in what a number is and in what order an object lists its members, so
numbers are a parameter and the order of members is kept as it stands; the
predicates `DistinctKeys` and `KeysSorted` say which trees denote a value and
which of them are the canonical representative under a given order of keys.

`encode` is the shape shared by deterministic encoders: it sorts the members of
every object, and it may reject a number. `render` is its image on ordered
trees. The main facts are that an encoder succeeds exactly when it accepts every
number, that it then renders the sorted tree, and that rendering can be read
back from the front of any text.
-/

import Useful.Math.PrefixCode
import Mathlib.Data.List.Sort

namespace Useful.Math

universe u v w

/-- JSON values over a type of numbers. -/
inductive Json (ν : Type u) : Type u
  | null
  | bool (value : Bool)
  | num (value : ν)
  | str (value : String)
  | arr (items : List (Json ν))
  | obj (members : List (String × Json ν))

namespace Json

variable {ν : Type u} {μ : Type v}

instance : Inhabited (Json ν) := ⟨.null⟩

/-- Induction on JSON trees, with the hypothesis for every item of an array and
for every member of an object. -/
@[elab_as_elim, induction_eliminator]
theorem induct {motive : Json ν → Prop} (null : motive .null)
    (bool : ∀ b, motive (.bool b)) (num : ∀ n, motive (.num n))
    (str : ∀ s, motive (.str s))
    (arr : ∀ items, (∀ v ∈ items, motive v) → motive (.arr items))
    (obj : ∀ members, (∀ m ∈ members, motive m.2) → motive (.obj members)) :
    ∀ v, motive v
  | .null => null
  | .bool b => bool b
  | .num n => num n
  | .str s => str s
  | .arr items => arr items fun v _ =>
      induct null bool num str arr obj v
  | .obj members => obj members fun m _ =>
      induct null bool num str arr obj m.2
decreasing_by
  all_goals simp_wf
  · have := List.sizeOf_lt_of_mem ‹v ∈ items›
    omega
  · have hmem := List.sizeOf_lt_of_mem ‹m ∈ members›
    have hsnd : sizeOf m.2 < sizeOf m := by
      cases m
      simp only [Prod.mk.sizeOf_spec]
      omega
    omega

/-! ## Numbers and keys occurring in a tree -/

mutual

/-- Some number of the tree satisfies `p`. -/
@[grind =]
def anyNum (p : ν → Bool) : Json ν → Bool
  | .num n => p n
  | .arr items => anyNumItems p items
  | .obj members => anyNumMembers p members
  | _ => false

@[grind =]
def anyNumItems (p : ν → Bool) : List (Json ν) → Bool
  | [] => false
  | v :: items => anyNum p v || anyNumItems p items

@[grind =]
def anyNumMembers (p : ν → Bool) : List (String × Json ν) → Bool
  | [] => false
  | (_, v) :: members => anyNum p v || anyNumMembers p members

end

@[simp]
theorem anyNum_num (p : ν → Bool) (n : ν) : (num n).anyNum p = p n := rfl

@[simp]
theorem anyNum_str (p : ν → Bool) (t : String) : (str t).anyNum p = false := rfl

@[simp]
theorem anyNum_bool (p : ν → Bool) (b : Bool) : (bool b).anyNum p = false := rfl

@[simp]
theorem anyNum_arr (p : ν → Bool) (items : List (Json ν)) :
    anyNum p (.arr items) = items.any (anyNum p) := by
  rw [anyNum]
  induction items with
  | nil => rfl
  | cons v items ih => rw [anyNumItems, ih, List.any_cons]

@[simp]
theorem anyNum_obj (p : ν → Bool) (members : List (String × Json ν)) :
    anyNum p (.obj members) = members.any fun m => anyNum p m.2 := by
  rw [anyNum]
  induction members with
  | nil => rfl
  | cons m members ih => rw [anyNumMembers, ih, List.any_cons]

/-- No number satisfies the empty predicate. -/
theorem anyNum_false (v : Json ν) : v.anyNum (fun _ => false) = false := by
  induction v with
  | null | bool _ | num _ | str _ => rfl
  | arr items ih => simpa using ih
  | obj members ih => simpa using fun k v hmem => ih (k, v) hmem

mutual

/-- Every object of the tree has a list of keys satisfying `P`. -/
@[grind =]
def ForallObjects (P : List String → Prop) : Json ν → Prop
  | .arr items => ForallObjectsItems P items
  | .obj members => P (members.map Prod.fst) ∧ ForallObjectsMembers P members
  | _ => True

@[grind =]
def ForallObjectsItems (P : List String → Prop) : List (Json ν) → Prop
  | [] => True
  | v :: items => ForallObjects P v ∧ ForallObjectsItems P items

@[grind =]
def ForallObjectsMembers (P : List String → Prop) : List (String × Json ν) → Prop
  | [] => True
  | (_, v) :: members => ForallObjects P v ∧ ForallObjectsMembers P members

end

@[simp]
theorem forallObjects_num (P : List String → Prop) (n : ν) : ForallObjects P (.num n) :=
  trivial

@[simp]
theorem forallObjects_str (P : List String → Prop) (s : String) :
    ForallObjects P (.str s : Json ν) :=
  trivial

@[simp]
theorem forallObjects_bool (P : List String → Prop) (b : Bool) :
    ForallObjects P (.bool b : Json ν) :=
  trivial

@[simp]
theorem forallObjects_arr (P : List String → Prop) (items : List (Json ν)) :
    ForallObjects P (.arr items) ↔ ∀ v ∈ items, ForallObjects P v := by
  rw [ForallObjects]
  induction items with
  | nil => simp [ForallObjectsItems]
  | cons v items ih => rw [ForallObjectsItems, ih, List.forall_mem_cons]

@[simp]
theorem forallObjects_obj (P : List String → Prop) (members : List (String × Json ν)) :
    ForallObjects P (.obj members) ↔
      P (members.map Prod.fst) ∧ ∀ m ∈ members, ForallObjects P m.2 := by
  have hvalues : ForallObjectsMembers P members ↔
      ∀ m ∈ members, ForallObjects P m.2 := by
    induction members with
    | nil => simp [ForallObjectsMembers]
    | cons m members ih => rw [ForallObjectsMembers, ih, List.forall_mem_cons]
  rw [ForallObjects, hvalues]

/-- No object repeats a key: the tree denotes a JSON value. -/
def DistinctKeys : Json ν → Prop := ForallObjects List.Nodup

/-- Every object lists its members by strictly increasing key. -/
def KeysSorted (lt : String → String → Prop) : Json ν → Prop :=
  ForallObjects (List.Pairwise lt)

/-- Two predicates on key lists that agree on distinct keys agree on trees with
distinct keys. -/
theorem forallObjects_congr {P Q : List String → Prop}
    (h : ∀ keys : List String, keys.Nodup → (P keys ↔ Q keys)) {v : Json ν}
    (hv : v.DistinctKeys) : ForallObjects P v ↔ ForallObjects Q v := by
  unfold DistinctKeys at hv
  induction v with
  | null | bool _ | num _ | str _ => exact Iff.rfl
  | arr items ih =>
      rw [forallObjects_arr] at hv ⊢
      rw [forallObjects_arr]
      exact forall₂_congr fun v hmem => ih v hmem (hv v hmem)
  | obj members ih =>
      rw [forallObjects_obj] at hv ⊢
      rw [forallObjects_obj, h _ hv.1]
      exact and_congr_right fun _ => forall₂_congr fun m hmem => ih m hmem (hv.2 m hmem)

mutual

/-- Replace every number of a tree. -/
@[grind =]
def mapNum (f : ν → μ) : Json ν → Json μ
  | .null => .null
  | .bool b => .bool b
  | .num n => .num (f n)
  | .str s => .str s
  | .arr items => .arr (mapNumItems f items)
  | .obj members => .obj (mapNumMembers f members)

@[grind =]
def mapNumItems (f : ν → μ) : List (Json ν) → List (Json μ)
  | [] => []
  | v :: items => mapNum f v :: mapNumItems f items

@[grind =]
def mapNumMembers (f : ν → μ) : List (String × Json ν) → List (String × Json μ)
  | [] => []
  | (k, v) :: members => (k, mapNum f v) :: mapNumMembers f members

end

@[simp]
theorem mapNum_num (f : ν → μ) (n : ν) : (num n).mapNum f = .num (f n) := rfl

@[simp]
theorem mapNum_str (f : ν → μ) (t : String) : (str t).mapNum f = .str t := rfl

@[simp]
theorem mapNum_bool (f : ν → μ) (b : Bool) : (bool b).mapNum f = .bool b := rfl

@[simp]
theorem mapNum_arr (f : ν → μ) (items : List (Json ν)) :
    mapNum f (.arr items) = .arr (items.map (mapNum f)) := by
  rw [mapNum]
  congr 1
  induction items with
  | nil => rfl
  | cons v items ih => rw [mapNumItems, ih, List.map_cons]

@[simp]
theorem mapNum_obj (f : ν → μ) (members : List (String × Json ν)) :
    mapNum f (.obj members) = .obj (members.map fun m => (m.1, mapNum f m.2)) := by
  rw [mapNum]
  congr 1
  induction members with
  | nil => rfl
  | cons m members ih => rw [mapNumMembers, ih, List.map_cons]

/-- Replacing numbers leaves the keys of every object alone. -/
theorem forallObjects_mapNum (P : List String → Prop) (f : ν → μ) (v : Json ν) :
    ForallObjects P (v.mapNum f) ↔ ForallObjects P v := by
  induction v with
  | null | bool _ | num _ | str _ => exact Iff.rfl
  | arr items ih =>
      rw [mapNum_arr, forallObjects_arr, forallObjects_arr, List.forall_mem_map]
      exact forall₂_congr ih
  | obj members ih =>
      rw [mapNum_obj, forallObjects_obj, forallObjects_obj, List.forall_mem_map, List.map_map]
      exact and_congr Iff.rfl (forall₂_congr ih)

/-- Numbers that can be taken back are. -/
theorem mapNum_mapNum_eq_self {f : ν → μ} {g : μ → ν} {p : ν → Bool}
    (hback : ∀ n, p n = false → g (f n) = n) {v : Json ν} (h : v.anyNum p = false) :
    (v.mapNum f).mapNum g = v := by
  induction v with
  | null | bool _ | str _ => rfl
  | num n => exact congrArg Json.num (hback n h)
  | arr items ih =>
      rw [anyNum_arr, List.any_eq_false] at h
      have hitems : items.map (mapNum g ∘ mapNum f) = items.map id :=
        List.map_congr_left fun v hv => ih v hv (Bool.not_eq_true _ ▸ h v hv)
      rw [mapNum_arr, mapNum_arr, List.map_map, hitems, List.map_id]
  | obj members ih =>
      rw [anyNum_obj, List.any_eq_false] at h
      have hmembers : members.map ((fun m => (m.1, mapNum g m.2)) ∘ fun m => (m.1, mapNum f m.2)) =
          members.map id :=
        List.map_congr_left fun m hm => Prod.ext rfl (ih m hm (Bool.not_eq_true _ ▸ h m hm))
      rw [mapNum_obj, mapNum_obj, List.map_map, hmembers, List.map_id]

/-! ## Sorting members -/

section SortKeys

variable (le : String → String → Prop) [DecidableRel le]

/-- Members compared by their keys. -/
def keyLe {α : Type v} (le : String → String → Prop) (a b : String × α) : Prop :=
  le a.1 b.1

instance {α : Type v} : DecidableRel (keyLe (α := α) le) :=
  fun a b => inferInstanceAs (Decidable (le a.1 b.1))

mutual

/-- Sort the members of every object by key. -/
@[grind =]
def sortKeys : Json ν → Json ν
  | .arr items => .arr (sortItems items)
  | .obj members => .obj ((sortMembers members).insertionSort (keyLe le))
  | .null => .null
  | .bool b => .bool b
  | .num n => .num n
  | .str s => .str s

@[grind =]
def sortItems : List (Json ν) → List (Json ν)
  | [] => []
  | v :: items => sortKeys v :: sortItems items

@[grind =]
def sortMembers : List (String × Json ν) → List (String × Json ν)
  | [] => []
  | (k, v) :: members => (k, sortKeys v) :: sortMembers members

end

theorem sortItems_eq_map (items : List (Json ν)) :
    sortItems le items = items.map (sortKeys le) := by
  induction items with
  | nil => rfl
  | cons v items ih => rw [sortItems, ih, List.map_cons]

theorem sortMembers_eq_map (members : List (String × Json ν)) :
    sortMembers le members = members.map fun m => (m.1, sortKeys le m.2) := by
  induction members with
  | nil => rfl
  | cons m members ih => rw [sortMembers, ih, List.map_cons]

@[simp]
theorem sortKeys_arr (items : List (Json ν)) :
    sortKeys le (.arr items) = .arr (items.map (sortKeys le)) := by
  rw [sortKeys, sortItems_eq_map]

@[simp]
theorem sortKeys_obj (members : List (String × Json ν)) :
    sortKeys le (.obj members) =
      .obj ((members.map fun m => (m.1, sortKeys le m.2)).insertionSort (keyLe le)) := by
  rw [sortKeys, sortMembers_eq_map]

/-- Sorting moves the same keys around. -/
theorem map_fst_insertionSort {α : Type v} (members : List (String × α)) :
    (members.insertionSort (keyLe le)).map Prod.fst =
      (members.map Prod.fst).insertionSort le :=
  List.map_insertionSort _ _ _ _ fun _ _ _ _ => Iff.rfl

/-- Looking up a key that is listed once finds its member. -/
theorem lookup_eq_some_iff_mem {α : Type v} {members : List (String × α)} {key : String} {a : α}
    (h : (members.map Prod.fst).Nodup) : members.lookup key = some a ↔ (key, a) ∈ members := by
  induction members with
  | nil => simp
  | cons m members ih =>
      rw [List.map_cons, List.nodup_cons] at h
      rw [List.lookup_cons, List.mem_cons]
      split
      · rename_i hkey
        obtain rfl : key = m.1 := by simpa using hkey
        have hrest : (m.1, a) ∉ members := fun hmem => h.1 (List.mem_map.mpr ⟨_, hmem, rfl⟩)
        simp [hrest, Prod.ext_iff, eq_comm]
      · rename_i hkey
        have hne : (key, a) ≠ m := by
          rintro rfl
          simp at hkey
        simp [hne, ih h.2]

/-- Members in another order have the same values. -/
theorem lookup_perm {α : Type v} {members members' : List (String × α)}
    (h : (members.map Prod.fst).Nodup) (hperm : members.Perm members') (key : String) :
    members.lookup key = members'.lookup key := by
  have h' : (members'.map Prod.fst).Nodup := (hperm.map Prod.fst).nodup_iff.mp h
  ext value
  rw [lookup_eq_some_iff_mem h, lookup_eq_some_iff_mem h', hperm.mem_iff]

theorem lookup_map {α : Type v} {β : Type w} (f : α → β) (members : List (String × α))
    (key : String) :
    (members.map fun m => (m.1, f m.2)).lookup key = (members.lookup key).map f := by
  induction members with
  | nil => rfl
  | cons m members ih =>
      rw [List.map_cons, List.lookup_cons, List.lookup_cons, ih]
      split <;> rfl

/-- Sorting moves the same numbers around. -/
theorem anyNum_sortKeys (p : ν → Bool) (v : Json ν) : (sortKeys le v).anyNum p = v.anyNum p := by
  induction v with
  | null | bool _ | num _ | str _ => rfl
  | arr items ih =>
      rw [sortKeys_arr, anyNum_arr, anyNum_arr, List.any_map, Bool.eq_iff_iff, List.any_eq_true,
        List.any_eq_true]
      exact exists_congr fun v => and_congr_right fun hv => Bool.eq_iff_iff.mp (ih v hv)
  | obj members ih =>
      rw [sortKeys_obj, anyNum_obj, anyNum_obj, (List.perm_insertionSort _ _).any_eq, List.any_map,
        Bool.eq_iff_iff, List.any_eq_true, List.any_eq_true]
      exact exists_congr fun m => and_congr_right fun hm => Bool.eq_iff_iff.mp (ih m hm)

/-- A tree that is already sorted is left alone. -/
theorem sortKeys_eq_self {lt : String → String → Prop}
    (hle : ∀ a b, lt a b → le a b) {v : Json ν} (hv : v.KeysSorted lt) :
    sortKeys le v = v := by
  unfold KeysSorted at hv
  induction v with
  | null | bool _ | num _ | str _ => rfl
  | arr items ih =>
      rw [forallObjects_arr] at hv
      rw [sortKeys_arr, List.map_congr_left fun v hmem => ih v hmem (hv v hmem),
        List.map_id']
  | obj members ih =>
      rw [forallObjects_obj] at hv
      have hsame : (members.map fun m => (m.1, sortKeys le m.2)) = members := by
        rw [List.map_congr_left (g := id) fun m hmem => by
          rw [ih m hmem (hv.2 m hmem), id], List.map_id]
      have hpair : members.Pairwise (keyLe le) :=
        (List.pairwise_map.mp hv.1).imp fun h => hle _ _ h
      rw [sortKeys_obj, hsame, hpair.insertionSort_eq]

end SortKeys

/-- Insertion sorts by two relations that agree on the list give one result. -/
theorem insertionSort_congr {α : Type v} {r r' : α → α → Prop} [DecidableRel r]
    [DecidableRel r'] {xs : List α} (h : ∀ a ∈ xs, ∀ b ∈ xs, r a b ↔ r' a b) :
    xs.insertionSort r = xs.insertionSort r' := by
  induction xs with
  | nil => rfl
  | cons x xs ih =>
      have hinsert : ∀ ys : List α, (∀ y ∈ ys, r x y ↔ r' x y) →
          ys.orderedInsert r x = ys.orderedInsert r' x := by
        intro ys hys
        induction ys with
        | nil => rfl
        | cons y ys ihys =>
            rw [List.orderedInsert_cons, List.orderedInsert_cons,
              ihys fun z hz => hys z (by simp [hz])]
            simp only [hys y (by simp)]
      rw [List.insertionSort_cons, List.insertionSort_cons,
        ih fun a ha b hb => h a (by simp [ha]) b (by simp [hb])]
      exact hinsert _ fun y hy =>
        h x (by simp) y (by simp [(List.mem_insertionSort r').mp hy])

/-- Two linear orders that sort a list alike agree on its elements. -/
theorem agree_of_insertionSort_eq {α : Type v} {r r' : α → α → Prop} [DecidableRel r]
    [DecidableRel r'] [Std.Total r] [IsTrans α r] [Std.Antisymm r] [Std.Total r']
    [IsTrans α r'] [Std.Antisymm r'] {xs : List α}
    (h : xs.insertionSort r = xs.insertionSort r') {a b : α} (ha : a ∈ xs) (hb : b ∈ xs) :
    r a b ↔ r' a b := by
  have hr := List.pairwise_insertionSort r xs
  have hr' := List.pairwise_insertionSort r' xs
  rw [← h] at hr'
  have hboth : (xs.insertionSort r).Pairwise fun x y => r x y ∧ r' x y := hr.and hr'
  have ha' := (List.mem_insertionSort r).mpr ha
  have hb' := (List.mem_insertionSort r).mpr hb
  generalize xs.insertionSort r = ys at hboth ha' hb'
  clear h hr hr' ha hb
  induction ys with
  | nil => simp at ha'
  | cons y ys ih =>
      rw [List.pairwise_cons] at hboth
      rcases List.mem_cons.mp ha' with rfl | ha''
      · rcases List.mem_cons.mp hb' with rfl | hb''
        · exact iff_of_true (refl_of r _) (refl_of r' _)
        · exact iff_of_true (hboth.1 b hb'').1 (hboth.1 b hb'').2
      · rcases List.mem_cons.mp hb' with rfl | hb''
        · obtain ⟨hba, hba'⟩ := hboth.1 a ha''
          constructor
          · intro hab
            exact antisymm hab hba ▸ refl_of r' a
          · intro hab
            exact antisymm hab hba' ▸ refl_of r a
        · exact ih hboth.2 ha'' hb''

/-- Two linear orders of keys sort a tree alike exactly when they agree on the
keys of each of its objects. -/
theorem sortKeys_eq_sortKeys_iff (le le' : String → String → Prop) [DecidableRel le]
    [DecidableRel le'] [Std.Total le] [IsTrans String le] [Std.Antisymm le]
    [Std.Total le'] [IsTrans String le'] [Std.Antisymm le'] {v : Json ν}
    (hv : v.DistinctKeys) :
    sortKeys le v = sortKeys le' v ↔
      v.ForallObjects fun keys => ∀ k ∈ keys, ∀ k' ∈ keys, le k k' ↔ le' k k' := by
  unfold DistinctKeys at hv
  induction v with
  | null | bool _ | num _ | str _ => exact iff_of_true rfl trivial
  | arr items ih =>
      rw [forallObjects_arr] at hv ⊢
      rw [sortKeys_arr, sortKeys_arr, Json.arr.injEq, List.map_inj_left]
      exact forall₂_congr fun v hmem => ih v hmem (hv v hmem)
  | obj members ih =>
      rw [forallObjects_obj] at hv ⊢
      rw [sortKeys_obj, sortKeys_obj, Json.obj.injEq]
      constructor
      · intro heq
        have hkeys := congrArg (List.map Prod.fst) heq
        rw [map_fst_insertionSort, map_fst_insertionSort, List.map_map, List.map_map] at hkeys
        refine ⟨fun k hk k' hk' => agree_of_insertionSort_eq hkeys hk hk', ?_⟩
        intro m hmem
        refine (ih m hmem (hv.2 m hmem)).mp ?_
        -- Keys are distinct, so the entry for `m.1` is the same on both sides.
        have hleft : (m.1, sortKeys le m.2) ∈
            (members.map fun m => (m.1, sortKeys le' m.2)) := by
          rw [← List.mem_insertionSort (keyLe le'), ← heq, List.mem_insertionSort]
          exact List.mem_map_of_mem hmem
        obtain ⟨m', hmem', hm'⟩ := List.mem_map.mp hleft
        have hsame : m' = m :=
          List.inj_on_of_nodup_map hv.1 hmem' hmem (Prod.ext_iff.mp hm').1
        subst hsame
        exact (Prod.ext_iff.mp hm').2.symm
      · rintro ⟨hagree, hsub⟩
        have hvalues : (members.map fun m => (m.1, sortKeys le m.2)) =
            members.map fun m => (m.1, sortKeys le' m.2) :=
          List.map_congr_left fun m hmem => by
            rw [(ih m hmem (hv.2 m hmem)).mpr (hsub m hmem)]
        rw [hvalues]
        refine insertionSort_congr fun a ha b hb => ?_
        obtain ⟨m, hm, rfl⟩ := List.mem_map.mp ha
        obtain ⟨m', hm', rfl⟩ := List.mem_map.mp hb
        have hkey : ∀ m ∈ members, m.1 ∈ members.map Prod.fst :=
          fun m hm => List.mem_map_of_mem hm
        exact hagree _ (hkey m hm) _ (hkey m' hm')

/-! ## Encoders -/

/-- Run the computations of a list from the front, stopping at the first error. -/
@[grind =]
def collect {ε : Type w} {α : Type v} : List (Except ε α) → Except ε (List α)
  | [] => .ok []
  | .ok a :: rest => (collect rest).map (a :: ·)
  | .error e :: _ => .error e

theorem collect_map_ok {ε : Type w} {α : Type v} {β : Type u} (f : β → α) (xs : List β) :
    collect (xs.map fun x => (Except.ok (f x) : Except ε α)) = .ok (xs.map f) := by
  induction xs with
  | nil => rfl
  | cons x xs ih => simp [collect, ih, Except.map]

/-- A list of computations with a failing one fails. -/
theorem collect_error {ε : Type w} {α : Type v} {xs : List (Except ε α)}
    (h : ∃ x ∈ xs, ∃ e, x = .error e) : ∃ e, collect xs = .error e := by
  induction xs with
  | nil => simp at h
  | cons x xs ih =>
      cases x with
      | error e => exact ⟨e, rfl⟩
      | ok a =>
          obtain ⟨x, hx, e, rfl⟩ := h
          rcases List.mem_cons.mp hx with hx | hx
          · cases hx
          · obtain ⟨e', he'⟩ := ih ⟨_, hx, e, rfl⟩
            exact ⟨e', by simp [collect, he', Except.map]⟩

section Encode

variable {ε : Type w} (le : String → String → Prop) [DecidableRel le]
  (quote : String → List Char) (number : ν → Except ε (List Char))

mutual

/-- A deterministic encoder: members in key order, strings written by `quote`,
numbers by `number`, which may reject them. -/
@[grind =]
def encode : Json ν → Except ε (List Char)
  | .null => .ok ['n', 'u', 'l', 'l']
  | .bool b => .ok (if b then ['t', 'r', 'u', 'e'] else ['f', 'a', 'l', 's', 'e'])
  | .num n => number n
  | .str s => .ok (quote s)
  | .arr items => do
      let texts ← collect (encodeItems items)
      return '[' :: (joinWith ',' texts ++ [']'])
  | .obj members => do
      let sorted := (encodeMembers members).insertionSort (keyLe le)
      let texts ← collect (sorted.map fun m => m.2.map fun text => quote m.1 ++ ':' :: text)
      return '{' :: (joinWith ',' texts ++ ['}'])

@[grind =]
def encodeItems : List (Json ν) → List (Except ε (List Char))
  | [] => []
  | v :: items => encode v :: encodeItems items

@[grind =]
def encodeMembers : List (String × Json ν) → List (String × Except ε (List Char))
  | [] => []
  | (k, v) :: members => (k, encode v) :: encodeMembers members

end

theorem encodeItems_eq_map (items : List (Json ν)) :
    encodeItems le quote number items = items.map (encode le quote number) := by
  induction items with
  | nil => rfl
  | cons v items ih => rw [encodeItems, ih, List.map_cons]

theorem encodeMembers_eq_map (members : List (String × Json ν)) :
    encodeMembers le quote number members =
      members.map fun m => (m.1, encode le quote number m.2) := by
  induction members with
  | nil => rfl
  | cons m members ih => rw [encodeMembers, ih, List.map_cons]

/-- Encoding after replacing the numbers is encoding with another number format. -/
theorem encode_mapNum (f : μ → ν) (v : Json μ) :
    encode le quote number (v.mapNum f) = encode le quote (fun n => number (f n)) v := by
  induction v with
  | null | bool _ | num _ | str _ => rfl
  | arr items ih =>
      have hitems : items.map (encode le quote number ∘ mapNum f) =
          items.map (encode le quote fun n => number (f n)) :=
        List.map_congr_left fun v hmem => ih v hmem
      rw [mapNum_arr, encode, encode, encodeItems_eq_map, encodeItems_eq_map, List.map_map,
        hitems]
  | obj members ih =>
      have hmembers : (members.map fun m => (m.1, mapNum f m.2)).map
            (fun m => (m.1, encode le quote number m.2)) =
          members.map fun m => (m.1, encode le quote (fun n => number (f n)) m.2) := by
        rw [List.map_map]
        exact List.map_congr_left fun m hmem => by rw [Function.comp, ih m hmem]
      rw [mapNum_obj, encode, encode, encodeMembers_eq_map, encodeMembers_eq_map, hmembers]

end Encode

mutual

/-- The text of a tree in the order in which it lists its members. -/
@[grind =]
def render (quote : String → List Char) (number : ν → List Char) : Json ν → List Char
  | .null => ['n', 'u', 'l', 'l']
  | .bool b => if b then ['t', 'r', 'u', 'e'] else ['f', 'a', 'l', 's', 'e']
  | .num n => number n
  | .str s => quote s
  | .arr items => '[' :: (joinWith ',' (renderItems quote number items) ++ [']'])
  | .obj members => '{' :: (joinWith ',' (renderMembers quote number members) ++ ['}'])

@[grind =]
def renderItems (quote : String → List Char) (number : ν → List Char) :
    List (Json ν) → List (List Char)
  | [] => []
  | v :: items => render quote number v :: renderItems quote number items

@[grind =]
def renderMembers (quote : String → List Char) (number : ν → List Char) :
    List (String × Json ν) → List (List Char)
  | [] => []
  | (k, v) :: members =>
      (quote k ++ ':' :: render quote number v) :: renderMembers quote number members

end

section Render

variable (quote : String → List Char) (number : ν → List Char)

@[simp]
theorem render_arr (items : List (Json ν)) :
    render quote number (.arr items) =
      '[' :: (joinWith ',' (items.map (render quote number)) ++ [']']) := by
  have hitems : renderItems quote number items = items.map (render quote number) := by
    induction items with
    | nil => rfl
    | cons v items ih => rw [renderItems, ih, List.map_cons]
  rw [render, hitems]

/-- The text of one member. -/
def renderMember (m : String × Json ν) : List Char :=
  quote m.1 ++ ':' :: render quote number m.2

@[simp]
theorem render_obj (members : List (String × Json ν)) :
    render quote number (.obj members) =
      '{' :: (joinWith ',' (members.map (renderMember quote number)) ++ ['}']) := by
  have hmembers : renderMembers quote number members =
      members.map (renderMember quote number) := by
    induction members with
    | nil => rfl
    | cons m members ih => rw [renderMembers, ih, List.map_cons]; rfl
  rw [render, hmembers]

end Render

/-- An encoder that accepts every number of the tree renders the sorted tree. -/
theorem encode_eq_ok {ε : Type w} (le : String → String → Prop) [DecidableRel le]
    (quote : String → List Char) {number : ν → Except ε (List Char)}
    {text : ν → List Char} {rejects : ν → Bool}
    (hok : ∀ n, rejects n = false → number n = .ok (text n)) {v : Json ν}
    (hv : v.anyNum rejects = false) :
    encode le quote number v = .ok (render quote text (sortKeys le v)) := by
  induction v with
  | null | bool _ | str _ => rfl
  | num n => exact hok n (by simpa [anyNum] using hv)
  | arr items ih =>
      have hall : ∀ v ∈ items, anyNum rejects v = false := by simpa using hv
      rw [encode, encodeItems_eq_map,
        List.map_congr_left fun v hmem => ih v hmem (hall v hmem), collect_map_ok,
        sortKeys_arr, render_arr, List.map_map]
      rfl
  | obj members ih =>
      have hall : ∀ m ∈ members, anyNum rejects m.2 = false := by simpa using hv
      have hmembers : encodeMembers le quote number members =
          (members.map fun m => (m.1, sortKeys le m.2)).map fun m =>
            (m.1, (Except.ok (render quote text m.2) : Except ε (List Char))) := by
        rw [encodeMembers_eq_map, List.map_map]
        exact List.map_congr_left fun m hmem => by rw [ih m hmem (hall m hmem)]; rfl
      have hsort : (encodeMembers le quote number members).insertionSort (keyLe le) =
          ((members.map fun m => (m.1, sortKeys le m.2)).insertionSort (keyLe le)).map
            fun m => (m.1, (Except.ok (render quote text m.2) : Except ε (List Char))) := by
        rw [hmembers]
        exact (List.map_insertionSort (keyLe le) (keyLe le)
          (fun m : String × Json ν =>
            (m.1, (Except.ok (render quote text m.2) : Except ε (List Char)))) _
          fun _ _ _ _ => Iff.rfl).symm
      rw [encode, sortKeys_obj, render_obj]
      simp only [hsort, List.map_map]
      have hcollect := collect_map_ok (ε := ε) (renderMember quote text)
        ((members.map fun m => (m.1, sortKeys le m.2)).insertionSort (keyLe le))
      exact congrArg (fun r : Except ε (List (List Char)) => r.bind fun texts =>
        Except.ok ('{' :: (joinWith ',' texts ++ ['}']))) hcollect

/-- An encoder that rejects a number of the tree fails. -/
theorem encode_error {ε : Type w} (le : String → String → Prop) [DecidableRel le]
    (quote : String → List Char) {number : ν → Except ε (List Char)} {rejects : ν → Bool}
    (herr : ∀ n, rejects n = true → ∃ e, number n = .error e) {v : Json ν}
    (hv : v.anyNum rejects = true) : ∃ e, encode le quote number v = .error e := by
  induction v with
  | null | bool _ | str _ => simp [anyNum] at hv
  | num n => exact herr n (by simpa [anyNum] using hv)
  | arr items ih =>
      obtain ⟨v, hmem, hbad⟩ : ∃ v ∈ items, anyNum rejects v = true := by simpa using hv
      obtain ⟨e, he⟩ := ih v hmem hbad
      have hbad : ∃ x ∈ items.map (encode le quote number), ∃ e, x = .error e :=
        ⟨_, List.mem_map_of_mem hmem, e, he⟩
      obtain ⟨e', he'⟩ := collect_error hbad
      exact ⟨e', by rw [encode, encodeItems_eq_map, he']; rfl⟩
  | obj members ih =>
      obtain ⟨m, hmem, hbad⟩ : ∃ m ∈ members, anyNum rejects m.2 = true := by simpa using hv
      obtain ⟨e, he⟩ := ih m hmem hbad
      have hsorted : (m.1, encode le quote number m.2) ∈
          (encodeMembers le quote number members).insertionSort (keyLe le) := by
        rw [List.mem_insertionSort, encodeMembers_eq_map]
        exact List.mem_map_of_mem (f := fun m => (m.1, encode le quote number m.2)) hmem
      have hbad : ∃ x ∈ ((encodeMembers le quote number members).insertionSort
          (keyLe le)).map fun m => m.2.map fun text => quote m.1 ++ ':' :: text,
          ∃ e, x = .error e :=
        ⟨_, List.mem_map_of_mem hsorted, e, by simp [he, Except.map]⟩
      obtain ⟨e', he'⟩ := collect_error hbad
      exact ⟨e', by rw [encode]; simp only [he']; rfl⟩

/-! ## Reading a rendered tree -/

/-- The constructors of `Json`. -/
inductive Kind
  | null
  | bool
  | num
  | str
  | arr
  | obj
  deriving DecidableEq

def kind : Json ν → Kind
  | .null => .null
  | .bool _ => .bool
  | .num _ => .num
  | .str _ => .str
  | .arr _ => .arr
  | .obj _ => .obj

/-- The first character of a rendered value announces its constructor. -/
def Kind.ofHead (c : Char) : Kind :=
  if c = 'n' then .null
  else if c = 't' ∨ c = 'f' then .bool
  else if c = '"' then .str
  else if c = '[' then .arr
  else if c = '{' then .obj
  else .num

/-- What a reader must know about strings and numbers: quoted strings are
self-delimiting, and numbers are readable before anything but a digit. -/
structure ReadableParts (quote : String → List Char) (number : ν → List Char) : Prop where
  quote_head : ∀ s, ∃ text, quote s = '"' :: text
  quote_readable : ∀ s, Readable anyRest quote s
  number_head : ∀ n, ∃ c text, number n = c :: text ∧ Kind.ofHead c = .num ∧
    c ≠ ']' ∧ c ≠ '}'
  number_readable : ∀ n, Readable (RestAvoids fun c => c.isDigit = true) number n

variable {quote : String → List Char} {number : ν → List Char}

theorem ReadableParts.render_head (parts : ReadableParts quote number) (v : Json ν) :
    ∃ c text, render quote number v = c :: text ∧ Kind.ofHead c = v.kind ∧
      c ≠ ']' ∧ c ≠ '}' := by
  cases v with
  | null => exact ⟨'n', _, by rw [render], by simp [Kind.ofHead, kind]⟩
  | bool b =>
      cases b
      · exact ⟨'f', _, by rw [render]; rfl, by simp [Kind.ofHead, kind]⟩
      · exact ⟨'t', _, by rw [render]; rfl, by simp [Kind.ofHead, kind]⟩
  | num n =>
      obtain ⟨c, text, hnum, hkind, hne⟩ := parts.number_head n
      exact ⟨c, text, by rw [render, hnum], hkind, hne⟩
  | str s =>
      obtain ⟨text, htext⟩ := parts.quote_head s
      exact ⟨'"', text, by rw [render, htext], by simp [Kind.ofHead, kind]⟩
  | arr items => exact ⟨'[', _, render_arr .., by simp [Kind.ofHead, kind]⟩
  | obj members => exact ⟨'{', _, render_obj .., by simp [Kind.ofHead, kind]⟩

/-- Texts that begin alike render values of one constructor. -/
theorem ReadableParts.kind_eq (parts : ReadableParts quote number) {v v' : Json ν}
    {rest rest' : List Char}
    (heq : render quote number v ++ rest = render quote number v' ++ rest') :
    v.kind = v'.kind := by
  obtain ⟨c, text, hc, hkind, -⟩ := parts.render_head v
  obtain ⟨c', text', hc', hkind', -⟩ := parts.render_head v'
  rw [hc, hc', List.cons_append, List.cons_append, List.cons.injEq] at heq
  rw [← hkind, ← hkind', heq.1]

/-- A rendered tree can be read from the front of any text that does not go on
with a digit. -/
theorem ReadableParts.render_readable (parts : ReadableParts quote number) (v : Json ν) :
    Readable (RestAvoids fun c => c.isDigit = true) (render quote number) v := by
  -- What may follow an item or a member is never a digit.
  have hcomma : ∀ rest : List Char, RestAvoids (fun c => c.isDigit = true) (',' :: rest) :=
    fun rest => by rw [restAvoids_cons]; decide
  have hbracket : ∀ rest : List Char, RestAvoids (fun c => c.isDigit = true) (']' :: rest) :=
    fun rest => by rw [restAvoids_cons]; decide
  have hbrace : ∀ rest : List Char, RestAvoids (fun c => c.isDigit = true) ('}' :: rest) :=
    fun rest => by rw [restAvoids_cons]; decide
  induction v with
  | null =>
      intro v' rest rest' _ _ heq
      have hkind := parts.kind_eq heq
      cases v' <;> simp only [kind, reduceCtorEq] at hkind
      exact ⟨rfl, by simpa [render] using heq⟩
  | bool b =>
      intro v' rest rest' _ _ heq
      have hkind := parts.kind_eq heq
      cases v' <;> simp only [kind, reduceCtorEq] at hkind
      rename_i b'
      cases b <;> cases b' <;> simp [render] at heq ⊢ <;> exact heq
  | num n =>
      intro v' rest rest' hrest hrest' heq
      have hkind := parts.kind_eq heq
      cases v' <;> simp only [kind, reduceCtorEq] at hkind
      rename_i n'
      simp only [render] at heq
      obtain ⟨rfl, hend⟩ := parts.number_readable n n' rest rest' hrest hrest' heq
      exact ⟨rfl, hend⟩
  | str s =>
      intro v' rest rest' _ _ heq
      have hkind := parts.kind_eq heq
      cases v' <;> simp only [kind, reduceCtorEq] at hkind
      rename_i s'
      simp only [render] at heq
      obtain ⟨rfl, hend⟩ := parts.quote_readable s s' rest rest' trivial trivial heq
      exact ⟨rfl, hend⟩
  | arr items ih =>
      intro v' rest rest' _ _ heq
      have hkind := parts.kind_eq heq
      cases v' <;> simp only [kind, reduceCtorEq] at hkind
      rename_i items'
      rw [render_arr, render_arr, List.cons_append, List.cons_append, List.cons.injEq] at heq
      have hread := joinWith_readable hcomma hbracket (by decide)
        (fun w => by
          obtain ⟨c, text, hc, -, hne, -⟩ := parts.render_head w
          exact ⟨c, text, hc, hne⟩) ih
      obtain ⟨rfl, hend⟩ := hread items' rest rest' trivial trivial heq.2
      exact ⟨rfl, hend⟩
  | obj members ih =>
      intro v' rest rest' _ _ heq
      have hkind := parts.kind_eq heq
      cases v' <;> simp only [kind, reduceCtorEq] at hkind
      rename_i members'
      rw [render_obj, render_obj, List.cons_append, List.cons_append, List.cons.injEq] at heq
      have hmember : ∀ m ∈ members, Readable (RestAvoids fun c => c.isDigit = true)
          (renderMember quote number) m := fun m hmem =>
        Readable.pair (fun _ _ _ => trivial) (parts.quote_readable m.1)
          ((ih m hmem).prepend [':'])
      have hread := joinWith_readable hcomma hbrace (by decide)
        (fun m => by
          obtain ⟨text, htext⟩ := parts.quote_head m.1
          exact ⟨'"', _, by rw [renderMember, htext]; rfl, by decide⟩) hmember
      obtain ⟨rfl, hend⟩ := hread members' rest rest' trivial trivial heq.2
      exact ⟨rfl, hend⟩

/-- Different ordered trees have different texts. -/
theorem ReadableParts.render_injective (parts : ReadableParts quote number) :
    Function.Injective (render quote number) :=
  fun v _ heq => (parts.render_readable v).eq_of_code_eq (restAvoids_nil _) heq

end Json

end Useful.Math
