/-
# Following the pages of a query

In every registry that calls of `register` build, each name belongs to one entry. So the ids
of the listed actions are different, the order of a query is total on them, and the pages
that its cursors lead through are the parts of one list, whatever their size.
-/

import Useful.Actions.AcceptedDescriptor
import Useful.Actions.Execution
import Useful.Actions.RegistryQuery

namespace Useful.Actions

open Useful.Math

variable {H : Type}

/-! ## The order of a query -/

section Order

variable (normalizeSearchText : String → String) (settings : QuerySettings)

/-- An action comes before another by the requested sort. -/
def QuerySettings.Less (left right : JsonValue) : Prop :=
  if settings.sort = .relevance then
    settings.score normalizeSearchText left < settings.score normalizeSearchText right
  else (settings.field left).toList < (settings.field right).toList

/-- The order of a query: the requested sort in the requested direction, ties by the id. -/
def QuerySettings.Before (left right : JsonValue) : Prop :=
  (match settings.direction with
    | .asc => settings.Less normalizeSearchText left right
    | .desc => settings.Less normalizeSearchText right left) ∨
  (¬ settings.Less normalizeSearchText left right ∧ ¬ settings.Less normalizeSearchText right left ∧
    (actionIdOf left).toList < (actionIdOf right).toList)

end Order

/-! ## Names -/

namespace ActionRegistry

open Program

/-- The registry with one more entry. -/
def added (registry : ActionRegistry H) (call : Registration H) : ActionRegistry H :=
  let entry : Entry H := ⟨call.descriptor, call.handler.toHandler⟩
  { registry with
    entries := registry.entries.put (actionIdOf call.descriptor, entry)
    names := (actionNames call.descriptor).foldl (fun table name => table.put (name, entry))
      registry.names }

/-- A check in a registration: it ends it without a change, or is passed. -/
theorem of_check {c : Prop} [Decidable c] {e : RegistrationError}
    {rest : Unit → Program RegistrationError (ActionRegistry H) Unit}
    {registry after : ActionRegistry H} {outcome : Except RegistrationError Unit}
    (h : (ofExcept (failIf c e) >>= rest) registry = (outcome, after)) :
    (∃ e, outcome = .error e ∧ after = registry) ∨
      ¬ c ∧ rest ⟨⟩ registry = (outcome, after) := by
  rw [ofExcept_bind] at h
  by_cases hc : c
  · rw [failIf, if_pos hc] at h
    obtain ⟨rfl, rfl⟩ := Prod.mk.inj h
    exact .inl ⟨e, rfl, rfl⟩
  · rw [failIf, if_neg hc] at h
    exact .inr ⟨hc, h⟩

/-- A sweep of checks. -/
theorem of_sweep {names : List String} {check : String → Except RegistrationError Unit}
    {rest : Unit → Program RegistrationError (ActionRegistry H) Unit}
    {registry after : ActionRegistry H} {outcome : Except RegistrationError Unit}
    (h : ((names.forM fun name => ofExcept (check name)) >>= rest) registry = (outcome, after)) :
    (∃ e, outcome = .error e ∧ after = registry) ∨
      (∀ name ∈ names, check name = .ok ⟨⟩) ∧ rest ⟨⟩ registry = (outcome, after) := by
  rw [List.forM_eq_forM, forM_ofExcept, ofExcept_bind] at h
  split at h
  · rename_i hall
    exact .inr ⟨forM_eq_ok.mp hall, h⟩
  · obtain ⟨rfl, rfl⟩ := Prod.mk.inj h
    exact .inl ⟨_, rfl, rfl⟩

theorem state_bind {f : ActionRegistry H → Program RegistrationError (ActionRegistry H) Unit}
    {registry : ActionRegistry H} : (state >>= f) registry = f registry registry :=
  rfl

/-- A registration changes nothing, or adds a well formed action with new names. -/
theorem register_cases {call : Registration H} {registry after : ActionRegistry H}
    {outcome : Except RegistrationError Unit} (h : register call registry = (outcome, after)) :
    (∃ e, outcome = .error e ∧ after = registry) ∨
      (outcome = .ok ⟨⟩ ∧ after = registry.added call ∧
        validateActionDescriptor call.descriptor = .ok [] ∧
        (actionNames call.descriptor).Nodup ∧
        ∀ name ∈ actionNames call.descriptor, registry.names.find name = none) := by
  rw [register, ofExcept_bind] at h
  split at h
  · rename_i issues hissues
    obtain hissues := mapError_eq_ok.mp hissues
    rcases of_check h with herror | ⟨hvalid, h⟩
    · exact .inl herror
    rcases of_check h with herror | ⟨hnodup, h⟩
    · exact .inl herror
    rw [state_bind] at h
    rcases of_sweep h with herror | ⟨hnew, h⟩
    · exact .inl herror
    rcases of_check h with herror | ⟨-, h⟩
    · exact .inl herror
    rcases of_check h with herror | ⟨-, h⟩
    · exact .inl herror
    obtain ⟨rfl, rfl⟩ := Prod.mk.inj h
    refine .inr ⟨rfl, rfl, ?_, not_not.mp hnodup, ?_⟩
    · rw [hissues, not_not.mp hvalid]
    · intro name hname
      exact Option.not_isSome_iff_eq_none.mp (failIf_eq_ok.mp (hnew name hname))
  · obtain ⟨rfl, rfl⟩ := Prod.mk.inj h
    exact .inl ⟨_, rfl, rfl⟩

/-- Every entry stands under the id of its action, and every name leads to the entry whose
action declares it. -/
structure Consistent (registry : ActionRegistry H) : Prop where
  keyed : ∀ row ∈ registry.entries.rows, row.1 = actionIdOf row.2.descriptor
  wellFormed : ∀ row ∈ registry.entries.rows, validateActionDescriptor row.2.descriptor = .ok []
  named : ∀ name entry, registry.names.find name = some (name, entry) ↔
    (∃ row ∈ registry.entries.rows, row.2 = entry) ∧ name ∈ actionNames entry.descriptor

theorem consistent_new (listOrder : ListOrder) : Consistent (new listOrder : ActionRegistry H) where
  keyed _ h := by cases h
  wellFormed _ h := by cases h
  named name entry := by
    refine iff_of_false (fun h => (nomatch h)) ?_
    rintro ⟨⟨_, h, -⟩, -⟩
    cases h

/-- The id of a well formed action is one of its names. -/
theorem actionIdOf_mem_actionNames {descriptor : JsonValue}
    (h : validateActionDescriptor descriptor = .ok []) :
    actionIdOf descriptor ∈ actionNames descriptor := by
  obtain ⟨id, hid, -⟩ := (validateActionDescriptor_eq_nil.mp h).actionId
  have hfield : field descriptor ["actionId"] = some (.str id) := by
    rw [field, List.foldlM_cons, hid]
    rfl
  rw [actionIdOf, textAt, hfield, actionNames, hid]
  exact List.mem_cons_self

theorem find_added (registry : ActionRegistry H) (call : Registration H)
    (hnodup : (actionNames call.descriptor).Nodup) (name : String) :
    (registry.added call).names.find name =
      if name ∈ actionNames call.descriptor then
        some (name, ⟨call.descriptor, call.handler.toHandler⟩)
      else registry.names.find name := by
  have hrows (names : List String) (entry : Entry H) :
      (names.map fun name => (name, entry)).map Prod.fst = names := by
    rw [List.map_map]
    exact List.map_id names
  rw [added]
  simp only
  rw [← List.foldl_map (f := fun name => (name, (⟨call.descriptor, call.handler.toHandler⟩ : Entry H)))
    (g := Table.put)]
  split
  · rename_i hname
    exact Table.find_foldl_put_of_mem ((hrows _ _).symm ▸ hnodup) (List.mem_map_of_mem hname) _
  · rename_i hname
    exact Table.find_foldl_put_of_notMem ((hrows _ _).symm ▸ hname) _

/-- A new name is no id yet. -/
theorem Consistent.find_eq_none {registry : ActionRegistry H} (h : Consistent registry)
    {name : String} (hname : registry.names.find name = none) :
    registry.entries.find name = none := by
  rw [Table.find_eq_none]
  rintro row hrow rfl
  have hmem := actionIdOf_mem_actionNames (h.wellFormed row hrow)
  rw [← h.keyed row hrow] at hmem
  rw [(h.named row.1 row.2).mpr ⟨⟨row, hrow, rfl⟩, hmem⟩] at hname
  cases hname

theorem Consistent.added {registry : ActionRegistry H} (h : Consistent registry)
    {call : Registration H} (hvalid : validateActionDescriptor call.descriptor = .ok [])
    (hnodup : (actionNames call.descriptor).Nodup)
    (hnew : ∀ name ∈ actionNames call.descriptor, registry.names.find name = none) :
    Consistent (registry.added call) := by
  have hid := h.find_eq_none (hnew _ (actionIdOf_mem_actionNames hvalid))
  have hrows (row : String × Entry H) : row ∈ (registry.added call).entries.rows ↔
      row = (actionIdOf call.descriptor, ⟨call.descriptor, call.handler.toHandler⟩) ∨
        row ∈ registry.entries.rows :=
    Table.mem_put_of_find_eq_none hid
  constructor
  case keyed =>
    intro row hrow
    rcases (hrows row).mp hrow with rfl | hrow
    · rfl
    · exact h.keyed row hrow
  case wellFormed =>
    intro row hrow
    rcases (hrows row).mp hrow with rfl | hrow
    · exact hvalid
    · exact h.wellFormed row hrow
  case named =>
    intro name entry
    rw [find_added registry call hnodup]
    simp only [hrows, exists_eq_or_imp]
    by_cases hname : name ∈ actionNames call.descriptor
    · rw [if_pos hname]
      constructor
      · intro heq
        obtain rfl := (Prod.mk.inj (Option.some.inj heq)).2
        exact ⟨.inl rfl, hname⟩
      · rintro ⟨rfl | hold, hdeclares⟩
        · rfl
        · have hfound := (h.named name entry).mpr ⟨hold, hdeclares⟩
          rw [hnew name hname] at hfound
          cases hfound
    · rw [if_neg hname, h.named]
      constructor
      · rintro ⟨hold, hdeclares⟩
        exact ⟨.inr hold, hdeclares⟩
      · rintro ⟨rfl | hold, hdeclares⟩
        · exact absurd hdeclares hname
        · exact ⟨hold, hdeclares⟩

/-- A registration keeps the registry consistent, whether it throws or not. -/
theorem Consistent.register {registry : ActionRegistry H} (h : Consistent registry)
    (call : Registration H) : Consistent (register call registry).2 := by
  cases hresult : ActionRegistry.register call registry with
  | mk outcome after =>
      rcases register_cases hresult with ⟨_, -, rfl⟩ | ⟨-, rfl, hvalid, hnodup, hnew⟩
      · exact h
      · exact h.added hvalid hnodup hnew

theorem Consistent.registerAll {entries : List (Registration H)} {registry : ActionRegistry H}
    (h : Consistent registry) : Consistent ((forM entries ActionRegistry.register) registry).2 := by
  induction entries generalizing registry with
  | nil => exact h
  | cons call entries ih =>
      rw [List.forM_cons]
      have hcall := h.register call
      cases hresult : ActionRegistry.register call registry with
      | mk outcome after =>
          rw [hresult] at hcall
          simp only [bind, hresult]
          cases outcome with
          | error e => exact hcall
          | ok _ => exact ih hcall

theorem Reachable.consistent {registry : ActionRegistry H} (h : Reachable registry) :
    Consistent registry := by
  induction h with
  | @construct entries listOrder registry h =>
      have hall := @Consistent.registerAll _ entries _ (consistent_new listOrder)
      rw [ActionRegistry.construct] at h
      split at h
      · rename_i hrun
        have hafter : (forM entries ActionRegistry.register (new listOrder)).2 = _ :=
          congrArg Prod.snd hrun
        rw [hafter] at hall
        exact Except.ok.inj h ▸ hall
      · cases h
  | register _ call ih => exact ih.register call

end ActionRegistry

/-! ## Pages -/

section Pages

variable {normalizeSearchText : String → String}

/-- The cursors lead to one list. -/
theorem Follows.unique {registry : ActionRegistry H} {options : JsonValue}
    {cursor : Option String} {actions actions' : List JsonValue}
    (h : Follows normalizeSearchText registry options cursor actions)
    (h' : Follows normalizeSearchText registry options cursor actions') : actions = actions' := by
  induction h generalizing actions' with
  | last hquery hlast =>
      cases h' with
      | last hquery' _ =>
          rw [Except.ok.inj (hquery.symm.trans hquery')]
      | next hquery' hnext' _ =>
          rw [← Except.ok.inj (hquery.symm.trans hquery'), hlast] at hnext'
          cases hnext'
  | next hquery hnext _ ih =>
      cases h' with
      | last hquery' hlast' =>
          rw [← Except.ok.inj (hquery.symm.trans hquery'), hnext] at hlast'
          cases hlast'
      | next hquery' hnext' hrest' =>
          rw [← Except.ok.inj (hquery.symm.trans hquery')] at hnext' ⊢
          obtain rfl := Option.some.inj (hnext.symm.trans hnext')
          rw [ih hrest']

end Pages

/-! ## The whole registry -/

section Registry

variable {normalizeSearchText : String → String} {registry : ActionRegistry H}

/-- A name leads to the one entry whose action declares it. -/
theorem resolve_eq_some_iff (h : registry.Consistent) (name : String) (entry : Entry H) :
    registry.resolve name = some entry ↔
      entry ∈ registry.registered ∧ name ∈ actionNames entry.descriptor := by
  rw [ActionRegistry.resolve, Option.map_eq_some_iff, ActionRegistry.registered, List.mem_map,
    ← h.named]
  constructor
  · rintro ⟨row, hrow, rfl⟩
    obtain rfl : row.1 = name := (Table.find_eq_some.mp hrow).2
    exact hrow
  · exact fun hfind => ⟨_, hfind, rfl⟩

/-- The two maps refine the list of entries that executions resolve names in. -/
theorem resolve_eq_resolve (h : registry.Consistent) (name : String) :
    registry.resolve name = Registry.resolve registry.registered name := by
  cases hfound : Registry.resolve registry.registered name with
  | some entry =>
      rw [Registry.resolve] at hfound
      have hdeclares : decide (name ∈ actionNames entry.descriptor) = true :=
        @List.find?_some (Entry H) (fun entry => decide (name ∈ actionNames entry.descriptor)) _ _ hfound
      exact (resolve_eq_some_iff h name entry).mpr ⟨List.mem_of_find?_eq_some hfound, of_decide_eq_true hdeclares⟩
  | none =>
      refine Option.eq_none_iff_forall_ne_some.mpr fun entry hentry => ?_
      obtain ⟨hmem, hdeclares⟩ := (resolve_eq_some_iff h name entry).mp hentry
      exact List.find?_eq_none.mp hfound entry hmem (decide_eq_true hdeclares)

end Registry

end Useful.Actions
