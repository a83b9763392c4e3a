/-
# Stores behind keys

A store keeps a value for every name, but may only look at a key of the name. Its answers depend on
which names have the same key and on nothing else about the keys, and from the answers one can tell
which names these are.
-/

import Mathlib.Data.Set.Function
import Mathlib.Logic.Function.Basic

namespace Useful.Math

universe u v w

/-- A call to a store. -/
inductive Access (ν : Type u) (β : Type v)
  | save (name : ν) (value : β)
  | load (name : ν)
  | delete (name : ν)

inductive Answer (β : Type v)
  | done
  | found (value : Option β)
  deriving DecidableEq

namespace Access

variable {ν : Type u} {β : Type v} {κ κ' : Type w}

def name : Access ν β → ν
  | save name _ | load name | delete name => name

/-- What a call does to the values and what it answers. -/
def run [DecidableEq κ] (key : ν → κ) (values : κ → Option β) :
    Access ν β → (κ → Option β) × Answer β
  | save name value => (Function.update values (key name) (some value), .done)
  | load name => (values, .found (values (key name)))
  | delete name => (Function.update values (key name) none, .done)

/-- The answers to calls, one after the other. -/
def answers [DecidableEq κ] (key : ν → κ) : (κ → Option β) → List (Access ν β) → List (Answer β)
  | _, [] => []
  | values, call :: calls => (call.run key values).2 :: answers key (call.run key values).1 calls

variable [DecidableEq κ] [DecidableEq κ'] {key : ν → κ} {key' : ν → κ'}

/-- Two stores with values for the same names keep them, if their keys agree on which names are the
same. -/
theorem run_agrees {names : Set ν}
    (hkeys : ∀ a ∈ names, ∀ b ∈ names, key a = key b ↔ key' a = key' b)
    {values : κ → Option β} {values' : κ' → Option β}
    (hvalues : ∀ a ∈ names, values (key a) = values' (key' a)) {call : Access ν β}
    (hcall : call.name ∈ names) :
    (∀ a ∈ names, (call.run key values).1 (key a) = (call.run key' values').1 (key' a)) ∧
      (call.run key values).2 = (call.run key' values').2 := by
  have hupdate (value : Option β) (b : ν) (hb : b ∈ names) (a : ν) (ha : a ∈ names) :
      Function.update values (key b) value (key a) =
        Function.update values' (key' b) value (key' a) := by
    by_cases hab : key a = key b
    · rw [hab, Function.update_self, (hkeys a ha b hb).mp hab, Function.update_self]
    · rw [Function.update_of_ne hab, Function.update_of_ne fun h => hab ((hkeys a ha b hb).mpr h),
        hvalues a ha]
  cases call with
  | save name value => exact ⟨hupdate _ name hcall, rfl⟩
  | load name => exact ⟨hvalues, congrArg Answer.found (hvalues name hcall)⟩
  | delete name => exact ⟨hupdate _ name hcall, rfl⟩

theorem answers_agree {names : Set ν}
    (hkeys : ∀ a ∈ names, ∀ b ∈ names, key a = key b ↔ key' a = key' b)
    {values : κ → Option β} {values' : κ' → Option β}
    (hvalues : ∀ a ∈ names, values (key a) = values' (key' a)) {calls : List (Access ν β)}
    (hcalls : ∀ call ∈ calls, call.name ∈ names) :
    answers key values calls = answers key' values' calls := by
  induction calls generalizing values values' with
  | nil => rfl
  | cons call calls ih =>
      rw [List.forall_mem_cons] at hcalls
      obtain ⟨hnext, hanswer⟩ := run_agrees hkeys hvalues hcalls.1
      rw [answers, answers, hanswer, ih hnext hcalls.2]

theorem answers_agree_of_empty {names : Set ν}
    (hkeys : ∀ a ∈ names, ∀ b ∈ names, key a = key b ↔ key' a = key' b) {calls : List (Access ν β)}
    (hcalls : ∀ call ∈ calls, call.name ∈ names) :
    answers key (fun _ => none) calls = answers key' (fun _ => none) calls :=
  answers_agree hkeys (fun _ _ => rfl) hcalls

/-- Saving under one name and loading another one tells whether their keys are the same. -/
theorem answers_save_load (a b : ν) (value : β) :
    answers key (fun _ => none) [.save a value, .load b] =
      [.done, .found (if key b = key a then some value else none)] := by
  by_cases hab : key b = key a
  · simp [answers, run, hab]
  · simp [answers, run, hab]

/-- Stores whose answers agree have keys that agree. -/
theorem keys_agree_of_answers [Nonempty β] {names : Set ν}
    (h : ∀ calls : List (Access ν β), (∀ call ∈ calls, call.name ∈ names) →
      answers key (fun _ => none) calls = answers key' (fun _ => none) calls) :
    ∀ a ∈ names, ∀ b ∈ names, key a = key b ↔ key' a = key' b := by
  intro a ha b hb
  obtain ⟨value⟩ := ‹Nonempty β›
  have hcalls := h [.save b value, .load a] (by
    intro call hcall
    simp only [List.mem_cons, List.not_mem_nil, or_false] at hcall
    rcases hcall with rfl | rfl
    · exact hb
    · exact ha)
  rw [answers_save_load, answers_save_load] at hcalls
  simp only [List.cons.injEq, Answer.found.injEq, true_and, and_true] at hcalls
  by_cases hab : key a = key b
  · rw [if_pos hab] at hcalls
    refine iff_of_true hab ?_
    by_contra hno
    rw [if_neg hno] at hcalls
    cases hcalls
  · rw [if_neg hab] at hcalls
    refine iff_of_false hab fun hsame => ?_
    rw [if_pos hsame] at hcalls
    cases hcalls

end Access

end Useful.Math
