/-
# Computations that may reject

A validator is a chain of checks in `Except`. It accepts exactly when each of its
checks does, and the lemmas here turn such an acceptance into the conjunction of
the single acceptances.
-/

import Mathlib.Data.List.Forall2
import Mathlib.Tactic.Common

namespace Useful.Math

universe u v w

variable {ε : Type u} {α β : Type v}

/-- A chain accepts when its first part does and the rest accepts its result. -/
theorem bind_eq_ok {x : Except ε α} {f : α → Except ε β} {b : β} :
    x >>= f = .ok b ↔ ∃ a, x = .ok a ∧ f a = .ok b := by
  cases x with
  | error e => simp [bind, Except.bind]
  | ok a => simp [bind, Except.bind]

/-- A chain whose first part accepts continues with the rest. -/
theorem bind_of_eq_ok {x : Except ε α} {a : α} (h : x = .ok a) (f : α → Except ε β) :
    x >>= f = f a := by
  rw [h]
  rfl

theorem pure_eq_ok {a b : α} : (pure a : Except ε α) = .ok b ↔ a = b := by
  simp [pure, Except.pure]

/-- What is computed from a result is accepted as the result is. -/
theorem map_eq_ok {x : Except ε α} {f : α → β} {b : β} :
    x.map f = .ok b ↔ ∃ a, x = .ok a ∧ f a = b := by
  cases x <;> simp [Except.map]

/-- Reject with `e` under a condition. -/
def failIf (c : Prop) [Decidable c] (e : ε) : Except ε PUnit :=
  if c then .error e else .ok ⟨⟩

theorem failIf_eq_ok {c : Prop} [Decidable c] {e : ε} {r : PUnit} :
    failIf c e = .ok r ↔ ¬ c := by
  unfold failIf
  split_ifs with h <;> simp [h]

/-- The value of an option, or a rejection. -/
def orFail (e : ε) : Option α → Except ε α
  | some a => .ok a
  | none => .error e

theorem orFail_eq_ok {e : ε} {x : Option α} {a : α} : orFail e x = .ok a ↔ x = some a := by
  cases x <;> simp [orFail]

/-- Renaming errors does not change what is accepted. -/
theorem mapError_eq_ok {ε' : Type w} {x : Except ε α} {f : ε → ε'} {a : α} :
    x.mapError f = .ok a ↔ x = .ok a := by
  cases x <;> simp [Except.mapError]

/-- A sweep of checks accepts when each of them does. -/
theorem forM_eq_ok {γ : Type w} {xs : List γ} {f : γ → Except ε PUnit.{v + 1}} {r : PUnit} :
    forM xs f = .ok r ↔ ∀ x ∈ xs, f x = .ok ⟨⟩ := by
  induction xs with
  | nil => simp [pure_eq_ok]
  | cons x xs ih =>
      rw [List.forM_cons, bind_eq_ok, List.forall_mem_cons, ← ih]
      exact ⟨fun ⟨_, hx, hxs⟩ => ⟨hx, hxs⟩, fun ⟨hx, hxs⟩ => ⟨⟨⟩, hx, hxs⟩⟩

/-- What one step keeps of the items so far holds of all of them in the end. -/
theorem foldlM_induct {γ : Type w} {f : β → γ → Except ε β} {R : List γ → β → Prop}
    (hstep : ∀ xs x b b', R xs b → f b x = .ok b' → R (xs ++ [x]) b') {xs : List γ} {b b' : β}
    (hstart : R [] b) (hrun : xs.foldlM f b = .ok b') : R xs b' := by
  have hall (xs before : List γ) (b : β) (hbefore : R before b) (h : xs.foldlM f b = .ok b') :
      R (before ++ xs) b' := by
    induction xs generalizing before b with
    | nil =>
        rw [List.foldlM_nil, pure_eq_ok] at h
        rw [List.append_nil, ← h]
        exact hbefore
    | cons x xs ih =>
        rw [List.foldlM_cons, bind_eq_ok] at h
        obtain ⟨next, hnext, hrest⟩ := h
        have hnext := ih (before ++ [x]) next (hstep _ _ _ _ hbefore hnext) hrest
        rwa [List.append_assoc] at hnext
  exact hall xs [] b hstart hrun

/-- A list is transformed when each of its items is. -/
theorem mapM_eq_ok {xs : List α} {f : α → Except ε β} {ys : List β} :
    xs.mapM f = .ok ys ↔ List.Forall₂ (fun x y => f x = .ok y) xs ys := by
  induction xs generalizing ys with
  | nil =>
      rw [List.mapM_nil, pure_eq_ok, List.forall₂_nil_left_iff]
      exact eq_comm
  | cons x xs ih =>
      rw [List.mapM_cons, bind_eq_ok, List.forall₂_cons_left_iff]
      constructor
      · rintro ⟨y, hy, hrest⟩
        rw [bind_eq_ok] at hrest
        obtain ⟨rest, hrest, heq⟩ := hrest
        rw [pure_eq_ok] at heq
        exact ⟨y, rest, hy, ih.mp hrest, heq.symm⟩
      · rintro ⟨y, rest, hy, hrest, rfl⟩
        refine ⟨y, hy, ?_⟩
        rw [bind_eq_ok]
        exact ⟨rest, ih.mpr hrest, rfl⟩

/-- All items are transformed to one value. -/
theorem mapM_eq_const {xs : List α} {f : α → Except ε β} {ys : List β} {b : β} :
    (xs.mapM f = .ok ys ∧ ∀ y ∈ ys, y = b) ↔ (∀ x ∈ xs, f x = .ok b) ∧ ys = xs.map fun _ => b := by
  rw [mapM_eq_ok]
  constructor
  · rintro ⟨hall, hconst⟩
    have hys : ys = xs.map fun _ => b := by
      rw [List.map_const', List.eq_replicate_iff]
      exact ⟨hall.length_eq.symm, hconst⟩
    subst hys
    rw [List.forall₂_map_right_iff, List.forall₂_same] at hall
    exact ⟨hall, rfl⟩
  · rintro ⟨hall, rfl⟩
    rw [List.forall₂_map_right_iff, List.forall₂_same]
    exact ⟨hall, by simp⟩

theorem mapM_congr {xs : List α} {f g : α → Except ε β} (h : ∀ x ∈ xs, f x = g x) :
    xs.mapM f = xs.mapM g := by
  induction xs with
  | nil => rfl
  | cons x xs ih =>
      rw [List.mapM_cons, List.mapM_cons, h x List.mem_cons_self,
        ih fun x hx => h x (List.mem_cons_of_mem _ hx)]

theorem exists_mapM_eq_ok {xs : List α} {f : α → Except ε β} :
    (∃ ys, xs.mapM f = .ok ys) ↔ ∀ x ∈ xs, ∃ y, f x = .ok y := by
  simp only [mapM_eq_ok]
  constructor
  · rintro ⟨ys, h⟩ x hx
    induction h with
    | nil => cases hx
    | cons hy _ ih =>
        cases List.mem_cons.mp hx with
        | inl heq => exact ⟨_, heq ▸ hy⟩
        | inr hmem => exact ih hmem
  · intro h
    induction xs with
    | nil => exact ⟨[], .nil⟩
    | cons x xs ih =>
        obtain ⟨y, hy⟩ := h x List.mem_cons_self
        obtain ⟨ys, hys⟩ := ih fun x hx => h x (List.mem_cons_of_mem _ hx)
        exact ⟨y :: ys, .cons hy hys⟩

/-- The results of some of the items, picked out among all results. -/
theorem mapM_filter {xs : List α} {f : α → Except ε β} {ys : List β} {p : α → Bool} {q : β → Bool}
    (hpq : ∀ x y, f x = .ok y → p x = q y) (h : xs.mapM f = .ok ys) :
    (xs.filter p).mapM f = .ok (ys.filter q) := by
  rw [mapM_eq_ok] at h ⊢
  induction h with
  | nil => exact .nil
  | cons hy _ ih =>
      rw [List.filter_cons, List.filter_cons, hpq _ _ hy]
      split
      · exact .cons hy ih
      · exact ih

/-! ## Rejections -/

/-- A chain rejects in its first part, or the rest rejects. -/
theorem bind_eq_error {x : Except ε α} {f : α → Except ε β} {e : ε} :
    x >>= f = .error e ↔ x = .error e ∨ ∃ a, x = .ok a ∧ f a = .error e := by
  cases x with
  | error e' => simp [bind, Except.bind]
  | ok a => simp [bind, Except.bind]

theorem failIf_eq_error {c : Prop} [Decidable c] {e e' : ε} :
    failIf c e = .error e' ↔ c ∧ e = e' := by
  unfold failIf
  split_ifs with h <;> simp [h]

theorem orFail_eq_error {e e' : ε} {x : Option α} :
    orFail e x = .error e' ↔ x = none ∧ e = e' := by
  cases x <;> simp [orFail]

/-- A sweep that rejects does so at one of its checks. -/
theorem exists_of_forM_eq_error {γ : Type w} {xs : List γ} {f : γ → Except ε PUnit.{v + 1}}
    {e : ε} (h : forM xs f = .error e) : ∃ x ∈ xs, f x = .error e := by
  induction xs with
  | nil => cases h
  | cons x xs ih =>
      rw [List.forM_cons, bind_eq_error] at h
      rcases h with hx | ⟨_, -, hxs⟩
      · exact ⟨x, List.mem_cons_self, hx⟩
      · obtain ⟨y, hmem, hy⟩ := ih hxs
        exact ⟨y, List.mem_cons_of_mem _ hmem, hy⟩

/-! ## What is accepted -/

theorem toOption_eq_some {x : Except ε α} {a : α} : x.toOption = some a ↔ x = .ok a := by
  cases x <;> simp [Except.toOption]

theorem toOption_bind {x : Except ε α} {f : α → Except ε β} :
    (x >>= f).toOption = x.toOption.bind fun a => (f a).toOption := by
  cases x <;> rfl

theorem toOption_orFail {e : ε} {x : Option α} : (orFail e x).toOption = x := by
  cases x <;> rfl

/-- A fold accepts as the fold of what its steps accept. -/
theorem toOption_foldlM {γ : Type w} {f : α → γ → Except ε α} {xs : List γ} {a : α} :
    (xs.foldlM f a).toOption = xs.foldlM (fun a x => (f a x).toOption) a := by
  induction xs generalizing a with
  | nil => rfl
  | cons x xs ih =>
      rw [List.foldlM_cons, List.foldlM_cons, toOption_bind]
      exact congrArg _ (funext fun _ => ih)

end Useful.Math
