/-
# Runs of a transition relation

A component that takes labelled steps is studied through its runs. What one step
keeps, a run keeps; what one step can only move forward, a run can only move
forward. A guard restricts a run to steps that meet a condition on the state
before the step, so that a result about guarded runs says under which condition
an invariant survives.
-/

import Mathlib.Logic.Relation

namespace Useful.Math

universe u v

variable {σ : Type u} {α : Type v}

/-- The runs of a step relation, with the labels of their steps. -/
inductive Run (step : σ → α → σ → Prop) : σ → List α → σ → Prop
  | nil (s : σ) : Run step s [] s
  | cons {s t u : σ} {a : α} {labels : List α} (first : step s a t)
      (rest : Run step t labels u) : Run step s (a :: labels) u

/-- Steps that meet a guard. -/
def Guarded (guard : σ → α → Prop) (step : σ → α → σ → Prop) (s : σ) (a : α) (t : σ) : Prop :=
  guard s a ∧ step s a t

/-- The steps of a partial function. -/
def StepsTo (next : σ → α → Option σ) (s : σ) (a : α) (t : σ) : Prop :=
  next s a = some t

namespace Run

variable {step : σ → α → σ → Prop}

theorem single {s t : σ} {a : α} (h : step s a t) : Run step s [a] t :=
  .cons h (.nil t)

/-- Steps of a partial function, taken in turn. -/
theorem of_foldlM {next : σ → α → Option σ} {s t : σ} {labels : List α}
    (h : labels.foldlM next s = some t) : Run (StepsTo next) s labels t := by
  induction labels generalizing s with
  | nil =>
      cases h
      exact .nil _
  | cons a labels ih =>
      rw [List.foldlM_cons] at h
      obtain ⟨u, hfirst, hrest⟩ := Option.bind_eq_some_iff.mp h
      exact .cons hfirst (ih hrest)

theorem append {s t u : σ} {labels labels' : List α} (h : Run step s labels t)
    (h' : Run step t labels' u) : Run step s (labels ++ labels') u := by
  induction h with
  | nil s => exact h'
  | cons first _ ih => exact .cons first (ih h')

/-- Steps may be replaced by others that follow from them. -/
theorem mono {step' : σ → α → σ → Prop} (hstep : ∀ s a t, step s a t → step' s a t) {s t : σ}
    {labels : List α} (h : Run step s labels t) : Run step' s labels t := by
  induction h with
  | nil s => exact .nil s
  | cons first _ ih => exact .cons (hstep _ _ _ first) ih

theorem congr {step' : σ → α → σ → Prop} (hstep : ∀ s a t, step s a t ↔ step' s a t) {s t : σ}
    {labels : List α} : Run step s labels t ↔ Run step' s labels t :=
  ⟨mono fun s a t => (hstep s a t).mp, mono fun s a t => (hstep s a t).mpr⟩

/-- Forget a guard. -/
theorem of_guarded {guard : σ → α → Prop} {s t : σ} {labels : List α}
    (h : Run (Guarded guard step) s labels t) : Run step s labels t :=
  h.mono fun _ _ _ => And.right

/-- What every step keeps, a run keeps. -/
theorem invariant {inv : σ → Prop} (hstep : ∀ s a t, inv s → step s a t → inv t) {s t : σ}
    {labels : List α} (h : Run step s labels t) (hs : inv s) : inv t := by
  induction h with
  | nil s => exact hs
  | cons first _ ih => exact ih (hstep _ _ _ hs first)

/-- What every step with a label in the run keeps, the run keeps. -/
theorem invariant_of_labels (inv : σ → Prop) {s t : σ} {labels : List α}
    (h : Run step s labels t)
    (hstep : ∀ s, ∀ a ∈ labels, ∀ t, inv s → step s a t → inv t) (hs : inv s) : inv t := by
  induction h with
  | nil s => exact hs
  | cons first _ ih =>
      apply ih
      · intro s a hmem t
        exact hstep s a (List.mem_cons_of_mem _ hmem) t
      · exact hstep _ _ List.mem_cons_self _ hs first

/-- A reflexive and transitive relation that contains every step from a state
with the invariant contains every run from one. -/
theorem forward (inv : σ → Prop) (rel : σ → σ → Prop) (hrefl : ∀ s, rel s s)
    (htrans : ∀ s t u, rel s t → rel t u → rel s u)
    (hinv : ∀ s a t, inv s → step s a t → inv t)
    (hstep : ∀ s a t, inv s → step s a t → rel s t) {s t : σ} {labels : List α}
    (h : Run step s labels t) (hs : inv s) : rel s t := by
  induction h with
  | nil s => exact hrefl s
  | cons first _ ih =>
      exact htrans _ _ _ (hstep _ _ _ hs first) (ih (hinv _ _ _ hs first))

end Run

/-- The states that runs from initial states reach. -/
def Reachable (init : σ → Prop) (step : σ → α → σ → Prop) (s : σ) : Prop :=
  ∃ s₀ labels, init s₀ ∧ Run step s₀ labels s

namespace Reachable

variable {init : σ → Prop} {step : σ → α → σ → Prop}

theorem of_init {s : σ} (h : init s) : Reachable init step s :=
  ⟨s, [], h, .nil s⟩

/-- An inductive invariant holds of every reachable state. -/
theorem invariant {inv : σ → Prop} (hinit : ∀ s, init s → inv s)
    (hstep : ∀ s a t, inv s → step s a t → inv t) {s : σ} (h : Reachable init step s) :
    inv s := by
  obtain ⟨s₀, labels, hinit₀, hrun⟩ := h
  exact hrun.invariant hstep (hinit s₀ hinit₀)

end Reachable

end Useful.Math
