/-
# Scripts that may be stopped anywhere

A script performs operations one after another until it returns or dies, and it may be stopped
between any two of them. What it does is therefore a list, of which some prefix happens.
`Along` says that every operation is allowed where it happens, and its rules follow the text of
the script.
-/

import Mathlib.Tactic.Common

namespace Useful.Math

universe u v w

/-- What a script does, and what it returns or dies with. -/
structure Script (ω : Type u) (ε : Type v) (α : Type w) where
  ops : List ω
  result : Except ε α

namespace Script

variable {ω : Type u} {ε : Type v} {α β : Type w}

instance : Monad (Script ω ε) where
  pure a := ⟨[], .ok a⟩
  bind p f :=
    match p.result with
    | .ok a => ⟨p.ops ++ (f a).ops, (f a).result⟩
    | .error e => ⟨p.ops, .error e⟩

def die (e : ε) : Script ω ε α := ⟨[], .error e⟩

def perform (op : ω) : Script ω ε PUnit := ⟨[op], .ok ⟨⟩⟩

def ofExcept (x : Except ε α) : Script ω ε α := ⟨[], x⟩

/-- Go on after the script, whether it returned or died. -/
def thenDo (p : Script ω ε α) (ops : List ω) : Script ω ε α := ⟨p.ops ++ ops, p.result⟩

theorem ofExcept_ok_bind (a : α) (f : α → Script ω ε β) : ofExcept (.ok a) >>= f = f a := by
  simp [Bind.bind, ofExcept]

section

variable {σ : Type u} (apply : σ → ω → σ) (Allowed : σ → ω → Prop)

/-- Each operation in turn is allowed. -/
@[grind =]
def Along : σ → List ω → Prop
  | _, [] => True
  | s, op :: ops => Allowed s op ∧ Along (apply s op) ops

/-- Each operation of the script is allowed, and where it returns the postcondition holds. -/
def Secures (p : Script ω ε α) (s : σ) (Q : α → σ → Prop) : Prop :=
  Along apply Allowed s p.ops ∧ ∀ a, p.result = .ok a → Q a (p.ops.foldl apply s)

variable {apply Allowed} {s : σ}

theorem along_append {ops ops' : List ω} :
    Along apply Allowed s (ops ++ ops') ↔
      Along apply Allowed s ops ∧ Along apply Allowed (ops.foldl apply s) ops' := by
  induction ops generalizing s with
  | nil => simp [Along]
  | cons op ops ih => rw [List.cons_append, Along, Along, ih, List.foldl_cons, and_assoc]

theorem secures_pure {a : α} {Q : α → σ → Prop} :
    Secures apply Allowed (pure a : Script ω ε α) s Q ↔ Q a s := by
  simp [Secures, pure, Along]

theorem secures_die {e : ε} {Q : α → σ → Prop} :
    Secures apply Allowed (die e : Script ω ε α) s Q := by
  simp [Secures, die, Along]

theorem secures_perform {op : ω} {Q : PUnit → σ → Prop} :
    Secures apply Allowed (perform op : Script ω ε PUnit) s Q ↔
      Allowed s op ∧ Q ⟨⟩ (apply s op) := by
  simp only [Secures, perform, Along, and_true, List.foldl_cons, List.foldl_nil]
  exact and_congr_right fun _ => ⟨fun h => h ⟨⟩ trivial, fun h _ _ => h⟩

theorem secures_ofExcept {x : Except ε α} {Q : α → σ → Prop} :
    Secures apply Allowed (ofExcept x : Script ω ε α) s Q ↔ ∀ a, x = .ok a → Q a s := by
  simp [Secures, ofExcept, Along]

theorem Secures.bind {p : Script ω ε α} {f : α → Script ω ε β} {Q : β → σ → Prop}
    {R : α → σ → Prop} (h : Secures apply Allowed p s R)
    (hf : ∀ a t, R a t → Secures apply Allowed (f a) t Q) :
    Secures apply Allowed (p >>= f) s Q := by
  cases hresult : p.result with
  | error e =>
      have hbind : p >>= f = ⟨p.ops, .error e⟩ := by simp [Bind.bind, hresult]
      rw [hbind]
      exact ⟨h.1, nofun⟩
  | ok a =>
      have hbind : p >>= f = ⟨p.ops ++ (f a).ops, (f a).result⟩ := by simp [Bind.bind, hresult]
      obtain ⟨halong, hreturn⟩ := hf a _ (h.2 a hresult)
      rw [hbind]
      refine ⟨along_append.mpr ⟨h.1, halong⟩, fun b hb => ?_⟩
      rw [List.foldl_append]
      exact hreturn b hb

/-- A computation without operations goes first. -/
theorem secures_ofExcept_bind {x : Except ε α} {f : α → Script ω ε β} {Q : β → σ → Prop}
    (h : ∀ a, x = .ok a → Secures apply Allowed (f a) s Q) :
    Secures apply Allowed (ofExcept x >>= f) s Q := by
  have hx : Secures apply Allowed (ofExcept x : Script ω ε α) s fun a t => x = .ok a ∧ t = s :=
    secures_ofExcept.mpr fun a ha => ⟨ha, rfl⟩
  refine hx.bind ?_
  rintro a t ⟨ha, rfl⟩
  exact h a ha

theorem Secures.imp {p : Script ω ε α} {Q R : α → σ → Prop} (h : Secures apply Allowed p s Q)
    (himp : ∀ a t, Q a t → R a t) : Secures apply Allowed p s R :=
  ⟨h.1, fun a ha => himp a _ (h.2 a ha)⟩

/-- What every allowed operation keeps holds wherever the script is stopped. -/
theorem Along.invariant {Inv : σ → Prop}
    (hstep : ∀ s op, Inv s → Allowed s op → Inv (apply s op)) {ops : List ω}
    (h : Along apply Allowed s ops) (hs : Inv s) : Inv (ops.foldl apply s) := by
  induction ops generalizing s with
  | nil => exact hs
  | cons op ops ih => exact ih h.2 (hstep s op hs h.1)

end

end Script

end Useful.Math
