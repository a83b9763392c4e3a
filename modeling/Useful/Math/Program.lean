/-
# Programs that may fail

A program runs from a state to an outcome and a state. When it fails, what it
has done so far stays done: there is no rollback but the one a program performs.
`Ensures` states what holds after a run, for success and for failure, and its
rules follow the program text.
-/

import Mathlib.Tactic.Common

namespace Useful.Math

universe u v w

/-- A program over states `σ` that returns an `α` or fails with an `ε`. -/
def Program (ε : Type u) (σ : Type v) (α : Type w) : Type (max u v w) :=
  σ → Except ε α × σ

namespace Program

variable {ε : Type u} {σ : Type v} {α β : Type w}

/-- Sequencing stops at the first failure. -/
instance : Monad (Program ε σ) where
  pure a := fun s => (.ok a, s)
  bind p f := fun s =>
    match p s with
    | (.ok a, t) => f a t
    | (.error e, t) => (.error e, t)

def fail (e : ε) : Program ε σ α := fun s => (.error e, s)

/-- Read a part of the state. -/
def read (f : σ → α) : Program ε σ α := fun s => (.ok (f s), s)

/-- The whole state. -/
def state : Program ε σ σ := fun s => (.ok s, s)

/-- Change the state. -/
def modify (f : σ → σ) : Program ε σ PUnit := fun s => (.ok ⟨⟩, f s)

/-- A computation without effects. -/
def ofExcept (x : Except ε α) : Program ε σ α := fun s => (x, s)

/-- Run a program and return its outcome, whatever it is. -/
def attempt {ε' : Type u} (p : Program ε σ α) : Program ε' σ (Except ε α) := fun s =>
  (.ok (p s).1, (p s).2)

/-- Run a program, renaming its errors. -/
def mapError {ε' : Type u} (f : ε → ε') (p : Program ε σ α) : Program ε' σ α := fun s =>
  ((p s).1.mapError f, (p s).2)

/-- Run a program on a part of the state. -/
def onPart {τ : Type v} (get : τ → σ) (put : τ → σ → τ) (p : Program ε σ α) : Program ε τ α :=
  fun t => ((p (get t)).1, put t (p (get t)).2)

/-- A computation without effects ends the program, or the rest goes on from the same state. -/
theorem ofExcept_bind (x : Except ε α) (f : α → Program ε σ β) (s : σ) :
    (ofExcept x >>= f) s =
      match x with
      | .ok a => f a s
      | .error e => (.error e, s) := by
  cases x <;> rfl

/-- A sweep of computations without effects is one. -/
theorem forM_ofExcept {γ : Type*} (xs : List γ) (f : γ → Except ε PUnit.{w + 1}) :
    (forM xs fun x => (ofExcept (f x) : Program ε σ PUnit)) = ofExcept (forM xs f) := by
  induction xs with
  | nil => rfl
  | cons x xs ih =>
      rw [List.forM_cons, List.forM_cons, ih]
      funext s
      rw [ofExcept_bind]
      cases f x <;> rfl

/-- After a run from `s`, a returned value meets `Q` and an error meets `E`. -/
def Ensures (p : Program ε σ α) (s : σ) (Q : α → σ → Prop) (E : ε → σ → Prop) : Prop :=
  match p s with
  | (.ok a, t) => Q a t
  | (.error e, t) => E e t

variable {s : σ} {Q : α → σ → Prop} {E : ε → σ → Prop}

/-! ## The rules -/

theorem ensures_pure {a : α} : Ensures (pure a) s Q E ↔ Q a s :=
  Iff.rfl

theorem ensures_fail {e : ε} : Ensures (fail e) s Q E ↔ E e s :=
  Iff.rfl

theorem ensures_read {f : σ → α} : Ensures (read f) s Q E ↔ Q (f s) s :=
  Iff.rfl

theorem ensures_state {Q : σ → σ → Prop} : Ensures (state : Program ε σ σ) s Q E ↔ Q s s :=
  Iff.rfl

theorem ensures_modify {f : σ → σ} {Q : PUnit → σ → Prop} :
    Ensures (modify f) s Q E ↔ Q ⟨⟩ (f s) :=
  Iff.rfl

theorem ensures_ofExcept {x : Except ε α} :
    Ensures (ofExcept x) s Q E ↔ (∀ a, x = .ok a → Q a s) ∧ ∀ e, x = .error e → E e s := by
  cases x <;> simp [Ensures, ofExcept]

/-- After a sequence, the second part ensures the postcondition from wherever the
first may return. -/
theorem ensures_bind {p : Program ε σ α} {f : α → Program ε σ β} {Q : β → σ → Prop} :
    Ensures (p >>= f) s Q E ↔ Ensures p s (fun a t => Ensures (f a) t Q E) E := by
  simp only [Ensures, bind]
  rcases p s with ⟨_ | _, _⟩ <;> rfl

theorem ensures_attempt {ε' : Type u} {p : Program ε σ α} {Q : Except ε α → σ → Prop}
    {E' : ε' → σ → Prop} :
    Ensures (attempt p) s Q E' ↔
      Ensures p s (fun a => Q (.ok a)) (fun e => Q (.error e)) := by
  simp only [Ensures, attempt]
  rcases p s with ⟨_ | _, _⟩ <;> rfl

theorem ensures_mapError {ε' : Type u} {f : ε → ε'} {p : Program ε σ α} {E' : ε' → σ → Prop} :
    Ensures (mapError f p) s Q E' ↔ Ensures p s Q fun e => E' (f e) := by
  simp only [Ensures, mapError]
  rcases p s with ⟨_ | _, _⟩ <;> rfl

theorem ensures_onPart {τ : Type v} {get : τ → σ} {put : τ → σ → τ} {p : Program ε σ α} {t : τ}
    {Q : α → τ → Prop} {E : ε → τ → Prop} :
    Ensures (onPart get put p) t Q E ↔
      Ensures p (get t) (fun a u => Q a (put t u)) fun e u => E e (put t u) := by
  simp only [Ensures, onPart]
  rcases p (get t) with ⟨_ | _, _⟩ <;> rfl

theorem ensures_of_eq_ok {p : Program ε σ α} {a : α} {t : σ} (h : p s = (.ok a, t)) :
    Ensures p s Q E ↔ Q a t := by
  unfold Ensures
  rw [h]

theorem ensures_of_eq_error {p : Program ε σ α} {e : ε} {t : σ} (h : p s = (.error e, t)) :
    Ensures p s Q E ↔ E e t := by
  unfold Ensures
  rw [h]

theorem ensures_ite {c : Prop} [Decidable c] {p q : Program ε σ α} :
    Ensures (if c then p else q) s Q E ↔
      (c → Ensures p s Q E) ∧ (¬ c → Ensures q s Q E) := by
  split_ifs with h <;> simp [h]

namespace Ensures

variable {p : Program ε σ α}

/-- Nothing is said about the end of the run. -/
theorem any_end (p : Program ε σ α) (s : σ) : Ensures p s (fun _ _ => True) fun _ _ => True := by
  unfold Ensures
  split <;> trivial

/-- Weaken both postconditions. -/
theorem imp {Q' : α → σ → Prop} {E' : ε → σ → Prop} (h : Ensures p s Q E)
    (hok : ∀ a t, Q a t → Q' a t) (herror : ∀ e t, E e t → E' e t) : Ensures p s Q' E' := by
  unfold Ensures at h ⊢
  split at h
  · exact hok _ _ h
  · exact herror _ _ h

/-- Run a part whose postcondition is known, then the rest. -/
theorem bind {f : α → Program ε σ β} {Q' : β → σ → Prop} {E' : ε → σ → Prop}
    (h : Ensures p s Q E) (herror : ∀ e t, E e t → E' e t)
    (hrest : ∀ a t, Q a t → Ensures (f a) t Q' E') : Ensures (p >>= f) s Q' E' :=
  ensures_bind.mpr (h.imp hrest herror)

/-- What holds after any failure also holds after its renaming. -/
theorem mapError {ε' : Type u} {f : ε → ε'} {R : σ → Prop} (h : Ensures p s Q fun _ => R) :
    Ensures (mapError f p) s Q fun _ => R :=
  ensures_mapError.mpr h

/-- A sweep over a list, followed along a fold. -/
theorem forM {ι : Type v} {γ : Type w} {f : γ → Program ε σ PUnit} {R : ι → σ → Prop}
    {g : ι → γ → ι}
    (hstep : ∀ i x t, R i t → Ensures (f x) t (fun _ t' => R (g i x) t') E) (xs : List γ)
    {i : ι} (h : R i s) :
    Ensures (xs.forM f) s (fun _ t => R (xs.foldl g i) t) E := by
  induction xs generalizing i s with
  | nil => exact h
  | cons x xs ih => exact (hstep i x s h).bind (fun _ _ => id) fun _ _ ht => ih ht

/-- A sweep over a list, followed along the items so far. -/
theorem forM_prefix {γ : Type w} {f : γ → Program ε σ PUnit} {xs : List γ} {R : List γ → σ → Prop}
    (hstep : ∀ before x after t, xs = before ++ x :: after → R before t →
      Ensures (f x) t (fun _ t' => R (before ++ [x]) t') E) (h : R [] s) :
    Ensures (xs.forM f) s (fun _ t => R xs t) E := by
  have hall (before rest : List γ) (t : σ) (hxs : xs = before ++ rest) (h : R before t) :
      Ensures (rest.forM f) t (fun _ t' => R xs t') E := by
    induction rest generalizing before t with
    | nil =>
        rw [List.append_nil] at hxs
        exact hxs ▸ h
    | cons x rest ih =>
        refine (hstep before x rest t hxs h).bind (fun _ _ => id) fun _ t' ht' => ?_
        exact ih (before ++ [x]) t' (by rw [hxs, List.append_assoc]; rfl) ht'
  exact hall [] xs s rfl h

/-- A program that cannot fail returns. -/
theorem exists_eq_ok (h : Ensures p s Q fun _ _ => False) : ∃ a t, p s = (.ok a, t) ∧ Q a t := by
  unfold Ensures at h
  rcases hrun : p s with ⟨e | a, t⟩
  · rw [hrun] at h
    exact h.elim
  · rw [hrun] at h
    exact ⟨a, t, rfl, h⟩

/-- What a run returned meets the postcondition. -/
theorem of_eq_ok {a : α} {t : σ} (h : Ensures p s Q E) (hrun : p s = (.ok a, t)) : Q a t := by
  unfold Ensures at h
  rw [hrun] at h
  exact h

/-- Where a run failed, the error postcondition holds. -/
theorem of_eq_error {e : ε} {t : σ} (h : Ensures p s Q E) (hrun : p s = (.error e, t)) : E e t := by
  unfold Ensures at h
  rw [hrun] at h
  exact h

end Ensures

/-! ## Invariants -/

/-- However the program ends, the state meets `R` if it did before. -/
def Keeps (R : σ → Prop) (p : Program ε σ α) : Prop :=
  ∀ s, R s → Ensures p s (fun _ => R) fun _ => R

namespace Keeps

variable {R : σ → Prop} {p : Program ε σ α}

theorem pure (a : α) : Keeps R (Pure.pure a : Program ε σ α) :=
  fun _ h => h

theorem fail (e : ε) : Keeps R (Program.fail e : Program ε σ α) :=
  fun _ h => h

theorem read (f : σ → α) : Keeps R (Program.read f : Program ε σ α) :=
  fun _ h => h

theorem ofExcept (x : Except ε α) : Keeps R (Program.ofExcept x : Program ε σ α) := by
  intro s h
  exact ensures_ofExcept.mpr ⟨fun _ _ => h, fun _ _ => h⟩

theorem bind {f : α → Program ε σ β} (hp : Keeps R p) (hf : ∀ a, Keeps R (f a)) :
    Keeps R (p >>= f) :=
  fun s h => (hp s h).bind (fun _ _ => id) fun a t ht => hf a t ht

theorem attempt {ε' : Type u} (hp : Keeps R p) :
    Keeps R (Program.attempt p : Program ε' σ (Except ε α)) :=
  fun s h => ensures_attempt.mpr (hp s h)

theorem mapError {ε' : Type u} {f : ε → ε'} (hp : Keeps R p) : Keeps R (Program.mapError f p) :=
  fun s h => ensures_mapError.mpr (hp s h)

/-- Work on another part of the state keeps what is said about this one. -/
theorem onPart {τ : Type v} {get : τ → σ} {put : τ → σ → τ} {p : Program ε σ α} {R : τ → Prop}
    (h : ∀ t s, R t → R (put t s)) : Keeps R (Program.onPart get put p) := by
  intro t ht
  unfold Ensures Program.onPart
  rcases p (get t) with ⟨_ | _, _⟩ <;> exact h _ _ ht

/-- The state after a run. -/
theorem run (hp : Keeps R p) {s : σ} (h : R s) : R (p s).2 := by
  have hrun := hp s h
  unfold Ensures at hrun
  rcases heq : p s with ⟨_ | _, _⟩
  all_goals
    rw [heq] at hrun
    exact hrun

end Keeps

/-- A sequence goes on from where its first part returns. -/
theorem bind_of_eq_ok {p : Program ε σ α} {f : α → Program ε σ β} {s t : σ} {a : α}
    (h : p s = (.ok a, t)) : (p >>= f) s = f a t := by
  simp only [bind, h]

/-- A sequence fails where its first part does. -/
theorem bind_of_eq_error {p : Program ε σ α} {f : α → Program ε σ β} {s t : σ} {e : ε}
    (h : p s = (.error e, t)) : (p >>= f) s = (.error e, t) := by
  simp only [bind, h]

theorem pure_bind (a : α) (f : α → Program ε σ β) : (pure a : Program ε σ α) >>= f = f a :=
  rfl

theorem bind_assoc {γ : Type w} (p : Program ε σ α) (f : α → Program ε σ β)
    (g : β → Program ε σ γ) : p >>= f >>= g = p >>= fun a => f a >>= g := by
  funext s
  simp only [bind]
  rcases p s with ⟨_ | _, _⟩ <;> rfl

end Program

end Useful.Math
