/-
# A connection with transactions

A connection sees a committed database and, inside a transaction, a working copy.
Statements go to the working copy; `COMMIT` publishes it and `ROLLBACK` drops it.
Any of them may fail, with the engine's text. An engine that has ended the
transaction on its own shows this when it is asked to roll back.
-/

import Useful.Math.Program

namespace Useful.Math

open Program

universe u

/-- A failure of a statement: the engine's text, and whether it has already ended
the transaction. -/
structure Fault where
  text : String
  ended : Bool
  deriving DecidableEq, Repr

/-- The committed database and the working copy of an open transaction. -/
structure Connection (β : Type u) where
  committed : β
  working : Option β

namespace Connection

variable {β : Type u} {α : Type u}

/-- The connection with a transaction open on a working copy. -/
def opened (c : Connection β) (d : β) : Connection β := { c with working := some d }

/-- What statements read. -/
def visible (c : Connection β) : β := c.working.getD c.committed

/-- The connection after a statement: without a transaction it commits by itself. -/
def write (c : Connection β) (d : β) : Connection β :=
  match c.working with
  | some _ => { c with working := some d }
  | none => { c with committed := d }

/-- Fail with the fault's text, or go on. -/
def orFault (fault : Option Fault) (p : Program String (Connection β) α) :
    Program String (Connection β) α :=
  match fault with
  | some f => fail f.text
  | none => p

/-- `BEGIN IMMEDIATE`. -/
def beginImmediate (fault : Option Fault) : Program String (Connection β) PUnit :=
  orFault fault fun c =>
    match c.working with
    | some _ => (.error "cannot start a transaction within a transaction", c)
    | none => (.ok ⟨⟩, c.opened c.committed)

/-- A statement that changes the database. -/
def execute (fault : Option Fault) (f : β → β) : Program String (Connection β) PUnit :=
  orFault fault (modify fun c => c.write (f c.visible))

/-- A statement that reads the database. -/
def query (fault : Option Fault) (f : β → α) : Program String (Connection β) α :=
  orFault fault (read fun c => f c.visible)

/-- `COMMIT`. -/
def commit (fault : Option Fault) : Program String (Connection β) PUnit :=
  orFault fault fun c =>
    match c.working with
    | some d => (.ok ⟨⟩, ⟨d, none⟩)
    | none => (.error "cannot commit - no transaction is active", c)

/-- `ROLLBACK`. -/
def rollback (fault : Option Fault) : Program String (Connection β) PUnit := fun c =>
  match fault, c.working with
  | some f, working => (.error f.text, { c with working := if f.ended then none else working })
  | none, some _ => (.ok ⟨⟩, { c with working := none })
  | none, none => (.error "cannot rollback - no transaction is active", c)

/-! ## Inside a transaction -/

@[simp] theorem visible_opened (c : Connection β) (d : β) : (c.opened d).visible = d :=
  rfl

@[simp] theorem write_opened (c : Connection β) (d d' : β) :
    (c.opened d).write d' = c.opened d' :=
  rfl

/-- What was written is what statements read next. -/
@[simp] theorem visible_write (c : Connection β) (d : β) : (c.write d).visible = d := by
  obtain ⟨committed, _ | working⟩ := c <;> rfl

/-- The error is the text of a fault. -/
def IsFault (fault : Option Fault) (e : String) : Prop := ∃ f, fault = some f ∧ f.text = e

variable {fault : Option Fault} {c : Connection β} {d : β}

theorem ensures_orFault {p : Program String (Connection β) α} {Q : α → Connection β → Prop}
    {E : String → Connection β → Prop} (h : fault = none → Ensures p c Q E)
    (hfault : ∀ e, IsFault fault e → E e c) : Ensures (orFault fault p) c Q E := by
  cases hf : fault with
  | none => exact h hf
  | some f => exact hfault _ ⟨f, hf, rfl⟩

/-- A statement either fails and changes nothing, or writes. -/
theorem execute_spec {f : β → β} :
    Ensures (execute fault f) c (fun _ t => fault = none ∧ t = c.write (f c.visible))
      (fun _ t => fault ≠ none ∧ t = c) := by
  cases fault with
  | none => exact ⟨rfl, rfl⟩
  | some f => exact ⟨nofun, rfl⟩

/-- A query either fails or returns what it reads, and changes nothing. -/
theorem query_spec {f : β → α} :
    Ensures (query fault f) c (fun a t => fault = none ∧ a = f c.visible ∧ t = c)
      (fun _ t => fault ≠ none ∧ t = c) := by
  cases fault with
  | none => exact ⟨rfl, rfl, rfl⟩
  | some f => exact ⟨nofun, rfl⟩

theorem execute_opened {f : β → β} :
    Ensures (execute fault f) (c.opened d) (fun _ t => t = c.opened (f d))
      (fun e t => IsFault fault e ∧ t = c.opened d) := by
  apply ensures_orFault
  · intro _
    exact ensures_modify.mpr rfl
  · intro e he
    exact ⟨he, rfl⟩

theorem query_opened {f : β → α} :
    Ensures (query fault f) (c.opened d) (fun a t => a = f d ∧ t = c.opened d)
      (fun e t => IsFault fault e ∧ t = c.opened d) := by
  apply ensures_orFault
  · intro _
    exact ensures_read.mpr ⟨rfl, rfl⟩
  · intro e he
    exact ⟨he, rfl⟩

/-- A transaction opens on the committed database, or nothing happens. -/
theorem beginImmediate_spec :
    Ensures (beginImmediate fault) c
      (fun _ t => c.working = none ∧ t = c.opened c.committed)
      (fun e t => t = c ∧
        (IsFault fault e ∨ e = "cannot start a transaction within a transaction")) := by
  apply ensures_orFault
  · intro _
    obtain ⟨committed, _ | d⟩ := c
    · exact ⟨rfl, rfl⟩
    · exact ⟨rfl, .inr rfl⟩
  · intro e he
    exact ⟨rfl, .inl he⟩

theorem commit_opened :
    Ensures (commit fault) (c.opened d) (fun _ t => t = ⟨d, none⟩)
      (fun e t => IsFault fault e ∧ t = c.opened d) := by
  apply ensures_orFault
  · intro _
    exact rfl
  · intro e he
    exact ⟨he, rfl⟩

/-- A rollback that does not fail brings back the connection without the transaction. -/
theorem rollback_opened :
    Ensures (rollback none) (c.opened d) (fun _ t => t = { c with working := none })
      (fun _ _ => False) :=
  rfl

end Connection

end Useful.Math
