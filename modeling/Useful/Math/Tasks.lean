/-
# Interleaved tasks

A task is a program whose steps are atomic and visible to other tasks: between any
two of its steps the others may change the shared state. An answer may also get lost:
a call can fail without effect, or take effect and still report a failure.

A discipline says what every step keeps (`inv`), what each task may rely on while it
waits (`rely`) and under which condition a labelled step is taken (`guard`). A task
ensures a postcondition when each of its steps, taken in any state the others can
leave, keeps the discipline. Runs of any number of such tasks then keep the invariant.
-/

import Useful.Math.Checks
import Useful.Math.Transition

namespace Useful.Math

/-- How the surroundings answer a call: as they should, with a failure before any
effect, or with a failure after the effect. -/
inductive Reply (ε : Type)
  | proceed
  | refuse (e : ε)
  | lose (e : ε)

/-- The rest of a running operation: its outcome, or a labelled atomic step. -/
inductive Task (ℓ σ ε α : Type)
  | done (outcome : Except ε α)
  | act (label : ℓ) (effect : Reply ε → σ → σ) (next : Reply ε → σ → Task ℓ σ ε α)

namespace Task

variable {ℓ σ ε α β : Type}

/-- Continue with the value of a task; an error ends the whole. -/
def bind (task : Task ℓ σ ε α) (f : α → Task ℓ σ ε β) : Task ℓ σ ε β :=
  match task with
  | .done (.ok a) => f a
  | .done (.error e) => .done (.error e)
  | .act label effect next => .act label effect fun reply s => (next reply s).bind f

instance : Monad (Task ℓ σ ε) where
  pure a := .done (.ok a)
  bind := bind

def fail (e : ε) : Task ℓ σ ε α := .done (.error e)

/-- A computation without steps. -/
def ofExcept (x : Except ε α) : Task ℓ σ ε α := .done x

/-- Run a task and return its outcome, whatever it is. -/
def attempt : Task ℓ σ ε α → Task ℓ σ ε (Except ε α)
  | .done outcome => .done (.ok outcome)
  | .act label effect next => .act label effect fun reply s => (next reply s).attempt

/-- One atomic call on the shared state. -/
def call (label : ℓ) (f : σ → Except ε α × σ) : Task ℓ σ ε α :=
  .act label
    (fun reply s =>
      match reply with
      | .refuse _ => s
      | .proceed | .lose _ => (f s).2)
    fun reply s =>
      match reply with
      | .proceed => .done (f s).1
      | .refuse e | .lose e => .done (.error e)

end Task

/-! ## Disciplines -/

/-- An invariant, what each task may rely on, and a guard on the steps. -/
structure Discipline (ℓ σ : Type) where
  inv : σ → Prop
  rely : Nat → σ → σ → Prop
  guard : ℓ → σ → Prop
  refl : ∀ i s, rely i s s
  trans : ∀ i s t u, rely i s t → rely i t u → rely i s u

namespace Discipline

variable {ℓ σ ε α β : Type} (D : Discipline ℓ σ)

/-- A step of a task keeps the discipline. -/
def Keeps (i : Nat) (s t : σ) : Prop :=
  D.inv t ∧ ∀ j, j ≠ i → D.rely j s t

/-- From a state the task has just left, and whatever the others do in between, its
steps keep the discipline, a returned value meets `Q` and an error meets `E`. -/
@[grind =]
def Ensures (i : Nat) : Task ℓ σ ε α → σ → (α → σ → Prop) → (ε → σ → Prop) → Prop
  | .done (.ok a), s, Q, _ => Q a s
  | .done (.error e), s, _, E => E e s
  | .act label effect next, s, Q, E => ∀ t reply, D.rely i s t → D.inv t →
      ((∀ e, reply ≠ .refuse e) → D.guard label t) →
      D.Keeps i t (effect reply t) ∧ Ensures i (next reply t) (effect reply t) Q E

end Discipline

namespace Discipline

variable {ℓ σ ε α β : Type} {D : Discipline ℓ σ} {i : Nat} {s : σ} {Q : α → σ → Prop}
  {E : ε → σ → Prop}

theorem keeps_refl (h : D.inv s) : D.Keeps i s s :=
  ⟨h, fun j _ => D.refl j s⟩

theorem ensures_pure {a : α} (h : Q a s) : D.Ensures i (pure a : Task ℓ σ ε α) s Q E :=
  h

theorem ensures_fail {e : ε} (h : E e s) : D.Ensures i (Task.fail e : Task ℓ σ ε α) s Q E :=
  h

theorem ensures_ofExcept {x : Except ε α} (hok : ∀ a, x = .ok a → Q a s)
    (herror : ∀ e, x = .error e → E e s) : D.Ensures i (Task.ofExcept x) s Q E := by
  cases x with
  | ok a => exact hok a rfl
  | error e => exact herror e rfl

/-- Weaken both postconditions. -/
theorem Ensures.imp {task : Task ℓ σ ε α} {Q' : α → σ → Prop} {E' : ε → σ → Prop}
    (h : D.Ensures i task s Q E) (hok : ∀ a t, Q a t → Q' a t)
    (herror : ∀ e t, E e t → E' e t) : D.Ensures i task s Q' E' := by
  induction task generalizing s with
  | done outcome =>
      cases outcome with
      | ok a => exact hok a s h
      | error e => exact herror e s h
  | act label effect next ih =>
      intro t reply hrely hinv hguard
      have hstep := h t reply hrely hinv hguard
      exact ⟨hstep.1, ih reply t hstep.2⟩

/-- A task ensures nothing new by waiting. -/
theorem Ensures.wait {task : Task ℓ σ ε α} {t : σ} (h : D.Ensures i task s Q E)
    (hrely : D.rely i s t) (hQ : ∀ a, Q a s → Q a t) (hE : ∀ e, E e s → E e t) :
    D.Ensures i task t Q E := by
  cases task with
  | done outcome =>
      cases outcome with
      | ok a => exact hQ a h
      | error e => exact hE e h
  | act label effect next =>
      intro u reply hrely' hinv hguard
      exact h u reply (D.trans i s t u hrely hrely') hinv hguard

/-- Run a task, then the rest from wherever it may return. -/
theorem Ensures.bind {task : Task ℓ σ ε α} {f : α → Task ℓ σ ε β} {Q' : β → σ → Prop}
    {E' : ε → σ → Prop} (h : D.Ensures i task s Q E) (herror : ∀ e t, E e t → E' e t)
    (hrest : ∀ a t, Q a t → D.Ensures i (f a) t Q' E') : D.Ensures i (task >>= f) s Q' E' := by
  show D.Ensures i (task.bind f) s Q' E'
  induction task generalizing s with
  | done outcome =>
      cases outcome with
      | ok a => exact hrest a s h
      | error e => exact herror e s h
  | act label effect next ih =>
      intro t reply hrely hinv hguard
      have hstep := h t reply hrely hinv hguard
      exact ⟨hstep.1, ih reply t hstep.2⟩

/-- A computation without steps leaves the state as it is. -/
theorem ensures_ofExcept_bind {x : Except ε α} {f : α → Task ℓ σ ε β} {Q' : β → σ → Prop}
    {E' : ε → σ → Prop} (herror : ∀ e, x = .error e → E' e s)
    (hrest : ∀ a, x = .ok a → D.Ensures i (f a) s Q' E') :
    D.Ensures i (Task.ofExcept x >>= f) s Q' E' := by
  cases x with
  | ok a => exact hrest a rfl
  | error e => exact herror e rfl

theorem Ensures.attempt {task : Task ℓ σ ε α} {Q' : Except ε α → σ → Prop} {E' : ε → σ → Prop}
    (h : D.Ensures i task s Q E) (hok : ∀ a t, Q a t → Q' (.ok a) t)
    (herror : ∀ e t, E e t → Q' (.error e) t) : D.Ensures i task.attempt s Q' E' := by
  induction task generalizing s with
  | done outcome =>
      cases outcome with
      | ok a => exact hok a s h
      | error e => exact herror e s h
  | act label effect next ih =>
      intro t reply hrely hinv hguard
      have hstep := h t reply hrely hinv hguard
      exact ⟨hstep.1, ih reply t hstep.2⟩

/-- A call keeps the discipline when its effect does, wherever the others have left the
state. -/
theorem ensures_call {label : ℓ} {f : σ → Except ε α × σ}
    (heffect : ∀ t, D.rely i s t → D.inv t → D.guard label t → D.Keeps i t (f t).2)
    (hok : ∀ t a, D.rely i s t → D.inv t → D.guard label t → (f t).1 = .ok a → Q a (f t).2)
    (herror : ∀ t e, D.rely i s t → D.inv t → D.guard label t → E e (f t).2)
    (hrefuse : ∀ t e, D.rely i s t → D.inv t → E e t) :
    D.Ensures i (Task.call label f) s Q E := by
  intro t reply hrely hinv hguard
  cases reply with
  | refuse e => exact ⟨keeps_refl hinv, hrefuse t e hrely hinv⟩
  | lose e =>
      have hguard' := hguard fun e => by simp
      exact ⟨heffect t hrely hinv hguard', herror t e hrely hinv hguard'⟩
  | proceed =>
      have hguard' := hguard fun e => by simp
      refine ⟨heffect t hrely hinv hguard', ?_⟩
      cases hf : (f t).1 with
      | ok a =>
          show D.Ensures i (.done (f t).1) _ Q E
          rw [hf]
          exact hok t a hrely hinv hguard' hf
      | error e =>
          show D.Ensures i (.done (f t).1) _ Q E
          rw [hf]
          exact herror t e hrely hinv hguard'

/-- What waiting and the task's own steps keep holds at the end as well. -/
theorem Ensures.frame {task : Task ℓ σ ε α} {K : σ → Prop}
    (hwait : ∀ s t, D.rely i s t → K s → K t) (hstep : ∀ s t, D.Keeps i s t → K s → K t)
    (h : D.Ensures i task s Q E) (hK : K s) :
    D.Ensures i task s (fun a t => Q a t ∧ K t) fun e t => E e t ∧ K t := by
  induction task generalizing s with
  | done outcome =>
      cases outcome with
      | ok a => exact ⟨h, hK⟩
      | error e => exact ⟨h, hK⟩
  | act label effect next ih =>
      intro t reply hrely hinv hguard
      have hact := h t reply hrely hinv hguard
      exact ⟨hact.1, ih reply t hact.2 (hstep _ _ hact.1 (hwait _ _ hrely hK))⟩

end Discipline

/-! ## Tasks that need to know nothing -/

namespace Discipline

variable {ℓ σ ε α β : Type} (D : Discipline ℓ σ) (i : Nat)

/-- From any state, the steps of a task keep the discipline. -/
def Steady (task : Task ℓ σ ε α) : Prop :=
  ∀ s, D.Ensures i task s (fun _ _ => True) fun _ _ => True

variable {D i}

theorem Ensures.steady {task : Task ℓ σ ε α} {s : σ} {Q : α → σ → Prop} {E : ε → σ → Prop}
    (h : D.Ensures i task s Q E) : D.Ensures i task s (fun _ _ => True) fun _ _ => True :=
  h.imp (fun _ _ _ => trivial) fun _ _ _ => trivial

/-- Whatever a task returns, the rest may have a reason of its own to be safe. -/
theorem Ensures.seq {task : Task ℓ σ ε α} {f : α → Task ℓ σ ε β} {s : σ} {Q : α → σ → Prop}
    {E : ε → σ → Prop} (h : D.Ensures i task s Q E)
    (hrest : ∀ a t, Q a t → D.Ensures i (f a) t (fun _ _ => True) fun _ _ => True) :
    D.Ensures i (task >>= f) s (fun _ _ => True) fun _ _ => True :=
  h.bind (fun _ _ _ => trivial) hrest

theorem Ensures.attempt_true {task : Task ℓ σ ε α} {s : σ} {Q : α → σ → Prop} {E : ε → σ → Prop}
    (h : D.Ensures i task s Q E) :
    D.Ensures i task.attempt s (fun _ _ => True) fun _ _ => True :=
  h.attempt (fun _ _ _ => trivial) fun _ _ _ => trivial

/-- The outcome of a task, with what its postconditions say of it. -/
theorem Ensures.outcome {task : Task ℓ σ ε α} {s : σ} {Q : α → σ → Prop} {E : ε → σ → Prop}
    (h : D.Ensures i task s Q E) :
    D.Ensures i task.attempt s
      (fun outcome t =>
        match outcome with
        | .ok a => Q a t
        | .error e => E e t)
      fun _ _ => True :=
  h.attempt (fun _ _ => id) fun _ _ => id

theorem steady_pure (a : α) : D.Steady i (pure a : Task ℓ σ ε α) := fun _ => trivial

theorem steady_fail (e : ε) : D.Steady i (Task.fail e : Task ℓ σ ε α) := fun _ => trivial

theorem steady_ofExcept (x : Except ε α) : D.Steady i (Task.ofExcept x : Task ℓ σ ε α) :=
  fun _ => ensures_ofExcept (fun _ _ => trivial) fun _ _ => trivial

theorem Steady.bind {task : Task ℓ σ ε α} {f : α → Task ℓ σ ε β} (h : D.Steady i task)
    (hrest : ∀ a, D.Steady i (f a)) : D.Steady i (task >>= f) :=
  fun s => (h s).bind (fun _ _ => id) fun a t _ => hrest a t

theorem Steady.attempt {task : Task ℓ σ ε α} (h : D.Steady i task) :
    D.Steady i (task.attempt) :=
  fun s => (h s).attempt (fun _ _ => id) fun _ _ => id

/-- A call whose effect keeps the discipline in every state. -/
theorem steady_call {label : ℓ} {f : σ → Except ε α × σ}
    (h : ∀ t, D.inv t → D.guard label t → D.Keeps i t (f t).2) :
    D.Steady i (Task.call label f) :=
  fun _ => ensures_call (fun t _ => h t) (fun _ _ _ _ _ _ => trivial)
    (fun _ _ _ _ _ => trivial) fun _ _ _ _ => trivial

end Discipline

/-! ## Machines -/

/-- A machine starts a task for each operation; a task that stops for good is
abandoned. -/
structure Machine (ℓ σ ε ω : Type) where
  start : Nat → ω → Task ℓ σ ε Unit
  abandon : Nat → σ → σ

/-- The shared state and the tasks started so far. -/
structure System (ℓ σ ε : Type) where
  shared : σ
  tasks : List (Task ℓ σ ε Unit)

inductive SystemEvent (ε ω : Type)
  | start (op : ω)
  | step (i : Nat) (reply : Reply ε)
  | stop (i : Nat)

namespace Machine

variable {ℓ σ ε ω : Type} (M : Machine ℓ σ ε ω)

/-- The steps of a machine, whichever task the scheduler picks. -/
inductive Step : System ℓ σ ε → SystemEvent ε ω → System ℓ σ ε → Prop
  | start {sys : System ℓ σ ε} (op : ω) :
      Step sys (.start op) { sys with tasks := sys.tasks ++ [M.start sys.tasks.length op] }
  | step {sys : System ℓ σ ε} {i : Nat} {reply : Reply ε} {label : ℓ}
      {effect : Reply ε → σ → σ} {next : Reply ε → σ → Task ℓ σ ε Unit}
      (running : sys.tasks[i]? = some (.act label effect next)) :
      Step sys (.step i reply)
        { shared := effect reply sys.shared, tasks := sys.tasks.set i (next reply sys.shared) }
  | stop {sys : System ℓ σ ε} {i : Nat} (running : i < sys.tasks.length) :
      Step sys (.stop i)
        { shared := M.abandon i sys.shared, tasks := sys.tasks.set i (.done (.ok ())) }

/-- A step of a task that has an effect meets a condition on its label and the shared
state. -/
def Meets (guard : ℓ → σ → Prop) (sys : System ℓ σ ε) : SystemEvent ε ω → Prop
  | .step i reply => ∀ label effect next, sys.tasks[i]? = some (.act label effect next) →
      (∀ e, reply ≠ .refuse e) → guard label sys.shared
  | _ => True

/-- The invariant holds, and every task ensures the discipline from here on. -/
def Disciplined (D : Discipline ℓ σ) (sys : System ℓ σ ε) : Prop :=
  D.inv sys.shared ∧ ∀ i task, sys.tasks[i]? = some task →
    D.Ensures i task sys.shared (fun _ _ => True) fun _ _ => True

variable {M} {D : Discipline ℓ σ}

theorem disciplined_set {sys : System ℓ σ ε} {i : Nat} {t : σ} {task : Task ℓ σ ε Unit}
    (h : Disciplined D sys) (hkeeps : D.Keeps i sys.shared t)
    (htask : D.Ensures i task t (fun _ _ => True) fun _ _ => True) :
    Disciplined D { shared := t, tasks := sys.tasks.set i task } := by
  refine ⟨hkeeps.1, ?_⟩
  intro j task' hj
  by_cases hij : j = i
  · subst hij
    rw [List.getElem?_set_self'] at hj
    cases hold : sys.tasks[j]? with
    | none => simp [hold] at hj
    | some old =>
        simp only [hold, Option.map_eq_map, Option.map_some, Option.some.injEq] at hj
        rw [← hj]
        exact htask
  · rw [List.getElem?_set_ne (Ne.symm hij)] at hj
    exact (h.2 j task' hj).wait (hkeeps.2 j hij) (fun _ _ => trivial) fun _ _ => trivial

/-- What one step of any task keeps. -/
theorem disciplined_step {sys sys' : System ℓ σ ε} {event : SystemEvent ε ω}
    (hstart : ∀ i op, D.Steady i (M.start i op))
    (habandon : ∀ i s, D.inv s → D.Keeps i s (M.abandon i s))
    (h : Disciplined D sys) (hmeets : Meets D.guard sys event) (hstep : M.Step sys event sys') :
    Disciplined D sys' := by
  cases hstep with
  | start op =>
      refine ⟨h.1, ?_⟩
      intro j task hj
      by_cases hlt : j < sys.tasks.length
      · rw [List.getElem?_append_left hlt] at hj
        exact h.2 j task hj
      · rw [List.getElem?_append_right (Nat.le_of_not_lt hlt)] at hj
        rw [List.getElem?_singleton] at hj
        by_cases hzero : j - sys.tasks.length = 0
        · rw [if_pos hzero] at hj
          cases hj
          have heq : j = sys.tasks.length :=
            Nat.le_antisymm (Nat.le_of_sub_eq_zero hzero) (Nat.le_of_not_lt hlt)
          rw [heq]
          exact hstart _ op _
        · rw [if_neg hzero] at hj
          cases hj
  | @step i reply label effect next running =>
      have htask := h.2 i _ running sys.shared reply (D.refl i _) h.1
        fun hreply => hmeets label effect next running hreply
      exact disciplined_set h htask.1 htask.2
  | @stop i running => exact disciplined_set h (habandon i _ h.1) trivial

/-- The shared state moves as the discipline lets the task that moved. -/
theorem keeps_of_step {sys sys' : System ℓ σ ε} {event : SystemEvent ε ω}
    (habandon : ∀ i s, D.inv s → D.Keeps i s (M.abandon i s))
    (h : Disciplined D sys) (hmeets : Meets D.guard sys event) (hstep : M.Step sys event sys') :
    ∃ i, D.Keeps i sys.shared sys'.shared := by
  cases hstep with
  | start op => exact ⟨0, Discipline.keeps_refl h.1⟩
  | @step i reply label effect next running =>
      have htask := h.2 i _ running sys.shared reply (D.refl i _) h.1
        fun hreply => hmeets label effect next running hreply
      exact ⟨i, htask.1⟩
  | @stop i running => exact ⟨i, habandon i _ h.1⟩

/-- Before the first operation. -/
theorem disciplined_of_idle {sys : System ℓ σ ε} (h : D.inv sys.shared) (hidle : sys.tasks = []) :
    Disciplined D sys := by
  refine ⟨h, ?_⟩
  intro i task htask
  rw [hidle] at htask
  cases htask

/-- Every run whose steps meet the guard keeps the discipline. -/
theorem disciplined_of_run {sys sys' : System ℓ σ ε} {events : List (SystemEvent ε ω)}
    (hstart : ∀ i op, D.Steady i (M.start i op))
    (habandon : ∀ i s, D.inv s → D.Keeps i s (M.abandon i s))
    (hrun : Run (Guarded (Meets D.guard) M.Step) sys events sys') (h : Disciplined D sys) :
    Disciplined D sys' := by
  apply hrun.invariant _ h
  intro s event t hs hstep
  exact disciplined_step hstart habandon hs hstep.1 hstep.2

/-- Every run whose steps meet the guard keeps the invariant. -/
theorem inv_of_run {sys sys' : System ℓ σ ε} {events : List (SystemEvent ε ω)}
    (hstart : ∀ i op, D.Steady i (M.start i op))
    (habandon : ∀ i s, D.inv s → D.Keeps i s (M.abandon i s))
    (hrun : Run (Guarded (Meets D.guard) M.Step) sys events sys') (h : Disciplined D sys) :
    D.inv sys'.shared :=
  (disciplined_of_run hstart habandon hrun h).1

end Machine

/-! ## What finished operations have ensured -/

/-- The operation an event starts. -/
def SystemEvent.op? {ε ω : Type} : SystemEvent ε ω → Option ω
  | .start op => some op
  | _ => none

/-- The event stops no task and starts only allowed operations. -/
def SystemEvent.Lets {ε ω : Type} (allowed : ω → Prop) : SystemEvent ε ω → Prop
  | .start op => allowed op
  | .step _ _ => True
  | .stop _ => False

namespace Machine

variable {ℓ σ ε ω : Type} {M : Machine ℓ σ ε ω} {D : Discipline ℓ σ}
  {fresh : Nat → σ → Prop} {post : Nat → ω → σ → Prop} {allowed : ω → Prop}

/-- The tasks started so far ensure what their operations promise, and the state knows
nothing of tasks to come. -/
structure Tracked (D : Discipline ℓ σ) (fresh : Nat → σ → Prop) (post : Nat → ω → σ → Prop)
    (sys : System ℓ σ ε) (ops : List ω) : Prop where
  inv : D.inv sys.shared
  length : ops.length = sys.tasks.length
  fresh : ∀ i, sys.tasks.length ≤ i → fresh i sys.shared
  ensures : ∀ i op task, ops[i]? = some op → sys.tasks[i]? = some task →
    D.Ensures i task sys.shared (fun _ => post i op) fun _ _ => True

/-- What one step keeps of the promises. -/
theorem tracked_step (hfresh : ∀ i s t, D.rely i s t → fresh i s → fresh i t)
    (hpost : ∀ i op s t, D.rely i s t → post i op s → post i op t)
    (hstart : ∀ i op s, allowed op → D.inv s → fresh i s →
      D.Ensures i (M.start i op) s (fun _ => post i op) fun _ _ => True)
    {sys sys' : System ℓ σ ε} {event : SystemEvent ε ω} {ops : List ω}
    (h : Tracked D fresh post sys ops) (hmeets : Meets D.guard sys event) (hlets : event.Lets allowed)
    (hstep : M.Step sys event sys') : Tracked D fresh post sys' (ops ++ event.op?.toList) := by
  cases hstep with
  | start op =>
      refine ⟨h.inv, by simp [SystemEvent.op?, h.length], ?_, ?_⟩
      · intro i hi
        apply h.fresh i
        simp only [List.length_append, List.length_singleton] at hi
        omega
      · intro i op' task hop htask
        by_cases hlt : i < sys.tasks.length
        · rw [List.getElem?_append_left (h.length ▸ hlt)] at hop
          rw [List.getElem?_append_left hlt] at htask
          exact h.ensures i op' task hop htask
        · have hle := Nat.le_of_not_lt hlt
          rw [List.getElem?_append_right (h.length ▸ hle), h.length] at hop
          rw [List.getElem?_append_right hle] at htask
          by_cases hzero : i - sys.tasks.length = 0
          · rw [hzero] at hop htask
            cases hop
            cases htask
            rw [show i = sys.tasks.length by omega]
            exact hstart _ op _ hlets h.inv (h.fresh _ (Nat.le_refl _))
          · rw [List.getElem?_singleton, if_neg hzero] at htask
            cases htask
  | @step i reply label effect next running =>
      have hlength := (List.getElem?_eq_some_iff.mp running).1
      obtain ⟨op, hop⟩ : ∃ op, ops[i]? = some op :=
        ⟨_, List.getElem?_eq_getElem (h.length ▸ hlength)⟩
      have htask := h.ensures i op _ hop running sys.shared reply (D.refl i _) h.inv
        fun hreply => hmeets label effect next running hreply
      refine ⟨htask.1.1, by simp [SystemEvent.op?, h.length], ?_, ?_⟩
      · intro j hj
        rw [List.length_set] at hj
        have hji : j ≠ i := by omega
        exact hfresh j _ _ (htask.1.2 j hji) (h.fresh j hj)
      · intro j op' task hop' htask'
        simp only [SystemEvent.op?, Option.toList_none, List.append_nil] at hop'
        by_cases hji : j = i
        · subst hji
          rw [List.getElem?_set_self hlength] at htask'
          cases htask'
          cases hop.symm.trans hop'
          exact htask.2
        · rw [List.getElem?_set_ne (Ne.symm hji)] at htask'
          exact (h.ensures j op' task hop' htask').wait (htask.1.2 j hji)
            (fun _ => hpost j op' _ _ (htask.1.2 j hji)) fun _ _ => trivial
  | stop running => exact hlets.elim

/-- Every run without stops keeps the invariant, and the operations that have returned
have kept their promises. -/
theorem post_of_run (hfresh : ∀ i s t, D.rely i s t → fresh i s → fresh i t)
    (hpost : ∀ i op s t, D.rely i s t → post i op s → post i op t)
    (hstart : ∀ i op s, allowed op → D.inv s → fresh i s →
      D.Ensures i (M.start i op) s (fun _ => post i op) fun _ _ => True)
    {sys sys' : System ℓ σ ε} {events : List (SystemEvent ε ω)} {ops : List ω}
    (hrun : Run (Guarded (fun sys event => Meets D.guard sys event ∧ event.Lets allowed) M.Step)
      sys events sys')
    (h : Tracked D fresh post sys ops) :
    Tracked D fresh post sys' (ops ++ events.filterMap SystemEvent.op?) := by
  induction hrun generalizing ops with
  | nil sys => simpa using h
  | @cons sys mid sys' event events first rest ih =>
      have hstep := tracked_step hfresh hpost hstart h first.1.1 first.1.2 first.2
      have hrest := ih hstep
      rw [List.append_assoc] at hrest
      convert hrest using 2
      cases hop : event.op? with
      | none => simp [hop]
      | some op => simp [hop]

/-- The promise of an operation that has returned. -/
theorem Tracked.returned {sys : System ℓ σ ε} {ops : List ω} (h : Tracked D fresh post sys ops)
    {i : Nat} {op : ω} (hop : ops[i]? = some op)
    (hdone : sys.tasks[i]? = some (.done (.ok ()))) : post i op sys.shared :=
  h.ensures i op _ hop hdone

end Machine

/-! ## One task alone -/

/-- Steps that a task takes on its own, each answered as it should be. -/
inductive Advance {ℓ σ ε α : Type} (guard : ℓ → σ → Prop) :
    Task ℓ σ ε α → σ → Task ℓ σ ε α → σ → Prop
  | refl (task : Task ℓ σ ε α) (s : σ) : Advance guard task s task s
  | act {label : ℓ} {effect : Reply ε → σ → σ} {next : Reply ε → σ → Task ℓ σ ε α}
      {task : Task ℓ σ ε α} {s t : σ} (meets : guard label s)
      (rest : Advance guard (next .proceed s) (effect .proceed s) task t) :
      Advance guard (.act label effect next) s task t

namespace Advance

variable {ℓ σ ε ω α β : Type} {guard : ℓ → σ → Prop} {s t u : σ}

theorem trans {task task' task'' : Task ℓ σ ε α} (h : Advance guard task s task' t)
    (h' : Advance guard task' t task'' u) : Advance guard task s task'' u := by
  induction h with
  | refl _ _ => exact h'
  | act meets _ ih => exact .act meets (ih h')

theorem mono {guard' : ℓ → σ → Prop} (hguard : ∀ label s, guard label s → guard' label s)
    {task task' : Task ℓ σ ε α} (h : Advance guard task s task' t) :
    Advance guard' task s task' t := by
  induction h with
  | refl task s => exact .refl task s
  | act meets _ ih => exact .act (hguard _ _ meets) ih

theorem call {label : ℓ} {f : σ → Except ε α × σ} (meets : guard label s) {outcome : Except ε α}
    (h : f s = (outcome, t)) : Advance guard (Task.call label f) s (.done outcome) t := by
  apply act meets
  show Advance guard (.done (f s).1) (f s).2 _ _
  rw [h]
  exact .refl _ _

theorem bind {task task' : Task ℓ σ ε α} {f : α → Task ℓ σ ε β}
    (h : Advance guard task s task' t) : Advance guard (task >>= f) s (task' >>= f) t := by
  induction h with
  | refl _ _ => exact .refl _ _
  | act meets _ ih => exact .act meets ih

theorem attempt {task task' : Task ℓ σ ε α} (h : Advance guard task s task' t) :
    Advance guard task.attempt s task'.attempt t := by
  induction h with
  | refl _ _ => exact .refl _ _
  | act meets _ ih => exact .act meets ih

/-- A computation without steps. -/
theorem check {x : Except ε α} {a : α} {f : α → Task ℓ σ ε β} {task : Task ℓ σ ε β}
    (hx : x = .ok a) (hrest : Advance guard (f a) s task t) :
    Advance guard (Task.ofExcept x >>= f) s task t := by
  subst hx
  exact hrest

theorem pass {c : Prop} [Decidable c] {e : ε} {f : PUnit → Task ℓ σ ε β} {task : Task ℓ σ ε β}
    (hc : ¬ c) (hrest : Advance guard (f ⟨⟩) s task t) :
    Advance guard (Task.ofExcept (failIf c e) >>= f) s task t :=
  check (failIf_eq_ok.mpr hc) hrest

/-- Run a task to its value, then the rest. -/
theorem seq {task : Task ℓ σ ε α} {a : α} {f : α → Task ℓ σ ε β} {task' : Task ℓ σ ε β}
    (h : Advance guard task s (.done (.ok a)) t) (hrest : Advance guard (f a) t task' u) :
    Advance guard (task >>= f) s task' u :=
  h.bind.trans hrest

/-- A task that advances is a run of the machine. -/
theorem run {M : Machine ℓ σ ε ω} {allowed : ω → Prop} {sys : System ℓ σ ε} {i : Nat}
    {task task' : Task ℓ σ ε Unit} (h : Advance guard task sys.shared task' t)
    (htask : sys.tasks[i]? = some task) :
    ∃ n, Run (Guarded (fun sys event => Machine.Meets guard sys event ∧ event.Lets allowed) M.Step)
      sys (List.replicate n (.step i .proceed)) ⟨t, sys.tasks.set i task'⟩ := by
  generalize hs : sys.shared = s at h
  induction h generalizing sys with
  | refl task s =>
      have hsame : sys.tasks.set i task = sys.tasks := by
        obtain ⟨hi, hget⟩ := List.getElem?_eq_some_iff.mp htask
        rw [← hget]
        exact List.set_getElem_self hi
      rw [hsame, ← hs]
      exact ⟨0, .nil sys⟩
  | @act label effect next task s t meets rest ih =>
      subst hs
      have hi : i < sys.tasks.length := (List.getElem?_eq_some_iff.mp htask).1
      have hmeets : Machine.Meets guard sys (SystemEvent.step i .proceed : SystemEvent ε ω) := by
        intro label' effect' next' htask' _
        rw [htask] at htask'
        cases htask'
        exact meets
      obtain ⟨n, hrest⟩ := @ih
        ⟨effect .proceed sys.shared, sys.tasks.set i (next .proceed sys.shared)⟩
        (by simp [hi]) rfl
      rw [List.set_set] at hrest
      exact ⟨n + 1, .cons ⟨⟨hmeets, trivial⟩, .step htask⟩ hrest⟩

/-- An operation that starts and advances. -/
theorem run_start {M : Machine ℓ σ ε ω} {allowed : ω → Prop} {sys : System ℓ σ ε}
    {task : Task ℓ σ ε Unit} {op : ω} (hop : allowed op)
    (h : Advance guard (M.start sys.tasks.length op) sys.shared task t) :
    ∃ n, Run (Guarded (fun sys event => Machine.Meets guard sys event ∧ event.Lets allowed) M.Step)
      sys (.start op :: List.replicate n (.step sys.tasks.length .proceed))
      ⟨t, sys.tasks ++ [task]⟩ := by
  let started : System ℓ σ ε :=
    { sys with tasks := sys.tasks ++ [M.start sys.tasks.length op] }
  have hstarted : started.tasks[sys.tasks.length]? = some (M.start sys.tasks.length op) := by
    simp [started]
  have hmeets : Machine.Meets guard sys (SystemEvent.start op : SystemEvent ε ω) := trivial
  have hadvance : Advance guard (M.start sys.tasks.length op) started.shared task t := h
  have hsteps : ∃ n, Run
      (Guarded (fun sys event => Machine.Meets guard sys event ∧ event.Lets allowed) M.Step) started
      (List.replicate n (.step sys.tasks.length .proceed)) _ := hadvance.run hstarted
  obtain ⟨n, hrun⟩ := hsteps
  rw [show started.tasks = sys.tasks ++ [M.start sys.tasks.length op] from rfl] at hrun
  simp only [List.set_append_right _ _ (Nat.le_refl _), Nat.sub_self, List.set_cons_zero] at hrun
  exact ⟨n, .cons ⟨⟨hmeets, hop⟩, .start op⟩ hrun⟩

/-- The steps of a task start no operation. -/
theorem ops_replicate (n i : Nat) (reply : Reply ε) :
    (List.replicate n (.step i reply : SystemEvent ε ω)).filterMap SystemEvent.op? = [] := by
  apply List.filterMap_eq_nil_iff.mpr
  intro event hevent
  rw [List.eq_of_mem_replicate hevent]
  rfl

end Advance

/-! ## Faults -/

namespace Task

variable {ℓ σ ε α β : Type}

/-- Run a task alone, its steps answered in turn; what it has not used of the answers is
returned as well. -/
def alone : Task ℓ σ ε α → (Nat → Reply ε) → σ → Except ε α × (Nat → Reply ε) × σ
  | .done outcome, replies, s => (outcome, replies, s)
  | .act _ effect next, replies, s =>
      (next (replies 0) s).alone (fun k => replies (k + 1)) (effect (replies 0) s)

theorem alone_ofExcept (x : Except ε α) (replies : Nat → Reply ε) (s : σ) :
    (ofExcept x : Task ℓ σ ε α).alone replies s = (x, replies, s) :=
  rfl

theorem alone_call (label : ℓ) (f : σ → Except ε α × σ) (replies : Nat → Reply ε) (s : σ) :
    (call label f).alone replies s =
      match replies 0 with
      | .proceed => ((f s).1, (fun k => replies (k + 1)), (f s).2)
      | .refuse e => (.error e, (fun k => replies (k + 1)), s)
      | .lose e => (.error e, (fun k => replies (k + 1)), (f s).2) := by
  unfold call alone
  cases replies 0 with
  | proceed => rfl
  | refuse e => rfl
  | lose e => rfl

theorem alone_bind (task : Task ℓ σ ε α) (f : α → Task ℓ σ ε β) (replies : Nat → Reply ε) (s : σ) :
    (task >>= f).alone replies s =
      match task.alone replies s with
      | (.ok a, rest, t) => (f a).alone rest t
      | (.error e, rest, t) => (.error e, rest, t) := by
  show (task.bind f).alone replies s = _
  induction task generalizing replies s with
  | done outcome =>
      cases outcome with
      | ok a => rfl
      | error e => rfl
  | act label effect next ih => exact ih (replies 0) s _ _

theorem alone_attempt (task : Task ℓ σ ε α) (replies : Nat → Reply ε) (s : σ) :
    task.attempt.alone replies s =
      (.ok (task.alone replies s).1, (task.alone replies s).2) := by
  induction task generalizing replies s with
  | done outcome => rfl
  | act label effect next ih => exact ih (replies 0) s _ _

/-! ### Tasks alone that succeed -/

section

variable {replies rest : Nat → Reply ε} {s t : σ}

theorem bind_assoc {γ : Type} (task : Task ℓ σ ε α) (f : α → Task ℓ σ ε β)
    (g : β → Task ℓ σ ε γ) : task >>= f >>= g = task >>= fun a => f a >>= g := by
  show (task.bind f).bind g = task.bind fun a => (f a).bind g
  induction task with
  | done outcome =>
      cases outcome with
      | ok a => rfl
      | error e => rfl
  | act label effect next ih =>
      simp only [Task.bind, Task.act.injEq, true_and]
      funext reply s
      exact ih reply s

theorem alone_pure_eq_ok {a b : α} : (pure a : Task ℓ σ ε α).alone replies s = (.ok b, rest, t) ↔
    a = b ∧ replies = rest ∧ s = t := by
  show ((Except.ok a : Except ε α), replies, s) = _ ↔ _
  simp only [Prod.mk.injEq, Except.ok.injEq]

theorem alone_ofExcept_eq_ok {x : Except ε α} {a : α} :
    (ofExcept x : Task ℓ σ ε α).alone replies s = (.ok a, rest, t) ↔
      x = .ok a ∧ replies = rest ∧ s = t := by
  rw [alone_ofExcept]
  simp only [Prod.mk.injEq]

theorem alone_call_eq_ok {label : ℓ} {f : σ → Except ε α × σ} {a : α} :
    (call label f).alone replies s = (.ok a, rest, t) ↔
      replies 0 = .proceed ∧ f s = (.ok a, t) ∧ rest = fun k => replies (k + 1) := by
  rw [alone_call]
  cases replies 0 with
  | proceed =>
      simp only [true_and, Prod.ext_iff, eq_comm (a := rest), and_assoc, and_left_comm, and_comm]
  | refuse e => simp
  | lose e => simp

theorem alone_bind_eq_ok {task : Task ℓ σ ε α} {f : α → Task ℓ σ ε β} {b : β} :
    (task >>= f).alone replies s = (.ok b, rest, t) ↔
      ∃ a mid u, task.alone replies s = (.ok a, mid, u) ∧ (f a).alone mid u = (.ok b, rest, t) := by
  rw [alone_bind]
  match task.alone replies s with
  | (.ok a, mid, u) => simp
  | (.error e, mid, u) => simp

theorem alone_attempt_eq_ok {task : Task ℓ σ ε α} {outcome : Except ε α} :
    task.attempt.alone replies s = (.ok outcome, rest, t) ↔
      task.alone replies s = (outcome, rest, t) := by
  rw [alone_attempt]
  match task.alone replies s with
  | (outcome', mid, u) => simp

end

/-! ### Postconditions of a task alone -/

/-- However its steps are answered, the task alone ends in a state that meets the
postcondition of its outcome. -/
def Yields (task : Task ℓ σ ε α) (s : σ) (Q : α → σ → Prop) (E : ε → σ → Prop) : Prop :=
  ∀ replies, match task.alone replies s with
    | (.ok a, _, t) => Q a t
    | (.error e, _, t) => E e t

section

variable {s : σ} {Q : α → σ → Prop} {E : ε → σ → Prop}

theorem yields_pure {a : α} (h : Q a s) : (pure a : Task ℓ σ ε α).Yields s Q E :=
  fun _ => h

theorem yields_fail {e : ε} (h : E e s) : (fail e : Task ℓ σ ε α).Yields s Q E :=
  fun _ => h

theorem yields_ofExcept {x : Except ε α} (hok : ∀ a, x = .ok a → Q a s)
    (herror : ∀ e, x = .error e → E e s) : (ofExcept x : Task ℓ σ ε α).Yields s Q E := by
  intro replies
  cases x with
  | ok a => exact hok a rfl
  | error e => exact herror e rfl

theorem yields_call {label : ℓ} {f : σ → Except ε α × σ} (hok : ∀ a, (f s).1 = .ok a → Q a (f s).2)
    (herror : ∀ e, E e (f s).2) (hrefuse : ∀ e, E e s) : (call label f).Yields s Q E := by
  intro replies
  rw [alone_call]
  cases replies 0 with
  | refuse e => exact hrefuse e
  | lose e => exact herror e
  | proceed =>
      cases hf : (f s).1 with
      | ok a => exact hok a hf
      | error e => exact herror e

theorem Yields.imp {task : Task ℓ σ ε α} {Q' : α → σ → Prop} {E' : ε → σ → Prop}
    (h : task.Yields s Q E) (hok : ∀ a t, Q a t → Q' a t) (herror : ∀ e t, E e t → E' e t) :
    task.Yields s Q' E' := by
  intro replies
  have hrun := h replies
  revert hrun
  match task.alone replies s with
  | (.ok a, _, t) => exact hok a t
  | (.error e, _, t) => exact herror e t

/-- Run a task, then the rest from wherever it has ended. -/
theorem Yields.bind {task : Task ℓ σ ε α} {f : α → Task ℓ σ ε β} {Q' : β → σ → Prop}
    {E' : ε → σ → Prop} (h : task.Yields s Q E) (herror : ∀ e t, E e t → E' e t)
    (hrest : ∀ a t, Q a t → (f a).Yields t Q' E') : (task >>= f).Yields s Q' E' := by
  intro replies
  have hrun := h replies
  rw [alone_bind]
  revert hrun
  match task.alone replies s with
  | (.ok a, rest, t) => exact fun hrun => hrest a t hrun rest
  | (.error e, _, t) => exact herror e t

/-- A computation without steps leaves the state as it is. -/
theorem yields_ofExcept_bind {x : Except ε α} {f : α → Task ℓ σ ε β} {Q' : β → σ → Prop}
    {E' : ε → σ → Prop} (herror : ∀ e, x = .error e → E' e s)
    (hrest : ∀ a, x = .ok a → (f a).Yields s Q' E') : (ofExcept x >>= f).Yields s Q' E' := by
  cases x with
  | ok a => exact hrest a rfl
  | error e => exact fun _ => herror e rfl

theorem Yields.attempt {task : Task ℓ σ ε α} {Q' : Except ε α → σ → Prop} {E' : ε → σ → Prop}
    (h : task.Yields s Q E) (hok : ∀ a t, Q a t → Q' (.ok a) t)
    (herror : ∀ e t, E e t → Q' (.error e) t) : task.attempt.Yields s Q' E' := by
  intro replies
  have hrun := h replies
  rw [alone_attempt]
  revert hrun
  match task.alone replies s with
  | (.ok a, _, t) => exact hok a t
  | (.error e, _, t) => exact herror e t

/-- What follows an attempt is given its outcome. -/
theorem Yields.attempt_bind {task : Task ℓ σ ε α} {f : Except ε α → Task ℓ σ ε β}
    {Q' : β → σ → Prop} {E' : ε → σ → Prop} (h : task.Yields s Q E)
    (hok : ∀ a t, Q a t → (f (.ok a)).Yields t Q' E')
    (herror : ∀ e t, E e t → (f (.error e)).Yields t Q' E') :
    (task.attempt >>= f).Yields s Q' E' := by
  have houtcome : task.attempt.Yields s (fun outcome t => (f outcome).Yields t Q' E')
      fun _ _ => False := h.attempt hok herror
  exact houtcome.bind (fun _ _ => False.elim) fun _ _ => id

end

/-! ### The steps of a task -/

/-- What a call does to the state. -/
def effect (f : σ → Except ε α × σ) (reply : Reply ε) (s : σ) : σ :=
  match reply with
  | .refuse _ => s
  | .proceed | .lose _ => (f s).2

/-- Whatever the states it meets, each step of the task is of a kind, and its value meets a
postcondition. -/
def Takes (kind : (Reply ε → σ → σ) → Prop) : Task ℓ σ ε α → (α → Prop) → Prop
  | .done (.ok a), Q => Q a
  | .done (.error _), _ => True
  | .act _ effect next, Q => kind effect ∧ ∀ reply s, (next reply s).Takes kind Q

section

variable {kind : (Reply ε → σ → σ) → Prop} {Q : α → Prop}

theorem takes_pure {a : α} (h : Q a) : (pure a : Task ℓ σ ε α).Takes kind Q := h

theorem takes_fail (e : ε) : (fail e : Task ℓ σ ε α).Takes kind Q := trivial

theorem takes_ofExcept {x : Except ε α} (h : ∀ a, x = .ok a → Q a) :
    (ofExcept x : Task ℓ σ ε α).Takes kind Q := by
  cases x with
  | ok a => exact h a rfl
  | error e => exact trivial

theorem takes_call {label : ℓ} {f : σ → Except ε α × σ} (hkind : kind (effect f))
    (hvalue : ∀ s a, (f s).1 = .ok a → Q a) : (call label f).Takes kind Q := by
  refine ⟨hkind, fun reply s => ?_⟩
  cases reply with
  | refuse e => exact trivial
  | lose e => exact trivial
  | proceed =>
      show (done (f s).1 : Task ℓ σ ε α).Takes kind Q
      cases hf : (f s).1 with
      | ok a => exact hvalue s a hf
      | error e => exact trivial

theorem Takes.imp {task : Task ℓ σ ε α} {Q' : α → Prop} (h : task.Takes kind Q)
    (hvalue : ∀ a, Q a → Q' a) : task.Takes kind Q' := by
  induction task with
  | done outcome =>
      cases outcome with
      | ok a => exact hvalue a h
      | error e => exact trivial
  | act label effect next ih => exact ⟨h.1, fun reply s => ih reply s (h.2 reply s)⟩

/-- Steps of a kind are steps of every wider one. -/
theorem Takes.widen {task : Task ℓ σ ε α} {kind' : (Reply ε → σ → σ) → Prop}
    (h : task.Takes kind Q) (hkind : ∀ effect, kind effect → kind' effect) :
    task.Takes kind' Q := by
  induction task with
  | done outcome =>
      cases outcome with
      | ok a => exact h
      | error e => exact trivial
  | act label effect next ih => exact ⟨hkind _ h.1, fun reply s => ih reply s (h.2 reply s)⟩

theorem Takes.bind {task : Task ℓ σ ε α} {f : α → Task ℓ σ ε β} {Q' : β → Prop}
    (h : task.Takes kind Q) (hrest : ∀ a, Q a → (f a).Takes kind Q') :
    (task >>= f).Takes kind Q' := by
  show (task.bind f).Takes kind Q'
  induction task with
  | done outcome =>
      cases outcome with
      | ok a => exact hrest a h
      | error e => exact trivial
  | act label effect next ih => exact ⟨h.1, fun reply s => ih reply s (h.2 reply s)⟩

theorem Takes.attempt {task : Task ℓ σ ε α} (h : task.Takes kind Q) :
    task.attempt.Takes kind fun outcome => ∀ a, outcome = .ok a → Q a := by
  induction task with
  | done outcome =>
      intro a heq
      subst heq
      exact h
  | act label effect next ih => exact ⟨h.1, fun reply s => ih reply s (h.2 reply s)⟩

end

/-! ### Runs of tasks whose steps are of a kind -/

end Task

namespace Machine

variable {ℓ σ ε ω : Type} {M : Machine ℓ σ ε ω} {kind : (Reply ε → σ → σ) → Prop} {K : σ → Prop}
  {sys sys' : System ℓ σ ε}

/-- The shared state meets a condition, and the steps of all tasks are of a kind. -/
def Sound (K : σ → Prop) (kind : (Reply ε → σ → σ) → Prop) (sys : System ℓ σ ε) : Prop :=
  K sys.shared ∧ ∀ task ∈ sys.tasks, task.Takes kind fun _ => True

theorem sound_step {event : SystemEvent ε ω}
    (hstart : ∀ i op, (M.start i op).Takes kind fun _ => True)
    (hkind : ∀ effect, kind effect → ∀ reply s, K s → K (effect reply s))
    (habandon : ∀ i s, K s → K (M.abandon i s)) (h : Sound K kind sys)
    (hstep : M.Step sys event sys') : Sound K kind sys' := by
  cases hstep with
  | start op =>
      refine ⟨h.1, fun task htask => ?_⟩
      rw [List.mem_append, List.mem_singleton] at htask
      cases htask with
      | inl hmem => exact h.2 task hmem
      | inr heq => exact heq ▸ hstart _ op
  | @step i reply label effect next running =>
      have htask := h.2 _ (List.mem_of_getElem? running)
      refine ⟨hkind effect htask.1 reply _ h.1, fun task hmem => ?_⟩
      cases List.mem_or_eq_of_mem_set hmem with
      | inl hmem => exact h.2 task hmem
      | inr heq => exact heq ▸ htask.2 reply _
  | @stop i running =>
      refine ⟨habandon i _ h.1, fun task hmem => ?_⟩
      cases List.mem_or_eq_of_mem_set hmem with
      | inl hmem => exact h.2 task hmem
      | inr heq => exact heq ▸ trivial

/-- What every call keeps is kept by every run. -/
theorem keeps_of_run {events : List (SystemEvent ε ω)}
    (hstart : ∀ i op, (M.start i op).Takes kind fun _ => True)
    (hkind : ∀ effect, kind effect → ∀ reply s, K s → K (effect reply s))
    (habandon : ∀ i s, K s → K (M.abandon i s)) (hidle : sys.tasks = [])
    (hrun : Run M.Step sys events sys') (hK : K sys.shared) : K sys'.shared := by
  have hsound : Sound K kind sys := ⟨hK, fun task htask => by rw [hidle] at htask; cases htask⟩
  exact (hrun.invariant (fun _ _ _ => sound_step hstart hkind habandon) hsound).1

end Machine

namespace Task

variable {ℓ σ ε α β : Type}

/-! ### Work on a part of the state -/

/-- A task on a part of the state. -/
def zoom {τ : Type} (part : τ → σ) (replace : τ → σ → τ) : Task ℓ σ ε α → Task ℓ τ ε α
  | .done outcome => .done outcome
  | .act label effect next =>
      .act label (fun reply t => replace t (effect reply (part t))) fun reply t =>
        (next reply (part t)).zoom part replace

section

variable {τ : Type} {part : τ → σ} {replace : τ → σ → τ}

theorem alone_zoom (hpart : ∀ t s, part (replace t s) = s)
    (hreplace : ∀ t s s', replace (replace t s) s' = replace t s')
    (hself : ∀ t, replace t (part t) = t) (task : Task ℓ σ ε α) (replies : Nat → Reply ε) (t : τ) :
    (task.zoom part replace).alone replies t =
      ((task.alone replies (part t)).1, (task.alone replies (part t)).2.1,
        replace t (task.alone replies (part t)).2.2) := by
  induction task generalizing replies t with
  | done outcome => exact Prod.ext rfl (Prod.ext rfl (hself t).symm)
  | act label effect next ih =>
      have hrest := ih (replies 0) (part t) (fun k => replies (k + 1))
        (replace t (effect (replies 0) (part t)))
      rw [hpart] at hrest
      simp only [hreplace] at hrest
      exact hrest

theorem Yields.zoom (hpart : ∀ t s, part (replace t s) = s)
    (hreplace : ∀ t s s', replace (replace t s) s' = replace t s')
    (hself : ∀ t, replace t (part t) = t) {task : Task ℓ σ ε α} {t : τ} {Q : α → σ → Prop}
    {E : ε → σ → Prop} {Q' : α → τ → Prop} {E' : ε → τ → Prop} (h : task.Yields (part t) Q E)
    (hok : ∀ a s, Q a s → Q' a (replace t s)) (herror : ∀ e s, E e s → E' e (replace t s)) :
    (task.zoom part replace).Yields t Q' E' := by
  intro replies
  have hrun := h replies
  rw [alone_zoom hpart hreplace hself]
  revert hrun
  match task.alone replies (part t) with
  | (.ok a, _, s) => exact hok a s
  | (.error e, _, s) => exact herror e s

end

end Task

/-- What a task does alone and undisturbed is an advance. -/
theorem Advance.of_alone {ℓ σ ε α : Type} {task : Task ℓ σ ε α} {replies : Nat → Reply ε} {s : σ}
    (hproceed : ∀ k, replies k = .proceed) :
    Advance (fun _ _ => True) task s (.done (task.alone replies s).1)
      (task.alone replies s).2.2 := by
  induction task generalizing replies s with
  | done outcome => exact .refl _ _
  | act label effect next ih =>
      apply Advance.act trivial
      have hrest := ih (replies 0) s (s := effect (replies 0) s) fun k => hproceed (k + 1)
      rw [hproceed 0] at hrest
      rw [Task.alone, hproceed 0]
      exact hrest

end Useful.Math
