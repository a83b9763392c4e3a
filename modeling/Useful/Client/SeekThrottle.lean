/-
# Seeking while the playhead is dragged

`createSeekThrottle` passes a position on at once when the interval since the last one is
over, and keeps it for a timer otherwise. A timer may run late. A call that comes after the
timer is due and before it runs takes the first branch, and leaves behind the position that
the timer then passes on. The times are in an ordered group: the clock may count in whole
milliseconds or finer.
-/

import Mathlib.Algebra.Order.Group.Defs
import Mathlib.Algebra.Order.Group.Int
import Mathlib.Tactic.Abel
import Useful.Math.Transition

namespace Useful.Client

open Useful.Math

/-- The variables of a throttle, the clock, and what was asked for and passed on so far. The
timer is given by the time at which it is due. -/
structure SeekThrottle (T α : Type) where
  last : T
  pending : Option α
  timer : Option T
  clock : T
  calls : List α
  invocations : List (T × α)
deriving DecidableEq

/-- What happens to a throttle: a call, or its timer runs. -/
inductive SeekEvent (T α : Type)
  | call (now : T) (sec : α)
  | timer (now : T)

namespace SeekThrottle

variable {T α : Type} [AddCommGroup T] [LinearOrder T] [IsOrderedAddMonoid T]

/-- `createSeekThrottle`. -/
def create (start : T) : SeekThrottle T α := ⟨0, none, none, start, [], []⟩

/-- `invoke`. -/
def invoke (now : T) (sec : α) (s : SeekThrottle T α) : SeekThrottle T α :=
  { s with last := now, invocations := s.invocations ++ [(now, sec)] }

/-- The function that `createSeekThrottle` returns. -/
def call (intervalMs now : T) (sec : α) (s : SeekThrottle T α) : SeekThrottle T α :=
  let elapsed := now - s.last
  let s := { s with clock := now, calls := s.calls ++ [sec] }
  if elapsed ≥ intervalMs then s.invoke now sec
  else
    { s with
      pending := some sec
      timer := s.timer.or (some (now + (intervalMs - elapsed))) }

/-- The callback of the timer. -/
def runTimer (now : T) (s : SeekThrottle T α) : SeekThrottle T α :=
  let s := { s with clock := now, timer := none }
  match s.pending with
  | some p => { s with pending := none }.invoke now p
  | none => s

/-- The clock does not go back, and a timer does not run before it is due. -/
def next (intervalMs : T) (s : SeekThrottle T α) : SeekEvent T α → Option (SeekThrottle T α)
  | .call now sec => if s.clock ≤ now then some (s.call intervalMs now sec) else none
  | .timer now =>
      match s.timer with
      | some due => if s.clock ≤ now ∧ due ≤ now then some (s.runTimer now) else none
      | none => none

/-- No call comes when the timer that is armed is already due. -/
def OnTime (s : SeekThrottle T α) : SeekEvent T α → Prop
  | .call now _ => ∀ due ∈ s.timer, now < due
  | .timer _ => True

/-- What a throttle promises. -/
structure Settles (intervalMs : T) (s : SeekThrottle T α) : Prop where
  order : (s.invocations.map Prod.snd).Sublist s.calls
  spacing : s.invocations.Pairwise fun first second => intervalMs ≤ second.1 - first.1
  latest : s.timer = none → (s.invocations.map Prod.snd).getLast? = s.calls.getLast?

/-- What is passed on and what is kept are together a part of the calls that ends like them. -/
structure Invariant (intervalMs : T) (s : SeekThrottle T α) : Prop where
  due : ∀ due ∈ s.timer, due = s.last + intervalMs
  pending : s.timer = none → s.pending = none
  order : (s.invocations.map Prod.snd ++ s.pending.toList).Sublist s.calls
  latest : (s.invocations.map Prod.snd ++ s.pending.toList).getLast? = s.calls.getLast?
  times : ∀ invocation ∈ s.invocations, invocation.1 ≤ s.last ∧ invocation.1 ≤ s.clock
  spacing : s.invocations.Pairwise fun first second => intervalMs ≤ second.1 - first.1

section Steps

variable {intervalMs now : T} {sec : α} {s t : SeekThrottle T α}

theorem invariant_create (start : T) : (create start : SeekThrottle T α).Invariant intervalMs where
  due := nofun
  pending := fun _ => rfl
  order := .slnil
  latest := rfl
  times := nofun
  spacing := .nil

theorem Invariant.settles (h : s.Invariant intervalMs) : s.Settles intervalMs where
  order := (List.sublist_append_left _ _).trans h.order
  spacing := h.spacing
  latest := by
    intro htimer
    have hlatest := h.latest
    rwa [h.pending htimer, Option.toList_none, List.append_nil] at hlatest

/-- An invocation at a time that the interval allows keeps the distances. -/
theorem Invariant.spacing_invoke (h : s.Invariant intervalMs) (hnow : intervalMs ≤ now - s.last) :
    (s.invocations ++ [(now, sec)]).Pairwise fun first second =>
      intervalMs ≤ second.1 - first.1 := by
  refine List.pairwise_append.mpr ⟨h.spacing, List.pairwise_singleton _ _, ?_⟩
  intro first hfirst second hsecond
  obtain rfl := List.mem_singleton.mp hsecond
  exact hnow.trans (sub_le_sub_left (h.times first hfirst).1 now)

theorem Invariant.times_invoke (h : s.Invariant intervalMs) (hclock : s.clock ≤ now) :
    ∀ invocation ∈ s.invocations ++ [(now, sec)], invocation.1 ≤ now ∧ invocation.1 ≤ now := by
  intro invocation hmem
  rw [List.mem_append, List.mem_singleton] at hmem
  rcases hmem with hmem | rfl
  · have hle := (h.times invocation hmem).2.trans hclock
    exact ⟨hle, hle⟩
  · exact ⟨le_rfl, le_rfl⟩

/-- A call that is passed on at once finds no timer. -/
theorem Invariant.call_leading (h : s.Invariant intervalMs) (hclock : s.clock ≤ now)
    (honTime : ∀ due ∈ s.timer, now < due) (helapsed : now - s.last ≥ intervalMs) :
    (s.call intervalMs now sec).Invariant intervalMs := by
  have htimer : s.timer = none := by
    refine Option.eq_none_iff_forall_not_mem.mpr fun due hdue => ?_
    have hlt := honTime due hdue
    rw [h.due due hdue] at hlt
    exact absurd (sub_lt_iff_lt_add'.mpr hlt) (not_lt.mpr helapsed)
  have hpending := h.pending htimer
  have horder := h.order
  rw [hpending, Option.toList_none, List.append_nil] at horder
  have hcall : s.call intervalMs now sec =
      { s with
        clock := now, calls := s.calls ++ [sec], last := now
        invocations := s.invocations ++ [(now, sec)] } := if_pos helapsed
  rw [hcall]
  refine ⟨?_, fun _ => hpending, ?_, ?_, h.times_invoke hclock, h.spacing_invoke helapsed⟩
  · simp only [htimer, Option.not_mem_none, false_implies, implies_true]
  · simp only [hpending, Option.toList_none, List.append_nil, List.map_append,
      List.map_singleton]
    exact horder.append (List.Sublist.refl [sec])
  · simp only [hpending, Option.toList_none, List.append_nil, List.map_append,
      List.map_singleton, List.getLast?_concat]

/-- A call within the interval replaces what is kept. -/
theorem Invariant.call_trailing (h : s.Invariant intervalMs) (hclock : s.clock ≤ now)
    (helapsed : ¬ now - s.last ≥ intervalMs) :
    (s.call intervalMs now sec).Invariant intervalMs := by
  have hcall : s.call intervalMs now sec =
      { s with
        clock := now, calls := s.calls ++ [sec], pending := some sec
        timer := s.timer.or (some (now + (intervalMs - (now - s.last)))) } := if_neg helapsed
  have horder : (s.invocations.map Prod.snd).Sublist s.calls :=
    (List.sublist_append_left _ _).trans h.order
  rw [hcall]
  refine ⟨fun due hdue => ?_, fun hnone => ?_, ?_, ?_, fun invocation hmem => ?_, h.spacing⟩
  · simp only at hdue
    cases htimer : s.timer with
    | none =>
        rw [htimer, Option.none_or, Option.mem_some_iff] at hdue
        rw [← hdue]
        abel
    | some armed =>
        rw [htimer, Option.some_or] at hdue
        exact h.due due (htimer ▸ hdue)
  · simp only at hnone
    cases htimer : s.timer <;> simp [htimer] at hnone
  · exact horder.append (List.Sublist.refl [sec])
  · simp only [Option.toList_some, List.getLast?_concat]
  · obtain ⟨hlast, hbefore⟩ := h.times invocation hmem
    exact ⟨hlast, hbefore.trans hclock⟩

theorem Invariant.runTimer {due : T} (h : s.Invariant intervalMs) (hclock : s.clock ≤ now)
    (htimer : s.timer = some due) (hdue : due ≤ now) :
    (s.runTimer now).Invariant intervalMs := by
  have helapsed : intervalMs ≤ now - s.last := by
    rw [h.due due htimer] at hdue
    exact le_sub_iff_add_le'.mpr hdue
  have horder := h.order
  have hlatest := h.latest
  cases hpending : s.pending with
  | none =>
      have hidle : s.runTimer now = { s with clock := now, timer := none } := by
        simp only [SeekThrottle.runTimer, hpending]
      rw [hpending] at horder hlatest
      rw [hidle]
      refine ⟨nofun, fun _ => hpending, ?_, ?_, fun invocation hmem => ?_, h.spacing⟩
      · simpa only [hpending] using horder
      · simpa only [hpending] using hlatest
      · obtain ⟨hlast, hbefore⟩ := h.times invocation hmem
        exact ⟨hlast, hbefore.trans hclock⟩
  | some p =>
      have hpassed : s.runTimer now =
          { s with
            clock := now, timer := none, pending := none, last := now
            invocations := s.invocations ++ [(now, p)] } := by
        simp only [SeekThrottle.runTimer, hpending, invoke]
      rw [hpending, Option.toList_some] at horder hlatest
      rw [hpassed]
      refine ⟨nofun, fun _ => rfl, ?_, ?_, h.times_invoke hclock, h.spacing_invoke helapsed⟩
      · simpa only [Option.toList_none, List.append_nil, List.map_append,
          List.map_singleton] using horder
      · simpa only [Option.toList_none, List.append_nil, List.map_append,
          List.map_singleton] using hlatest

/-- A step on time keeps the invariant. -/
theorem invariant_step {e : SeekEvent T α} (h : s.Invariant intervalMs)
    (hstep : Guarded OnTime (StepsTo (next intervalMs)) s e t) : t.Invariant intervalMs := by
  obtain ⟨honTime, hnext⟩ := hstep
  unfold StepsTo next at hnext
  cases e with
  | call now sec =>
      simp only [Option.ite_none_right_eq_some, Option.some.injEq] at hnext
      obtain ⟨hclock, rfl⟩ := hnext
      by_cases helapsed : now - s.last ≥ intervalMs
      · exact h.call_leading hclock honTime helapsed
      · exact h.call_trailing hclock helapsed
  | timer now =>
      cases htimer : s.timer with
      | none => simp [htimer] at hnext
      | some due =>
          simp only [htimer, Option.ite_none_right_eq_some, Option.some.injEq] at hnext
          obtain ⟨⟨hclock, hdue⟩, rfl⟩ := hnext
          exact h.runTimer hclock htimer hdue

end Steps

/-- In a run in which no call comes between the time a timer is due and the time it runs, the
positions are passed on in order, the interval apart, and the last one is the last of the calls
when no timer is left. -/
theorem settles_of_onTime (intervalMs start : T) (events : List (SeekEvent T α))
    (s : SeekThrottle T α)
    (hrun : Run (Guarded OnTime (StepsTo (next intervalMs))) (create start) events s) :
    s.Settles intervalMs := by
  have hinvariant : s.Invariant intervalMs :=
    hrun.invariant (fun _ _ _ h hstep => invariant_step h hstep) (invariant_create start)
  exact hinvariant.settles

/-- Two calls and the timer that is due a hundred milliseconds after the first. -/
theorem settles_of_onTime_sample :
    Settles 100 (⟨1105, none, none, 1105, [1, 2], [(1000, 1), (1105, 2)]⟩ : SeekThrottle ℤ ℤ) := by
  have hrun : Run (Guarded OnTime (StepsTo (next 100))) (create 900 : SeekThrottle ℤ ℤ)
      [.call 1000 1, .call 1050 2, .timer 1105]
      ⟨1105, none, none, 1105, [1, 2], [(1000, 1), (1105, 2)]⟩ := by
    exact .cons ⟨nofun, rfl⟩ (.cons ⟨nofun, rfl⟩ (.single ⟨trivial, rfl⟩))
  exact settles_of_onTime 100 900 _ _ hrun

/-- A call after the timer is due: the timer then passes on the position before, at once. -/
theorem late_timer_seeks_back :
    ∃ s : SeekThrottle ℤ ℤ, Run (StepsTo (next 100)) (create 900)
        [.call 1000 1, .call 1050 2, .call 1120 3, .timer 1121] s ∧
      s.timer = none ∧ s.calls = [1, 2, 3] ∧
      s.invocations = [(1000, 1), (1120, 3), (1121, 2)] ∧ ¬ s.Settles 100 := by
  refine ⟨_, .of_foldlM rfl, rfl, rfl, rfl, fun h => ?_⟩
  exact absurd (h.latest rfl) (by decide)

end SeekThrottle

end Useful.Client
