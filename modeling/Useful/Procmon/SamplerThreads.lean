/-
# Sampler threads

The commands of the process monitor and the threads they start, interleaved step by step. The
flags are shared by all threads that were ever started, and `procmon_stop` lets go of the state
lock before it joins. So a command can start a thread while an earlier one has not seen the
flag yet; where none does, at most one thread samples.

The statistics have a lock of their own, held only while fields are written: each such
section is one step. What the native collectors read is chosen by the surroundings.
-/

import Useful.Procmon.Diff
import Useful.Math.Transition

namespace Useful.Procmon

open Useful.Math

universe u

variable {Network : Type u}

structure ProcmonStats (Network : Type u) where
  running : Bool
  paused : Bool
  backendSamplingMs : ℚ
  processCount : Nat
  netAvailable : Bool
  network : Network
  gpuAvailable : Bool
  processControlAvailable : Bool
  lastDeltaAdded : Nat
  lastDeltaUpdated : Nat
  lastDeltaRemoved : Nat

/-- The flags, the statistics and the events sent. -/
structure Shared (Network : Type u) where
  running : Bool
  paused : Bool
  networkReset : Bool
  stats : ProcmonStats Network
  emitted : List ProcessDelta

/-- What a sampler reads in one step. -/
structure Reading (Network : Type u) where
  netAvailable : Bool
  gpuAvailable : Bool
  sample : Sample
  network : Network
  sampleMs : ℚ

/-! ## Threads -/

inductive PauseAction
  | sample
  | drain
  deriving DecidableEq

/-- `pause_action`, with the new `was_paused`. -/
def pauseAction (paused wasPaused : Bool) : PauseAction × Bool :=
  if paused then (.drain, true) else if wasPaused then (.drain, false) else (.sample, wasPaused)

/-- Where a sampler thread is. -/
inductive SamplerPc
  -- Before the loop.
  | spawned
  | announced
  | baseline
  | counted
  -- In the loop.
  | check
  | sleeping
  | recheck
  | swapReset
  | resetNetwork
  | loadWasPaused
  | loadPaused
  | drain
  | recheckPaused
  | sampling
  | emitting (delta : ProcessDelta)
  -- After it.
  | leaving
  | gone

def SamplerPc.InLoop : SamplerPc → Bool
  | check | sleeping | recheck | swapReset | resetNetwork | loadWasPaused | loadPaused | drain
  | recheckPaused | sampling | emitting _ => true
  | _ => false

structure SamplerThread where
  pc : SamplerPc
  prev : SnapshotMap
  wasPaused : Bool
  /-- A stop was requested while the thread's handle was kept. No step reads it. -/
  stopped : Bool

/-- The next step of a thread that is not gone. -/
def SamplerThread.step (reading : Reading Network) (shared : Shared Network)
    (thread : SamplerThread) : Option (Shared Network × SamplerThread) :=
  match thread.pc with
  | .spawned => some
      ({ shared with stats := { shared.stats with
          running := true, netAvailable := reading.netAvailable,
          gpuAvailable := reading.gpuAvailable } },
        { thread with pc := .announced })
  | .announced => some
      ({ shared with stats := { shared.stats with network := reading.network } },
        { thread with pc := .baseline, prev := buildMap reading.sample.rows })
  | .baseline => some
      ({ shared with stats := { shared.stats with
          processCount := thread.prev.rows.length,
          lastDeltaAdded := (diff .empty thread.prev).added.length } },
        { thread with pc := .counted })
  | .counted => some
      ({ shared with emitted := shared.emitted ++ [diff .empty thread.prev] },
        { thread with pc := .check, wasPaused := false })
  | .check => some (shared, { thread with pc := if shared.running then .sleeping else .leaving })
  | .sleeping => some (shared, { thread with pc := .recheck })
  | .recheck => some
      (shared, { thread with pc := if shared.running then .swapReset else .leaving })
  | .swapReset => some
      ({ shared with networkReset := false },
        { thread with pc := if shared.networkReset then .resetNetwork else .loadPaused })
  | .resetNetwork => some
      ({ shared with stats := { shared.stats with network := reading.network } },
        { thread with pc := .loadWasPaused })
  | .loadWasPaused => some (shared, { thread with pc := .check, wasPaused := shared.paused })
  | .loadPaused =>
      match pauseAction shared.paused thread.wasPaused with
      | (.drain, wasPaused) => some (shared, { thread with pc := .drain, wasPaused := wasPaused })
      | (.sample, wasPaused) => some
          (shared, { thread with pc := .recheckPaused, wasPaused := wasPaused })
  | .drain => some
      ({ shared with stats := { shared.stats with network := reading.network } },
        { thread with pc := .check })
  | .recheckPaused => some
      (shared, { thread with pc := if shared.paused then .check else .sampling })
  | .sampling =>
      let next := buildMap reading.sample.rows
      let delta := diff thread.prev next
      some ({ shared with stats := { shared.stats with
          backendSamplingMs := reading.sampleMs,
          processCount := reading.sample.rows.length,
          lastDeltaAdded := delta.added.length,
          lastDeltaUpdated := delta.updated.length,
          lastDeltaRemoved := delta.removed.length,
          network := reading.network } },
        { thread with pc := .emitting delta, prev := next })
  | .emitting delta => some
      ({ shared with emitted := shared.emitted ++ [delta] }, { thread with pc := .check })
  | .leaving => some
      ({ shared with stats := { shared.stats with running := false } },
        { thread with pc := .gone })
  | .gone => none

/-! ## Commands -/

inductive Command
  | start
  | stop
  | setPaused (paused : Bool)

/-- Where a caller of a command is. -/
inductive Caller
  | idle
  /-- Waiting for the state lock. -/
  | waiting (command : Command)
  -- `procmon_start`, with the lock.
  | loadRunning
  | storeRunning
  | storePaused
  | storeReset
  | spawning
  | spawnFailed (error : String)
  | keepHandle (thread : Nat)
  -- `procmon_stop`, with the lock, and then without.
  | clearRunning
  | takeHandle
  | joining (thread : Nat)
  -- `procmon_set_paused`, with the lock.
  | setPause (paused : Bool)
  | setReset (paused : Bool)
  | setStats (paused : Bool)
  | returned (result : Except String Unit)

/-- The first step of a command that has the lock. -/
def Command.first : Command → Caller
  | .start => .loadRunning
  | .stop => .clearRunning
  | .setPaused paused => .setPause paused

/-- With the state lock. -/
def Caller.Locked : Caller → Bool
  | .idle | .waiting _ | .joining _ | .returned _ => false
  | _ => true

/-- A start that goes on, up to the thread. -/
def Caller.Starting : Caller → Bool
  | .storeRunning | .storePaused | .storeReset | .spawning | .spawnFailed _ => true
  | _ => false

/-- A start that has stored the flag. -/
def Caller.Flagged : Caller → Bool
  | .storePaused | .storeReset | .spawning => true
  | _ => false

theorem Caller.locked_of_starting {caller : Caller} (h : caller.Starting = true) :
    caller.Locked = true := by
  cases caller <;> first | rfl | cases h

theorem Caller.locked_of_flagged {caller : Caller} (h : caller.Flagged = true) :
    caller.Locked = true := by
  cases caller <;> first | rfl | cases h

/-- `state`, the callers and all threads that were started. -/
structure Sampling (Network : Type u) where
  shared : Shared Network
  handle : Option Nat
  lock : Option Nat
  callers : Nat → Caller
  threads : Nat → Option SamplerThread
  started : Nat

namespace Sampling

def setCaller (w : Sampling Network) (c : Nat) (caller : Caller) : Sampling Network :=
  { w with callers := Function.update w.callers c caller }

def setThread (w : Sampling Network) (i : Nat) (thread : SamplerThread) : Sampling Network :=
  { w with threads := Function.update w.threads i (some thread) }

def setRunning (w : Sampling Network) (running : Bool) : Sampling Network :=
  { w with shared := { w.shared with running := running } }

/-- A command returns and the lock is released. -/
def finish (w : Sampling Network) (c : Nat) (result : Except String Unit) : Sampling Network :=
  { w.setCaller c (.returned result) with lock := none }

/-- The thread whose handle is kept is asked to stop. -/
def requestStop (w : Sampling Network) : Sampling Network :=
  { w.setRunning false with
    threads := fun i =>
      if w.handle = some i then (w.threads i).map fun thread => { thread with stopped := true }
      else w.threads i }

def spawn (w : Sampling Network) : Sampling Network :=
  { w.setThread w.started ⟨.spawned, .empty, false, false⟩ with started := w.started + 1 }

/-- The next step of a caller. Spawning may fail with an error. -/
def stepCaller (w : Sampling Network) (c : Nat) (spawnError : Option String) :
    Option (Sampling Network) :=
  match w.callers c with
  | .idle | .returned _ => none
  | .waiting command =>
      if w.lock = none then some { w.setCaller c command.first with lock := some c }
      else none
  | .loadRunning =>
      if w.shared.running then some (w.finish c (.ok ())) else some (w.setCaller c .storeRunning)
  | .storeRunning => some ((w.setRunning true).setCaller c .storePaused)
  | .storePaused => some
      ({ w with shared := { w.shared with paused := false } }.setCaller c .storeReset)
  | .storeReset => some
      ({ w with shared := { w.shared with networkReset := false } }.setCaller c .spawning)
  | .spawning =>
      match spawnError with
      | some error => some (w.setCaller c (.spawnFailed error))
      | none => some (w.spawn.setCaller c (.keepHandle w.started))
  | .spawnFailed error => some ((w.setRunning false).finish c (.error error))
  | .keepHandle i => some ({ w with handle := some i }.finish c (.ok ()))
  | .clearRunning => some (w.requestStop.setCaller c .takeHandle)
  | .takeHandle =>
      match w.handle with
      | some i => some { w.setCaller c (.joining i) with handle := none, lock := none }
      | none => some (w.finish c (.ok ()))
  | .joining i =>
      match w.threads i with
      | some ⟨.gone, _, _, _⟩ => some (w.setCaller c (.returned (.ok ())))
      | _ => none
  | .setPause paused => some
      ({ w with shared := { w.shared with paused := paused } }.setCaller c (.setReset paused))
  | .setReset paused => some
      ({ w with shared := { w.shared with networkReset := true } }.setCaller c (.setStats paused))
  | .setStats paused => some
      ({ w with shared := { w.shared with
          stats := { w.shared.stats with paused := paused } } }.finish c (.ok ()))

end Sampling

/-- Who takes a step. -/
inductive SamplingLabel (Network : Type u)
  | call (caller : Nat) (command : Command)
  | caller (caller : Nat) (spawnError : Option String)
  | thread (thread : Nat) (reading : Reading Network)

namespace Sampling

def step (w : Sampling Network) : SamplingLabel Network → Option (Sampling Network)
  | .call c command =>
      match w.callers c with
      | .idle | .returned _ => some (w.setCaller c (.waiting command))
      | _ => none
  | .caller c spawnError => w.stepCaller c spawnError
  | .thread i reading =>
      (w.threads i).bind fun thread =>
        (thread.step reading w.shared).map fun after =>
          { w.setThread i after.2 with shared := after.1 }

/-- `ProcmonState::default()`, with the default network snapshot. -/
def initial (network : Network) : Sampling Network where
  shared := ⟨false, false, false, ⟨false, false, 0, 0, false, network, false, false, 0, 0, 0⟩, []⟩
  handle := none
  lock := none
  callers _ := .idle
  threads _ := none
  started := 0

/-! ## One sampler -/

/-- A thread has not come to its end. -/
def Live (w : Sampling Network) (i : Nat) : Prop :=
  ∃ thread, w.threads i = some thread ∧ thread.pc ≠ .gone

/-- What is to hold in every state. -/
structure OneSampler (w : Sampling Network) : Prop where
  /-- At most one thread is in its loop. -/
  one : ∀ i j thread other, w.threads i = some thread → w.threads j = some other →
    thread.pc.InLoop = true → other.pc.InLoop = true → i = j
  /-- A stopped thread leaves at its next check. -/
  leaves : ∀ i thread, w.threads i = some thread → thread.stopped = true →
    thread.pc = .check ∨ thread.pc = .recheck → ∀ reading after,
      thread.step reading w.shared = some after → after.2.pc = .leaving
  /-- The statistics say running only while a thread runs. -/
  running : w.shared.stats.running = true → ∃ i, w.Live i
  /-- And they do when the latest thread has announced itself and was not stopped. -/
  latest : ∀ i thread, i + 1 = w.started → w.threads i = some thread → thread.pc ≠ .spawned →
    thread.stopped = false → w.shared.stats.running = true

/-- A start that goes on finds no thread that has not come to its end. -/
def StartsAlone (w : Sampling Network) : SamplingLabel Network → Prop
  | .caller c _ => w.callers c = .loadRunning → w.shared.running = false → ∀ i, ¬ w.Live i
  | _ => True

/-! ## What a step of a thread can do -/

variable {w : Sampling Network}

/-- A thread announces itself, goes on, or comes to its end. -/
inductive Moves (shared shared' : Shared Network) (thread thread' : SamplerThread) : Prop
  | announces (pc : thread.pc = .spawned) (pc' : thread'.pc = .announced)
      (stats : shared'.stats.running = true)
  | goesOn (pc : thread.pc ≠ .spawned) (pc' : thread'.pc ≠ .spawned ∧ thread'.pc ≠ .gone)
      (leaves : thread'.pc = .leaving → shared.running = false)
      (stats : shared'.stats.running = shared.stats.running)
  | ends (pc : thread.pc = .leaving) (pc' : thread'.pc = .gone)
      (stats : shared'.stats.running = false)

theorem moves_of_step {reading : Reading Network} {shared shared' : Shared Network}
    {thread thread' : SamplerThread} (h : thread.step reading shared = some (shared', thread')) :
    thread.pc ≠ .gone ∧ shared'.running = shared.running ∧ thread'.stopped = thread.stopped ∧
      Moves shared shared' thread thread' := by
  obtain ⟨pc, prev, wasPaused, stopped⟩ := thread
  cases pc with
  | spawned =>
      cases h
      exact ⟨nofun, rfl, rfl, .announces rfl rfl rfl⟩
  | leaving =>
      cases h
      exact ⟨nofun, rfl, rfl, .ends rfl rfl rfl⟩
  | gone => cases h
  | check | recheck =>
      cases h
      refine ⟨nofun, rfl, rfl, .goesOn nofun ?_ ?_ rfl⟩
      · cases shared.running <;> exact ⟨nofun, nofun⟩
      · cases shared.running with
        | false => exact fun _ => rfl
        | true => exact nofun
  | swapReset =>
      cases h
      refine ⟨nofun, rfl, rfl, .goesOn nofun ?_ ?_ rfl⟩
      · cases shared.networkReset <;> exact ⟨nofun, nofun⟩
      · cases shared.networkReset <;> exact nofun
  | recheckPaused =>
      cases h
      refine ⟨nofun, rfl, rfl, .goesOn nofun ?_ ?_ rfl⟩
      · cases shared.paused <;> exact ⟨nofun, nofun⟩
      · cases shared.paused <;> exact nofun
  | loadPaused =>
      simp only [SamplerThread.step] at h
      cases hpause : pauseAction shared.paused wasPaused with
      | mk action wasPaused' =>
          rw [hpause] at h
          cases action <;> cases h <;> exact ⟨nofun, rfl, rfl, .goesOn nofun ⟨nofun, nofun⟩ nofun rfl⟩
  | announced | baseline | counted | sleeping | resetNetwork | loadWasPaused | drain | sampling
  | emitting delta =>
      cases h
      exact ⟨nofun, rfl, rfl, .goesOn nofun ⟨nofun, nofun⟩ nofun rfl⟩

/-! ## What guarded steps keep -/

/-- What the states of guarded runs have in common. -/
structure Inv (w : Sampling Network) : Prop where
  locked : ∀ c, (w.callers c).Locked = true ↔ w.lock = some c
  numbered : ∀ i thread, w.threads i = some thread → i < w.started
  latest : ∀ i, w.Live i → i + 1 = w.started
  /-- A thread that was not stopped runs, and its handle is there for the next stop. -/
  kept : ∀ i thread, w.threads i = some thread → thread.pc ≠ .gone → thread.stopped = false →
    w.shared.running = true ∧ (w.handle = some i ∨ ∃ c, w.callers c = .keepHandle i)
  stopping : ∀ i thread, w.threads i = some thread → thread.pc ≠ .gone → thread.stopped = true →
    w.shared.running = false
  starting : ∀ c, (w.callers c).Starting = true → ∀ i, ¬ w.Live i
  flagged : ∀ c, (w.callers c).Flagged = true → w.shared.running = true
  keeping : ∀ c i, w.callers c = .keepHandle i → i + 1 = w.started
  taking : ∀ c, w.callers c = .takeHandle → ∀ i thread, w.threads i = some thread →
    thread.pc ≠ .gone → thread.stopped = true
  leaving : ∀ i thread, w.threads i = some thread → thread.pc = .leaving ∨ thread.pc = .gone →
    thread.stopped = true
  announced : w.shared.stats.running = true ↔
    ∃ i thread, w.threads i = some thread ∧ thread.pc ≠ .spawned ∧ thread.pc ≠ .gone

theorem inv_initial (network : Network) : Inv (initial network) where
  locked _ := ⟨nofun, nofun⟩
  numbered _ _ h := nomatch h
  latest _ h := nomatch h.choose_spec.1
  kept _ _ h := nomatch h
  stopping _ _ h := nomatch h
  starting _ h := nomatch h
  flagged _ h := nomatch h
  keeping _ _ h := nomatch h
  taking _ h := nomatch h
  leaving _ _ h := nomatch h
  announced := ⟨nofun, fun ⟨_, _, h, _⟩ => nomatch h⟩

namespace Inv

variable {c : Nat}

/-- One caller has the lock. -/
theorem eq_of_locked (h : Inv w) {d : Nat} (hc : (w.callers c).Locked = true)
    (hd : (w.callers d).Locked = true) : c = d :=
  Option.some.inj (((h.locked c).mp hc).symm.trans ((h.locked d).mp hd))

theorem live_unique (h : Inv w) {i j : Nat} (hi : w.Live i) (hj : w.Live j) : i = j :=
  Nat.succ_injective ((h.latest i hi).trans (h.latest j hj).symm)

/-- Only two fields of what is shared matter. -/
theorem setShared (h : Inv w) (shared : Shared Network) (hrunning : shared.running = w.shared.running)
    (hstats : shared.stats.running = w.shared.stats.running) : Inv { w with shared := shared } where
  locked := h.locked
  numbered := h.numbered
  latest := h.latest
  kept i thread hthread hpc hstopped := by
    rw [hrunning]
    exact h.kept i thread hthread hpc hstopped
  stopping i thread hthread hpc hstopped := by
    rw [hrunning]
    exact h.stopping i thread hthread hpc hstopped
  starting := h.starting
  flagged d hd := by
    rw [hrunning]
    exact h.flagged d hd
  keeping := h.keeping
  taking := h.taking
  leaving := h.leaving
  announced := by
    rw [hstats]
    exact h.announced

/-- While no thread is left, the flag is free to change. -/
theorem setRunning (h : Inv w) (running : Bool) (hnone : ∀ i, ¬ w.Live i)
    (hflagged : ∀ d, (w.callers d).Flagged = true → running = true) :
    Inv (w.setRunning running) where
  locked := h.locked
  numbered := h.numbered
  latest := h.latest
  kept i thread hthread hpc _ := (hnone i ⟨thread, hthread, hpc⟩).elim
  stopping i thread hthread hpc _ := (hnone i ⟨thread, hthread, hpc⟩).elim
  starting := h.starting
  flagged := hflagged
  keeping := h.keeping
  taking := h.taking
  leaving := h.leaving
  announced := h.announced

/-- A caller moves on, with or without the lock. -/
theorem move (h : Inv w) {caller : Caller} {lock : Option Nat}
    (hlock : ∀ d, (Function.update w.callers c caller d).Locked = true ↔ lock = some d)
    (hstarting : caller.Starting = true → ∀ i, ¬ w.Live i)
    (hflagged : caller.Flagged = true → w.shared.running = true)
    (hkeeping : ∀ i, caller ≠ .keepHandle i)
    (htaking : caller = .takeHandle → ∀ i thread, w.threads i = some thread → thread.pc ≠ .gone →
      thread.stopped = true)
    (hkept : ∀ i, w.callers c = .keepHandle i → w.Live i → w.handle = some i) :
    Inv { w.setCaller c caller with lock := lock } := by
  have hcases : ∀ d, Function.update w.callers c caller d = caller ∨
      Function.update w.callers c caller d = w.callers d := by
    intro d
    by_cases hd : d = c
    · rw [hd]
      exact .inl (Function.update_self ..)
    · exact .inr (Function.update_of_ne hd ..)
  constructor
  · exact hlock
  · exact h.numbered
  · exact h.latest
  · intro i thread hthread hpc hstopped
    obtain ⟨hrunning, hhandle⟩ := h.kept i thread hthread hpc hstopped
    refine ⟨hrunning, ?_⟩
    obtain hhandle | ⟨d, hd⟩ := hhandle
    · exact .inl hhandle
    · by_cases heq : d = c
      · exact .inl (hkept i (heq ▸ hd) ⟨thread, hthread, hpc⟩)
      · exact .inr ⟨d, (Function.update_of_ne heq ..).trans hd⟩
  · exact h.stopping
  · intro d hd
    obtain heq | heq := hcases d
    · exact hstarting (heq ▸ hd)
    · exact h.starting d (heq ▸ hd)
  · intro d hd
    obtain heq | heq := hcases d
    · exact hflagged (heq ▸ hd)
    · exact h.flagged d (heq ▸ hd)
  · intro d i hd
    obtain heq | heq := hcases d
    · exact absurd (heq.symm.trans hd) (hkeeping i)
    · exact h.keeping d i (heq.symm.trans hd)
  · intro d hd
    obtain heq | heq := hcases d
    · exact htaking (heq.symm.trans hd)
    · exact h.taking d (heq.symm.trans hd)
  · exact h.leaving
  · exact h.announced

/-! ### Who has the lock -/

theorem locked_stays (h : Inv w) {caller : Caller} (hc : (w.callers c).Locked = true)
    (hcaller : caller.Locked = true) (d : Nat) :
    (Function.update w.callers c caller d).Locked = true ↔ w.lock = some d := by
  by_cases hd : d = c
  · subst hd
    rw [Function.update_self]
    exact iff_of_true hcaller ((h.locked d).mp hc)
  · rw [Function.update_of_ne hd]
    exact h.locked d

theorem locked_outside (h : Inv w) {caller : Caller} (hc : (w.callers c).Locked = false)
    (hcaller : caller.Locked = false) (d : Nat) :
    (Function.update w.callers c caller d).Locked = true ↔ w.lock = some d := by
  by_cases hd : d = c
  · subst hd
    rw [Function.update_self, hcaller, ← hc]
    exact h.locked d
  · rw [Function.update_of_ne hd]
    exact h.locked d

theorem locked_acquired (h : Inv w) {caller : Caller} (hfree : w.lock = none)
    (hcaller : caller.Locked = true) (d : Nat) :
    (Function.update w.callers c caller d).Locked = true ↔ some c = some d := by
  by_cases hd : d = c
  · subst hd
    rw [Function.update_self]
    exact iff_of_true hcaller rfl
  · rw [Function.update_of_ne hd, h.locked d, hfree]
    exact ⟨nofun, fun heq => absurd (Option.some.inj heq).symm hd⟩

theorem locked_released (h : Inv w) {caller : Caller} (hc : (w.callers c).Locked = true)
    (hcaller : caller.Locked = false) (d : Nat) :
    (Function.update w.callers c caller d).Locked = true ↔ none = some d := by
  refine iff_of_false (fun hd => ?_) nofun
  by_cases heq : d = c
  · subst heq
    rw [Function.update_self, hcaller] at hd
    cases hd
  · rw [Function.update_of_ne heq] at hd
    exact heq (h.eq_of_locked hd hc)

/-- A command with the lock takes its next step. -/
theorem next (h : Inv w) {caller : Caller} (hc : (w.callers c).Locked = true)
    (hcaller : caller.Locked = true) (hstarting : caller.Starting = true → ∀ i, ¬ w.Live i)
    (hflagged : caller.Flagged = true → w.shared.running = true)
    (hkeeping : ∀ i, caller ≠ .keepHandle i) (htaking : caller ≠ .takeHandle)
    (hkept : ∀ i, w.callers c ≠ .keepHandle i) : Inv (w.setCaller c caller) :=
  h.move (h.locked_stays hc hcaller) hstarting hflagged hkeeping (fun heq => absurd heq htaking)
    fun i heq => absurd heq (hkept i)

/-- A command returns. -/
theorem finish (h : Inv w) {result : Except String Unit} (hc : (w.callers c).Locked = true)
    (hkept : ∀ i, w.callers c = .keepHandle i → w.Live i → w.handle = some i) :
    Inv (w.finish c result) :=
  h.move (h.locked_released hc rfl) nofun nofun nofun nofun hkept

/-! ### Steps of threads -/

theorem moved (h : Inv w) {i : Nat} {thread thread' : SamplerThread} {shared' : Shared Network}
    (hthread : w.threads i = some thread) (hpc : thread.pc ≠ .gone)
    (hrunning : shared'.running = w.shared.running) (hstopped : thread'.stopped = thread.stopped)
    (hmoves : Moves w.shared shared' thread thread') :
    Inv { w.setThread i thread' with shared := shared' } := by
  have hlive : w.Live i := ⟨thread, hthread, hpc⟩
  -- A thread of the new state is the one that moved, or as before.
  have hcases : ∀ j other, Function.update w.threads i (some thread') j = some other →
      j = i ∧ other = thread' ∨ j ≠ i ∧ w.threads j = some other := by
    intro j other hother
    by_cases hj : j = i
    · rw [hj, Function.update_self] at hother
      exact .inl ⟨hj, (Option.some.inj hother).symm⟩
    · rw [Function.update_of_ne hj] at hother
      exact .inr ⟨hj, hother⟩
  have hwas : ∀ j other, Function.update w.threads i (some thread') j = some other →
      other.pc ≠ .gone → w.Live j := by
    intro j other hother hpc'
    obtain ⟨rfl, -⟩ | ⟨-, hother⟩ := hcases j other hother
    · exact hlive
    · exact ⟨other, hother, hpc'⟩
  constructor
  · exact h.locked
  · intro j other hother
    obtain ⟨rfl, -⟩ | ⟨-, hother⟩ := hcases j other hother
    · exact h.numbered j thread hthread
    · exact h.numbered j other hother
  · rintro j ⟨other, hother, hpc'⟩
    exact h.latest j (hwas j other hother hpc')
  · intro j other hother hpc' hnot
    rw [hrunning]
    obtain ⟨rfl, rfl⟩ | ⟨-, hother⟩ := hcases j other hother
    · exact h.kept j thread hthread hpc (hstopped ▸ hnot)
    · exact h.kept j other hother hpc' hnot
  · intro j other hother hpc' hyes
    rw [hrunning]
    obtain ⟨rfl, rfl⟩ | ⟨-, hother⟩ := hcases j other hother
    · exact h.stopping j thread hthread hpc (hstopped ▸ hyes)
    · exact h.stopping j other hother hpc' hyes
  · exact fun d hd => absurd hlive (h.starting d hd i)
  · intro d hd
    rw [hrunning]
    exact h.flagged d hd
  · exact h.keeping
  · intro d hd j other hother hpc'
    obtain ⟨rfl, rfl⟩ | ⟨-, hother⟩ := hcases j other hother
    · exact hstopped.trans (h.taking d hd j thread hthread hpc)
    · exact h.taking d hd j other hother hpc'
  · intro j other hother hend
    obtain ⟨rfl, rfl⟩ | ⟨-, hother⟩ := hcases j other hother
    · rw [hstopped]
      cases hmoves with
      | announces _ pc' _ =>
          rw [pc'] at hend
          exact absurd hend (by simp)
      | ends pc _ _ => exact h.leaving j thread hthread (.inl pc)
      | goesOn _ pc' leaves _ =>
          -- It leaves because the flag is false, so it was stopped.
          have hfalse := leaves (hend.resolve_right pc'.2)
          by_contra hnot
          have htrue := (h.kept j thread hthread hpc (Bool.eq_false_iff.mpr hnot)).1
          exact absurd (hfalse.symm.trans htrue) (by decide)
    · exact h.leaving j other hother hend
  · have hself : Function.update w.threads i (some thread') i = some thread' :=
      Function.update_self ..
    cases hmoves with
    | announces pc pc' stats =>
        refine iff_of_true stats ⟨i, thread', hself, ?_⟩
        rw [pc']
        exact ⟨nofun, nofun⟩
    | ends pc pc' stats =>
        show shared'.stats.running = true ↔ _
        rw [stats]
        refine iff_of_false nofun ?_
        rintro ⟨j, other, hother, -, hgone⟩
        obtain ⟨-, rfl⟩ | ⟨hj, hother⟩ := hcases j other hother
        · exact hgone pc'
        · exact hj (h.live_unique ⟨other, hother, hgone⟩ hlive)
    | goesOn pc pc' leaves stats =>
        show shared'.stats.running = true ↔ _
        rw [stats]
        exact iff_of_true (h.announced.mpr ⟨i, thread, hthread, pc, hpc⟩) ⟨i, thread', hself, pc'⟩

/-! ### Steps of start and stop -/

/-- A start starts its thread. -/
theorem spawned (h : Inv w) (hc : w.callers c = .spawning) :
    Inv (w.spawn.setCaller c (.keepHandle w.started)) := by
  have hnone : ∀ i, ¬ w.Live i := h.starting c (by rw [hc]; rfl)
  have hlocked : (w.callers c).Locked = true := by rw [hc]; rfl
  have hrunning : w.shared.running = true := h.flagged c (by rw [hc]; rfl)
  have hcases : ∀ j other, Function.update w.threads w.started
      (some ⟨.spawned, .empty, false, false⟩) j = some other →
      j = w.started ∧ other = ⟨.spawned, .empty, false, false⟩ ∨ w.threads j = some other := by
    intro j other hother
    by_cases hj : j = w.started
    · rw [hj, Function.update_self] at hother
      exact .inl ⟨hj, (Option.some.inj hother).symm⟩
    · rw [Function.update_of_ne hj] at hother
      exact .inr hother
  -- Only the new thread is left.
  have hnew : ∀ j other, Function.update w.threads w.started
      (some ⟨.spawned, .empty, false, false⟩) j = some other → other.pc ≠ .gone →
      j = w.started ∧ other = ⟨.spawned, .empty, false, false⟩ := by
    intro j other hother hpc
    exact (hcases j other hother).resolve_right fun hold => hnone j ⟨other, hold, hpc⟩
  have hothers : ∀ d, d ≠ c → (w.callers d).Locked = false := by
    intro d hd
    by_contra hlocked'
    exact hd (h.eq_of_locked (Bool.eq_true_of_not_eq_false hlocked') hlocked)
  have hcaller : ∀ d, d ≠ c → Function.update w.callers c (.keepHandle w.started) d = w.callers d :=
    fun d hd => Function.update_of_ne hd ..
  have hself : Function.update w.callers c (.keepHandle w.started) c = .keepHandle w.started :=
    Function.update_self ..
  constructor
  · exact h.locked_stays hlocked rfl
  · intro j other hother
    obtain ⟨rfl, -⟩ | hold := hcases j other hother
    · exact Nat.lt_succ_self _
    · exact Nat.lt_succ_of_lt (h.numbered j other hold)
  · rintro j ⟨other, hother, hpc⟩
    exact congrArg Nat.succ (hnew j other hother hpc).1
  · intro j other hother hpc _
    obtain ⟨rfl, -⟩ := hnew j other hother hpc
    exact ⟨hrunning, .inr ⟨c, hself⟩⟩
  · intro j other hother hpc hstopped
    obtain ⟨-, rfl⟩ := hnew j other hother hpc
    cases hstopped
  · intro d hd
    by_cases hdc : d = c
    · rw [hdc] at hd
      cases (congrArg Caller.Starting hself).symm.trans hd
    · have hd' := Caller.locked_of_starting ((congrArg Caller.Starting (hcaller d hdc)).symm.trans hd)
      cases (hothers d hdc).symm.trans hd'
  · exact fun _ _ => hrunning
  · intro d i hd
    by_cases hdc : d = c
    · rw [hdc] at hd
      cases hself.symm.trans hd
      rfl
    · have hd' := (hcaller d hdc).symm.trans hd
      have hfree := hothers d hdc
      rw [hd'] at hfree
      cases hfree
  · intro d hd
    by_cases hdc : d = c
    · rw [hdc] at hd
      cases hself.symm.trans hd
    · have hd' := (hcaller d hdc).symm.trans hd
      have hfree := hothers d hdc
      rw [hd'] at hfree
      cases hfree
  · intro j other hother hend
    obtain ⟨-, rfl⟩ | hold := hcases j other hother
    · exact absurd hend (by simp)
    · exact h.leaving j other hold hend
  · refine iff_of_false (fun hstats => ?_) ?_
    · obtain ⟨i, thread, hthread, -, hpc⟩ := h.announced.mp hstats
      exact hnone i ⟨thread, hthread, hpc⟩
    · rintro ⟨j, other, hother, hspawned, hpc⟩
      obtain ⟨-, rfl⟩ := hnew j other hother hpc
      exact hspawned rfl

/-- A start keeps the handle of its thread. -/
theorem handleKept (h : Inv w) {i : Nat} (hc : w.callers c = .keepHandle i) :
    Inv ({ w with handle := some i }.finish c (.ok ())) := by
  have hset : Inv { w with handle := some i } := by
    refine ⟨h.locked, h.numbered, h.latest, ?_, h.stopping, h.starting, h.flagged, h.keeping,
      h.taking, h.leaving, h.announced⟩
    intro j thread hthread hpc hstopped
    have hj : j = i :=
      Nat.succ_injective ((h.latest j ⟨thread, hthread, hpc⟩).trans (h.keeping c i hc).symm)
    exact ⟨(h.kept j thread hthread hpc hstopped).1, .inl (congrArg some hj.symm)⟩
  refine hset.finish (by rw [hc]; rfl) fun j hj _ => ?_
  cases hc.symm.trans hj
  rfl

/-- A stop clears the flag, and the thread that it is for is stopped. -/
theorem stopRequested (h : Inv w) (hc : w.callers c = .clearRunning) :
    Inv (w.requestStop.setCaller c .takeHandle) := by
  have hlocked : (w.callers c).Locked = true := by rw [hc]; rfl
  have hcases : ∀ j other, w.requestStop.threads j = some other → ∃ thread,
      w.threads j = some thread ∧ thread.pc = other.pc ∧
        (thread.stopped = true → other.stopped = true) ∧
        (w.handle = some j → other.stopped = true) := by
    intro j other hother
    by_cases hj : w.handle = some j
    · obtain ⟨thread, hthread, rfl⟩ := Option.map_eq_some_iff.mp ((if_pos hj).symm.trans hother)
      exact ⟨thread, hthread, rfl, fun _ => rfl, fun _ => rfl⟩
    · exact ⟨other, (if_neg hj).symm.trans hother, rfl, id, fun heq => absurd heq hj⟩
  have hstopped : ∀ j other, w.requestStop.threads j = some other → other.pc ≠ .gone →
      other.stopped = true := by
    intro j other hother hpc
    obtain ⟨thread, hthread, hsame, hstays, hhandle⟩ := hcases j other hother
    cases hthread' : thread.stopped with
    | true => exact hstays hthread'
    | false =>
        obtain hkept | ⟨d, hd⟩ := (h.kept j thread hthread (hsame ▸ hpc) hthread').2
        · exact hhandle hkept
        · -- The handle is kept under the lock, which this stop has.
          cases h.eq_of_locked hlocked (by rw [hd]; rfl : (w.callers d).Locked = true)
          cases hc.symm.trans hd
  have hlive : ∀ j, w.requestStop.Live j → w.Live j := by
    rintro j ⟨other, hother, hpc⟩
    obtain ⟨thread, hthread, hsame, -, -⟩ := hcases j other hother
    exact ⟨thread, hthread, hsame ▸ hpc⟩
  have hset : Inv w.requestStop := by
    refine ⟨h.locked, ?_, fun j hj => h.latest j (hlive j hj), ?_, fun _ _ _ _ _ => rfl,
      fun d hd j hj => h.starting d hd j (hlive j hj), ?_, h.keeping, ?_, ?_, ?_⟩
    · intro j other hother
      obtain ⟨thread, hthread, -⟩ := hcases j other hother
      exact h.numbered j thread hthread
    · intro j other hother hpc hnot
      rw [hstopped j other hother hpc] at hnot
      cases hnot
    · intro d hd
      cases h.eq_of_locked hlocked (Caller.locked_of_flagged hd)
      cases (congrArg Caller.Flagged hc).symm.trans hd
    · exact fun _ _ => hstopped
    · intro j other hother hend
      obtain ⟨thread, hthread, hsame, hstays, -⟩ := hcases j other hother
      exact hstays (h.leaving j thread hthread (hsame ▸ hend))
    · refine h.announced.trans ⟨?_, ?_⟩
      · rintro ⟨j, thread, hthread, hspawned, hpc⟩
        by_cases hj : w.handle = some j
        · exact ⟨j, _, (if_pos hj).trans (congrArg _ hthread), hspawned, hpc⟩
        · exact ⟨j, thread, (if_neg hj).trans hthread, hspawned, hpc⟩
      · rintro ⟨j, other, hother, hspawned, hpc⟩
        obtain ⟨thread, hthread, hsame, -, -⟩ := hcases j other hother
        exact ⟨j, thread, hthread, hsame ▸ hspawned, hsame ▸ hpc⟩
  refine hset.move (hset.locked_stays hlocked rfl) nofun nofun nofun (fun _ => hstopped) fun i hi => ?_
  cases hc.symm.trans hi

/-- A stop takes the handle and lets go of the lock. -/
theorem handleTaken (h : Inv w) (hc : w.callers c = .takeHandle) (i : Nat) :
    Inv { w.setCaller c (.joining i) with handle := none, lock := none } := by
  have hset : Inv { w with handle := none } := by
    refine ⟨h.locked, h.numbered, h.latest, ?_, h.stopping, h.starting, h.flagged, h.keeping,
      h.taking, h.leaving, h.announced⟩
    intro j thread hthread hpc hstopped
    rw [h.taking c hc j thread hthread hpc] at hstopped
    cases hstopped
  refine hset.move (hset.locked_released (by rw [hc]; rfl) rfl) nofun nofun nofun nofun fun j hj => ?_
  cases hc.symm.trans hj

/-- A command outside the lock goes on outside it. -/
theorem outside (h : Inv w) {caller : Caller} (hc : (w.callers c).Locked = false)
    (hcaller : caller.Locked = false) : Inv (w.setCaller c caller) := by
  refine h.move (h.locked_outside hc hcaller) ?_ ?_ ?_ ?_ ?_
  · intro hstarting
    cases hcaller.symm.trans (Caller.locked_of_starting hstarting)
  · intro hflagged
    cases hcaller.symm.trans (Caller.locked_of_flagged hflagged)
  · rintro i rfl
    cases hcaller
  · rintro rfl
    cases hcaller
  · intro i hi
    rw [hi] at hc
    cases hc

/-- What a step of a caller keeps, if a start goes on only without other threads. -/
theorem stepCaller (h : Inv w) {w' : Sampling Network} {spawnError : Option String}
    (halone : w.callers c = .loadRunning → w.shared.running = false → ∀ i, ¬ w.Live i)
    (hstep : w.stepCaller c spawnError = some w') : Inv w' := by
  have hnext : ∀ {v : Sampling Network}, Inv v → v.callers = w.callers → ∀ {caller : Caller},
      (w.callers c).Locked = true → caller.Locked = true →
      (caller.Starting = true → ∀ i, ¬ v.Live i) →
      (caller.Flagged = true → v.shared.running = true) → (∀ i, caller ≠ .keepHandle i) →
      caller ≠ .takeHandle → (∀ i, w.callers c ≠ .keepHandle i) → Inv (v.setCaller c caller) := by
    intro v hv hcallers caller hlocked hcaller hstarting hflagged hkeeping htaking hkept
    rw [← hcallers] at hlocked hkept
    exact hv.next hlocked hcaller hstarting hflagged hkeeping htaking hkept
  rw [Sampling.stepCaller.eq_def] at hstep
  cases hc : w.callers c with
  | idle => rw [hc] at hstep; cases hstep
  | returned result => rw [hc] at hstep; cases hstep
  | waiting command =>
      rw [hc] at hstep
      obtain ⟨hfree, heq⟩ := Option.ite_none_right_eq_some.mp hstep
      cases heq
      cases command <;>
        exact h.move (h.locked_acquired hfree rfl) nofun nofun nofun nofun
          fun i hi => nomatch hc.symm.trans hi
  | loadRunning =>
      rw [hc] at hstep
      cases hrunning : w.shared.running with
      | true =>
          rw [hrunning] at hstep
          cases hstep
          exact h.finish (by rw [hc]; rfl) fun i hi => nomatch hc.symm.trans hi
      | false =>
          rw [hrunning] at hstep
          cases hstep
          exact h.next (by rw [hc]; rfl) rfl (fun _ => halone hc hrunning) nofun nofun nofun
            fun i hi => nomatch hc.symm.trans hi
  | storeRunning =>
      rw [hc] at hstep
      cases hstep
      have hnone := h.starting c (by rw [hc]; rfl)
      exact hnext (h.setRunning true hnone fun _ _ => rfl) rfl (by rw [hc]; rfl) rfl
        (fun _ => hnone) (fun _ => rfl) nofun nofun fun i hi => nomatch hc.symm.trans hi
  | storePaused =>
      rw [hc] at hstep
      cases hstep
      exact hnext (h.setShared { w.shared with paused := false } rfl rfl) rfl (by rw [hc]; rfl) rfl
        (fun _ => h.starting c (by rw [hc]; rfl)) (fun _ => h.flagged c (by rw [hc]; rfl)) nofun
        nofun fun i hi => nomatch hc.symm.trans hi
  | storeReset =>
      rw [hc] at hstep
      cases hstep
      exact hnext (h.setShared { w.shared with networkReset := false } rfl rfl) rfl (by rw [hc]; rfl) rfl
        (fun _ => h.starting c (by rw [hc]; rfl)) (fun _ => h.flagged c (by rw [hc]; rfl)) nofun
        nofun fun i hi => nomatch hc.symm.trans hi
  | spawning =>
      rw [hc] at hstep
      cases spawnError with
      | some error =>
          cases hstep
          exact h.next (by rw [hc]; rfl) rfl (fun _ => h.starting c (by rw [hc]; rfl)) nofun nofun
            nofun fun i hi => nomatch hc.symm.trans hi
      | none =>
          cases hstep
          exact h.spawned hc
  | spawnFailed error =>
      rw [hc] at hstep
      cases hstep
      have hlocked : (w.callers c).Locked = true := by rw [hc]; rfl
      have hunset : Inv (w.setRunning false) := by
        refine h.setRunning false (h.starting c (by rw [hc]; rfl)) fun d hd => ?_
        cases h.eq_of_locked hlocked (Caller.locked_of_flagged hd)
        cases (congrArg Caller.Flagged hc).symm.trans hd
      exact hunset.finish hlocked fun i hi => nomatch hc.symm.trans hi
  | keepHandle i =>
      rw [hc] at hstep
      cases hstep
      exact h.handleKept hc
  | clearRunning =>
      rw [hc] at hstep
      cases hstep
      exact h.stopRequested hc
  | takeHandle =>
      rw [hc] at hstep
      cases hhandle : w.handle with
      | some i =>
          rw [hhandle] at hstep
          cases hstep
          exact h.handleTaken hc i
      | none =>
          rw [hhandle] at hstep
          cases hstep
          exact h.finish (by rw [hc]; rfl) fun i hi => nomatch hc.symm.trans hi
  | joining i =>
      rw [hc] at hstep
      have hjoined : some (w.setCaller c (.returned (.ok ()))) = some w' := by
        simp only at hstep
        split at hstep
        · exact hstep
        · cases hstep
      cases hjoined
      exact h.outside (by rw [hc]; rfl) rfl
  | setPause paused =>
      rw [hc] at hstep
      cases hstep
      exact hnext (h.setShared { w.shared with paused := paused } rfl rfl) rfl (by rw [hc]; rfl) rfl nofun nofun nofun nofun
        fun i hi => nomatch hc.symm.trans hi
  | setReset paused =>
      rw [hc] at hstep
      cases hstep
      exact hnext (h.setShared { w.shared with networkReset := true } rfl rfl) rfl (by rw [hc]; rfl) rfl nofun nofun nofun nofun
        fun i hi => nomatch hc.symm.trans hi
  | setStats paused =>
      rw [hc] at hstep
      cases hstep
      exact (h.setShared { w.shared with stats := { w.shared.stats with paused := paused } } rfl rfl).finish (by show (w.callers c).Locked = true; rw [hc]; rfl)
        fun i hi => nomatch hc.symm.trans hi

/-- What a guarded step keeps. -/
theorem step (h : Inv w) {label : SamplingLabel Network} {w' : Sampling Network}
    (halone : StartsAlone w label) (hstep : w.step label = some w') : Inv w' := by
  cases label with
  | call c command =>
      rw [Sampling.step] at hstep
      cases hc : w.callers c <;> rw [hc] at hstep <;> cases hstep
      all_goals exact h.outside (by rw [hc]; rfl) rfl
  | caller c spawnError => exact h.stepCaller halone hstep
  | thread i reading =>
      obtain ⟨thread, hthread, hafter⟩ := Option.bind_eq_some_iff.mp hstep
      obtain ⟨⟨shared', thread'⟩, hmoved, rfl⟩ := Option.map_eq_some_iff.mp hafter
      obtain ⟨hpc, hrunning, hstopped, hmoves⟩ := moves_of_step hmoved
      exact h.moved hthread hpc hrunning hstopped hmoves

theorem oneSampler (h : Inv w) : OneSampler w where
  one i j thread other hi hj hloop hloop' := by
    have hlive : ∀ {pc : SamplerPc}, pc.InLoop = true → pc ≠ .gone := by
      rintro pc hpc rfl
      cases hpc
    exact h.live_unique ⟨thread, hi, hlive hloop⟩ ⟨other, hj, hlive hloop'⟩
  leaves i thread hthread hstopped hcheck reading after hstep := by
    obtain ⟨pc, prev, wasPaused, stopped⟩ := thread
    have hfalse := h.stopping i _ hthread (by rintro rfl; simp at hcheck) hstopped
    obtain rfl | rfl := hcheck <;>
      · cases hstep
        rw [hfalse]
        rfl
  running hstats := by
    obtain ⟨i, thread, hthread, -, hpc⟩ := h.announced.mp hstats
    exact ⟨i, thread, hthread, hpc⟩
  latest i thread _ hthread hspawned hstopped := by
    refine h.announced.mpr ⟨i, thread, hthread, hspawned, fun hgone => ?_⟩
    rw [h.leaving i thread hthread (.inr hgone)] at hstopped
    cases hstopped

end Inv

/-! ## Runs -/

theorem inv_of_run {network : Network} {labels : List (SamplingLabel Network)}
    (h : Run (Guarded StartsAlone (StepsTo step)) (initial network) labels w) : Inv w :=
  h.invariant (fun _ _ _ hinv hstep => hinv.step hstep.1 hstep.2) (inv_initial network)

/-- While each start that goes on finds no thread that has not come to its end, at most one
thread samples, a stopped one leaves, and the statistics say so, in every state reached. -/
theorem one_sampler_of_run {network : Network} {labels : List (SamplingLabel Network)}
    (h : Run (Guarded StartsAlone (StepsTo step)) (initial network) labels w) : OneSampler w :=
  (inv_of_run h).oneSampler

/-! ## A start during a stop -/

def nothingRead : Reading Unit := ⟨false, false, .empty, (), 0⟩

/-- A caller calls a command and takes some steps of it. -/
def calling (c : Nat) (command : Command) (steps : Nat) : List (SamplingLabel Unit) :=
  .call c command :: List.replicate steps (.caller c none)

def running (i steps : Nat) : List (SamplingLabel Unit) :=
  List.replicate steps (.thread i nothingRead)

/-- A first start goes on alone. -/
theorem one_sampler_of_run_start :
    ∃ w, Run (Guarded StartsAlone (StepsTo step)) (initial ()) (calling 0 .start 3) w ∧
      OneSampler w := by
  have hnone : ∀ {w : Sampling Unit} {label}, w.threads = (fun _ => none) → StartsAlone w label := by
    intro w label hthreads
    have hlive : ∀ i, ¬ w.Live i := by
      rintro i ⟨thread, hthread, -⟩
      rw [hthreads] at hthread
      cases hthread
    cases label with
    | caller c spawnError => exact fun _ _ => hlive
    | call c command => trivial
    | thread i reading => trivial
  have hrun : Run (Guarded StartsAlone (StepsTo step)) (initial ()) (calling 0 .start 3) _ :=
    .cons ⟨hnone rfl, rfl⟩ (.cons ⟨hnone rfl, rfl⟩ (.cons ⟨hnone rfl, rfl⟩
      (.cons ⟨hnone rfl, rfl⟩ (.nil _))))
  exact ⟨_, hrun, one_sampler_of_run hrun⟩

/-- A thread sleeps while it is stopped and another one is started. -/
def startDuringStop : List (SamplingLabel Unit) :=
  calling 0 .start 7 ++ running 0 5 ++ calling 0 .stop 3 ++ calling 1 .start 7 ++ running 1 4 ++
    running 0 2

/-- Two threads sample, and a stopped one goes on. -/
theorem two_samplers_after_start_during_stop :
    ∃ w, Run (StepsTo step) (initial ()) startDuringStop w ∧ ¬ OneSampler w := by
  have hloops : (startDuringStop.foldlM step (initial ())).map (fun w =>
      (w.threads 0).any (fun thread => thread.pc.InLoop) &&
        (w.threads 1).any (fun thread => thread.pc.InLoop)) = some true := by
    decide
  obtain ⟨w, hw, hloops⟩ := Option.map_eq_some_iff.mp hloops
  obtain ⟨hfirst, hsecond⟩ := Bool.and_eq_true_iff.mp hloops
  obtain ⟨thread, hthread, hloop⟩ := (Option.any_eq_true _ _).mp hfirst
  obtain ⟨other, hother, hloop'⟩ := (Option.any_eq_true _ _).mp hsecond
  exact ⟨w, Run.of_foldlM hw, fun hone =>
    absurd (hone.one 0 1 thread other hthread hother hloop hloop') (by decide)⟩

end Sampling

end Useful.Procmon
