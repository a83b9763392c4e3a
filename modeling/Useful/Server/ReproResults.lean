/-
# Recorded reproducibility results

RunScan, Approve and Withdraw read a whole row of an artifact, change a few fields and
write the whole row back. A result that was recorded in between is written over. Every
other step leaves the recorded results as they are, so a result survives as long as no row
is written back that was read before it was recorded.
-/

import Useful.Server.PublishedBytes
import Useful.Server.ServiceSteps

namespace Useful.Server.Repro

open Useful.Math

variable {β : Type} {env : External β} {config : Config}

deriving instance DecidableEq for ReproResult

/-- The result in a row. -/
def resultOf (art : Artifact) : ReproResult := ⟨art.reproStatus, art.reproStrategy⟩

/-- The result in the row of an artifact. -/
def result (w : World β) (id : String) : Option ReproResult :=
  (w.artifacts.find id).map resultOf

/-! ## Steps and results -/

/-- No result that is there changes. -/
def Neutral (effect : Reply ServerError → World β → World β) : Prop :=
  ∀ reply w id res, result w id = some res → result (effect reply w) id = some res

/-- A step of an operation: it leaves the results alone or writes a whole row, and the one
that records a result writes this result. -/
def Kind (own : Option (String × ReproResult))
    (effect : Reply ServerError → World β → World β) : Prop :=
  Neutral effect ∨ ∃ art, effect = Task.effect (updateArtifact art) ∧
    ∀ id res, own = some (id, res) → art.id = id ∧ resultOf art = res

/-- Every step of the work is of this kind. -/
def Orderly {α : Type} (own : Option (String × ReproResult)) (work : Work β α) : Prop :=
  work.Takes (Kind own) fun _ => True

section

variable {α : Type} {own : Option (String × ReproResult)}
  {effect : Reply ServerError → World β → World β}

end

/-! ## Runs -/

/-- The service, the operations started so far, and the last result recorded for each
artifact. -/
structure Watched (β : Type) where
  sys : System (Label β) (World β) ServerError
  ops : List (Operation β)
  recorded : String → Option ReproResult

/-- Before the first operation. -/
def Watched.start (w : World β) : Watched β := ⟨⟨w, []⟩, [], fun _ => none⟩

/-- The next step of a task writes a row. -/
def Rewrites (task : Work β Unit) (art : Artifact) : Prop :=
  match task with
  | .act _ effect _ => effect = Task.effect (updateArtifact art)
  | .done _ => False

/-- The next event is a step of this operation that writes a row. -/
structure Writes (w : Watched β) (event : SystemEvent ServerError (Operation β)) (op : Operation β)
    (art : Artifact) : Prop where
  step : ∃ i reply task, event = .step i reply ∧ (∀ e, reply ≠ .refuse e) ∧
    w.sys.tasks[i]? = some task ∧ w.ops[i]? = some op ∧ Rewrites task art
  accepted : (updateArtifact art w.sys.shared).1 = .ok ()

/-- RecordReproVerification stores its result. -/
def Records (w : Watched β) (event : SystemEvent ServerError (Operation β)) (id : String)
    (res : ReproResult) : Prop :=
  ∃ now art, Writes w event (.recordReproVerification id res now) art ∧ art.id = id ∧
    resultOf art = res

/-- A step of the service, with what it records. -/
structure Watch (env : External β) (config : Config) (w : Watched β)
    (event : SystemEvent ServerError (Operation β)) (w' : Watched β) : Prop where
  step : (service env config).Step w.sys event w'.sys
  ops : w'.ops = w.ops ++ event.op?.toList
  records : ∀ id res, Records w event id res → w'.recorded id = some res
  keeps : ∀ id, (∀ res, ¬ Records w event id res) → w'.recorded id = w.recorded id

section

variable {w w' : Watched β} {event : SystemEvent ServerError (Operation β)}

theorem result_updateArtifact {art : Artifact} {s : World β}
    (h : (updateArtifact art s).1 = .ok ()) (id : String) :
    result (updateArtifact art s).2 id = if art.id = id then some (resultOf art)
      else result s id := by
  unfold updateArtifact at h ⊢
  cases hcur : s.artifacts.find art.id with
  | none =>
      rw [hcur] at h
      cases h
  | some cur =>
      rw [hcur] at h
      simp only at h ⊢
      by_cases hallowed : canTransition cur.status art.status = true
      · rw [if_pos hallowed]
        show ((s.artifacts.put art).find id).map resultOf = _
        rw [Table.find_put]
        split
        · rfl
        · rfl
      · rw [if_neg hallowed] at h
        cases h

/-- What a row is after the step that writes it. -/
theorem Writes.result {op : Operation β} {art : Artifact}
    {next : System (Label β) (World β) ServerError} (h : Writes w event op art)
    (hstep : (service env config).Step w.sys event next) (id : String) :
    result next.shared id = if art.id = id then some (resultOf art)
      else result w.sys.shared id := by
  obtain ⟨i, reply, task, rfl, hreply, htask, _, hrewrites⟩ := h.step
  cases hstep with
  | step running =>
      rw [htask] at running
      cases running
      rw [show _ = Task.effect (updateArtifact art) from hrewrites]
      cases reply with
      | refuse e => exact absurd rfl (hreply e)
      | proceed => exact result_updateArtifact h.accepted id
      | lose e => exact result_updateArtifact h.accepted id

theorem Records.result {id : String} {res : ReproResult}
    {next : System (Label β) (World β) ServerError}
    (h : Records w event id res) (hstep : (service env config).Step w.sys event next) :
    result next.shared id = some res := by
  obtain ⟨now, art, hwrites, hid, hres⟩ := h
  rw [hwrites.result hstep id, if_pos hid, hres]

/-- A stale row that is written back loses the result. -/
theorem lost_of_stale {op : Operation β} {art : Artifact} {res : ReproResult}
    (hwrites : Writes w event op art) (hstale : resultOf art ≠ res)
    (hwatch : Watch env config w event w') : result w'.sys.shared art.id ≠ some res := by
  rw [hwrites.result hwatch.step art.id, if_pos rfl]
  exact fun heq => hstale (Option.some.inj heq)

/-! ### Steps that record nothing, and a step that does -/

theorem Records.op {i : Nat} {reply : Reply ServerError} {id : String} {res : ReproResult}
    (h : Records w (.step i reply) id res) :
    ∃ now, w.ops[i]? = some (.recordReproVerification id res now) := by
  obtain ⟨now, art, hwrites, _⟩ := h
  obtain ⟨i', reply', task, heq, _, _, hop, _⟩ := hwrites.step
  cases heq
  exact ⟨now, hop⟩

end

end Useful.Server.Repro

/-! ## A scan around a recording -/

namespace Useful.Server.Repro.Sample

open Useful.Math Useful.Server.Sample

def verified : ReproResult := ⟨"verified", "dual-build"⟩

def scan : Operation Content := .runScan artifactID 1

def record : Operation Content := .recordReproVerification artifactID verified 2

abbrev Sys : Type := System (Label Content) (World Content) ServerError

/-- One undisturbed step of a task. -/
def tick (sys : Sys) (i : Nat) : Sys :=
  match sys.tasks[i]? with
  | some (.act _ effect next) =>
      ⟨effect .proceed sys.shared, sys.tasks.set i (next .proceed sys.shared)⟩
  | _ => sys

def isRunning (sys : Sys) (i : Nat) : Bool :=
  match sys.tasks[i]? with
  | some (.act _ _ _) => true
  | _ => false

/-- Both operations have started, after a release. -/
def loaded : Sys :=
  ⟨released, [startOperation env config 0 scan, startOperation env config 1 record]⟩

/-- The scan has read the row. -/
def scanning : Sys := tick loaded 0

/-- The row has been read again, to record the result. -/
def recording (sys : Sys) : Sys := tick sys 1

def stored (sys : Sys) : Sys := tick (recording sys) 1

/-- Then the scan writes its row. -/
def scannedAt (n : Nat) : Sys := (List.replicate n 0).foldl tick (stored scanning)

/-- The row with the result. -/
def row : Artifact := { artifact with reproStatus := "verified", reproStrategy := "dual-build" }

theorem running : isRunning loaded 0 = true ∧
    (∀ sys ∈ [loaded, scanning], isRunning sys 1 = true ∧ isRunning (recording sys) 1 = true) ∧
      ∀ n < 4, isRunning (scannedAt n) 0 = true := by
  decide

theorem results : (∀ sys ∈ [loaded, scanning],
    result (recording sys).shared artifactID = some ⟨"", ""⟩ ∧
      (updateArtifact row (recording sys).shared).1 = .ok () ∧
        result (stored sys).shared artifactID = some verified) ∧
      result (scannedAt 4).shared artifactID = some ⟨"", ""⟩ := by
  decide

end Useful.Server.Repro.Sample
