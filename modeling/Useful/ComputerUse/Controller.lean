/-
# The computer use controller

`createComputerUseController`: sessions, the operations on them and their closing, as steps
between which everything else may run. A bounded call is a race between an operation and an
abort, by its deadline, from outside or by a close; the loser goes on running. Where an
operation waits is a `Pc`, and what it does when it goes on is `resume`.

A step models what runs between two waits. The provider, the callbacks and the surroundings
choose the label. A call whose checks fail before anything is changed is no step.
-/

import Useful.ComputerUse.Contract
import Useful.Math.Transition

namespace Useful.ComputerUse

open Useful.Math Useful.Math.Js

/-! ## The surroundings -/

/-- The limits of a normalized policy. -/
structure Policy where
  maxSteps : Nat
  stepDeadlineMs : Nat
  totalDeadlineMs : Nat
  maxScreenshotBytes : Nat
  stepDeadlineMs_pos : 1 ≤ stepDeadlineMs
  stepDeadlineMs_le : stepDeadlineMs ≤ totalDeadlineMs

/-- The options of a controller, the check of network evidence under its policy, and the
digest of an action's canonical text. -/
structure Options where
  policy : Policy
  /-- An approval callback is given. -/
  approval : Bool
  /-- An audit callback is given. -/
  audit : Bool
  validateNetworkEvidence : Data → Checked (Option Network)
  digestAction : Data → String

abbrev Handle := Nat

/-- What an awaited call settles with. -/
abbrev Answer := Checked Data

/-! ## Sessions and operations -/

/-- `state` in `createSession`. -/
structure Session where
  sessionId : String
  handle : Handle
  createdAt : Nat
  expiresAt : Nat
  nextStep : Nat
  latestDigest : Option String
  latestDomain : Option String
  usedSteps : List Nat
  /-- `operationPromise`, with its controller. -/
  operation : Option Nat
  generation : Nat
  poisoned : Bool
  commitStarted : Bool
  commitCompleted : Bool
  closePromise : Option Nat
  closing : Bool
  closed : Bool

/-- A running `emit`: without audit sink, with an identifier that is not safe, or waiting for
the sink. -/
inductive Emit
  | skipped
  | failing
  | calling

/-- `emit`, up to its first wait. -/
def Options.emit (options : Options) (eventId : Option String) : Emit :=
  if options.audit then
    if (eventId.map SAFE_ID).getD false then .calling else .failing
  else .skipped

/-- The outcome of `emit`. -/
def Emit.outcome (emit : Emit) (answer : Answer) : Checked Unit :=
  match emit with
  | .skipped => .ok ()
  | .failing => .error (protocolError "eventId must be a safe identifier")
  | .calling => (answer.map fun _ => ()).mapError fun _ => .contract .auditFailed "audit sink failed"

/-- The request that a caller of `execute` hands over. The caller may write to it later. -/
structure Request where
  step : Nat
  observationDigest : String

/-- What a running `execute` holds. -/
structure Execution where
  request : Request
  safeRequest : Request
  action : Data
  modelChecks : List (Option SafetyCheck)

inductive Call
  | observe
  | execute (execution : Execution)

/-- Where an operation waits. -/
inductive Pc
  | queued
  | observing
  | observed (emit : Emit)
  | digesting
  | preparing (actionDigest : String)
  | approving (actionDigest : String) (prepared : Prepared) (approvals : List Approval)
      (pending : List SafetyCheck)
  | authorizing (actionDigest : String) (prepared : Prepared) (approvals : List Approval)
      (emit : Emit)
  | committing (actionDigest : String) (prepared : Prepared) (approvals : List Approval)
  | reporting (emit : Emit)
  | returned
  | threw

/-- The race of `runBounded`, and for a failed operation whether its error was handled. -/
inductive Race
  | running
  | settled (ok : Bool)
  | handled
  deriving DecidableEq

structure Operation where
  session : String
  call : Call
  generation : Nat
  /-- When the timer fires. -/
  deadline : Nat
  aborted : Option ErrorCode
  pc : Pc
  race : Race

/-! ## Creating and closing sessions -/

inductive CreationPc
  | queued
  | creating
  /-- The provider has answered in time. -/
  | created (handle : Option Handle)
  | registered (sessionId : String)
  | auditing (sessionId : String) (emit : Emit)
  | audited (sessionId : String)
  /-- The creation audit has failed or was not started. -/
  | unaudited (sessionId : String)
  | ended

structure Creation where
  createdAt : Nat
  aborted : Bool
  pc : CreationPc

inductive ClosingPc
  | waiting (operation : Option Nat)
  | queued
  | closing
  | closed
  | threw
  | ended

structure Closing where
  session : String
  aborted : Bool
  pc : ClosingPc

/-! ## Events -/

/-- What the provider and the callbacks see, and what happens to sessions. -/
inductive Event
  | createRequested
  | handleResolved (handle : Handle)
  | sessionCreated (session : String) (handle : Handle) (expiresAt : Nat)
  | observeRequested (operation : Nat) (handle : Handle)
  | observationAccepted (session : String) (observationDigest : String)
  | executeCalled (operation : Nat) (session : String) (execution : Execution)
  | prepareRequested (operation : Nat) (handle : Handle) (request : Prepare)
  | prepareAnswered (operation : Nat) (answer : Data)
  | approvalRequested (operation : Nat) (request : ApprovalRequest)
  | approvalAnswered (operation : Nat) (request : ApprovalRequest) (approvalId : String)
  | authorizationAudited (operation : Nat) (actionDigest : String) (prepared : Prepared)
      (approvals : List Approval)
  | commitRequested (operation : Nat) (session : String) (handle : Handle) (now : Nat)
      (request : Commit)
  | closeBegun (session : String)
  | closeRequested (session : String) (handle : Handle)
  | sessionClosed (session : String) (handle : Handle)
  | sessionPoisoned (session : String)

/-- An audit event that has completed, if there is an audit sink. -/
def Emit.audited (emit : Emit) (event : Event) : List Event :=
  match emit with
  | .calling => [event]
  | .skipped | .failing => []

structure World where
  now : Nat
  /-- The records of all sessions, also of those that are no longer in the maps. -/
  states : String → Option Session
  /-- The keys of the map `sessions`, in order. -/
  sessions : List String
  closedSessions : List String
  creations : Nat → Option Creation
  operations : Nat → Option Operation
  closings : Nat → Option Closing
  log : List Event

namespace World

def setState (w : World) (state : Session) : World :=
  { w with states := Function.update w.states state.sessionId (some state) }

def setOperation (w : World) (o : Nat) (op : Operation) : World :=
  { w with operations := Function.update w.operations o (some op) }

def setCreation (w : World) (c : Nat) (creation : Creation) : World :=
  { w with creations := Function.update w.creations c (some creation) }

def setClosing (w : World) (k : Nat) (closing : Closing) : World :=
  { w with closings := Function.update w.closings k (some closing) }

def record (w : World) (events : List Event) : World := { w with log := w.log ++ events }

/-- No session yet. -/
def empty (now : Nat) : World where
  now := now
  states _ := none
  sessions := []
  closedSessions := []
  creations _ := none
  operations _ := none
  closings _ := none
  log := []

end World

/-! ## Checks on a session -/

/-- `remainingTotal(state, now) <= 0` -/
def Session.isExpired (state : Session) (now : Nat) : Bool := state.expiresAt ≤ now

def getSession (w : World) (sessionId : String) : Checked Session := do
  failIf (sessionId ∈ w.closedSessions) (plainError .sessionClosed)
  let state ← orFail (plainError .sessionNotFound)
    (if sessionId ∈ w.sessions then w.states sessionId else none)
  failIf (state.closed ∨ state.closing) (plainError .sessionClosed)
  failIf (state.poisoned = true) (plainError .sessionPoisoned)
  failIf (state.isExpired w.now = true) (plainError .sessionExpired)
  return state

def assertCurrent (state : Session) (op : Operation) : Checked Unit := do
  failIf op.aborted.isSome
    (.contract (op.aborted.getD .cancelled) "operation was aborted")
  failIf (state.generation ≠ op.generation ∨ state.closed ∨ state.closing)
    (plainError .sessionClosed)
  failIf (state.poisoned = true) (plainError .sessionPoisoned)

/-- The deadline of `boundedOptions`: a step's, but not later than the session's. -/
def boundedDeadline (policy : Policy) (state : Session) (now : Nat) : Nat :=
  min state.expiresAt (now + policy.stepDeadlineMs)

/-! ## Calls of `execute` -/

/-- The checks of `execute` before it changes the session. -/
def checkExecute (options : Options) (state : Session) (request : Data) :
    Checked Execution := do
  failIf state.operation.isSome (plainError .concurrentAction)
  assertKnownKeys request ["step", "observationDigest", "action", "safetyChecks"] .actionInvalid
    "execute request"
  let step ← match (request.get "step").integer? with
    | some step => if 1 ≤ step then pure step.toNat else .error (plainError .stepInvalid)
    | none => .error (plainError .stepInvalid)
  failIf (step ∈ state.usedSteps ∨ step < state.nextStep) (plainError .stepReplayed)
  failIf (step ≠ state.nextStep) (.contract .stepInvalid "step must equal nextStep")
  failIf (options.policy.maxSteps < step) (plainError .stepLimitExceeded)
  let latest ← orFail (plainError .observationRequired) state.latestDigest
  let observationDigest ← match request.get "observationDigest" with
    | .str observationDigest =>
        if observationDigest = latest then pure observationDigest
        else .error (plainError .observationStale)
    | _ => .error (plainError .observationStale)
  assertComputerUseAction (request.get "action")
  let modelChecks ← validateSafetyChecks (request.get "safetyChecks") .model
  return ⟨⟨step, observationDigest⟩, ⟨step, observationDigest⟩, request.get "action", modelChecks⟩

/-- What `execute` does to the session before it starts the operation. -/
def Session.consume (state : Session) (execution : Execution) : Session :=
  { state with
    usedSteps := execution.request.step :: state.usedSteps
    latestDigest := none
    commitStarted := false
    commitCompleted := false }

/-! ## Operations that go on -/

/-- The session, where the operation waits next, and what happened. -/
structure Resumed where
  session : Session
  pc : Pc
  events : List Event

section Resume

variable (options : Options) (now o : Nat) (state : Session) (op : Operation) (answer : Answer)
  (eventId : Option String)

/-- `approveChecks` asks for the next check. -/
def approvalRequest (execution : Execution) (actionDigest : String) (prepared : Prepared)
    (check : SafetyCheck) : ApprovalRequest where
  sessionId := state.sessionId
  preparedActionId := prepared.preparedActionId
  step := execution.safeRequest.step
  observationDigest := execution.safeRequest.observationDigest
  actionDigest := actionDigest
  action := execution.action
  domain := state.latestDomain
  safetyCheck := check

def approvalOf (request : ApprovalRequest) (approvalId : String) : Approval where
  safetyCheckId := request.safetyCheck.id
  source := request.safetyCheck.source
  approvalId := approvalId
  preparedActionId := request.preparedActionId
  step := request.step
  observationDigest := request.observationDigest
  actionDigest := request.actionDigest

/-- The operation ends with an error. -/
def Resumed.fail : Resumed := ⟨state, .threw, []⟩

/-- Go on with a checked value, or end with an error. -/
def Resumed.orThrow {α : Type} (x : Checked α) (f : α → Resumed) : Resumed :=
  match x with
  | .ok a => f a
  | .error _ => .fail state

/-- `observe`, after `provider.observe`. -/
def observationArrived : Checked (String × Option Network) := do
  let value ← answer
  assertCurrent state op
  failIf (¬ value.isObject) (protocolError "observationDigest must be lowercase SHA-256 hex")
  let digest ← observationDigestOf value
  let bytes ← screenshotLength (value.get "screenshot")
  failIf (options.policy.maxScreenshotBytes < bytes) (plainError .screenshotTooLarge)
  let network ← options.validateNetworkEvidence value
  assertCurrent state op
  return (digest, network)

/-- Ask for the first of the pending approvals, or wait for `approveChecks` to return. -/
def askApproval (execution : Execution) (actionDigest : String) (prepared : Prepared)
    (approvals : List Approval) (pending : List SafetyCheck) : Resumed where
  session := state
  pc := .approving actionDigest prepared approvals pending
  events := match pending with
    | [] => []
    | check :: _ =>
        [.approvalRequested o (approvalRequest state execution actionDigest prepared check)]

/-- `execute`, after the `prepare` request. -/
def prepareArrived (execution : Execution) : Checked (Data × Prepared) := do
  let value ← answer
  assertCurrent state op
  let prepared ← preparedOf execution.action execution.modelChecks value
  failIf (prepared.checks ≠ [] ∧ options.approval = false)
    (.contract .approvalRequired "an explicit approval callback is required")
  return (value, prepared)

/-- `approveChecks`, after a decision. -/
def decisionArrived : Checked String := do
  let decision ← answer
  assertCurrent state op
  failIf (¬ decision.isObject)
    (.contract .approvalDenied "safety check was not explicitly approved")
  approvalIdOf decision

/-- `execute`, after the `authorization` audit. -/
def authorizationAudited (emit : Emit) : Checked Unit := do
  emit.outcome answer
  assertCurrent state op

/-- `execute`, after the `commit` request was answered. -/
def commitArrived (value : Data) : Checked Unit := do
  assertCurrent state op
  failIf (¬ value.isObject) (protocolError "provider commit response is invalid")
  let _ ← resultCodeOf value
  let _ ← options.validateNetworkEvidence value
  return ()

def commitOf (execution : Execution) (actionDigest : String) (prepared : Prepared)
    (approvals : List Approval) : Commit where
  preparedActionId := prepared.preparedActionId
  step := execution.request.step
  observationDigest := execution.request.observationDigest
  actionDigest := actionDigest
  action := execution.action
  approvals := approvals

/-- What `observe` does when it goes on. -/
def resumeObserve : Pc → Option Resumed
  | .observing => some <| .orThrow state (observationArrived options state op answer) fun value =>
      { session := { state with
          latestDigest := some value.1
          latestDomain := value.2.map Network.domain }
        pc := .observed (options.emit eventId)
        events := [.observationAccepted state.sessionId value.1] }
  | .observed emit => some <|
      match emit.outcome answer with
      | .error _ => .fail { state with latestDigest := none, latestDomain := none }
      | .ok _ => .orThrow state (assertCurrent state op) fun _ => ⟨state, .returned, []⟩
  | _ => none

/-- What `execute` does when it goes on. -/
def resumeExecute (execution : Execution) : Pc → Option Resumed
  | .digesting => some <|
      .orThrow state (answer >>= fun _ => assertCurrent state op) fun _ =>
        { session := state
          pc := .preparing (options.digestAction execution.action)
          events := [.prepareRequested o state.handle
            ⟨execution.request.step, execution.request.observationDigest, execution.action⟩] }
  | .preparing actionDigest => some <|
      .orThrow state (prepareArrived options state op answer execution) fun value =>
        let asked := askApproval o state execution actionDigest value.2 [] value.2.checks
        { asked with events := .prepareAnswered o value.1 :: asked.events }
  | .approving actionDigest prepared approvals [] => some <|
      .orThrow state (assertCurrent state op) fun _ =>
        ⟨state, .authorizing actionDigest prepared approvals (options.emit eventId), []⟩
  | .approving actionDigest prepared approvals (check :: pending) => some <|
      .orThrow state (decisionArrived state op answer) fun approvalId =>
        let request := approvalRequest state execution actionDigest prepared check
        let asked := askApproval o state execution actionDigest prepared
          (approvals ++ [approvalOf request approvalId]) pending
        { asked with events := .approvalAnswered o request approvalId :: asked.events }
  | .authorizing actionDigest prepared approvals emit => some <|
      .orThrow state (authorizationAudited state op answer emit) fun _ =>
        { session := { state with commitStarted := true }
          pc := .committing actionDigest prepared approvals
          events := emit.audited (.authorizationAudited o actionDigest prepared approvals) ++
            [.commitRequested o state.sessionId state.handle now
              (commitOf execution actionDigest prepared approvals)] }
  | .committing _ _ _ => some <|
      .orThrow state answer fun value =>
        .orThrow { state with commitCompleted := true }
          (commitArrived options { state with commitCompleted := true } op value) fun _ =>
            ⟨{ state with commitCompleted := true }, .reporting (options.emit eventId), []⟩
  | .reporting emit => some <|
      .orThrow state (emit.outcome answer >>= fun _ => assertCurrent state op) fun _ =>
        ⟨{ state with commitStarted := false, commitCompleted := false }, .returned, []⟩
  | _ => none

/-- What an operation does when it goes on. -/
def resume : Option Resumed :=
  match op.call with
  | .observe => resumeObserve options state op answer eventId op.pc
  | .execute execution => resumeExecute options now o state op answer eventId execution op.pc

end Resume

/-! ## Closing -/

/-- The controller of an operation is aborted, which the listener of a running race sees. -/
def abortOperation (w : World) (o : Nat) (reason : ErrorCode) : World :=
  match w.operations o with
  | some op =>
      if op.race = .running ∧ op.aborted = none
      then w.setOperation o { op with aborted := some reason } else w
  | none => w

/-- `close`, up to its first wait: a session that is not in the map, or is being closed, is left
as it is. -/
def beginClose (w : World) (sessionId : String) (k : Nat) : World :=
  match w.states sessionId with
  | none => w
  | some state =>
      if sessionId ∉ w.sessions ∨ state.closePromise.isSome then w
      else
        let aborted := match state.operation with
          | some o => abortOperation w o .sessionClosed
          | none => w
        let fenced := aborted.setState { state with
          closing := true
          generation := state.generation + 1
          closePromise := some k }
        (fenced.setClosing k ⟨sessionId, false, .waiting state.operation⟩).record
          [.closeBegun sessionId]

/-- A session is marked as poisoned. -/
def poison (w : World) (sessionId : String) : World :=
  match w.states sessionId with
  | none => w
  | some state => (w.setState { state with poisoned := true }).record [.sessionPoisoned sessionId]

/-- The sessions that `reap` closes, one after the other. -/
def reapCandidates (w : World) : List String :=
  w.sessions.filter fun sessionId =>
    match w.states sessionId with
    | some state => state.poisoned || state.isExpired w.now
    | none => false

/-! ## Creating -/

/-- The record of a new session. -/
def newSession (options : Options) (sessionId : String) (handle : Handle) (createdAt : Nat) :
    Session where
  sessionId := sessionId
  handle := handle
  createdAt := createdAt
  expiresAt := createdAt + options.policy.totalDeadlineMs
  nextStep := 1
  latestDigest := none
  latestDomain := none
  usedSteps := []
  operation := none
  generation := 1
  poisoned := false
  commitStarted := false
  commitCompleted := false
  closePromise := none
  closing := false
  closed := false

/-- The identifiers that `createSession` takes for a new session. -/
def World.takes (w : World) (sessionId : String) : Prop :=
  SAFE_ID sessionId = true ∧ sessionId ∉ w.sessions ∧ sessionId ∉ w.closedSessions

/-- A new session is put into the map, and its creation is to be audited. -/
def registerSession (options : Options) (w : World) (c : Nat) (createdAt : Nat)
    (sessionId : String) (handle : Handle) (cancelled : Bool) : World :=
  let state := newSession options sessionId handle createdAt
  let registered : World := { w.setState state with sessions := w.sessions ++ [sessionId] }
  let pc := if state.isExpired w.now ∨ cancelled then .unaudited sessionId else .registered sessionId
  (registered.setCreation c ⟨createdAt, false, pc⟩).record
    [.sessionCreated sessionId handle state.expiresAt]

/-! ## Steps -/

/-- Who goes on, and with what. -/
inductive Label
  | tick (ms : Nat)
  | create (c : Nat)
  | creationStarted (c : Nat)
  | creationAnswered (c : Nat) (answer : Checked (Option Handle))
  | creationAborted (c : Nat)
  | creationTaken (c : Nat) (id : Option String) (cancelled : Bool)
  | creationLost (c : Nat)
  | creationAuditStarted (c : Nat) (eventId : Option String)
  | creationAuditAnswered (c : Nat) (answer : Answer)
  | creationReturned (c : Nat)
  | creationDismissed (c k : Nat)
  | observe (s : String) (o : Nat)
  | execute (s : String) (o : Nat) (request : Data)
  | executeLate (s : String) (request : Data) (ms : Nat)
  | started (o : Nat)
  | resumed (o : Nat) (answer : Answer) (eventId : Option String)
  | aborted (o : Nat) (reason : ErrorCode)
  | settled (o : Nat) (ok : Bool)
  | errorHandled (o k : Nat)
  | requestWritten (o : Nat) (request : Request)
  | close (s : String) (k : Nat)
  | closeProceeded (k : Nat) (cancelled : Bool)
  | closeStarted (k : Nat)
  | closeAnswered (k : Nat) (ok : Bool)
  | closeAborted (k : Nat)
  | closeSucceeded (k : Nat)
  | closeFailed (k : Nat)

/-- A creation whose race may still be decided by an abort. -/
def Creation.IsBounded (creation : Creation) : Prop :=
  match creation.pc with
  | .queued | .creating | .created _ | .registered _ | .auditing _ _ | .audited _ => True
  | .unaudited _ | .ended => False

/-- The creation audit of a session has failed, or lost its race. -/
def Creation.Unaudited (creation : Creation) (sessionId : String) : Prop :=
  match creation.pc with
  | .unaudited s => s = sessionId
  | .auditing s _ | .audited s => s = sessionId ∧ creation.aborted = true
  | _ => False

/-- A closing whose race may still be decided by an abort. -/
def Closing.IsBounded (closing : Closing) : Prop :=
  match closing.pc with
  | .queued | .closing | .closed => True
  | .waiting _ | .threw | .ended => False

/-- A closing that has failed, or lost its race. -/
def Closing.Failed (closing : Closing) : Prop :=
  match closing.pc with
  | .threw => True
  | .closing | .closed => closing.aborted = true
  | .waiting _ | .queued | .ended => False

/-- An operation may settle with the error of its race, or with its own outcome. -/
def Operation.Settles (op : Operation) (ok : Bool) : Prop :=
  match op.pc with
  | .queued => False
  | .returned => ok = true ∨ op.aborted.isSome = true
  | .threw => ok = false
  | _ => ok = false ∧ op.aborted.isSome = true

/-- A new operation takes the slot of its session. -/
def startOperation (options : Options) (w : World) (state : Session) (o : Nat) (call : Call) :
    World :=
  (w.setState { state with operation := some o }).setOperation o
    { session := state.sessionId
      call := call
      generation := state.generation
      deadline := boundedDeadline options.policy state w.now
      aborted := none
      pc := .queued
      race := .running }

/-- What a settled operation leaves: `onFinally`, and an empty slot. -/
def Session.settle (state : Session) (o : Nat) (call : Call) : Session :=
  { state with
    nextStep := match call with
      | .observe => state.nextStep
      | .execute execution => max state.nextStep (execution.request.step + 1)
    operation := if state.operation = some o then none else state.operation }

inductive Step (options : Options) : World → Label → World → Prop
  | tick (w : World) (ms : Nat) : Step options w (.tick ms) { w with now := w.now + ms }
  | create {w : World} {c : Nat} (fresh : w.creations c = none) :
      Step options w (.create c) (w.setCreation c ⟨w.now, false, .queued⟩)
  | creationStarted {w : World} {c : Nat} {creation : Creation}
      (found : w.creations c = some creation) (pc : creation.pc = .queued) :
      Step options w (.creationStarted c)
        ((w.setCreation c { creation with pc := .creating }).record [.createRequested])
  | creationRejected {w : World} {c : Nat} {creation : Creation} {error : Thrown}
      (found : w.creations c = some creation) (pc : creation.pc = .creating) :
      Step options w (.creationAnswered c (.error error))
        (w.setCreation c { creation with pc := .ended })
  | creationAnswered {w : World} {c : Nat} {creation : Creation} {handle : Option Handle}
      (found : w.creations c = some creation) (pc : creation.pc = .creating) :
      Step options w (.creationAnswered c (.ok handle))
        ((w.setCreation c { creation with
          pc := if creation.aborted then .ended else .created handle }).record
            (handle.toList.map .handleResolved))
  | creationAborted {w : World} {c : Nat} {creation : Creation}
      (found : w.creations c = some creation) (bounded : creation.IsBounded) :
      Step options w (.creationAborted c) (w.setCreation c { creation with aborted := true })
  | creationEmpty {w : World} {c : Nat} {creation : Creation} {id : Option String}
      {cancelled : Bool} (found : w.creations c = some creation)
      (pc : creation.pc = .created none) :
      Step options w (.creationTaken c id cancelled) (w.setCreation c { creation with pc := .ended })
  | creationMisnamed {w : World} {c : Nat} {creation : Creation} {handle : Handle}
      {id : Option String} {cancelled : Bool} (found : w.creations c = some creation)
      (pc : creation.pc = .created (some handle)) (rejected : ∀ s, id = some s → ¬ w.takes s) :
      Step options w (.creationTaken c id cancelled) (w.setCreation c { creation with pc := .ended })
  | creationTaken {w : World} {c : Nat} {creation : Creation} {handle : Handle} {s : String}
      {cancelled : Bool} (found : w.creations c = some creation)
      (pc : creation.pc = .created (some handle)) (taken : w.takes s) :
      Step options w (.creationTaken c (some s) cancelled)
        (registerSession options w c creation.createdAt s handle cancelled)
  | creationLost {w : World} {c : Nat} {creation : Creation} {handle : Option Handle}
      (found : w.creations c = some creation) (pc : creation.pc = .created handle)
      (aborted : creation.aborted = true) :
      Step options w (.creationLost c) (w.setCreation c { creation with pc := .ended })
  | creationAuditStarted {w : World} {c : Nat} {creation : Creation} {s : String}
      {eventId : Option String} (found : w.creations c = some creation)
      (pc : creation.pc = .registered s) :
      Step options w (.creationAuditStarted c eventId)
        (w.setCreation c { creation with pc := .auditing s (options.emit eventId) })
  | creationAuditAnswered {w : World} {c : Nat} {creation : Creation} {s : String} {emit : Emit}
      {answer : Answer} (found : w.creations c = some creation)
      (pc : creation.pc = .auditing s emit) :
      Step options w (.creationAuditAnswered c answer)
        (w.setCreation c { creation with
          pc := if creation.aborted = false ∧ (emit.outcome answer).isOk then .audited s
            else .unaudited s })
  | creationReturned {w : World} {c : Nat} {creation : Creation} {s : String}
      (found : w.creations c = some creation) (pc : creation.pc = .audited s) :
      Step options w (.creationReturned c) (w.setCreation c { creation with pc := .ended })
  | creationDismissed {w : World} {c k : Nat} {creation : Creation} {s : String}
      (found : w.creations c = some creation) (unaudited : creation.Unaudited s)
      (fresh : w.closings k = none) :
      Step options w (.creationDismissed c k)
        (beginClose (poison (w.setCreation c { creation with pc := .ended }) s) s k)
  | observe {w : World} {s : String} {o : Nat} {state : Session} (fresh : w.operations o = none)
      (found : getSession w s = .ok state) (free : state.operation = none) :
      Step options w (.observe s o) (startOperation options w state o .observe)
  | execute {w : World} {s : String} {o : Nat} {state : Session} {request : Data}
      {execution : Execution} (fresh : w.operations o = none) (found : getSession w s = .ok state)
      (checked : checkExecute options state request = .ok execution) :
      Step options w (.execute s o request)
        ((startOperation options w (state.consume execution) o (.execute execution)).record
          [.executeCalled o s execution])
  /-- Time passes during the call, and `startOperation` throws. -/
  | executeLate {w : World} {s : String} {state : Session} {request : Data} {ms : Nat}
      {execution : Execution} (found : getSession w s = .ok state)
      (checked : checkExecute options state request = .ok execution)
      (expired : state.isExpired (w.now + ms) = true) :
      Step options w (.executeLate s request ms)
        { w.setState (state.consume execution) with now := w.now + ms }
  | observeStarted {w : World} {o : Nat} {op : Operation} {state : Session}
      (found : w.operations o = some op) (pc : op.pc = .queued) (call : op.call = .observe)
      (session : w.states op.session = some state) :
      Step options w (.started o)
        ((w.setOperation o { op with pc := .observing }).record
          [.observeRequested o state.handle])
  | executeStarted {w : World} {o : Nat} {op : Operation} {execution : Execution}
      (found : w.operations o = some op) (pc : op.pc = .queued)
      (call : op.call = .execute execution) :
      Step options w (.started o) (w.setOperation o { op with pc := .digesting })
  | resumed {w : World} {o : Nat} {op : Operation} {state : Session} {answer : Answer}
      {eventId : Option String} {next : Resumed} (found : w.operations o = some op)
      (session : w.states op.session = some state)
      (goes : resume options w.now o state op answer eventId = some next) :
      Step options w (.resumed o answer eventId)
        (((w.setState next.session).setOperation o { op with pc := next.pc }).record next.events)
  | aborted {w : World} {o : Nat} {op : Operation} {reason : ErrorCode}
      (found : w.operations o = some op) : Step options w (.aborted o reason)
        (abortOperation w o reason)
  | settled {w : World} {o : Nat} {op : Operation} {state : Session} {ok : Bool}
      (found : w.operations o = some op) (running : op.race = .running)
      (session : w.states op.session = some state) (settles : op.Settles ok) :
      Step options w (.settled o ok)
        ((w.setState (state.settle o op.call)).setOperation o { op with race := .settled ok })
  | errorHandled {w : World} {o k : Nat} {op : Operation} {execution : Execution} {state : Session}
      (found : w.operations o = some op) (failed : op.race = .settled false)
      (call : op.call = .execute execution) (session : w.states op.session = some state)
      (fresh : w.closings k = none) :
      Step options w (.errorHandled o k)
        (let handled := w.setOperation o { op with race := .handled }
        if state.commitStarted then beginClose (poison handled op.session) op.session k
        else handled)
  | requestWritten {w : World} {o : Nat} {op : Operation} {execution : Execution}
      {request : Request} (found : w.operations o = some op)
      (call : op.call = .execute execution) :
      Step options w (.requestWritten o request)
        (w.setOperation o { op with call := .execute { execution with request := request } })
  | close {w : World} {s : String} {k : Nat} (fresh : w.closings k = none) :
      Step options w (.close s k) (beginClose w s k)
  | closeProceeded {w : World} {k : Nat} {closing : Closing} {operation : Option Nat}
      {cancelled : Bool} (found : w.closings k = some closing)
      (pc : closing.pc = .waiting operation)
      (settled : ∀ o op, operation = some o → w.operations o = some op → op.race ≠ .running) :
      Step options w (.closeProceeded k cancelled)
        (w.setClosing k { closing with pc := if cancelled then .threw else .queued })
  | closeStarted {w : World} {k : Nat} {closing : Closing} {state : Session}
      (found : w.closings k = some closing) (pc : closing.pc = .queued)
      (session : w.states closing.session = some state) :
      Step options w (.closeStarted k)
        ((w.setClosing k { closing with pc := .closing }).record
          [.closeRequested closing.session state.handle])
  | closeAnswered {w : World} {k : Nat} {closing : Closing} {ok : Bool}
      (found : w.closings k = some closing) (pc : closing.pc = .closing) :
      Step options w (.closeAnswered k ok)
        (w.setClosing k { closing with
          pc := if ok ∧ closing.aborted = false then .closed else .threw })
  | closeAborted {w : World} {k : Nat} {closing : Closing}
      (found : w.closings k = some closing) (bounded : closing.IsBounded) :
      Step options w (.closeAborted k) (w.setClosing k { closing with aborted := true })
  | closeSucceeded {w : World} {k : Nat} {closing : Closing} {state : Session}
      (found : w.closings k = some closing) (pc : closing.pc = .closed)
      (session : w.states closing.session = some state) :
      Step options w (.closeSucceeded k)
        (((({ w with
          sessions := w.sessions.erase closing.session
          closedSessions := w.closedSessions ++ [closing.session] }).setState
            { state with closed := true, closing := false }).setClosing k
              { closing with pc := .ended }).record
                [.sessionClosed closing.session state.handle])
  | closeFailed {w : World} {k : Nat} {closing : Closing} {state : Session}
      (found : w.closings k = some closing) (failed : closing.Failed)
      (session : w.states closing.session = some state) :
      Step options w (.closeFailed k)
        (((w.setState { state with closing := false, poisoned := true, closePromise := none }).setClosing
          k { closing with pc := .ended }).record [.sessionPoisoned closing.session])

end Useful.ComputerUse
