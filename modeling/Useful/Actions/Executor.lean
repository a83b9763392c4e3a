/-
# Executing actions

The registry of actions and `ActionExecutor.execute`. An execution ends with an output and
a receipt, or with an `ActionExecutionError` that carries a receipt, or with another error
that escapes. What a handler does with a call is a `Settlement`; it may hand over values
that are not JSON, and these answer each time they are read, or throw.
-/

import Useful.Actions.Receipt
import Useful.Actions.Values

namespace Useful.Actions

open Useful.Math

/-! ## The registry -/

/-- `value.key.key…` -/
def field (value : JsonValue) (keys : List String) : Option JsonValue :=
  keys.foldlM (fun value key => value.get key) value

/-- An action with its handler. -/
structure Entry (H : Type) where
  descriptor : JsonValue
  handler : Option H

abbrev Registry (H : Type) := List (Entry H)

inductive RegistrationError
  | thrown (message : String)
  | descriptorInvalid (issues : List Issue)
  | nameCollision
  | missingHandler
  | unexpectedHandler

/-- The id and the aliases of an action. -/
def actionNames (descriptor : JsonValue) : List String :=
  textsOf (descriptor.get "actionId" ::
    (((descriptor.get "aliases").map Json.elements).getD []).map some)

def isUiOnly (descriptor : JsonValue) : Bool := isText (field descriptor ["execution", "mode"]) "ui-only"

section Registry

variable {H : Type}

def Registry.resolve (registry : Registry H) (name : String) : Option (Entry H) :=
  registry.find? fun entry => name ∈ actionNames entry.descriptor

def Registry.register (registry : Registry H) (entry : Entry H) :
    Except RegistrationError (Registry H) := do
  let issues ← (validateActionDescriptor entry.descriptor).mapError .thrown
  failIf (issues ≠ []) (.descriptorInvalid issues)
  failIf (¬ (actionNames entry.descriptor).Nodup) .nameCollision
  failIf ((actionNames entry.descriptor).any fun name => (registry.resolve name).isSome) .nameCollision
  failIf (¬ isUiOnly entry.descriptor ∧ entry.handler.isNone) .missingHandler
  failIf (isUiOnly entry.descriptor ∧ entry.handler.isSome) .unexpectedHandler
  return registry ++ [entry]

/-- The registries that registration builds. -/
inductive Registered : Registry H → Prop
  | empty : Registered []
  | register {registry registry' : Registry H} {entry : Entry H} :
      Registered registry → registry.register entry = .ok registry' → Registered registry'

end Registry

/-! ## What a handler hands over -/

/-- A value that a handler returns. One that is not JSON may fail to have a `JSON.stringify`
text, and the walk along the output schema may throw. -/
inductive Returned
  | json (value : JsonValue)
  | other (bytes : Option Nat) (issues : Option (List Issue))

/-- A value that a handler throws: whether it is an `ActionExecutionError`, and what its
members are at each read. Reads that throw are `none`. A value that is not JSON is read as an
object. -/
structure Thrown where
  isExecutionError : Option Bool
  code : Nat → Option (Option JsonValue)
  actionCode : Nat → Option (Option JsonValue)

/-- `new ActionExecutionError(code)` -/
def Thrown.executionError (code : String) : Thrown where
  isExecutionError := some true
  code _ := some (some (.str code))
  actionCode _ := some none

/-- What happens first after a handler was called. -/
inductive Settlement
  | timer
  | abort
  | resolved (value : Returned)
  | rejected (cause : Thrown)

/-! ## Outcomes -/

/-- The other errors that escape from an execution. -/
inductive Escape
  | receiptInvalid
  | rangeError
  | typeError
  | reading
  deriving DecidableEq, Repr

inductive Failure
  | unknownAction
  | execution (code : Option JsonValue) (issues : List Issue) (receipt : JsonValue)
  | escaped (error : Escape)

structure Options where
  grantedPermissions : List String
  grantedCapabilities : List String
  confirmed : Bool
  -- The signal is aborted when the handler is about to be called.
  aborted : Bool

/-- When an execution starts, and after how many milliseconds its receipt is made. -/
structure Clock where
  startedAt : Int
  elapsedMs : Nat

/-! ## Receipts -/

/-- `[...value]` -/
def spread (value : Option JsonValue) : Except Escape (List JsonValue) :=
  match value with
  | some (.arr items) => .ok items
  | some (.str s) => .ok (s.toList.map fun c => .str (String.singleton c))
  | _ => .error .typeError

/-- The parts of a descriptor that a receipt repeats. -/
structure Copied where
  actionId : JsonValue
  version : JsonValue
  contractVersion : JsonValue
  source : JsonValue
  required : List JsonValue
  capabilities : List JsonValue

/-- `...(errorCode ? { error: { code: errorCode } } : {})` -/
def errorMembers (errorCode : Option JsonValue) : List (String × JsonValue) :=
  match errorCode with
  | some code => if truthy (some code) then [("error", .obj [("code", code)])] else []
  | none => []

def receiptValue (copied : Copied) (startedAt completedAt status : String) (durationMs : Nat)
    (errorCode : Option JsonValue) : JsonValue :=
  .obj ([
    ("receiptVersion", .str "2.0"),
    ("actionId", copied.actionId),
    ("actionVersion", copied.version),
    ("contractVersion", copied.contractVersion),
    ("source", copied.source),
    ("permissions", .obj [("required", .arr copied.required), ("capabilities", .arr copied.capabilities)]),
    ("status", .str status),
    ("createdAt", .str startedAt),
    ("startedAt", .str startedAt),
    ("completedAt", .str completedAt),
    ("durationMs", .num durationMs)] ++ errorMembers errorCode)

/-- A member that the descriptor lacks is copied as undefined, and the receipt is refused. -/
def copyDescriptor (descriptor : JsonValue) (required capabilities : List JsonValue) :
    Except Escape Copied := do
  let actionId ← orFail .receiptInvalid (descriptor.get "actionId")
  let version ← orFail .receiptInvalid (descriptor.get "version")
  let contractVersion ← orFail .receiptInvalid (descriptor.get "contractVersion")
  let source ← orFail .receiptInvalid (descriptor.get "source")
  return { actionId, version, contractVersion, source, required, capabilities }

section Code

-- What `Date.parse` makes of values that are not in the ISO format, and the text of a number.
variable (otherDate : Option JsonValue → Option Int) (numberText : ℚ → String)

/-- `makeReceipt`. -/
def makeReceipt (descriptor : JsonValue) (startedAt : String) (elapsedMs : Nat) (status : String)
    (errorCode : Option JsonValue) : Except Escape JsonValue := do
  let required ← spread (field descriptor ["permissions", "required"])
  let capabilities ← spread (field descriptor ["permissions", "capabilities"])
  let completedAt ← orFail .rangeError
    ((dateParse otherDate (some (.str startedAt))).bind fun ms => toISOString (ms + elapsedMs))
  let copied ← copyDescriptor descriptor required capabilities
  let receipt := receiptValue copied startedAt completedAt status elapsedMs errorCode
  failIf (validateExecutionReceipt otherDate receipt ≠ []) .receiptInvalid
  return receipt

/-! ## An execution -/

/-- `fail`. -/
def fail {α : Type} (descriptor : JsonValue) (startedAt : String) (elapsedMs : Nat)
    (code : Option JsonValue) (issues : List Issue) : Except Failure α := do
  let status := if isText code "CANCELLED" then "cancelled" else "error"
  let receipt ← (makeReceipt otherDate descriptor startedAt elapsedMs status code).mapError .escaped
  throw (.execution code issues receipt)

/-- `bytes > limit` -/
def exceeds (bytes : Nat) (limit : Option JsonValue) : Bool :=
  match limit with
  | some (.num q) => q < bytes
  | _ => false

/-- `[…].some((name) => !granted.has(name))` -/
def lacksGrant (names : Option JsonValue) (granted : List String) : Bool :=
  ((names.map Json.elements).getD []).any fun name => !stringWith (· ∈ granted) (some name)

/-- What `execute` refuses before it calls a handler. -/
def refusal (descriptor input : JsonValue) (options : Options) : Option (String × List Issue) :=
  if isUiOnly descriptor then some ("NOT_HEADLESS", [])
  else if truthy (field descriptor ["behavior", "requiresConfirmation"]) ∧ ¬ options.confirmed then
    some ("CONFIRMATION_REQUIRED", [])
  else if lacksGrant (field descriptor ["permissions", "required"]) options.grantedPermissions ∨
      lacksGrant (field descriptor ["permissions", "capabilities"]) options.grantedCapabilities then
    some ("PERMISSION_DENIED", [])
  else if exceeds (utf8JsonBytes numberText input) (field descriptor ["execution", "maxInputBytes"]) then
    some ("INPUT_TOO_LARGE", [])
  else
    match validateValue numberText (descriptor.get "inputSchema") input with
    | [] => none
    | issues => some ("INPUT_INVALID", issues)

/-- `guardedCall`. -/
def guardedCall (aborted : Bool) (settlement : Settlement) : Except Thrown Returned :=
  if aborted then .error (.executionError "CANCELLED")
  else
    match settlement with
    | .timer => .error (.executionError "TIMEOUT")
    | .abort => .error (.executionError "CANCELLED")
    | .resolved value => .ok value
    | .rejected cause => .error cause

/-- `codes.includes(cause.code)`, and then the code that is read again. -/
def codeAmong (codes : List String) (read : Nat → Option (Option JsonValue)) :
    Except Escape (Option (Option JsonValue)) := do
  let code ← orFail .reading (read 0)
  if stringWith (· ∈ codes) code then
    let code ← orFail .reading (read 1)
    return some code
  else
    return none

/-- The code with which `execute` reports what a call threw. -/
def failureCode (cause : Thrown) : Except Escape (Option JsonValue) := do
  let isExecutionError ← orFail .reading cause.isExecutionError
  let code ← if isExecutionError then codeAmong ["TIMEOUT", "CANCELLED"] cause.code else pure none
  match code with
  | some code => return code
  | none =>
      let code ← codeAmong ["INPUT_INVALID", "INPUT_TOO_LARGE", "OUTPUT_INVALID", "OUTPUT_TOO_LARGE"]
        cause.actionCode
      return code.getD (some (.str "ACTION_FAILED"))

/-- The size of an output, if it has a text. -/
def Returned.bytes : Returned → Option Nat
  | .json value => some (utf8JsonBytes numberText value)
  | .other bytes _ => bytes

/-- `validateValue(schema, output)` -/
def Returned.issues (schema : Option JsonValue) : Returned → Option (List Issue)
  | .json value => some (validateValue numberText schema value)
  | .other _ issues => issues

/-- What `execute` refuses of an output. -/
def outputRefusal (descriptor : JsonValue) (output : Returned) :
    Except Escape (Option (String × List Issue)) :=
  match output.bytes numberText with
  | none => .ok (some ("OUTPUT_INVALID", []))
  | some bytes =>
      if exceeds bytes (field descriptor ["execution", "maxOutputBytes"]) then
        .ok (some ("OUTPUT_TOO_LARGE", []))
      else
        match output.issues numberText (descriptor.get "outputSchema") with
        | none => .error .reading
        | some [] => .ok none
        | some issues => .ok (some ("OUTPUT_INVALID", issues))

/-- The part of `execute` after the call. -/
def finish (descriptor : JsonValue) (startedAt : String) (elapsedMs : Nat)
    (called : Except Thrown Returned) : Except Failure (Returned × JsonValue) :=
  match called with
  | .error cause => do
      let code ← (failureCode cause).mapError .escaped
      fail otherDate descriptor startedAt elapsedMs code []
  | .ok output => do
      match ← (outputRefusal numberText descriptor output).mapError .escaped with
      | some (code, issues) =>
          fail otherDate descriptor startedAt elapsedMs (some (.str code)) issues
      | none =>
          let receipt ← (makeReceipt otherDate descriptor startedAt elapsedMs "success" none).mapError
            .escaped
          return (output, receipt)

/-- `execute`, where the handler's call is settled as `call` says. -/
def execute {H : Type} (registry : Registry H) (call : H → JsonValue → Settlement) (clock : Clock)
    (actionId : String) (input : JsonValue) (options : Options) :
    Except Failure (Returned × JsonValue) := do
  let entry ← orFail .unknownAction (registry.resolve actionId)
  let startedAt ← orFail (.escaped .rangeError) (toISOString clock.startedAt)
  match entry.handler with
  | none => fail otherDate entry.descriptor startedAt clock.elapsedMs (some (.str "NOT_HEADLESS")) []
  | some handler =>
      match refusal numberText entry.descriptor input options with
      | some (code, issues) =>
          fail otherDate entry.descriptor startedAt clock.elapsedMs (some (.str code)) issues
      | none =>
          finish otherDate numberText entry.descriptor startedAt clock.elapsedMs
            (guardedCall options.aborted (call handler input))

end Code

end Useful.Actions
