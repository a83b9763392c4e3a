/-
# The computer use contract

The checks of `computer-use-contract` on what goes through it: actions, safety checks and the
answers of providers. Values are plain data. A check rejects with an error code and a message,
or with an error of the language.
-/

import Useful.Math.Checks
import Useful.Math.JsData

namespace Useful.ComputerUse

open Useful.Math Useful.Math.Js

/-! ## Errors -/

/-- `COMPUTER_USE_ERROR_CODES` -/
inductive ErrorCode
  | disabled
  | policyInvalid
  | hostDesktopRejected
  | providerInvalid
  | providerProtocolError
  | sessionNotFound
  | sessionClosed
  | sessionPoisoned
  | sessionExpired
  | observationRequired
  | observationStale
  | stepInvalid
  | stepReplayed
  | stepLimitExceeded
  | concurrentAction
  | actionInvalid
  | screenshotTooLarge
  | domainNotAllowed
  | privateDomainRejected
  | networkEvidenceRequired
  | networkAddressRejected
  | redirectLimitExceeded
  | approvalRequired
  | approvalDenied
  | safetyCheckInvalid
  | cancelled
  | stepDeadlineExceeded
  | totalDeadlineExceeded
  | auditFailed
  deriving DecidableEq, Repr

def ErrorCode.text : ErrorCode → String
  | disabled => "COMPUTER_USE_DISABLED"
  | policyInvalid => "COMPUTER_USE_POLICY_INVALID"
  | hostDesktopRejected => "COMPUTER_USE_HOST_DESKTOP_REJECTED"
  | providerInvalid => "COMPUTER_USE_PROVIDER_INVALID"
  | providerProtocolError => "COMPUTER_USE_PROVIDER_PROTOCOL_ERROR"
  | sessionNotFound => "COMPUTER_USE_SESSION_NOT_FOUND"
  | sessionClosed => "COMPUTER_USE_SESSION_CLOSED"
  | sessionPoisoned => "COMPUTER_USE_SESSION_POISONED"
  | sessionExpired => "COMPUTER_USE_SESSION_EXPIRED"
  | observationRequired => "COMPUTER_USE_OBSERVATION_REQUIRED"
  | observationStale => "COMPUTER_USE_OBSERVATION_STALE"
  | stepInvalid => "COMPUTER_USE_STEP_INVALID"
  | stepReplayed => "COMPUTER_USE_STEP_REPLAYED"
  | stepLimitExceeded => "COMPUTER_USE_STEP_LIMIT_EXCEEDED"
  | concurrentAction => "COMPUTER_USE_CONCURRENT_ACTION"
  | actionInvalid => "COMPUTER_USE_ACTION_INVALID"
  | screenshotTooLarge => "COMPUTER_USE_SCREENSHOT_TOO_LARGE"
  | domainNotAllowed => "COMPUTER_USE_DOMAIN_NOT_ALLOWED"
  | privateDomainRejected => "COMPUTER_USE_PRIVATE_DOMAIN_REJECTED"
  | networkEvidenceRequired => "COMPUTER_USE_NETWORK_EVIDENCE_REQUIRED"
  | networkAddressRejected => "COMPUTER_USE_NETWORK_ADDRESS_REJECTED"
  | redirectLimitExceeded => "COMPUTER_USE_REDIRECT_LIMIT_EXCEEDED"
  | approvalRequired => "COMPUTER_USE_APPROVAL_REQUIRED"
  | approvalDenied => "COMPUTER_USE_APPROVAL_DENIED"
  | safetyCheckInvalid => "COMPUTER_USE_SAFETY_CHECK_INVALID"
  | cancelled => "COMPUTER_USE_CANCELLED"
  | stepDeadlineExceeded => "COMPUTER_USE_STEP_DEADLINE_EXCEEDED"
  | totalDeadlineExceeded => "COMPUTER_USE_TOTAL_DEADLINE_EXCEEDED"
  | auditFailed => "COMPUTER_USE_AUDIT_FAILED"

/-- What an operation throws: a `ComputerUseError`, or anything else. -/
inductive Thrown
  | contract (code : ErrorCode) (message : String)
  | other
  deriving DecidableEq, Repr

/-- `fail(code)` -/
def plainError (code : ErrorCode) : Thrown := .contract code code.text

abbrev Checked (α : Type) := Except Thrown α

/-! ## Identifiers and digests -/

def isAlphanumeric (c : Char) : Bool :=
  ('A' ≤ c && c ≤ 'Z') || ('a' ≤ c && c ≤ 'z') || ('0' ≤ c && c ≤ '9')

/-- `/^[A-Za-z0-9][A-Za-z0-9._:-]{0,127}$/` -/
def SAFE_ID (text : String) : Bool :=
  match text.toList with
  | [] => false
  | c :: rest => isAlphanumeric c && rest.length ≤ 127 &&
      rest.all fun c => isAlphanumeric c || c = '.' || c = '_' || c = ':' || c = '-'

/-- `/^[a-f0-9]{64}$/` -/
def SHA256 (text : String) : Bool :=
  text.toList.length = 64 && text.toList.all fun c => ('a' ≤ c && c ≤ 'f') || ('0' ≤ c && c ≤ '9')

def isSafeId : Data → Bool
  | .str s => SAFE_ID s
  | _ => false

def assertKnownKeys (value : Data) (allowed : List String) (code : ErrorCode) (label : String) :
    Checked Unit := do
  failIf (¬ value.isObject) (.contract code (label ++ " must be an object"))
  failIf (¬ value.keys.all (allowed.contains ·))
    (.contract code (label ++ " contains an unknown field"))

/-! ## Actions -/

def COMPUTER_USE_ACTION_TYPES : List String :=
  ["screenshot", "click", "double-click", "drag", "move", "scroll", "type", "key", "wait"]

def HIGH_IMPACT_ACTIONS : List String := ["click", "double-click", "drag", "type", "key"]

def ACTION_FIELDS (type : String) : List String :=
  match type with
  | "screenshot" => ["type"]
  | "click" => ["type", "x", "y", "button"]
  | "double-click" => ["type", "x", "y", "button"]
  | "drag" => ["type", "startX", "startY", "endX", "endY", "durationMs"]
  | "move" => ["type", "x", "y"]
  | "scroll" => ["type", "deltaX", "deltaY", "x", "y"]
  | "type" => ["type", "text"]
  | "key" => ["type", "keys"]
  | "wait" => ["type", "durationMs"]
  | _ => []

def invalidAction (message : String) : Thrown := .contract .actionInvalid message

def assertCoordinate (action : Data) (key : String) : Checked Unit :=
  failIf (¬ (action.get key).isIntegerIn 0 100000)
    (invalidAction (key ++ " must be an integer in 0..100000"))

def assertDuration (action : Data) : Checked Unit :=
  failIf (¬ (action.get "durationMs").isIntegerIn 0 30000)
    (invalidAction "durationMs must be an integer in 0..30000")

/-- The members of an action of a type. -/
def assertActionMembers (action : Data) (type : String) : Checked Unit :=
  match type with
  | "click" | "double-click" => do
      assertCoordinate action "x"
      assertCoordinate action "y"
      failIf (¬ (action.get "button").isUndefined ∧
          ¬ (action.get "button").isOneOf ["left", "middle", "right"])
        (invalidAction "button must be left, middle, or right")
  | "drag" => do
      ["startX", "startY", "endX", "endY"].forM (assertCoordinate action)
      if (action.get "durationMs").isUndefined then pure () else assertDuration action
  | "move" => do
      assertCoordinate action "x"
      assertCoordinate action "y"
  | "scroll" => do
      ["deltaX", "deltaY"].forM fun key =>
        failIf (¬ (action.get key).isIntegerIn (-100000) 100000)
          (invalidAction (key ++ " is out of range"))
      ["x", "y"].forM fun key =>
        if (action.get key).isUndefined then pure () else assertCoordinate action key
  | "type" =>
      failIf (¬ (action.get "text").isTextIn 1 32768)
        (invalidAction "text must contain 1..32768 characters")
  | "key" =>
      match action.get "keys" with
      -- `some` passes over the missing elements.
      | .arr keys =>
          failIf (keys.length < 1 ∨ 16 < keys.length ∨
              keys.any fun key => !key.isHole && !isSafeId key)
            (invalidAction "keys must contain 1..16 safe key identifiers")
      | _ => .error (invalidAction "keys must contain 1..16 safe key identifiers")
  | "wait" => assertDuration action
  | _ => return ()

def assertComputerUseAction (action : Data) : Checked Unit := do
  failIf (¬ action.isObject) (invalidAction "action.type is not supported")
  match action.get "type" with
  | .str type =>
      failIf (type ∉ COMPUTER_USE_ACTION_TYPES) (invalidAction "action.type is not supported")
      assertKnownKeys action (ACTION_FIELDS type) .actionInvalid "action"
      failIf (action.keys.any fun key => (action.get key).isUndefined)
        (invalidAction "present action fields must not be undefined")
      assertActionMembers action type
  | _ => .error (invalidAction "action.type is not supported")

/-- `action.type` -/
def actionType (action : Data) : String :=
  match action.get "type" with
  | .str type => type
  | _ => ""

/-! ## Safety checks -/

inductive CheckSource
  | model
  | provider
  | contract
  deriving DecidableEq, Repr

structure SafetyCheck where
  id : String
  description : String
  severity : String
  source : CheckSource
  deriving DecidableEq, Repr

def invalidCheck (message : String) : Thrown := .contract .safetyCheckInvalid message

/-- One entry, after those whose ids have been seen. -/
def validateSafetyCheck (source : CheckSource) (seen : List String) (check : Data) :
    Checked SafetyCheck := do
  assertKnownKeys check ["id", "description", "severity"] .safetyCheckInvalid "safetyCheck"
  match check.get "id", check.get "description", check.get "severity" with
  | .str id, .str description, .str severity =>
      failIf (¬ SAFE_ID id ∨ ¬ (check.get "description").isTextIn 1 1024 ∨
          severity ∉ ["low", "medium", "high"])
        (invalidCheck "safetyCheck is invalid")
      failIf (id ∈ seen) (invalidCheck "duplicate safetyCheck id")
      return ⟨id, description, severity, source⟩
  | _, _, _ => .error (invalidCheck "safetyCheck is invalid")

/-- The entries in turn. `map` passes over the missing elements and leaves them missing. -/
def validateEntries (source : CheckSource) : List String → List Data →
    Checked (List (Option SafetyCheck))
  | _, [] => return []
  | seen, .hole :: rest => do
      let checks ← validateEntries source seen rest
      return none :: checks
  | seen, entry :: rest => do
      let check ← validateSafetyCheck source seen entry
      let checks ← validateEntries source (check.id :: seen) rest
      return some check :: checks

def validateSafetyChecks (checks : Data) (source : CheckSource) :
    Checked (List (Option SafetyCheck)) :=
  match checks with
  | .undefined => return []
  | .arr entries => do
      failIf (64 < entries.length) (invalidCheck "safetyChecks must contain at most 64 entries")
      validateEntries source [] entries
  | _ => .error (invalidCheck "safetyChecks must contain at most 64 entries")

/-- The check that the contract adds for an action of high impact. -/
def highImpactCheck (type : String) : SafetyCheck where
  id := "useful.high-impact." ++ type
  description := "Confirm high-impact " ++ type ++ " action"
  severity := "high"
  source := .contract

/-- The loop over all checks: none is missing, and no two have source and id in common. -/
def distinctChecks : List (CheckSource × String) → List (Option SafetyCheck) →
    Checked (List SafetyCheck)
  | _, [] => return []
  | _, none :: _ => .error .other
  | seen, some check :: rest => do
      failIf ((check.source, check.id) ∈ seen) (invalidCheck "duplicate safety check")
      let checks ← distinctChecks ((check.source, check.id) :: seen) rest
      return check :: checks

/-! ## Requests -/

/-- The `prepare` request. -/
structure Prepare where
  step : Nat
  observationDigest : String
  action : Data

structure Approval where
  safetyCheckId : String
  source : CheckSource
  approvalId : String
  preparedActionId : String
  step : Nat
  observationDigest : String
  actionDigest : String
  deriving DecidableEq, Repr

/-- The `commit` request. -/
structure Commit where
  preparedActionId : String
  step : Nat
  observationDigest : String
  actionDigest : String
  action : Data
  approvals : List Approval

/-- What the approval callback is asked. -/
structure ApprovalRequest where
  sessionId : String
  preparedActionId : String
  step : Nat
  observationDigest : String
  actionDigest : String
  action : Data
  domain : Option String
  safetyCheck : SafetyCheck

/-! ## Answers of providers and callbacks -/

/-- A validated answer to `prepare`: the identifier, and all checks to be approved. -/
structure Prepared where
  preparedActionId : String
  checks : List SafetyCheck

def protocolError (message : String) : Thrown := .contract .providerProtocolError message

def preparedOf (action : Data) (modelChecks : List (Option SafetyCheck)) (prepared : Data) :
    Checked Prepared := do
  failIf (¬ (prepared.isObject ∧ (prepared.get "status").isOneOf ["prepared"]))
    (protocolError "provider prepare response is invalid")
  let preparedActionId ← match prepared.get "preparedActionId" with
    | .str id =>
        if SAFE_ID id then pure id
        else .error (protocolError "preparedActionId must be a safe identifier")
    | _ => .error (protocolError "preparedActionId must be a safe identifier")
  let highImpact ← match prepared.get "highImpact" with
    | .undefined => pure false
    | .bool highImpact => pure highImpact
    | _ => .error (protocolError "provider highImpact must be a boolean")
  let providerChecks ← validateSafetyChecks (prepared.get "safetyChecks") .provider
  let contractChecks := if actionType action ∈ HIGH_IMPACT_ACTIONS ∨ highImpact
    then [some (highImpactCheck (actionType action))] else []
  let checks ← distinctChecks [] (modelChecks ++ providerChecks ++ contractChecks)
  return ⟨preparedActionId, checks⟩

/-- The id of an explicit approval. -/
def approvalIdOf (decision : Data) : Checked String :=
  let denied : Thrown := .contract .approvalDenied "safety check was not explicitly approved"
  match decision.get "approved", decision.get "approvalId" with
  | .bool true, .str approvalId => if SAFE_ID approvalId then .ok approvalId else .error denied
  | _, _ => .error denied

structure Network where
  domain : String
  url : String

/-- The result code of a validated answer to `commit`. -/
def resultCodeOf (committed : Data) : Checked String :=
  match committed.get "status", committed.get "resultCode" with
  | .str "executed", .str resultCode =>
      if SAFE_ID resultCode then .ok resultCode
      else .error (protocolError "provider commit response is invalid")
  | _, _ => .error (protocolError "provider commit response is invalid")

/-- `screenshotLength` -/
def screenshotLength : Data → Checked Nat
  | .undefined => .ok 0
  | .bytes length => .ok length
  | _ => .error (protocolError "screenshot must be an ArrayBuffer or typed-array view")

/-- The digest of an observation. -/
def observationDigestOf (value : Data) : Checked String :=
  match value.get "observationDigest" with
  | .str digest =>
      if SHA256 digest then .ok digest
      else .error (protocolError "observationDigest must be lowercase SHA-256 hex")
  | _ => .error (protocolError "observationDigest must be lowercase SHA-256 hex")

end Useful.ComputerUse
