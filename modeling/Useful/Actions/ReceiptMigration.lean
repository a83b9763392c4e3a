/-
# Older receipts

`upgradeExecutionReceipt` turns a receipt of version 1.0 into one of version 2.0. The rules for
the old version are a list of their own: they allow the code `CANCELLED` under the status
`error`, and any duration, so that the time of completion may lie in a year with more than four
digits. Neither is a valid receipt of version 2.0.
-/

import Useful.Actions.Receipt
import Useful.Actions.Values
import Useful.Math.JsonReader

namespace Useful.Actions

open Useful.Math

/-! ## Upgrading -/

def EXECUTION_RECEIPT_MAX_BYTES : Nat := 65536

def V1_KEYS : List String :=
  ["receiptVersion", "actionId", "actionVersion", "contractVersion", "source", "permissions",
    "startedAt", "durationMs", "status", "error"]

structure ExecutionReceiptError where
  code : String
  issues : List Issue

def receiptInvalid (issues : List Issue) : ExecutionReceiptError := ⟨"RECEIPT_INVALID", issues⟩

section Code

-- What `Date.parse` makes of values that are not in the ISO format.
variable (otherDate : Option JsonValue → Option Int)

def assertExecutionReceipt (value : JsonValue) : Except ExecutionReceiptError Unit :=
  failIf (validateExecutionReceipt otherDate value ≠ [])
    (receiptInvalid (validateExecutionReceipt otherDate value))

/-- `validateV1`. -/
def validateV1 (value : JsonValue) : List Issue :=
  requireKeys (some value)
    ["receiptVersion", "actionId", "actionVersion", "contractVersion", "source", "permissions",
      "startedAt", "durationMs", "status"]
    V1_KEYS "" fun value =>
      boundedString (value.get "actionId") "/actionId" 200 (some ACTION_ID) ++
        boundedString (value.get "actionVersion") "/actionVersion" 128 (some SEMVER) ++
        boundedString (value.get "contractVersion") "/contractVersion" 32 none ++
        validateSource (value.get "source") "/source" ++
        stringSet (value.get "permissions") "/permissions" ++
        timestamp otherDate (value.get "startedAt") "/startedAt" ++
        issueIf (¬ integerWith (fun q => 0 ≤ q && q ≤ 9007199254740991) (value.get "durationMs"))
          "/durationMs" "必须是非负安全整数" ++
        issueIf (¬ stringWith (· ∈ TERMINAL_STATUSES) (value.get "status"))
          "/status" "v1 只接受 terminal status" ++
        (if (value.get "error").isSome then validateError (value.get "error") "/error" else []) ++
        issueIf (isText (value.get "status") "success" ∧ (value.get "error").isSome)
          "/error" "success receipt 不得包含 error" ++
        issueIf (stringWith (· ∈ ["error", "cancelled"]) (value.get "status") ∧
            (value.get "error").isNone)
          "/error" "失败 receipt 必须包含 error code" ++
        issueIf (isText (value.get "status") "cancelled" ∧ ¬ isText (errorCode value) "CANCELLED")
          "/error/code" "cancelled receipt 必须使用 CANCELLED"

/-- `Date.parse(value.startedAt) + value.durationMs` -/
def completedEpochMs (value : JsonValue) : Option Int :=
  match dateParse otherDate (value.get "startedAt"), value.get "durationMs" with
  | some started, some (.num durationMs) => some (started + durationMs.num)
  | _, _ => none

/-- A member that a checked receipt has. -/
def memberOf (value : JsonValue) (key : String) : JsonValue := (value.get key).getD .null

/-- The receipt of version 2.0 for a checked one of version 1.0. -/
def upgraded (value : JsonValue) (completedAt : String) : JsonValue :=
  .obj ([
    ("receiptVersion", .str EXECUTION_RECEIPT_VERSION),
    ("actionId", memberOf value "actionId"),
    ("actionVersion", memberOf value "actionVersion"),
    ("contractVersion", memberOf value "contractVersion"),
    ("source", memberOf value "source"),
    ("permissions", .obj [
      ("required", .arr (memberOf value "permissions").elements),
      ("capabilities", .arr [])]),
    ("status", memberOf value "status"),
    ("createdAt", memberOf value "startedAt"),
    ("startedAt", memberOf value "startedAt"),
    ("completedAt", .str completedAt),
    ("durationMs", memberOf value "durationMs")] ++
      if truthy (value.get "error") then [("error", memberOf value "error")] else [])

def upgradeExecutionReceipt (value : JsonValue) : Except ExecutionReceiptError JsonValue := do
  failIf (¬ isObject (some value)) (receiptInvalid [])
  if isText (value.get "receiptVersion") EXECUTION_RECEIPT_VERSION then
    assertExecutionReceipt otherDate value
    return value
  failIf (¬ isText (value.get "receiptVersion") "1.0")
    (if stringWith (fun _ => true) (value.get "receiptVersion") then
      ⟨"RECEIPT_VERSION_UNSUPPORTED", []⟩ else receiptInvalid [])
  failIf (validateV1 otherDate value ≠ []) (receiptInvalid (validateV1 otherDate value))
  let completedEpochMs ← orFail (receiptInvalid []) (completedEpochMs otherDate value)
  let completedAt ← orFail (receiptInvalid []) (toISOString completedEpochMs)
  assertExecutionReceipt otherDate (upgraded value completedAt)
  return upgraded value completedAt

/-! ## Parsing -/

-- The text of a number, and the number that a numeral is rounded to.
variable (numberText : ℚ → String) (toNumber : ℚ → ℚ)

/-- `JSON.parse`, on texts without lone surrogates. -/
def parseJson (text : List Char) : Option JsonValue :=
  Json.parse (fun text => (Json.readNumeral text).map fun read => (toNumber read.1, read.2)) text

/-- What `parseExecutionReceipt` is called with. -/
inductive ReceiptInput
  | text (text : List Char)
  | value (value : JsonValue)

inductive ParseFailure
  | typeError (message : String)
  | receipt (error : ExecutionReceiptError)

def parseExecutionReceipt (input : ReceiptInput) (maxBytes : Option JsonValue) :
    Except ParseFailure JsonValue := do
  let maxBytes := (match maxBytes with
    | none | some .null => none
    | some maxBytes => some maxBytes).getD (.num EXECUTION_RECEIPT_MAX_BYTES)
  failIf (¬ integerWith (fun q => 1 ≤ q && q ≤ EXECUTION_RECEIPT_MAX_BYTES) (some maxBytes))
    (.typeError "maxBytes 必须在 1..65536 范围内")
  let text :=
    match input with
    | .text text => text
    | .value value => stringify numberText value
  failIf (integerWith (fun q => q < (utf8 text).length) (some maxBytes))
    (.receipt ⟨"RECEIPT_TOO_LARGE", []⟩)
  let parsed ← orFail (.receipt (receiptInvalid [])) (parseJson toNumber text)
  (upgradeExecutionReceipt otherDate parsed).mapError .receipt

end Code

end Useful.Actions
