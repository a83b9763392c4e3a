/-
# Inputs of the utility actions

An action is called with a value of JavaScript, and its handler first looks at which members the
value has. Only what the handlers tell apart is kept of a member that is neither a text, a number
nor a boolean. A handler answers with a result or with the message of an `actionInputError`.
-/

import Useful.Math.JsText
import Useful.Math.JsValue

namespace Useful.Utilities

open Useful.Math

/-- A member of an input. -/
inductive Field
  | undefined
  | null
  | bool (b : Bool)
  | num (x : Js.Number)
  | str (text : JsText)
  | object
  deriving DecidableEq

/-- What an action is called with: the own members of an object, or something else. -/
inductive Input
  | object (members : List (String × Field))
  | other
  deriving DecidableEq

namespace Input

def members : Input → List (String × Field)
  | object members => members
  | other => []

/-- `input.key` -/
def get (input : Input) (key : String) : Field := (input.members.lookup key).getD .undefined

/-- `assertExactObject` -/
def assertExactObject (input : Input) (required optional : List String) : Except String Unit :=
  match input with
  | other => .error "action 输入必须是对象"
  | object members =>
      let keys := members.map Prod.fst
      let allowed := required ++ optional
      if required.any (fun key => !keys.contains key) || keys.any (fun key => !allowed.contains key)
      then .error "action 输入字段不符合契约"
      else .ok ()

end Input

/-- A text, where the member has to be one. -/
def Field.text? : Field → Option JsText
  | .str text => some text
  | _ => none

/-- `operations.includes(field)` -/
def Field.isOneOf (field : Field) (operations : List String) : Bool :=
  match field with
  | .str text => operations.any fun operation => JsText.ofString operation == text
  | _ => false

/-- `field === operation` -/
def Field.is (field : Field) (operation : String) : Bool :=
  field == .str (JsText.ofString operation)

end Useful.Utilities
