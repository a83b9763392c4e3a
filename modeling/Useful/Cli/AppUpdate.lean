/-
# Signatures over app updates

`appUpdateVerify` and `keyVerifyCeremony` of the command line go through a list of
signatures, look each key up in the root by its id and count. They reject a list with a
signature that does not verify, so what they accept is counted in full, and the question is
how many authorised keys stand behind the count.
-/

import Useful.Actions.Descriptor
import Useful.Math.Checks
import Useful.Math.JsValue
import Mathlib.Data.Finset.Card
import Mathlib.Data.Finset.Dedup

namespace Useful.Cli

open Useful.Math Useful.Math.Js
open Useful.Actions (isText truthy)

def SCHEMA : String := "useful-update-root-v1"

def NOT_FOR_PROD : String := "NOT-FOR-PRODUCTION"

/-- What the commands take from the language and from `node:crypto`. -/
structure Crypto (K : Type) extends Conversions where
  /-- The key `createPublicKey` makes of a `public` member, unless it throws. -/
  publicKey : Option JsonValue → Option K
  /-- `edVerify` over the canonical JSON of a document, unless it throws. -/
  verifies : K → JsonValue → Option JsonValue → Option Bool
  /-- The prototype of a value has a member of that name that is true. -/
  inherits : JsonValue → String → Bool
  /-- `keyid.slice(0, 16)` in a text. -/
  head : Option JsonValue → Except Error String

/-- What `keys[keyid]` can be. A function or a part of a text has neither a role nor a key. -/
inductive Looked
  | absent
  | plain
  | found (key : JsonValue)

variable {K : Type} (env : Crypto K)

/-! ## The verifiers -/

/-- `readRoot`, from the parsed file on. -/
def readRoot (root : JsonValue) : Except Error JsonValue := do
  let schemaVersion ← read (some root) "schemaVersion"
  if isText schemaVersion SCHEMA then
    return root
  else
    let schema ← toText env.toConversions schemaVersion
    throw (.thrown s!"不支持的根 schema: {schema}")

/-- `keys[keyid]` -/
def lookupKey (keys keyid : Option JsonValue) : Except Error Looked :=
  match keys with
  | none | some .null => .error .typeError
  | some v => do
      let name ← toText env.toConversions keyid
      let items := v.elements.zipIdx.map fun item => (toString item.2, item.1)
      match (v.members ++ items).lookup name with
      | some key => return .found key
      | none => return if env.inherits v name then .plain else .absent

/-- `key.keyval.public`, as a key. -/
def publicOf (key : JsonValue) : Except Error K := do
  let keyval ← read (some key) "keyval"
  let publicHex ← read keyval "public"
  orFail .typeError (env.publicKey publicHex)

/-- `verifyCanonical(key.keyval.public, signed, sig)` -/
def verifyCanonical (key signed : JsonValue) (sig : Option JsonValue) : Except Error Bool := do
  let publicKey ← publicOf env key
  orFail .typeError (env.verifies publicKey signed sig)

/-- The signature is found good with the key the root has for its key id. -/
def Verifies (root signed s key : JsonValue) : Prop :=
  lookupKey env (root.get "keys") (s.get "keyid") = .ok (.found key) ∧
    truthy (some key) = true ∧ verifyCanonical env key signed (s.get "sig") = .ok true

/-- The signature counts in `appUpdateVerify`. -/
def Releases (root payload s : JsonValue) : Prop :=
  includes env.toConversions (orEmpty (root.get "revoked")) (s.get "keyid") = .ok false ∧
    ∃ key, Verifies env root payload s key ∧ isText (key.get "role") "release" = true

variable {env} {root payload s key : JsonValue}

section

variable [DecidableEq K]

end

variable (env)

end Useful.Cli
