/-
# Network evidence

What a provider reports about the hosts it went to: the urls of the hops and the addresses that
their names were resolved to. An address is read by hand and compared with the ranges that are not
to be reached.
-/

import Useful.ComputerUse.Contract
import Useful.Math.AddressText
import Mathlib.Data.List.DropRight

namespace Useful.ComputerUse

open Useful.Math Useful.Math.Js

/-! ## Reading addresses -/

/-- `/^\d{1,3}$/` -/
def isDecimalPart (part : List Char) : Bool :=
  1 ≤ part.length && part.length ≤ 3 && part.all Char.isDigit

def parseIpv4 (hostname : List Char) : Option (List Nat) :=
  let parts := hostname.splitOn '.'
  if parts.length ≠ 4 ∨ ∃ part ∈ parts,
      ¬ isDecimalPart part ∨ (1 < part.length ∧ part.head? = some '0') then none
  else
    let numbers := parts.map fun part => Nat.ofDigitChars 10 part 0
    if ∃ part ∈ numbers, 255 < part then none else some numbers

def isRejectedIpv4 : List Nat → Bool
  | [a, b, c, _] =>
      a == 0
        || a == 10
        || a == 127
        || (a == 100 && 64 ≤ b && b ≤ 127)
        || (a == 169 && b == 254)
        || (a == 172 && 16 ≤ b && b ≤ 31)
        || (a == 192 && b == 0 && c == 0)
        || (a == 192 && b == 0 && c == 2)
        || (a == 192 && b == 88 && c == 99)
        || (a == 192 && b == 168)
        || (a == 198 && (b == 18 || b == 19))
        || (a == 198 && b == 51 && c == 100)
        || (a == 203 && b == 0 && c == 113)
        || 224 ≤ a
  | _ => false

/-- `text.replace(/^\[|\]$/gu, "")` -/
def stripBrackets (text : List Char) : List Char :=
  let text := if text.head? = some '[' then text.tail else text
  if text.getLast? = some ']' then text.dropLast else text

/-- `text.includes("::")` -/
def hasPair (text : List Char) : Prop := [':', ':'] <:+: text

instance (text : List Char) : Decidable (hasPair text) := inferInstanceAs (Decidable (_ <:+: _))

/-- `text.split("::")` -/
def splitPairs : List Char → List (List Char)
  | ':' :: ':' :: rest => [] :: splitPairs rest
  | c :: rest => (splitPairs rest).modifyHead (c :: ·)
  | [] => [[]]

/-- The group of `input.match(/(?:^|:)(\d{1,3}(?:\.\d{1,3}){3})$/u)`. It has no colon, so that it is
all that follows the last one. -/
def embeddedIpv4 (input : List Char) : Option (List Char) :=
  let last := input.rtakeWhile (· ≠ ':')
  let parts := last.splitOn '.'
  if parts.length = 4 ∧ ∀ part ∈ parts, isDecimalPart part then some last else none

/-- `number.toString(16)` of two numbers of two octets each, with a colon between them. -/
def hexPair : List Nat → List Char
  | [a, b, c, d] => Nat.toDigits 16 (a <<< 8 ||| b) ++ ':' :: Nat.toDigits 16 (c <<< 8 ||| d)
  | _ => []

/-- The bytes of the groups on the two sides of a pair of colons, or of all groups. -/
def expandGroups (left right : List (List Char)) (shortened : Bool) : Option (List Nat) :=
  if ∃ part ∈ left ++ right, ¬ isGroup part then none
  else
    let missing : Int := 8 - left.length - right.length
    if (shortened ∧ missing < 1) ∨ (¬ shortened ∧ missing ≠ 0) then none
    else
      let groups := (left ++ List.replicate missing.toNat ['0'] ++ right).map groupValue
      if groups.length ≠ 8 then none
      else some (groups.flatMap fun group => [group >>> 8, group &&& 0xff])

/-- The end of `parseIpv6`. -/
def parseGroups (input : List Char) : Option (List Nat) :=
  let texts := splitPairs input
  expandGroups (groupParts (texts.getD 0 [])) (groupParts (texts.getD 1 [])) (hasPair input)

/-- `parseIpv6` of a text in lower case and without brackets. -/
def parseIpv6Text (input : List Char) : Option (List Nat) :=
  if ':' ∉ input ∨ '%' ∈ input ∨ 2 < (splitPairs input).length then none
  else
    match embeddedIpv4 input with
    | some embedded =>
        (parseIpv4 embedded).bind fun ipv4 =>
          parseGroups (input.take (input.length - embedded.length) ++ hexPair ipv4)
    | none => parseGroups input

section Lower

variable (toLowerCase : List Char → List Char)

def parseIpv6 (value : List Char) : Option (List Nat) :=
  parseIpv6Text (stripBrackets (toLowerCase value))

/-- `bytes[index]` -/
def byteAt (bytes : List Nat) (index : Nat) : Nat := bytes.getD index 0

def isRejectedIpv6 (bytes : List Nat) : Bool :=
  bytes.all (· == 0)
    || ((bytes.take 15).all (· == 0) && byteAt bytes 15 == 1)
    || byteAt bytes 0 &&& 0xfe == 0xfc
    || (byteAt bytes 0 == 0xfe && byteAt bytes 1 &&& 0xc0 == 0x80)
    || (byteAt bytes 0 == 0xfe && byteAt bytes 1 &&& 0xc0 == 0xc0)
    || byteAt bytes 0 == 0xff
    || (byteAt bytes 0 == 0x20 && byteAt bytes 1 == 0x01 && byteAt bytes 2 == 0x0d
      && byteAt bytes 3 == 0xb8)
    -- The mapped and the compatible addresses.
    || ((bytes.take 10).all (· == 0) && byteAt bytes 10 == 0xff && byteAt bytes 11 == 0xff)
    || (bytes.take 12).all (· == 0)

def isPrivateOrLocalHost (hostname : String) : Bool :=
  let host := stripBrackets (toLowerCase hostname.toList)
  if host = "localhost".toList ∨ ".localhost".toList <:+ host ∨ ".local".toList <:+ host then true
  else
    match parseIpv6 toLowerCase host with
    | some ipv6 => isRejectedIpv6 ipv6
    | none =>
        match parseIpv4 host with
        | some ip => isRejectedIpv4 ip
        | none => '.' ∉ host

/-! ## Urls, addresses and hops -/

structure Url where
  protocol : String
  username : String
  password : String
  hostname : String

/-- What the screening reads of a normalized policy. -/
structure NetworkPolicy where
  allowDomains : List String
  maxRedirects : Nat
  developmentMode : Bool
  allowPrivateDomains : Bool

/-- `policy.developmentMode && policy.allowPrivateDomains` -/
def NetworkPolicy.override (policy : NetworkPolicy) : Bool :=
  policy.developmentMode && policy.allowPrivateDomains

/-- `hostname.toLowerCase().replace(/\.$/u, "")` -/
def domainOf (hostname : String) : String :=
  let text := toLowerCase hostname.toList
  String.ofList (if text.getLast? = some '.' then text.dropLast else text)

variable (parseUrl : Data → Option Url) (policy : NetworkPolicy)

def inspectAllowedUrl (rawUrl : Data) : Checked String := do
  let parsed ← orFail (.contract .domainNotAllowed "provider returned an invalid URL") (parseUrl rawUrl)
  failIf (parsed.protocol ∉ ["http:", "https:"] ∨ parsed.username ≠ "" ∨ parsed.password ≠ "")
    (.contract .domainNotAllowed "only credential-free HTTP(S) URLs are allowed")
  let domain := domainOf toLowerCase parsed.hostname
  failIf (isPrivateOrLocalHost toLowerCase domain ∧ ¬ policy.override)
    (.contract .privateDomainRejected "private and local destinations are rejected")
  failIf (domain ∉ policy.allowDomains)
    (.contract .domainNotAllowed "destination is not in allowDomains")
  return domain

/-- The verdict on the address of a text. -/
def isRejectedAddress (text : List Char) : Bool :=
  match parseIpv4 text with
  | some ipv4 => isRejectedIpv4 ipv4
  | none => isRejectedIpv6 ((parseIpv6 toLowerCase text).getD [])

def assertReportedIp (value : Data) : Checked Unit :=
  match value with
  | .str s => do
      failIf (Data.textLength s < 2 ∨ 64 < Data.textLength s ∨
          JsText.trim (JsText.ofString s) ≠ JsText.ofString s)
        (protocolError "resolvedIps must contain IP literals")
      failIf ((parseIpv4 s.toList).isNone ∧ (parseIpv6 toLowerCase s.toList).isNone)
        (protocolError "resolvedIps must contain valid IP literals")
      failIf (¬ policy.override ∧ isRejectedAddress toLowerCase s.toList)
        (.contract .networkAddressRejected
          "reported destination address is private, local, reserved, multicast, or metadata-reachable")
  | _ => .error (protocolError "resolvedIps must contain IP literals")

/-- The body of the loop over the hops. -/
def inspectHop (hop : Data) : Checked String := do
  assertKnownKeys hop ["url", "resolvedIps"] .providerProtocolError "network hop"
  let domain ← inspectAllowedUrl toLowerCase parseUrl policy (hop.get "url")
  match hop.get "resolvedIps" with
  | .arr resolvedIps => do
      failIf (resolvedIps.length < 1 ∨ 16 < resolvedIps.length)
        (.contract .networkEvidenceRequired "every network hop requires 1..16 resolved IP addresses")
      resolvedIps.forM (assertReportedIp toLowerCase policy)
      return domain
  | _ =>
      .error (.contract .networkEvidenceRequired "every network hop requires 1..16 resolved IP addresses")

/-- The hops of complete evidence. -/
def completeHops (evidence : Data) : Checked (List Data) :=
  let incomplete : Thrown := .contract .networkEvidenceRequired
    "complete network hop evidence is required when networking is enabled"
  match evidence.get "complete", evidence.get "hops" with
  | .bool true, .arr hops => do
      failIf (¬ evidence.isObject ∨ hops.length < 1) incomplete
      return hops
  | _, _ => .error incomplete

/-- The last domain and the last url, or nothing where networking is not allowed. -/
def validateNetworkEvidence (value : Data) : Checked (Option (String × Data)) := do
  let evidence := value.get "networkEvidence"
  if policy.allowDomains.length = 0 then
    failIf (¬ evidence.isUndefined ∨ ¬ (value.get "url").isUndefined ∨
        ¬ (value.get "redirects").isUndefined ∨ ¬ (value.get "finalUrl").isUndefined)
      (.contract .domainNotAllowed "network output is forbidden while allowDomains is empty")
    return none
  else
    let hops ← completeHops evidence
    assertKnownKeys evidence ["complete", "hops"] .providerProtocolError "networkEvidence"
    failIf (policy.maxRedirects < hops.length - 1)
      (.contract .redirectLimitExceeded "provider exceeded maxRedirects")
    let domains ← hops.mapM (inspectHop toLowerCase parseUrl policy)
    return (domains.getLast?).map fun domain => (domain, ((hops.getLast?).getD .undefined).get "url")

end Lower

end Useful.ComputerUse
