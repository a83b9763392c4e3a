/-
# Domain types of the source server

The rows of `services/internal/domain/domain.go` that publishing reads and writes, the
grammars of their identifiers, and the order in which an artifact may change its status.
Times are seconds since the epoch.
-/

import Useful.Math.Checks
import Mathlib.Logic.Relation

namespace Useful.Server

open Useful.Math

/-- What `errors.Is` tells apart. -/
inductive ErrorKind
  | notFound
  | conflict
  | invalidInput
  | forbidden
  | objectConflict
  | failure
  deriving DecidableEq, Repr

structure ServerError where
  kind : ErrorKind
  text : String
  deriving DecidableEq, Repr

namespace ServerError

/-- An error value wrapped with `%w: detail`, or bare. -/
def wrap (kind : ErrorKind) (text detail : String) : ServerError :=
  ⟨kind, if detail = "" then text else text ++ ": " ++ detail⟩

def notFound (detail : String) : ServerError := wrap .notFound "not found" detail
def conflict (detail : String) : ServerError := wrap .conflict "conflict" detail
def invalidInput (detail : String) : ServerError := wrap .invalidInput "invalid input" detail
def forbidden (detail : String) : ServerError := wrap .forbidden "forbidden" detail

def objectConflict : ServerError :=
  ⟨.objectConflict, "immutable object key contains different bytes"⟩

/-- An error of the infrastructure. -/
def failure (text : String) : ServerError := ⟨.failure, text⟩

/-- An error with more text after it. -/
def also (e : ServerError) (detail : String) : ServerError := ⟨e.kind, e.text ++ ": " ++ detail⟩

/-- An error with more text before it. -/
def within (context : String) (e : ServerError) : ServerError :=
  ⟨e.kind, context ++ ": " ++ e.text⟩

end ServerError

/-! ## Grammars -/

/-- `[a-f0-9]`. -/
def isHexDigit (c : Char) : Bool := c.isDigit || ('a' ≤ c && c ≤ 'f')

/-- `[a-z0-9]`. -/
def isLowerAlnum (c : Char) : Bool := c.isDigit || ('a' ≤ c && c ≤ 'z')

/-- `[a-z0-9._-]`. -/
def isIdChar (c : Char) : Bool := isLowerAlnum c || c == '.' || c == '_' || c == '-'

/-- `^[a-z0-9]([a-z0-9._-]*[a-z0-9])?$`. -/
def isIdText (text : List Char) : Bool :=
  (text.head?.any isLowerAlnum) && (text.getLast?.any isLowerAlnum) && text.all isIdChar

/-- `IsLowercaseID`. -/
def isLowercaseID (s : String) : Bool := s.toList.length ≤ 200 && isIdText s.toList

/-- `IsSHA256`. -/
def isSHA256 (s : String) : Bool := s.toList.length == 64 && s.toList.all isHexDigit

/-- `0|[1-9]\d*`. -/
def isNumeral (text : List Char) : Bool :=
  text.all Char.isDigit && (text == ['0'] || (text.head?.any fun c => c != '0'))

/-- `[0-9A-Za-z.-]+`. -/
def isSemverSuffix (text : List Char) : Bool :=
  !text.isEmpty && text.all fun c => c.isAlphanum || c == '.' || c == '-'

/-- The text before the first `c`, and the text after it if there is one. -/
def cut (c : Char) : List Char → List Char × Option (List Char)
  | [] => ([], none)
  | d :: rest => if d = c then ([], some rest) else ((d :: (cut c rest).1), (cut c rest).2)

/-- The three numerals of a version. -/
def isSemverCore (text : List Char) : Bool :=
  match cut '.' text with
  | (major, some rest) =>
      match cut '.' rest with
      | (minor, some patch) => isNumeral major && isNumeral minor && isNumeral patch
      | (_, none) => false
  | (_, none) => false

/-- `semverRe`: a plus sign can only begin the build, and a hyphen before it the
pre-release. -/
def isSemverText (text : List Char) : Bool :=
  let (version, build) := cut '+' text
  let (core, pre) := cut '-' version
  isSemverCore core && pre.all isSemverSuffix && build.all isSemverSuffix

/-- `IsSemver`. -/
def isSemver (s : String) : Bool := s.toList.length ≤ 256 && isSemverText s.toList

/-- `^ed25519:[a-f0-9]{64}$`. -/
def isEd25519PublisherKey (s : String) : Bool :=
  "ed25519:".toList.isPrefixOf s.toList &&
    (s.toList.drop 8).length == 64 && (s.toList.drop 8).all isHexDigit

/-- `IsSigstorePublisherKey`: at most 64 characters after the scheme. -/
def isSigstorePublisherKey (s : String) : Bool :=
  "sigstore:".toList.isPrefixOf s.toList &&
    (s.toList.drop 9).length ≤ 64 && isIdText (s.toList.drop 9)

def isPublisherKey (s : String) : Bool := isEd25519PublisherKey s || isSigstorePublisherKey s

/-! ## Rows -/

structure Publisher where
  id : String
  displayName : String
  keyID : String
  createdAt : Int
  identityIssuer : String
  identitySANExact : String
  identitySANPattern : String
  deriving DecidableEq

structure Tool where
  publisherKeyID : String
  toolID : String
  name : String
  summary : String
  license : String
  accessMode : String
  productID : String
  isNativeWorker : Bool
  createdAt : Int
  deriving DecidableEq

inductive ArtifactStatus
  | staged
  | scanned
  | approved
  | publishPending
  | withdrawPending
  | published
  | rejected
  | withdrawn
  deriving DecidableEq, Repr

/-- `CanTransitionArtifactStatus`. -/
def canTransition (source target : ArtifactStatus) : Bool :=
  source == target ||
    match source with
    | .staged => target == .scanned || target == .rejected
    | .scanned => target == .publishPending || target == .rejected
    | .publishPending => target == .published
    | .published => target == .withdrawPending
    | .withdrawPending => target == .withdrawn
    | _ => false

structure Artifact where
  id : String
  publisherKeyID : String
  toolID : String
  version : String
  channel : String
  platform : String
  arch : String
  sha256 : String
  manifestDigest : String
  size : Nat
  fileName : String
  permissions : List String
  status : ArtifactStatus
  createdAt : Int
  publishedAt : Option Int
  publisherSignatureVerified : Bool
  signatureMethod : String
  publisherSignature : String
  signatureIdentity : String
  securityScanPassed : Bool
  officialReviewPassed : Bool
  isNativeWorker : Bool
  sbomDigest : String
  scanResultJSON : String
  reproStatus : String
  reproStrategy : String
  deriving DecidableEq

/-- What `artIdentityKey` joins. -/
def Artifact.identity (art : Artifact) : String × String × String × String × String :=
  (art.publisherKeyID, art.toolID, art.version, art.platform, art.arch)

inductive UploadSessionStatus
  | open
  | completed
  | releaseClaimed
  | failed
  deriving DecidableEq, Repr

structure UploadSession where
  id : String
  publisherKeyID : String
  stagingKey : String
  declaredSHA256 : String
  declaredSize : Nat
  status : UploadSessionStatus
  error : String
  artifactID : String
  createdAt : Int
  deriving DecidableEq

structure Job where
  id : String
  kind : String
  payload : String
  createdAt : Int
  deriving DecidableEq

/-! ## The order of statuses -/

/-- The states an artifact can still reach, however many transitions that takes. -/
def ArtifactStatus.Leads : ArtifactStatus → ArtifactStatus → Prop :=
  Relation.ReflTransGen fun source target => canTransition source target = true

/-- An artifact from which bytes have been copied for good. -/
def ArtifactStatus.isReleased : ArtifactStatus → Bool
  | .publishPending | .published | .withdrawPending | .withdrawn => true
  | _ => false

end Useful.Server
