/-
# The metadata the server signs

The documents of `services/internal/tufmeta/tufmeta.go`, the gate an artifact passes
before it becomes a target, and the names of targets. A release of metadata is the three
documents of one version, each but the first pinned by its parent with length, digest
and version.
-/

import Useful.Interop.CanonicalJson
import Useful.Server.Domain

namespace Useful.Server

open Useful.Math Useful.TufMeta

/-- `domain.ScanResult`, with the flags that decide what happens to an artifact. -/
structure ScanResult where
  structureSafe : Bool
  manifestValid : Bool
  permissionsReviewed : Bool
  isNativeWorker : Bool
  executableHashes : List String
  hasSBOM : Bool
  findings : List String
  passed : Bool

/-- What `readArchiveContents` reads from a package, as far as the service uses it. -/
structure ArchiveContents where
  manifestDigest : String
  schemaVersion : Int
  id : String
  version : String
  permissions : List String
  entryType : String
  isNativeWorker : Bool
  executableHashes : List String
  hasSBOM : Bool

/-- What lies outside the service: digests, signatures, serialization, the clock format
and the reading of archives. File contents are of any type `β`. -/
structure External (β : Type) where
  length : β → Nat
  sha256Hex : β → String
  /-- `sha256Hex` of the bytes of a text. -/
  sha256Text : String → String
  /-- The digest of `json.Marshal` of a list of texts. -/
  identityDigest : List String → String
  /-- `ed25519.Verify` on a public key, a text and a signature in lower-case digits. -/
  ed25519Verify : String → String → String → Bool
  /-- The signature, in lower-case digits, with the private key of a public one. -/
  ed25519Sign : String → List Char → String
  /-- The text of an error of `hex.DecodeString`. -/
  hexError : String → String
  /-- `json.MarshalIndent` and a line break. -/
  marshalIndent : Json GoNumber → β
  marshalScanResult : ScanResult → String
  /-- `Format("2006-01-02T15:04:05Z")`. -/
  formatTime : Int → String
  readArchive : β → Except String ArchiveContents

/-! ## Documents -/

structure Key where
  keyID : String
  publicHex : String
  hasPrivate : Bool

structure TargetEntry where
  length : Nat
  sha256 : String
  custom : List (String × Json GoNumber)

def specVersion : String := "1.0.0"

/-- `ExpiresIn`. -/
def expiresIn (days now : Int) : Int := now + days * 86400

def targetJson (target : TargetEntry) : Json GoNumber :=
  .obj [("length", .num (.int target.length)),
    ("hashes", .obj [("sha256", .str target.sha256)]),
    ("custom", .obj target.custom)]

section

variable {β : Type} (env : External β)

/-- `BuildTargets`. -/
def buildTargets (version expires : Int) (targets : List (String × TargetEntry)) :
    Json GoNumber :=
  .obj [("_type", .str "targets"), ("spec_version", .str specVersion),
    ("version", .num (.int version)), ("expires", .str (env.formatTime expires)),
    ("targets", .obj (targets.map fun target => (target.1, targetJson target.2)))]

/-- `metaEntry`. -/
def metaEntry (bytes : β) (version : Int) : Json GoNumber :=
  .obj [("version", .num (.int version)), ("length", .num (.int (env.length bytes))),
    ("hashes", .obj [("sha256", .str (env.sha256Hex bytes))])]

/-- `BuildSnapshot`. -/
def buildSnapshot (version expires : Int) (targetsBytes : β) (targetsVersion : Int) :
    Json GoNumber :=
  .obj [("_type", .str "snapshot"), ("spec_version", .str specVersion),
    ("version", .num (.int version)), ("expires", .str (env.formatTime expires)),
    ("meta", .obj [("targets.json", metaEntry env targetsBytes targetsVersion)])]

/-- `BuildTimestamp`. -/
def buildTimestamp (version expires : Int) (snapshotBytes : β) (snapshotVersion : Int) :
    Json GoNumber :=
  .obj [("_type", .str "timestamp"), ("spec_version", .str specVersion),
    ("version", .num (.int version)), ("expires", .str (env.formatTime expires)),
    ("meta", .obj [("snapshot.json", metaEntry env snapshotBytes snapshotVersion)])]

/-- `Sign` with one key: the signature covers the canonical text. The serializer sorts
the keys of a map. -/
def sign (signed : Json GoNumber) (key : Key) : Except ServerError β := do
  let message ← (canonicalJSON signed).mapError .failure
  let keyID := key.keyID
  failIf (key.hasPrivate = false) (.failure s!"密钥 {keyID} 无私钥")
  let signature := .obj [("keyid", .str key.keyID),
    ("sig", .str (env.ed25519Sign key.publicHex message))]
  return env.marshalIndent (Json.sortKeys Tuf.byteLe
    (.obj [("signatures", .arr [signature]), ("signed", signed)]))

/-- The keys and expiry windows of the service. -/
structure MetadataKeys where
  targetsKey : Key
  snapshotKey : Key
  timestampKey : Key
  targetsExpireDays : Int
  snapshotExpireDays : Int
  timestampExpireDays : Int

/-- The bytes of the three documents of one version. -/
structure Release (β : Type) where
  targetsBytes : β
  snapshotBytes : β
  timestampBytes : β

/-- The three documents `publishMetadataLocked` signs. -/
def signRelease (keys : MetadataKeys) (version now : Int) (targets : List (String × TargetEntry)) :
    Except ServerError (Release β) := do
  let targetsBytes ← sign env
    (buildTargets env version (expiresIn keys.targetsExpireDays now) targets) keys.targetsKey
  let snapshotBytes ← sign env
    (buildSnapshot env version (expiresIn keys.snapshotExpireDays now) targetsBytes version)
    keys.snapshotKey
  let timestampBytes ← sign env
    (buildTimestamp env version (expiresIn keys.timestampExpireDays now) snapshotBytes version)
    keys.timestampKey
  return ⟨targetsBytes, snapshotBytes, timestampBytes⟩

/-! ## Proofs of the publisher -/

/-- `SigningPayload`. -/
def signingPayload (toolID version sha256 : String) : String :=
  "useful-artifact-v1\n" ++ toolID ++ "\n" ++ version ++ "\n" ++ sha256.toLower

/-- `hex.DecodeString` accepts the text. -/
def isHexText (text : List Char) : Bool :=
  text.length % 2 == 0 && text.all fun c => isHexDigit c.toLower

theorem toLower_of_isHexDigit {c : Char} (h : isHexDigit c = true) : c.toLower = c := by
  refine dif_neg ?_
  simp only [isHexDigit, Char.isDigit, Bool.or_eq_true, Bool.and_eq_true, decide_eq_true_eq,
    Char.le_def] at h
  simp only [UInt32.le_iff_toNat_le, ge_iff_le] at h ⊢
  have h0 : '0'.val.toNat = 48 := rfl
  have h9 : '9'.val.toNat = 57 := rfl
  have ha : 'a'.val.toNat = 97 := rfl
  have hA : 'A'.val.toNat = 65 := rfl
  have hZ : 'Z'.val.toNat = 90 := rfl
  omega

theorem isHexText_of_digits {text : List Char} (heven : text.length % 2 = 0)
    (hdigits : text.all isHexDigit = true) : isHexText text = true := by
  refine Bool.and_eq_true_iff.mpr ⟨beq_iff_eq.mpr heven, List.all_eq_true.mpr fun c hc => ?_⟩
  have hdigit := List.all_eq_true.mp hdigits c hc
  rw [toLower_of_isHexDigit hdigit, hdigit]

/-- `VerifyPublisherSignature`. -/
def verifyPublisherSignature (publisherKeyID toolID version sha256 sigHex : String) :
    Except String Unit := do
  failIf (isEd25519PublisherKey publisherKeyID = false)
    "发布者密钥必须是 canonical ed25519:[a-f0-9]\x7b64\x7d"
  let detail := env.hexError sigHex
  failIf (isHexText sigHex.toList = false) s!"签名不是合法 hex: {detail}"
  failIf (sigHex.toList.length ≠ 128) "签名长度必须为 64 字节"
  failIf (env.ed25519Verify (String.ofList (publisherKeyID.toList.drop 8))
    (signingPayload toolID version sha256) sigHex.toLower = false) "发布者签名验证失败"

def firstReleaseSigstoreUnsupported : String :=
  "first publication requires an Ed25519 publisher proof; Sigstore artifacts are not installable until an independently verifiable client proof is supported"

def legacyProofRevalidationRequired : String :=
  "legacy artifact has no independently verifiable publisher proof; explicit re-release or revalidation is required"

/-- `ValidateArtifactPublisherTrust`. -/
def validateArtifactPublisherTrust (art : Artifact) : Except ServerError Unit := do
  failIf (art.publisherSignatureVerified = false ∨
      (art.signatureMethod ≠ "sigstore" ∧ art.publisherSignature = ""))
    (.forbidden legacyProofRevalidationRequired)
  if art.signatureMethod = "ed25519" then
    failIf (isEd25519PublisherKey art.publisherKeyID = false ∨ isLowercaseID art.toolID = false ∨
        isSemver art.version = false ∨ isSHA256 art.sha256 = false ∨
        art.publisherSignature = "" ∨ art.publisherSignature ≠ art.publisherSignature.toLower ∨
        art.signatureIdentity ≠ art.publisherKeyID)
      (.forbidden "Ed25519 publisher proof 元数据不一致")
    (verifyPublisherSignature env art.publisherKeyID art.toolID art.version art.sha256
      art.publisherSignature).mapError fun _ => .forbidden "Ed25519 publisher proof 无效"
  else if art.signatureMethod = "sigstore" then
    .error (.forbidden firstReleaseSigstoreUnsupported)
  else
    .error (.forbidden "publisher proof method 非法")

/-! ## Targets -/

/-- The text of a UUID in canonical form. -/
def isCanonicalUUID (text : List Char) : Bool :=
  text.length == 36 && text.zipIdx.all fun c =>
    if c.2 = 8 ∨ c.2 = 13 ∨ c.2 = 18 ∨ c.2 = 23 then c.1 == '-' else isHexDigit c.1

/-- `art_` and a UUID. -/
def isCanonicalArtifactID (id : String) : Bool :=
  "art_".toList.isPrefixOf id.toList && isCanonicalUUID (id.toList.drop 4)

/-- The fields a target name is the digest of. -/
def Artifact.targetIdentity (art : Artifact) : List String :=
  [art.publisherKeyID, art.toolID, art.version, art.platform, art.arch, art.id]

/-- `ArtifactTargetName`. -/
def artifactTargetName (art : Artifact) : Except ServerError String := do
  failIf (isSHA256 art.sha256 = false ∨ isPublisherKey art.publisherKeyID = false ∨
      isLowercaseID art.toolID = false ∨ isSemver art.version = false ∨
      art.platform ∉ ["windows", "macos", "linux"] ∨ art.arch ∉ ["x86_64", "aarch64"] ∨
      isCanonicalArtifactID art.id = false)
    (.invalidInput "artifact identity is not canonical")
  return env.identityDigest art.targetIdentity ++ ".useful"

/-- The entry of an artifact in the targets table. -/
def targetEntry (art : Artifact) : TargetEntry where
  length := art.size
  sha256 := art.sha256
  custom := [
    ("publisherKeyId", .str art.publisherKeyID),
    ("toolId", .str art.toolID),
    ("version", .str art.version),
    ("channel", .str art.channel),
    ("platform", .str art.platform),
    ("arch", .str art.arch),
    ("artifactSha256", .str art.sha256),
    ("publisherSignatureVerified", .bool art.publisherSignatureVerified),
    ("publisherSignatureMethod", .str art.signatureMethod),
    ("publisherSignaturePayloadVersion", .str "useful-artifact-v1"),
    ("publisherSignature", .str art.publisherSignature),
    ("signatureIdentity", .str art.signatureIdentity)]

/-- The loop over the artifacts to publish, with the targets so far. -/
def collectTargets (targets : List (String × TargetEntry)) :
    List Artifact → Except ServerError (List (String × TargetEntry))
  | [] => .ok targets
  | art :: rest => do
      validateArtifactPublisherTrust env art
      let targetName ← artifactTargetName env art
      failIf (targetName ∈ targets.map Prod.fst)
        (.conflict "duplicate stable artifact target identity")
      collectTargets (targets ++ [(targetName, targetEntry art)]) rest

end

end Useful.Server
