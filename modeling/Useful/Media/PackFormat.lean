/-
# Media packs

The documents of `crates/useful-media/src/pack.rs` and the checks on them. A pack is
installed from an archive, a manifest and a signed statement that binds the two. The
contents of files are of any type; what is read from them, with the digests, the
signature check and the parsers, lies outside the repository.
-/

import Useful.Math.Checks
import Useful.Math.Text
import Useful.Math.Unicode
import Mathlib.Data.Finset.Card

namespace Useful.Media

open Useful.Math

inductive MediaPackError
  | trustUnavailable
  | badSignature
  | invalidSchema (detail : String)
  | assetMismatch (detail : String)
  | unsafeArchive (detail : String)
  | unsafePath (detail : String)
  | incompatibleVersion (current minimum : String)
  | alreadyInstalled (target : String)
  | noPrevious (packId : String)
  | io (detail : String)
  | json (detail : String)
  | zip (detail : String)
  deriving DecidableEq, Repr

/-! ## The documents -/

structure CatalogAsset where
  fileName : String
  sha256 : String
  sizeBytes : Nat

structure CatalogPack where
  id : String
  archive : CatalogAsset
  manifest : CatalogAsset
  statement : CatalogAsset
  statementSignatureHex : String
  correspondingSource : CatalogAsset

structure PackComponent where
  name : String
  version : String
  sourceUrl : String
  archiveSha256 : String
  extractedFile : String
  extractedSha256 : String
  sizeBytes : Nat
  license : String

structure PackManifest where
  schemaVersion : String
  distributionStatus : String
  signatureDomain : String
  packId : String
  platform : String
  arch : String
  runtimeLockSha256 : String
  minimumUsefulVersion : String
  correspondingSourceRequired : Bool
  components : List PackComponent

structure SigningStatement where
  schemaVersion : String
  signatureDomain : String
  packId : String
  platform : String
  arch : String
  runtimeLockSha256 : String
  minimumUsefulVersion : String
  manifestSha256 : String
  archiveFile : String
  archiveSha256 : String
  archiveSizeBytes : Nat
  correspondingSourceAssetId : String
  correspondingSourceAssetSha256 : String
  correspondingSourceAssetSizeBytes : Nat

structure CurrentPointer where
  schemaVersion : String
  packId : String
  runtimeLockSha256 : String
  relativePath : String
  mediaPackPublicKeyFingerprint : String
  deriving DecidableEq, Repr

structure InstalledReceipt where
  schemaVersion : String
  status : String
  packId : String
  runtimeLockSha256 : String
  archiveSha256 : String
  correspondingSourceAssetId : String
  correspondingSourceAssetSha256 : String
  mediaPackPublicKeyFingerprint : String

structure ZipEntry (β : Type) where
  name : String
  isDir : Bool
  isSymlink : Bool
  size : Nat
  content : β

structure Url where
  scheme : String
  username : String
  hasPassword : Bool
  hasFragment : Bool
  hasHost : Bool

/-- What lies outside the repository, for file contents `β`, public keys `K` and
versions `V`. -/
structure External (β K V : Type) where
  length : β → Nat
  sha256Hex : β → String
  textBytes : String → β
  /-- `VerifyingKey::from_bytes` on the bytes of a hexadecimal text. -/
  verifyingKey : String → Option K
  /-- `sha256_hex` on the bytes of a hexadecimal text. -/
  fingerprint : String → String
  /-- `verify_strict` with a signature given in hexadecimal. -/
  verifyStrict : K → β → String → Bool
  parseVersion : String → Option V
  parseUrl : String → Option Url
  parseStatement : β → Except String SigningStatement
  parseManifest : β → Except String PackManifest
  parsePointer : β → Except String CurrentPointer
  parseReceipt : β → Except String InstalledReceipt
  /-- `to_string_pretty` and a line break. -/
  pointerBytes : CurrentPointer → β
  receiptBytes : InstalledReceipt → β
  zipEntries : β → Except String (List (ZipEntry β))

def packSchema : String := "useful.media-pack.v1"
def packSignatureDomain : String := "useful-media-pack-v1"
def statementSchema : String := "useful.media-pack-signing-statement.v1"
def pointerSchema : String := "useful.media-pack-current.v1"
def receiptSchema : String := "useful.media-pack-installed.v1"
def maxSmallAssetBytes : Nat := 1024 * 1024
def maxArchiveBytes : Nat := 512 * 1024 * 1024
def maxPointerBytes : Nat := 16 * 1024

/-! ## Single values -/

/-- `validate_pack_id`. -/
def validatePackId (value : String) : Except MediaPackError Unit :=
  failIf (value ≠ "preview" ∧ value ≠ "transcode") (.invalidSchema "unknown pack id")

/-- `is_lower_hex`. -/
def isLowerHex (value : List Char) (length : Nat) : Bool :=
  value.length == length && value.all fun c => c.isDigit || ('a' ≤ c && c ≤ 'f')

theorem isLowerHex_replicate {n : Nat} {c : Char} (h : c.isDigit || ('a' ≤ c && c ≤ 'f')) :
    isLowerHex (String.ofList (List.replicate n c)).toList n = true := by
  simp only [isLowerHex, String.toList_ofList, List.length_replicate, beq_self_eq_true,
    Bool.true_and, List.all_eq_true, List.mem_replicate]
  intro d hd
  rw [hd.2]
  exact h

/-- `validate_sha`. -/
def validateSha (value label : String) : Except MediaPackError Unit :=
  failIf (isLowerHex value.toList 64 = false) (.invalidSchema label)

/-- `validate_basename`. A name without separators and colons is its own file name,
unless it is a dot or two. -/
def validateBasename (value label : String) : Except MediaPackError Unit :=
  failIf (value = "" ∨ (utf8 value.toList).length > 160 ∨ value = "." ∨ value = ".." ∨
      value.toList.any fun c => c = '/' ∨ c = '\\' ∨ c = ':')
    (.invalidSchema label)

section Checks

variable {β K V : Type} (env : External β K V)

/-- `validate_https`. -/
def validateHttps (value label : String) : Except MediaPackError Unit := do
  let url ← orFail (.invalidSchema label) (env.parseUrl value)
  failIf (url.scheme ≠ "https" ∨ url.username ≠ "" ∨ url.hasPassword ∨ url.hasFragment ∨
    url.hasHost = false) (.invalidSchema label)

/-- `parse_public_key`. -/
def parsePublicKey (publicKeyHex : String) : Except MediaPackError K := do
  failIf (isLowerHex publicKeyHex.toList 64 = false ∨ publicKeyHex.toList.all (· = '0'))
    .trustUnavailable
  orFail .trustUnavailable (env.verifyingKey publicKeyHex)

/-- `verify_detached`. -/
def verifyDetached (bytes : β) (signatureHex : String) (key : K) : Except MediaPackError Unit := do
  let trimmed := trim signatureHex.toList
  failIf (isLowerHex trimmed 128 = false) .badSignature
  failIf (env.verifyStrict key bytes (String.ofList trimmed) = false) .badSignature

/-- `verify_catalog_asset_bytes` and `verify_catalog_asset_file`. -/
def verifyCatalogAsset (asset : CatalogAsset) (bytes : β) (label : String) :
    Except MediaPackError Unit :=
  failIf (env.length bytes ≠ asset.sizeBytes ∨ env.sha256Hex bytes ≠ asset.sha256)
    (.assetMismatch label)

/-! ## Statement and manifest -/

/-- `validate_statement`. -/
def validateStatement (statement : SigningStatement) (pack : CatalogPack)
    (manifest : PackManifest) : Except MediaPackError Unit := do
  failIf (statement.schemaVersion ≠ statementSchema ∨
      statement.signatureDomain ≠ packSignatureDomain ∨
      statement.packId ≠ pack.id ∨
      statement.platform ≠ "windows" ∨
      statement.arch ≠ "x64" ∨
      statement.runtimeLockSha256 ≠ manifest.runtimeLockSha256 ∨
      statement.minimumUsefulVersion ≠ manifest.minimumUsefulVersion ∨
      statement.manifestSha256 ≠ pack.manifest.sha256 ∨
      statement.archiveFile ≠ pack.archive.fileName ∨
      statement.archiveSha256 ≠ pack.archive.sha256 ∨
      statement.archiveSizeBytes ≠ pack.archive.sizeBytes ∨
      statement.correspondingSourceAssetId ≠ pack.correspondingSource.fileName ∨
      statement.correspondingSourceAssetSha256 ≠ pack.correspondingSource.sha256 ∨
      statement.correspondingSourceAssetSizeBytes ≠ pack.correspondingSource.sizeBytes)
    (.invalidSchema "signed statement binding")
  validateSha statement.runtimeLockSha256 "runtime lock SHA-256"

/-- The component names of a pack. -/
def expectedComponents (packId : String) : Except MediaPackError (Finset String) :=
  if packId = "preview" then .ok {"mpv"}
  else if packId = "transcode" then .ok {"ffmpeg", "ffprobe"}
  else .error (.invalidSchema "pack id")

/-- `u64::saturating_add`. -/
def saturatingAdd (a b : Nat) : Nat := min (a + b) (2 ^ 64 - 1)

/-- The loop over the components, with the size extracted so far. -/
def checkComponents (totalExtracted : Nat) : List PackComponent → Except MediaPackError Unit
  | [] => return ()
  | component :: rest => do
      validateBasename component.extractedFile "component filename"
      validateSha component.extractedSha256 "component SHA-256"
      validateSha component.archiveSha256 "component archive SHA-256"
      validateHttps env component.sourceUrl "component source URL"
      let totalExtracted := saturatingAdd totalExtracted component.sizeBytes
      failIf (component.version = "" ∨ component.license = "" ∨ component.sizeBytes = 0 ∨
        component.sizeBytes > maxArchiveBytes ∨ totalExtracted > maxArchiveBytes)
        (.invalidSchema "component facts")
      let name := component.name
      failIf (component.extractedFile ≠ s!"{name}.exe")
        (.invalidSchema "component filename mapping")
      checkComponents totalExtracted rest

/-- `validate_manifest`. -/
def validateManifest (manifest : PackManifest) (expectedPack : String) :
    Except MediaPackError Unit := do
  failIf (manifest.schemaVersion ≠ packSchema ∨
      manifest.distributionStatus ≠ "unsigned-candidate" ∨
      manifest.signatureDomain ≠ packSignatureDomain ∨
      manifest.packId ≠ expectedPack ∨
      manifest.platform ≠ "windows" ∨
      manifest.arch ≠ "x64" ∨
      manifest.correspondingSourceRequired = false)
    (.invalidSchema "pack manifest identity")
  validateSha manifest.runtimeLockSha256 "runtime lock SHA-256"
  let _ ← orFail (.invalidSchema "minimum Useful version")
    (env.parseVersion manifest.minimumUsefulVersion)
  let expected ← expectedComponents expectedPack
  let actual := (manifest.components.map PackComponent.name).toFinset
  failIf (actual ≠ expected ∨ actual.card ≠ manifest.components.length)
    (.invalidSchema "pack component closure")
  checkComponents env 0 manifest.components

/-! ## The archive -/

/-- What may lie in the directory of a pack. -/
inductive PackFile (β : Type)
  | file (content : β)
  | other

/-- The contents of the directory of a pack. -/
abbrev Payload (β : Type) := String → Option (PackFile β)

/-- The files an archive must hold, with size and digest where the manifest has them. -/
def expectedEntries (manifest : PackManifest) : List (String × Option (Nat × String)) :=
  [("MEDIA-PACK.json", none), ("UNSIGNED-CANDIDATE.txt", none)] ++
    manifest.components.map fun component =>
      (component.extractedFile, some (component.sizeBytes, component.extractedSha256))

/-- The check on the contents of one extracted entry. -/
def checkEntry (manifestBytes : β) (relative : String) (fact : Option (Nat × String))
    (content : β) : Except MediaPackError Unit :=
  let written := env.length content
  let hash := env.sha256Hex content
  match fact with
  | some (size, expectedHash) =>
      failIf (written ≠ size ∨ hash ≠ expectedHash) (.assetMismatch relative)
  | none =>
      failIf (¬ (relative = "MEDIA-PACK.json" ∧ written = env.length manifestBytes ∧
          hash = env.sha256Hex manifestBytes) ∧
        ¬ (relative = "UNSIGNED-CANDIDATE.txt" ∧ written > 0)) (.assetMismatch relative)

/-- The loop over the entries of the archive. -/
def extractEntries (manifest : PackManifest) (manifestBytes : β) (seen : List String)
    (payload : Payload β) : List (ZipEntry β) → Except MediaPackError (List String × Payload β)
  | [] => return (seen, payload)
  | entry :: rest => do
      let packId := manifest.packId
      let root := s!"Useful-Media-Pack-{packId}-windows-x64/"
      failIf (entry.isDir ∨ entry.isSymlink) (.unsafeArchive entry.name)
      failIf (root.toList.isPrefixOf entry.name.toList = false) (.unsafeArchive entry.name)
      let relative := String.ofList (entry.name.toList.drop root.toList.length)
      validateBasename relative "ZIP entry"
      let fact ← orFail (.unsafeArchive entry.name) ((expectedEntries manifest).lookup relative)
      failIf (relative ∈ seen) (.unsafeArchive "duplicate entry")
      let maximum := match fact with
        | some (size, _) => size
        | none => maxSmallAssetBytes
      failIf (entry.size > maximum) (.unsafeArchive "entry size")
      failIf (env.length entry.content > maximum) (.unsafeArchive "entry expanded past limit")
      checkEntry env manifestBytes relative fact entry.content
      extractEntries manifest manifestBytes (relative :: seen)
        (fun name => if name = relative then some (.file entry.content) else payload name) rest

/-- `extract_closed_archive` into an empty directory. -/
def extractClosedArchive (archive : β) (manifest : PackManifest) (manifestBytes : β) :
    Except MediaPackError (Payload β) := do
  let entries ← (env.zipEntries archive).mapError .zip
  let (seen, payload) ← extractEntries env manifest manifestBytes [] (fun _ => none) entries
  failIf (seen.toFinset ≠ ((expectedEntries manifest).map Prod.fst).toFinset)
    (.unsafeArchive "incomplete entry set")
  return payload

end Checks

end Useful.Media
