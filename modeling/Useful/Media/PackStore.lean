/-
# Installing, activating and rolling back media packs

Below the install root lie one directory for each runtime lock and pack, and for each
pack the file of the current pointer and that of the previous one. A pointer is read
with a shallow check of its target; an install and a rollback check the target's
files one by one.

Directories and pointer files that an install sets aside as damaged are never read
again and are left out, as are the staging directories.
-/

import Useful.Math.Program
import Useful.Media.PackFormat
import Mathlib.Logic.Function.Basic

namespace Useful.Media

open Useful.Math Useful.Math.Program

/-- The install root: directories by runtime lock and pack, and the pointer files by
pack, the previous one under `true`. -/
structure PackRoot (β : Type) where
  payloads : String → String → Option (Payload β)
  pointers : String → Bool → Option β

namespace PackRoot

variable {β : Type}

def setPayload (root : PackRoot β) (lock packId : String) (payload : Option (Payload β)) :
    PackRoot β :=
  let packs := Function.update (root.payloads lock) packId payload
  { root with payloads := Function.update root.payloads lock packs }

def setPointer (root : PackRoot β) (packId : String) (previous : Bool) (bytes : Option β) :
    PackRoot β :=
  let files := Function.update (root.pointers packId) previous bytes
  { root with pointers := Function.update root.pointers packId files }

@[simp] theorem payloads_setPointer (root : PackRoot β) (packId : String) (previous : Bool)
    (bytes : Option β) : (root.setPointer packId previous bytes).payloads = root.payloads :=
  rfl

@[simp] theorem pointers_setPayload (root : PackRoot β) (lock packId : String)
    (payload : Option (Payload β)) : (root.setPayload lock packId payload).pointers = root.pointers :=
  rfl

@[simp] theorem payloads_setPayload_self (root : PackRoot β) (lock packId : String)
    (payload : Option (Payload β)) :
    (root.setPayload lock packId payload).payloads lock packId = payload := by
  simp [setPayload]

theorem payloads_setPayload_of_ne {lock lock' : String} (h : lock' ≠ lock) (root : PackRoot β)
    (packId : String) (payload : Option (Payload β)) :
    (root.setPayload lock packId payload).payloads lock' = root.payloads lock' :=
  Function.update_of_ne h _ _

@[simp] theorem pointers_setPointer_self (root : PackRoot β) (packId : String) (previous : Bool)
    (bytes : Option β) : (root.setPointer packId previous bytes).pointers packId previous = bytes := by
  simp [setPointer]

/-- Writing the current pointer leaves the previous one alone. -/
@[simp] theorem previous_setPointer_current (root : PackRoot β) (packId : String)
    (bytes : Option β) :
    (root.setPointer packId false bytes).pointers packId true = root.pointers packId true := by
  simp [setPointer]

@[simp] theorem setPayload_setPayload (root : PackRoot β) (lock packId : String)
    (payload payload' : Option (Payload β)) :
    (root.setPayload lock packId payload).setPayload lock packId payload' =
      root.setPayload lock packId payload' := by
  simp [setPayload]

@[simp] theorem setPointer_setPointer (root : PackRoot β) (packId : String) (previous : Bool)
    (bytes bytes' : Option β) :
    (root.setPointer packId previous bytes).setPointer packId previous bytes' =
      root.setPointer packId previous bytes' := by
  simp [setPointer]

end PackRoot

/-- The file operations that may fail. -/
inductive PackSite
  | ensureInstallRoot
  | ensureLockRoot
  | createStaging
  | extract
  | writeStatement
  | writeSignature
  | writeReceipt
  | moveDamaged
  | moveTarget
  | restoreDamaged
  | writePrevious
  | moveCurrent
  | writeCurrent
  deriving DecidableEq, Repr

structure InstallInput (β : Type) where
  pack : CatalogPack
  publicKeyHex : String
  archive : β
  manifestBytes : β
  statementBytes : β
  currentUsefulVersion : String

section Store

variable {β K V : Type} (env : External β K V)

/-! ## Reading -/

/-- Where the payload of a pointer lies below the root. -/
def relativePath (lock packId : String) : String := s!"{lock}/{packId}"

/-- The conditions of `validate_pointer` on the pointer alone. -/
def isCurrentPointer (pointer : CurrentPointer) (expectedPack : String) : Bool :=
  pointer.schemaVersion == pointerSchema && pointer.packId == expectedPack &&
    isLowerHex pointer.runtimeLockSha256.toList 64 &&
    isLowerHex pointer.mediaPackPublicKeyFingerprint.toList 64 &&
    pointer.relativePath == relativePath pointer.runtimeLockSha256 expectedPack

/-- `is_file` of a path in a directory. -/
def isFile (target : Payload β) (name : String) : Bool :=
  match target name with
  | some (.file _) => true
  | _ => false

/-- `validate_pointer`. -/
def validatePointer (root : PackRoot β) (pointer : CurrentPointer) (expectedPack : String) :
    Except MediaPackError Unit := do
  failIf (isCurrentPointer pointer expectedPack = false) (.invalidSchema "current pointer")
  let target ← orFail (.io "entity not found")
    (root.payloads pointer.runtimeLockSha256 expectedPack)
  failIf (isFile target "INSTALLED.json" = false) (.invalidSchema "installed receipt missing")

/-- The pointer a pointer file holds, before it is validated. -/
def parsePointerFile (bytes : β) : Except MediaPackError CurrentPointer := do
  failIf (env.length bytes = 0 ∨ env.length bytes > maxPointerBytes)
    (.invalidSchema "current pointer size")
  (env.parsePointer bytes).mapError .json

/-- `read_pointer`. -/
def readPointer (root : PackRoot β) (packId : String) (previous : Bool) :
    Except MediaPackError CurrentPointer := do
  validatePackId packId
  let bytes ← orFail (.io "entity not found") (root.pointers packId previous)
  let pointer ← parsePointerFile env bytes
  validatePointer root pointer packId
  return pointer

/-- A regular file of a directory. -/
def readFile (target : Payload β) (name : String) : Except MediaPackError β :=
  match target name with
  | some (.file content) => .ok content
  | some .other => .error (.io "not a file")
  | none => .error (.io "entity not found")

/-- `read_installed_manifest`. -/
def readInstalledManifest (root : PackRoot β) (pointer : CurrentPointer) :
    Except MediaPackError (Payload β × PackManifest) := do
  let target ← orFail (.io "entity not found")
    (root.payloads pointer.runtimeLockSha256 pointer.packId)
  let manifestBytes ← readFile target "MEDIA-PACK.json"
  failIf (env.length manifestBytes = 0 ∨ env.length manifestBytes > maxSmallAssetBytes)
    (.invalidSchema "installed manifest size")
  let manifest ← (env.parseManifest manifestBytes).mapError .json
  validateManifest env manifest pointer.packId
  failIf (manifest.runtimeLockSha256 ≠ pointer.runtimeLockSha256)
    (.invalidSchema "installed manifest pointer binding")
  let receiptBytes ← readFile target "INSTALLED.json"
  failIf (env.length receiptBytes = 0 ∨ env.length receiptBytes > maxSmallAssetBytes)
    (.invalidSchema "installed receipt size")
  let receipt ← (env.parseReceipt receiptBytes).mapError .json
  failIf (receipt.schemaVersion ≠ receiptSchema ∨ receipt.status ≠ "verified" ∨
      receipt.packId ≠ pointer.packId ∨
      receipt.runtimeLockSha256 ≠ pointer.runtimeLockSha256 ∨
      receipt.mediaPackPublicKeyFingerprint ≠ pointer.mediaPackPublicKeyFingerprint)
    (.invalidSchema "installed receipt binding")
  validateSha receipt.archiveSha256 "installed archive SHA-256"
  validateBasename receipt.correspondingSourceAssetId "installed source asset id"
  validateSha receipt.correspondingSourceAssetSha256 "installed source SHA-256"
  return (target, manifest)

/-- `validate_installed_component`. -/
def validateInstalledComponent (target : Payload β) (component : PackComponent) :
    Except MediaPackError Unit :=
  match target component.extractedFile with
  | none => .error (.io "entity not found")
  | some .other => .error (.assetMismatch component.name)
  | some (.file content) =>
      failIf (env.length content ≠ component.sizeBytes ∨
        env.sha256Hex content ≠ component.extractedSha256) (.assetMismatch component.name)

/-- `validate_installed_payload`. -/
def validateInstalledPayload (root : PackRoot β) (pointer : CurrentPointer) :
    Except MediaPackError Unit := do
  let (target, manifest) ← readInstalledManifest env root pointer
  forM manifest.components (validateInstalledComponent env target)

/-! ## Writing -/

variable (fault : PackSite → Option String)

/-- A file operation with an effect. -/
def fileOp (site : PackSite) (f : PackRoot β → PackRoot β) :
    Program MediaPackError (PackRoot β) Unit :=
  match fault site with
  | some text => fail (.io text)
  | none => modify f

/-- `activate_pointer`. -/
def activatePointer (pointer : CurrentPointer) :
    Program MediaPackError (PackRoot β) Unit := do
  let root ← state
  if (root.pointers pointer.packId false).isSome then
    match readPointer env root pointer.packId false with
    | .ok old =>
        fileOp fault .writePrevious fun root =>
          root.setPointer pointer.packId true (some (env.pointerBytes old))
    | .error _ =>
        fileOp fault .moveCurrent fun root => root.setPointer pointer.packId false none
  fileOp fault .writeCurrent fun root =>
    root.setPointer pointer.packId false (some (env.pointerBytes pointer))

/-- Move a payload to a free place; if this fails, what was there before is put back. -/
def moveTarget (lock packId : String) (payload : Payload β) (damaged : Option (Payload β)) :
    Program MediaPackError (PackRoot β) Unit := do
  match ← attempt (fileOp fault .moveTarget fun root =>
      root.setPayload lock packId (some payload)) with
  | .ok _ => return ()
  | .error error =>
      match damaged with
      | none => fail error
      | some damaged => do
          let _ : Except MediaPackError Unit ← attempt (fileOp fault .restoreDamaged fun root =>
            root.setPayload lock packId (some damaged))
          fail error

/-- Put a payload into its place; a directory that is there is set aside as damaged. -/
def moveIntoPlace (lock packId : String) (payload : Payload β) :
    Program MediaPackError (PackRoot β) Unit := do
  let root ← state
  let damaged := root.payloads lock packId
  if damaged.isSome then
    fileOp fault .moveDamaged fun root => root.setPayload lock packId none
  moveTarget fault lock packId payload damaged

end Store

/-! ## Installing -/

section Install

variable {β K V : Type} [LT V] [DecidableLT V] (env : External β K V)

/-- What an install has verified before it touches the install root. -/
structure VerifiedPack where
  statement : SigningStatement
  manifest : PackManifest

/-- The checks on the assets, the signature, the documents and the version. -/
def verifyPack (input : InstallInput β) : Except MediaPackError VerifiedPack := do
  validatePackId input.pack.id
  let key ← parsePublicKey env input.publicKeyHex
  verifyCatalogAsset env input.pack.archive input.archive "archive"
  verifyCatalogAsset env input.pack.manifest input.manifestBytes "manifest"
  verifyCatalogAsset env input.pack.statement input.statementBytes "statement"
  verifyDetached env input.statementBytes input.pack.statementSignatureHex key
  let statement ← (env.parseStatement input.statementBytes).mapError .json
  let manifest ← (env.parseManifest input.manifestBytes).mapError .json
  validateStatement statement input.pack manifest
  validateManifest env manifest input.pack.id
  let current ← orFail (.invalidSchema "current Useful version")
    (env.parseVersion input.currentUsefulVersion)
  let minimum ← orFail (.invalidSchema "minimum Useful version")
    (env.parseVersion statement.minimumUsefulVersion)
  failIf (current < minimum)
    (.incompatibleVersion input.currentUsefulVersion statement.minimumUsefulVersion)
  return ⟨statement, manifest⟩

/-- The pointer an install activates. -/
def installPointer (input : InstallInput β) (manifest : PackManifest) : CurrentPointer where
  schemaVersion := pointerSchema
  packId := manifest.packId
  runtimeLockSha256 := manifest.runtimeLockSha256
  relativePath := relativePath manifest.runtimeLockSha256 manifest.packId
  mediaPackPublicKeyFingerprint := env.fingerprint input.publicKeyHex

def installReceipt (input : InstallInput β) (verified : VerifiedPack) : InstalledReceipt where
  schemaVersion := receiptSchema
  status := "verified"
  packId := verified.manifest.packId
  runtimeLockSha256 := verified.manifest.runtimeLockSha256
  archiveSha256 := verified.statement.archiveSha256
  correspondingSourceAssetId := verified.statement.correspondingSourceAssetId
  correspondingSourceAssetSha256 := verified.statement.correspondingSourceAssetSha256
  mediaPackPublicKeyFingerprint := env.fingerprint input.publicKeyHex

/-- The payload an install puts into place. -/
def preparePayload (input : InstallInput β) (verified : VerifiedPack) :
    Except MediaPackError (Payload β) := do
  let extracted ← extractClosedArchive env input.archive verified.manifest input.manifestBytes
  let signature := input.pack.statementSignatureHex
  return Function.update (Function.update (Function.update extracted
    "MEDIA-PACK-SIGNING.json" (some (.file input.statementBytes)))
    "MEDIA-PACK-SIGNATURE.hex" (some (.file (env.textBytes s!"{signature}\n"))))
    "INSTALLED.json" (some (.file (env.receiptBytes (installReceipt env input verified))))

variable (fault : PackSite → Option String)

/-- `install_verified_pack`. -/
def installVerifiedPack (input : InstallInput β) :
    Program MediaPackError (PackRoot β) CurrentPointer := do
  let verified ← ofExcept (verifyPack env input)
  let manifest := verified.manifest
  fileOp fault .ensureInstallRoot id
  fileOp fault .ensureLockRoot id
  let pointer := installPointer env input manifest
  let root ← state
  if validateInstalledPayload env root pointer = .ok () then
    let alreadyActive : Bool := match readPointer env root manifest.packId false with
      | .ok current => current.relativePath == pointer.relativePath
      | .error _ => false
    ofExcept (failIf alreadyActive (.alreadyInstalled pointer.relativePath))
    activatePointer env fault pointer
    return pointer
  else
    fileOp fault .createStaging id
    fileOp fault .extract id
    let payload ← ofExcept (preparePayload env input verified)
    fileOp fault .writeStatement id
    fileOp fault .writeSignature id
    fileOp fault .writeReceipt id
    moveIntoPlace fault manifest.runtimeLockSha256 manifest.packId payload
    activatePointer env fault pointer
    return pointer

/-- `rollback`. -/
def rollback (packId : String) : Program MediaPackError (PackRoot β) CurrentPointer := do
  let root ← state
  let previous ← ofExcept ((readPointer env root packId true).mapError fun _ => .noPrevious packId)
  ofExcept ((validateInstalledPayload env root previous).mapError fun _ => .noPrevious packId)
  let sameAsCurrent : Bool := match readPointer env root packId false with
    | .ok current => current.relativePath == previous.relativePath
    | .error _ => false
  ofExcept (failIf sameAsCurrent (.noPrevious packId))
  fileOp fault .writeCurrent fun root =>
    root.setPointer packId false (some (env.pointerBytes previous))
  return previous

end Install

end Useful.Media
