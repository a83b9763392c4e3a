/-
# Upstream media packs

`crates/useful-media/src/upstream.rs`: the archives of upstream projects, from which the files
are taken that a specification names. A specification is known by the digest of its text. Below
the install root lies one directory for each specification and pack, and for each pack the file
of the current pointer and that of the previous one.

A file operation that fails ends a call with an error. Only the calls are followed here in which
none fails, and the directories and pointer files that are set aside as damaged are left out.
-/

import Mathlib.Data.List.AList
import Useful.Media.PackFormat

namespace Useful.Media.Upstream

open Useful.Math Useful.Media

/-! ## The documents -/

structure UpstreamAsset where
  url : String
  fileName : String
  sha256 : String
  sizeBytes : Nat
  deriving DecidableEq, Repr

structure UpstreamFile where
  component : Option String
  sourcePath : String
  targetName : String
  sha256 : String
  sizeBytes : Nat
  deriving DecidableEq, Repr

structure UpstreamPack where
  id : String
  version : String
  provider : String
  providerPageUrl : String
  sourceCodeUrl : String
  license : String
  minimumUsefulVersion : String
  archive : UpstreamAsset
  files : List UpstreamFile
  deriving DecidableEq, Repr

structure UpstreamRuntimeLock where
  schemaVersion : String
  platform : String
  arch : String
  packs : List UpstreamPack
  deriving DecidableEq, Repr

structure UpstreamPointer where
  schemaVersion : String
  packId : String
  specSha256 : String
  relativePath : String
  deriving DecidableEq, Repr

structure UpstreamReceipt where
  schemaVersion : String
  status : String
  packId : String
  specSha256 : String
  archiveUrl : String
  archiveSha256 : String
  deriving DecidableEq, Repr

/-- What `Url::parse` finds of a URL. -/
structure ParsedUrl where
  scheme : String
  username : String
  hasPassword : Bool
  hasFragment : Bool
  host : Option String
  path : String
  lastSegment : Option String

/-- What lies outside the repository, for file contents `β` and versions `V`. -/
structure UpstreamExternal (β V : Type) where
  length : β → Nat
  sha256Hex : β → String
  parseVersion : String → Option V
  parseUrl : String → Option ParsedUrl
  zipEntries : β → Except String (List (ZipEntry β))
  /-- `to_string_pretty` and a line break. -/
  specBytes : UpstreamPack → β
  pointerBytes : UpstreamPointer → β
  receiptBytes : UpstreamReceipt → β
  parsePointer : β → Except String UpstreamPointer
  parseReceipt : β → Except String UpstreamReceipt

/-- `UPSTREAM_LOCK_SCHEMA`. -/
def upstreamLockSchema : String := "useful.media-runtimes-upstream.v1"

/-- `POINTER_SCHEMA`. -/
def pointerSchema : String := "useful.upstream-runtime-current.v1"

/-- `RECEIPT_SCHEMA`. -/
def receiptSchema : String := "useful.upstream-runtime-installed.v1"

/-! ## Specifications -/

/-- `str::starts_with`. -/
def startsWith (text start : String) : Bool := start.toList.isPrefixOf text.toList

/-- `validate_pack_id`. -/
def validatePackId (value : String) : Except MediaPackError Unit :=
  failIf (value ≠ "preview" ∧ value ≠ "transcode") (.invalidSchema "pack id")

/-- `validate_basename`. -/
def validateBasename (value label : String) : Except MediaPackError Unit :=
  failIf (value = "" ∨ (utf8 value.toList).length > 180 ∨ value = "." ∨ value = ".." ∨
      value.toList.any fun c => c = '/' ∨ c = '\\' ∨ c = ':')
    (.invalidSchema label)

/-- `validate_archive_path`. -/
def validateArchivePath (value : String) : Except MediaPackError Unit :=
  failIf (value = "" ∨ (utf8 value.toList).length > 512 ∨ value.toList.head? = some '/' ∨
      value.toList.getLast? = some '/' ∨
      (value.toList.any fun c => c = '\\' ∨ c = ':' ∨ c = Char.ofNat 0) ∨
      (value.toList.splitOn '/').any fun part => part = [] ∨ part = ['.'] ∨ part = ['.', '.'])
    (.unsafePath value)

section

variable {β V : Type} (env : UpstreamExternal β V)

/-- `validate_url`. -/
def validateUrl (value label : String) : Except MediaPackError Unit := do
  let url ← orFail (.invalidSchema label) (env.parseUrl value)
  failIf (url.scheme ≠ "https" ∨ url.host = none ∨ url.username ≠ "" ∨ url.hasPassword ∨
    url.hasFragment) (.invalidSchema label)

/-- `validate_provider_binding`. -/
def validateProviderBinding (pack : UpstreamPack) (archiveUrl : ParsedUrl) :
    Except MediaPackError Unit :=
  let valid : Bool :=
    if pack.id = "preview" then
      pack.providerPageUrl = "https://mpv.io/installation/" ∧
        archiveUrl.host = some "github.com" ∧
        startsWith archiveUrl.path "/mpv-player/mpv/releases/download/v" ∧
        startsWith pack.sourceCodeUrl "https://github.com/mpv-player/mpv/tree/v"
    else if pack.id = "transcode" then
      pack.providerPageUrl = "https://ffmpeg.org/download.html" ∧
        archiveUrl.host = some "www.gyan.dev" ∧
        startsWith archiveUrl.path "/ffmpeg/builds/packages/" ∧
        startsWith pack.sourceCodeUrl "https://ffmpeg.org/releases/ffmpeg-"
    else false
  failIf (valid = false) (.invalidSchema "upstream provider binding")

/-- The components of a pack with a valid id. -/
def expectedComponents (packId : String) : Finset String :=
  if packId = "preview" then {"mpv"} else {"ffmpeg", "ffprobe"}

/-- The loop over the files, with the source paths and target names so far and the size that
they unpack to. -/
def checkFiles (sourcePaths targetNames : List String) (expanded : Nat) :
    List UpstreamFile → Except MediaPackError Unit
  | [] => return ()
  | file :: rest => do
      validateArchivePath file.sourcePath
      validateBasename file.targetName "target filename"
      validateSha file.sha256 "file SHA-256"
      failIf (file.sizeBytes = 0 ∨ file.sizeBytes > maxArchiveBytes) (.invalidSchema "file size")
      let expanded := saturatingAdd expanded file.sizeBytes
      failIf (expanded > maxArchiveBytes * 2) (.invalidSchema "expanded size")
      failIf (file.sourcePath.toLower ∈ sourcePaths ∨ file.targetName.toLower ∈ targetNames)
        (.invalidSchema "duplicate upstream file")
      match file.component with
      | some component =>
          failIf (file.targetName ≠ s!"{component}.exe")
            (.invalidSchema "component filename mapping")
      | none => return ()
      checkFiles (file.sourcePath.toLower :: sourcePaths) (file.targetName.toLower :: targetNames)
        expanded rest

/-- `validate_pack`. -/
def validatePack (pack : UpstreamPack) : Except MediaPackError Unit := do
  validatePackId pack.id
  let _ ← orFail (.invalidSchema "minimum Useful version")
    (env.parseVersion pack.minimumUsefulVersion)
  failIf (trim pack.version.toList = [] ∨ trim pack.provider.toList = [] ∨
    trim pack.license.toList = []) (.invalidSchema "upstream pack facts")
  validateUrl env pack.providerPageUrl "provider page URL"
  validateUrl env pack.sourceCodeUrl "source code URL"
  validateUrl env pack.archive.url "archive URL"
  validateBasename pack.archive.fileName "archive filename"
  validateSha pack.archive.sha256 "archive SHA-256"
  failIf (pack.archive.sizeBytes = 0 ∨ pack.archive.sizeBytes > maxArchiveBytes)
    (.invalidSchema "archive size")
  let archiveUrl ← orFail (.invalidSchema "archive URL") (env.parseUrl pack.archive.url)
  failIf (archiveUrl.lastSegment ≠ some pack.archive.fileName)
    (.invalidSchema "archive URL basename")
  validateProviderBinding pack archiveUrl
  failIf ((pack.files.filterMap UpstreamFile.component).toFinset ≠ expectedComponents pack.id)
    (.invalidSchema "upstream component closure")
  checkFiles [] [] 0 pack.files

/-- `validate_lock`. -/
def validateLock (lock : UpstreamRuntimeLock) : Except MediaPackError Unit := do
  failIf (lock.schemaVersion ≠ upstreamLockSchema ∨ lock.platform ≠ "windows" ∨ lock.arch ≠ "x64")
    (.invalidSchema "upstream lock identity")
  let ids := (lock.packs.map UpstreamPack.id).toFinset
  failIf (ids ≠ {"preview", "transcode"} ∨ ids.card ≠ lock.packs.length)
    (.invalidSchema "upstream pack closure")
  forM lock.packs (validatePack env)

/-- `built_in_pack`, for the lock that the application was built with. -/
def builtInPack (lock : UpstreamRuntimeLock) (packId : String) :
    Except MediaPackError UpstreamPack := do
  validatePackId packId
  validateLock env lock
  orFail (.invalidSchema "missing upstream pack") (lock.packs.find? fun pack => pack.id = packId)

/-- `spec_sha256`. -/
def specSha256 (pack : UpstreamPack) : String := env.sha256Hex (env.specBytes pack)

/-! ## Reading -/

/-- The contents of the directory of a pack. -/
abbrev UpstreamPayload (β : Type) := AList fun _ : String => PackFile β

/-- What lies where the directory of a pack should. -/
inductive Target (β : Type)
  | dir (payload : UpstreamPayload β)
  | other

/-- The install root: targets by specification and pack, and the pointer files by pack, the
previous one under `true`. -/
structure UpstreamRoot (β : Type) where
  targets : String → String → Option (Target β)
  pointers : String → Bool → Option β

namespace UpstreamRoot

variable {β : Type}

def setTarget (root : UpstreamRoot β) (spec packId : String) (target : Option (Target β)) :
    UpstreamRoot β :=
  let packs := Function.update (root.targets spec) packId target
  { root with targets := Function.update root.targets spec packs }

def setPointer (root : UpstreamRoot β) (packId : String) (previous : Bool) (bytes : Option β) :
    UpstreamRoot β :=
  let files := Function.update (root.pointers packId) previous bytes
  { root with pointers := Function.update root.pointers packId files }

@[simp] theorem targets_setPointer (root : UpstreamRoot β) (packId : String) (previous : Bool)
    (bytes : Option β) : (root.setPointer packId previous bytes).targets = root.targets :=
  rfl

@[simp] theorem pointers_setTarget (root : UpstreamRoot β) (spec packId : String)
    (target : Option (Target β)) : (root.setTarget spec packId target).pointers = root.pointers :=
  rfl

theorem targets_setTarget_of_ne {spec spec' : String} (h : spec' ≠ spec) (root : UpstreamRoot β)
    (packId : String) (target : Option (Target β)) :
    (root.setTarget spec packId target).targets spec' = root.targets spec' :=
  Function.update_of_ne h _ _

@[simp] theorem pointers_setPointer_self (root : UpstreamRoot β) (packId : String)
    (previous : Bool) (bytes : Option β) :
    (root.setPointer packId previous bytes).pointers packId previous = bytes := by
  simp [setPointer]

/-- Writing one pointer leaves the other one alone. -/
theorem pointers_setPointer_of_ne {previous previous' : Bool} (h : previous' ≠ previous)
    (root : UpstreamRoot β) (packId : String) (bytes : Option β) :
    (root.setPointer packId previous bytes).pointers packId previous' =
      root.pointers packId previous' := by
  simp [setPointer, h]

end UpstreamRoot

/-- Where the directory of a pointer lies below the root. -/
def relativePath (spec packId : String) : String := s!"upstream/{spec}/{packId}"

/-- What `read_pointer` wants of a pointer. -/
def isPointer (pointer : UpstreamPointer) (packId : String) : Bool :=
  pointer.schemaVersion == pointerSchema && pointer.packId == packId &&
    pointer.relativePath == relativePath pointer.specSha256 packId

/-- `read_pointer`. -/
def readPointer (root : UpstreamRoot β) (packId : String) (previous : Bool) :
    Except MediaPackError UpstreamPointer := do
  validatePackId packId
  let bytes ← orFail (.io "entity not found") (root.pointers packId previous)
  failIf (env.length bytes = 0 ∨ env.length bytes > maxSmallAssetBytes)
    (.invalidSchema "upstream pointer size")
  let pointer ← (env.parsePointer bytes).mapError .json
  failIf (isPointer pointer packId = false) (.invalidSchema "upstream pointer")
  validateSha pointer.specSha256 "upstream pointer spec SHA-256"
  return pointer

/-- The target of a pointer, which must be a directory below the root. -/
def openTarget (pointer : UpstreamPointer) :
    Target β → Except MediaPackError (UpstreamPayload β)
  | .dir payload => .ok payload
  | .other => .error (.unsafePath (relativePath pointer.specSha256 pointer.packId))

/-- A regular file of a directory. -/
def readFile (payload : UpstreamPayload β) (name : String) : Except MediaPackError β :=
  match payload.lookup name with
  | some (.file content) => .ok content
  | some .other => .error (.io "not a file")
  | none => .error (.io "entity not found")

/-- What a receipt must say of a pack. -/
def isReceipt (receipt : UpstreamReceipt) (pack : UpstreamPack) (spec : String) : Bool :=
  receipt.schemaVersion == receiptSchema && receipt.status == "verified" &&
    receipt.packId == pack.id && receipt.specSha256 == spec &&
    receipt.archiveUrl == pack.archive.url && receipt.archiveSha256 == pack.archive.sha256

/-- The loop over the entries of a directory: their names, in lower case. -/
def actualNames (seen : List String) :
    List (Sigma fun _ : String => PackFile β) → Except MediaPackError (List String)
  | [] => return seen
  | ⟨name, .other⟩ :: _ => throw (.unsafePath name)
  | ⟨name, .file _⟩ :: rest => do
      failIf (name.toLower ∈ seen) (.unsafePath "case-aliased installed file")
      actualNames (name.toLower :: seen) rest

def expectedNames (pack : UpstreamPack) : List String :=
  pack.files.map (fun file => file.targetName.toLower) ++
    ["upstream-runtime.json", "installed-upstream.json"]

/-- The check of one file that was selected. -/
def validateFile (payload : UpstreamPayload β) (file : UpstreamFile) : Except MediaPackError Unit :=
  match payload.lookup file.targetName with
  | none => .error (.io "entity not found")
  | some .other => .error (.assetMismatch file.targetName)
  | some (.file content) =>
      failIf (env.length content ≠ file.sizeBytes ∨ env.sha256Hex content ≠ file.sha256)
        (.assetMismatch file.targetName)

variable [DecidableEq β]

/-- `validate_installed`. -/
def validateInstalled (root : UpstreamRoot β) (pack : UpstreamPack) (pointer : UpstreamPointer) :
    Except MediaPackError (UpstreamPayload β) := do
  failIf (pointer.specSha256 ≠ specSha256 env pack ∨ pointer.packId ≠ pack.id)
    (.invalidSchema "upstream pointer binding")
  let target ← orFail (.io "entity not found") (root.targets pointer.specSha256 pointer.packId)
  let payload ← openTarget pointer target
  let manifest ← readFile payload "UPSTREAM-RUNTIME.json"
  failIf (manifest ≠ env.specBytes pack) (.assetMismatch "upstream manifest")
  let receiptBytes ← readFile payload "INSTALLED-UPSTREAM.json"
  failIf (env.length receiptBytes = 0 ∨ env.length receiptBytes > maxSmallAssetBytes)
    (.invalidSchema "upstream receipt size")
  let receipt ← (env.parseReceipt receiptBytes).mapError .json
  failIf (isReceipt receipt pack pointer.specSha256 = false)
    (.invalidSchema "upstream receipt binding")
  let actual ← actualNames [] payload.entries
  failIf (actual.toFinset ≠ (expectedNames pack).toFinset) (.assetMismatch "installed file closure")
  forM pack.files (validateFile env payload)
  return payload

/-! ## Installing -/

structure UpstreamInstallInput (β : Type) where
  pack : UpstreamPack
  archive : PackFile β
  currentUsefulVersion : String

/-- `verify_archive`. -/
def verifyArchive (archive : PackFile β) (asset : UpstreamAsset) : Except MediaPackError β :=
  match archive with
  | .other => .error (.assetMismatch "upstream archive")
  | .file content => do
      failIf (env.length content ≠ asset.sizeBytes ∨ env.sha256Hex content ≠ asset.sha256)
        (.assetMismatch "upstream archive")
      return content

/-- The file of a specification that an entry of the archive is taken for. -/
def expectedFile (pack : UpstreamPack) (name : String) : Option UpstreamFile :=
  pack.files.reverse.find? fun file => file.sourcePath.toLower = name.toLower

/-- The loop over the entries of the archive. Those that are not named are passed over. -/
def extractEntries (pack : UpstreamPack) (seen : List String) (payload : UpstreamPayload β) :
    List (ZipEntry β) → Except MediaPackError (List String × UpstreamPayload β)
  | [] => return (seen, payload)
  | entry :: rest =>
      if entry.isDir then extractEntries pack seen payload rest
      else
        match expectedFile pack entry.name with
        | none => extractEntries pack seen payload rest
        | some file => do
            failIf (entry.name ≠ file.sourcePath ∨ entry.isSymlink ∨ entry.name.toLower ∈ seen)
              (.unsafeArchive entry.name)
            failIf (entry.size ≠ file.sizeBytes) (.assetMismatch file.targetName)
            failIf ((payload.lookup file.targetName).isSome) (.io "file exists")
            failIf (env.length entry.content > file.sizeBytes)
              (.unsafeArchive "selected entry expanded past limit")
            failIf (env.length entry.content ≠ file.sizeBytes ∨
              env.sha256Hex entry.content ≠ file.sha256) (.assetMismatch file.targetName)
            extractEntries pack (entry.name.toLower :: seen)
              (payload.insert file.targetName (.file entry.content)) rest

/-- `extract_selected_files` into an empty directory. -/
def extractSelectedFiles (archive : β) (pack : UpstreamPack) :
    Except MediaPackError (UpstreamPayload β) := do
  let entries ← (env.zipEntries archive).mapError .zip
  let (seen, payload) ← extractEntries env pack [] ∅ entries
  failIf (seen.toFinset ≠ (pack.files.map fun file => file.sourcePath.toLower).toFinset)
    (.unsafeArchive "selected entry set is incomplete")
  return payload

/-- The pointer an install activates. -/
def installPointer (pack : UpstreamPack) : UpstreamPointer where
  schemaVersion := pointerSchema
  packId := pack.id
  specSha256 := specSha256 env pack
  relativePath := relativePath (specSha256 env pack) pack.id

def installReceipt (pack : UpstreamPack) : UpstreamReceipt where
  schemaVersion := receiptSchema
  status := "verified"
  packId := pack.id
  specSha256 := specSha256 env pack
  archiveUrl := pack.archive.url
  archiveSha256 := pack.archive.sha256

/-- The payload an install puts into place. -/
def preparePayload (archive : β) (pack : UpstreamPack) :
    Except MediaPackError (UpstreamPayload β) := do
  let extracted ← extractSelectedFiles env archive pack
  return (extracted.insert "UPSTREAM-RUNTIME.json" (.file (env.specBytes pack))).insert
    "INSTALLED-UPSTREAM.json" (.file (env.receiptBytes (installReceipt env pack)))

/-- `activate_pointer`: a current pointer to elsewhere becomes the previous one. -/
def activatePointer (root : UpstreamRoot β) (pointer : UpstreamPointer) : UpstreamRoot β :=
  let root :=
    match readPointer env root pointer.packId false with
    | .ok old =>
        if old.relativePath ≠ pointer.relativePath then
          root.setPointer pointer.packId true (some (env.pointerBytes old))
        else root
    | .error _ => root
  root.setPointer pointer.packId false (some (env.pointerBytes pointer))

/-- The checks on a pack and its archive. -/
def verifyPack [LT V] [DecidableLT V] (input : UpstreamInstallInput β) : Except MediaPackError β := do
  validatePack env input.pack
  let current ← orFail (.invalidSchema "current Useful version")
    (env.parseVersion input.currentUsefulVersion)
  let minimum ← orFail (.invalidSchema "minimum Useful version")
    (env.parseVersion input.pack.minimumUsefulVersion)
  failIf (current < minimum)
    (.incompatibleVersion input.currentUsefulVersion input.pack.minimumUsefulVersion)
  verifyArchive env input.archive input.pack.archive

/-- The current pointer is read and names a path. -/
def isActive (root : UpstreamRoot β) (packId path : String) : Bool :=
  match readPointer env root packId false with
  | .ok active => active.relativePath == path
  | .error _ => false

/-- Whether the directory of a pack is all right. -/
def isInstalled (root : UpstreamRoot β) (pack : UpstreamPack) (pointer : UpstreamPointer) : Bool :=
  match validateInstalled env root pack pointer with
  | .ok _ => true
  | .error _ => false

/-- `install_upstream_pack`. -/
def installUpstreamPack [LT V] [DecidableLT V] (input : UpstreamInstallInput β)
    (root : UpstreamRoot β) : Except MediaPackError (UpstreamRoot β) := do
  let archive ← verifyPack env input
  let pack := input.pack
  let pointer := installPointer env pack
  if isInstalled env root pack pointer then
    failIf (isActive env root pack.id pointer.relativePath) (.alreadyInstalled pointer.relativePath)
    return activatePointer env root pointer
  else
    let payload ← preparePayload env archive pack
    return activatePointer env
      (root.setTarget pointer.specSha256 pack.id (some (.dir payload))) pointer

/-! ## Status and rollback -/

structure UpstreamInstalledStatus where
  currentRelativePath : Option String
  previousAvailable : Bool
  damaged : Bool
  deriving DecidableEq, Repr

/-- A pointer of a pack that is read and whose directory is all right for the built-in
specification. -/
def validPointer (lock : UpstreamRuntimeLock) (root : UpstreamRoot β) (packId : String)
    (previous : Bool) : Option UpstreamPointer :=
  match builtInPack env lock packId, readPointer env root packId previous with
  | .ok pack, .ok pointer => if isInstalled env root pack pointer then some pointer else none
  | _, _ => none

/-- `installed_status`. -/
def installedStatus (lock : UpstreamRuntimeLock) (root : UpstreamRoot β) (packId : String) :
    UpstreamInstalledStatus :=
  let current := validPointer env lock root packId false
  { currentRelativePath := current.map UpstreamPointer.relativePath
    previousAvailable :=
      match validPointer env lock root packId true with
      | some previous => !isActive env root packId previous.relativePath
      | none => false
    damaged := (root.pointers packId false).isSome && current.isNone }

/-- `rollback`. -/
def rollback (lock : UpstreamRuntimeLock) (packId : String) (root : UpstreamRoot β) :
    Except MediaPackError (UpstreamRoot β) := do
  let pack ← builtInPack env lock packId
  let previous ← (readPointer env root packId true).mapError fun _ => .noPrevious packId
  let _ ← (validateInstalled env root pack previous).mapError fun _ => .noPrevious packId
  failIf (isActive env root packId previous.relativePath) (.noPrevious packId)
  return root.setPointer packId false (some (env.pointerBytes previous))

end

end Useful.Media.Upstream
