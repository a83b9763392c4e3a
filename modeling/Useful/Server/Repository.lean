/-
# Repository and object storage

One store for all server instances: the tables of `repository/memory/memory.go`, the
objects of `storage/fsstore/fs.go`, the publish lease and the metadata version. Each
definition is the body of one call, which its lock or its rename makes atomic.

Two logs record what the inspection and the scan of packages have read; no call looks
at them.
-/

import Mathlib.Algebra.Group.Int.Defs
import Mathlib.Logic.Function.Basic
import Useful.Math.Table
import Useful.Server.Domain

namespace Useful.Server

open Useful.Math

structure World (β : Type) where
  publishers : Table Publisher Publisher.keyID
  tools : Table Tool fun tool => (tool.publisherKeyID, tool.toolID)
  artifacts : Table Artifact Artifact.id
  /-- The last artifact created for an identity. -/
  artIdentityIx : String × String × String × String × String → Option String
  uploads : Table UploadSession UploadSession.id
  jobs : Table Job Job.id
  objects : String → Option β
  /-- The holder of the publish lease. -/
  lease : Option Nat
  tufVersion : Int
  /-- Session and bytes of each inspection. -/
  inspections : List (String × β)
  /-- Artifact and bytes of each scan. -/
  scans : List (String × β)

/-- The body of a call. -/
abbrev Call (β α : Type) := World β → Except ServerError α × World β

section

variable {β : Type}

/-- A call that only reads. -/
def reading {α : Type} (f : World β → Except ServerError α) : Call β α := fun w => (f w, w)

/-- The row with a key, or `ErrNotFound`. -/
def get {ρ κ : Type} {key : ρ → κ} [DecidableEq κ] (table : World β → Table ρ key) (k : κ) :
    Call β ρ :=
  reading fun w => orFail (.notFound "") ((table w).find k)

/-! ## Publishers, tools and jobs -/

/-- `publisherRepo.GetByKeyID`. -/
def getByKeyID (keyID : String) : Call β Publisher := get World.publishers keyID

/-- `toolRepo.Upsert`. -/
def upsertTool (tool : Tool) : Call β Unit := fun w =>
  (.ok (), { w with tools := w.tools.put tool })

/-- `jobRepo.Enqueue`. -/
def enqueue (job : Job) : Call β Unit := fun w =>
  match w.jobs.find job.id with
  | some _ => (.error (.conflict ""), w)
  | none => (.ok (), { w with jobs := w.jobs.put job })

/-! ## Artifacts -/

/-- An identity is taken by the last artifact created for it, unless that is rejected. -/
def identityTaken (w : World β) (art : Artifact) : Bool :=
  match (w.artIdentityIx art.identity).bind w.artifacts.find with
  | some existing => existing.status != .rejected
  | none => false

/-- `artifactRepo.Create`. -/
def createArtifact (art : Artifact) : Call β Unit := fun w =>
  match w.artifacts.find art.id with
  | some _ => (.error (.conflict ""), w)
  | none =>
      if identityTaken w art then (.error (.conflict ""), w)
      else
        (.ok (), { w with
          artifacts := w.artifacts.put art
          artIdentityIx :=
            if art.status = .rejected then w.artIdentityIx
            else Function.update w.artIdentityIx art.identity (some art.id) })

/-- `artifactRepo.Get`. -/
def getArtifact (id : String) : Call β Artifact := get World.artifacts id

/-- `artifactRepo.GetByIdentity`: some artifact with the identity. -/
def getByIdentity (identity : String × String × String × String × String) : Call β Artifact :=
  reading fun w => orFail (.notFound "")
    (w.artifacts.rows.find? fun art => art.identity = identity)

/-- `artifactRepo.Update`. -/
def updateArtifact (art : Artifact) : Call β Unit := fun w =>
  match w.artifacts.find art.id with
  | none => (.error (.notFound ""), w)
  | some current =>
      if canTransition current.status art.status then
        (.ok (), { w with artifacts := w.artifacts.put art })
      else (.error (.conflict ""), w)

/-- The row `UpdateStatus` writes. -/
def withStatus (art : Artifact) (status : ArtifactStatus) (publishedAt : Option Int) : Artifact :=
  { art with status := status, publishedAt := publishedAt.orElse fun _ => art.publishedAt }

/-- `artifactRepo.UpdateStatus`. -/
def updateStatus (id : String) (status : ArtifactStatus) (publishedAt : Option Int) :
    Call β Unit := fun w =>
  match w.artifacts.find id with
  | none => (.error (.notFound ""), w)
  | some current =>
      if canTransition current.status status then
        (.ok (), { w with artifacts := w.artifacts.put (withStatus current status publishedAt) })
      else (.error (.conflict ""), w)

/-- `artifactRepo.ListByStatus`, and `ListPublished` for the published ones. -/
def listByStatus (status : ArtifactStatus) : Call β (List Artifact) :=
  reading fun w => .ok (w.artifacts.rows.filter fun art => art.status = status)

/-! ## Upload sessions -/

/-- `uploadRepo.Create`. -/
def createUpload (sess : UploadSession) : Call β Unit := fun w =>
  match w.uploads.find sess.id with
  | some _ => (.error (.conflict ""), w)
  | none => (.ok (), { w with uploads := w.uploads.put sess })

/-- `uploadRepo.Get`. -/
def getUpload (id : String) : Call β UploadSession := get World.uploads id

/-- The changes `uploadRepo.Update` allows. -/
def uploadAllowed (current sess : UploadSession) : Bool :=
  (current.status == sess.status && current.status != .releaseClaimed &&
    current.artifactID == sess.artifactID) ||
  (current.status == .open && (sess.status == .completed || sess.status == .failed) &&
    sess.artifactID == "") ||
  (current.status == .releaseClaimed && sess.status == .releaseClaimed &&
    (current.artifactID == "" || current.artifactID == sess.artifactID))

/-- `uploadRepo.Update`. -/
def updateUpload (sess : UploadSession) : Call β Unit := fun w =>
  match w.uploads.find sess.id with
  | none => (.error (.notFound ""), w)
  | some current =>
      if uploadAllowed current sess then (.ok (), { w with uploads := w.uploads.put sess })
      else (.error (.conflict ""), w)

/-- `uploadRepo.ClaimCompleted`. -/
def claimCompleted (id : String) : Call β UploadSession := fun w =>
  match w.uploads.find id with
  | none => (.error (.notFound ""), w)
  | some sess =>
      if sess.status ≠ .completed then (.error (.conflict ""), w)
      else
        let claimed := { sess with status := .releaseClaimed }
        (.ok claimed, { w with uploads := w.uploads.put claimed })

/-- `uploadRepo.GetByArtifact`: some session with the artifact. -/
def getByArtifact (artifactID : String) : Call β UploadSession :=
  reading fun w => orFail (.notFound "")
    (w.uploads.rows.find? fun sess => sess.artifactID = artifactID)

/-! ## The publish lease -/

/-- `AcquirePublishLease`: a task that finds the lease taken waits, which is to take no
step, or gives up. -/
def acquirePublishLease (task : Nat) : Call β Unit := fun w =>
  match w.lease with
  | some _ => (.error (.failure "context canceled"), w)
  | none => (.ok (), { w with lease := some task })

/-- `metadataLease.Release`. -/
def releaseLease (task : Nat) : Call β Unit := fun w =>
  if w.lease = some task then (.ok (), { w with lease := none })
  else (.error (.conflict ""), w)

/-- `metadataLease.NextVersion`. -/
def nextVersion (task : Nat) (candidate : Int) : Call β Int := fun w =>
  if w.lease ≠ some task then (.error (.conflict ""), w)
  else if candidate < 1 ∨ w.tufVersion = 2 ^ 63 - 1 then (.error (.invalidInput ""), w)
  else
    let next := max candidate (w.tufVersion + 1)
    (.ok next, { w with tufVersion := next })

/-! ## Objects -/

def stagingKey (sessionID : String) : String := "staging/" ++ sessionID

/-- `IsStagingKey`. -/
def isStagingKey (key : String) : Bool :=
  key.toList.length > 8 && "staging/".toList.isPrefixOf key.toList

/-- `PublishedKey`: the digest below its first two pairs of digits. -/
def publishedKey (sha256 : String) : String :=
  let digits := sha256.toList
  "artifacts/sha256/" ++ (String.ofList (digits.take 2) ++ "/" ++
    (String.ofList ((digits.drop 2).take 2) ++ "/" ++ sha256))

def metadataKey (name : String) : String := "metadata/" ++ name

/-- `Put`: a rename replaces what was there. -/
def putObject (key : String) (content : β) : Call β Unit := fun w =>
  (.ok (), { w with objects := Function.update w.objects key (some content) })

/-- `Get`: an open file keeps its contents. -/
def getObject (key : String) : Call β β :=
  reading fun w => orFail (.failure "file does not exist") (w.objects key)

/-- `PutIfAbsentOrSame`: a hard link never replaces what is there. -/
def putIfAbsentOrSame (length : β → Nat) (sha256Hex : β → String) (key : String) (content : β) :
    Call β Unit := fun w =>
  match w.objects key with
  | none => (.ok (), { w with objects := Function.update w.objects key (some content) })
  | some existing =>
      if length existing = length content ∧ sha256Hex existing = sha256Hex content then (.ok (), w)
      else (.error .objectConflict, w)

/-- `DeleteStaging`. -/
def deleteStaging (key : String) : Call β Unit := fun w =>
  if isStagingKey key then (.ok (), { w with objects := Function.update w.objects key none })
  else (.error (.failure "只允许删除 staging 对象"), w)

end

end Useful.Server
