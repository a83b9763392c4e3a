/-
# The publisher service

The operations of `services/internal/publishers/service.go` as tasks: every call of the
repository or the store is one step, and between two of them other operations may run,
of this server instance or of another one. Audit events and the catalog cache are left
out, since nothing here reads them.
-/

import Useful.Math.Tasks
import Useful.Math.Text
import Useful.Server.Metadata
import Useful.Server.Repository

namespace Useful.Server

open Useful.Math

/-- The calls that are told apart. -/
inductive Label (β : Type)
  | putObject (key : String) (content : β)
  | updateUpload (sess : UploadSession)
  | other

structure Config extends MetadataKeys where
  maxUpload : Nat
  autoApprove : Bool

structure ReleaseRequest where
  uploadSessionID : String
  toolID : String
  name : String
  summary : String
  license : String
  version : String
  channel : String
  platform : String
  arch : String
  accessMode : String
  productID : String
  permissions : List String
  publisherSignature : String
  sigstoreBundle : String

structure ReproResult where
  status : String
  strategy : String

/-- A task of the service. -/
abbrev Work (β α : Type) := Task (Label β) (World β) ServerError α

/-! ## Requests -/

/-- `ReleaseRequest.validate`. -/
def ReleaseRequest.validate (req : ReleaseRequest) : Except ServerError Unit := do
  failIf (isLowercaseID req.toolID = false) (.invalidInput "toolId 非法")
  failIf (isSemver req.version = false) (.invalidInput "version 非法")
  failIf (req.channel ∉ ["stable", "beta", "nightly"]) (.invalidInput "channel 非法")
  failIf (req.platform ∉ ["windows", "macos", "linux"]) (.invalidInput "platform 非法")
  failIf (req.arch ∉ ["x86_64", "aarch64"]) (.invalidInput "arch 非法")
  failIf (req.accessMode ∉ ["", "free", "entitlement", "external-purchase", "private",
    "unavailable"]) (.invalidInput "accessMode 非法")
  failIf (req.name = "" ∨ (utf8 req.name.toList).length > 200) (.invalidInput "name 长度非法")
  failIf (req.permissions.length > 128) (.invalidInput "permissions 数量超限")

/-- `canonicalPermissions`. -/
def canonicalPermissions (permissions : List String) : Except ServerError (List String) := do
  forM permissions fun permission =>
    failIf (permission = "" ∨ (utf8 permission.toList).length > 128 ∨
        trim permission.toList ≠ permission.toList)
      (.invalidInput "permission 非 canonical")
  let out := permissions.insertionSort Tuf.byteLe
  failIf (¬ out.Nodup) (.invalidInput "permission 重复")
  return out

/-- `isKnownPermission`. -/
def isKnownPermission (permission : String) : Bool := permission == "process.launch.declared"

section

variable {β : Type} (env : External β) (config : Config)

/-- The checks of `CreateRelease` before the identity is looked up: the signature in
lower case, and the permissions. -/
def checkRelease (req : ReleaseRequest) (sess : UploadSession) :
    Except ServerError (String × List String) := do
  failIf ((req.publisherSignature ≠ "") = (req.sigstoreBundle ≠ ""))
    (.invalidInput "必须且只能提供 publisherSignature 或 sigstoreBundle")
  failIf (req.sigstoreBundle ≠ "") (.forbidden firstReleaseSigstoreUnsupported)
  failIf (isEd25519PublisherKey sess.publisherKeyID = false)
    (.invalidInput "first publication publisherKeyId must be canonical Ed25519")
  (verifyPublisherSignature env sess.publisherKeyID req.toolID req.version sess.declaredSHA256
    req.publisherSignature).mapError fun e => .invalidInput s!"发布者签名无效: {e}"
  let permissions ← canonicalPermissions req.permissions
  failIf (req.permissions ≠ permissions) (.invalidInput "permissions 必须按 canonical 顺序提交")
  return (req.publisherSignature.toLower, permissions)

/-- The check on the contents of the package. -/
def checkPackage (req : ReleaseRequest) (permissions : List String) (contents : ArchiveContents) :
    Except String String := do
  failIf (contents.schemaVersion ≠ 1 ∨ contents.id ≠ req.toolID ∨ contents.version ≠ req.version)
    "manifest id/version/schema 与 release 请求不匹配"
  match canonicalPermissions contents.permissions with
  | .error _ => .error "manifest permissions 与 release 请求不匹配"
  | .ok manifestPermissions =>
      failIf (manifestPermissions ≠ permissions ∨ contents.permissions ≠ manifestPermissions)
        "manifest permissions 与 release 请求不匹配"
  return contents.manifestDigest

/-- `withArchive` and `readArchiveContents`, on the bytes read. -/
def openArchive (expectedSize : Nat) (content : β) : Except String ArchiveContents := do
  failIf (env.length content ≠ expectedSize ∨
    (config.maxUpload > 0 ∧ env.length content > config.maxUpload)) "压缩包大小非法"
  env.readArchive content

/-- The result of a scan. -/
def scanResult (contents : ArchiveContents) (declaredPerms : List String) : ScanResult :=
  let unknown := declaredPerms.filter fun p => ! isKnownPermission p
  { structureSafe := true
    manifestValid := true
    permissionsReviewed := unknown.isEmpty
    isNativeWorker := contents.isNativeWorker || contents.entryType == "worker"
    executableHashes := contents.executableHashes
    hasSBOM := contents.hasSBOM
    findings := unknown.map ("未知权限: " ++ ·)
    passed := unknown.isEmpty }

/-! ## Steps -/

/-- A call that needs no guard. -/
def step {α : Type} (f : Call β α) : Work β α := Task.call .other f

/-- `Store.Put`. -/
def put (key : String) (content : β) : Work β Unit :=
  Task.call (.putObject key content) (putObject key content)

/-- `Uploads().Update`. -/
def update (sess : UploadSession) : Work β Unit :=
  Task.call (.updateUpload sess) (updateUpload sess)

/-- A call whose failure is ignored. -/
def ignoring (work : Work β Unit) : Work β Unit := do
  let _ ← Task.attempt work

/-- `acquireArchivePermit`. -/
def acquireArchivePermit : Work β Unit := step (reading fun _ => .ok ())

/-- Open a staged object for the inspection of a session. -/
def readForInspection (sess : UploadSession) : Call β β := fun w =>
  match w.objects sess.stagingKey with
  | none => (.error (.failure "file does not exist"), w)
  | some content => (.ok content, { w with inspections := (sess.id, content) :: w.inspections })

/-- Open a staged object for the scan of an artifact. -/
def readForScan (artifactID stagingKey : String) : Call β β := fun w =>
  match w.objects stagingKey with
  | none => (.error (.failure "file does not exist"), w)
  | some content => (.ok content, { w with scans := (artifactID, content) :: w.scans })

/-- `CopyToPublished`. -/
def copyToPublished (staging published : String) : Work β Unit := do
  Task.ofExcept (failIf (isStagingKey staging = false) (.failure "来源必须是 staging 键"))
  Task.ofExcept (failIf (isStagingKey published = true) (.failure "目标必须是 published 键"))
  let content ← step (getObject staging)
  step (putIfAbsentOrSame env.length env.sha256Hex published content)

/-! ## Uploads -/

/-- `CreateUploadSession`. A digest that passes `IsSHA256` is in lower case. -/
def createUploadSession (id publisherKeyID declaredSHA : String) (declaredSize now : Int) :
    Work β UploadSession := do
  Task.ofExcept (failIf (isPublisherKey publisherKeyID = false)
    (.invalidInput "publisherKeyId 非法"))
  Task.ofExcept (failIf (isSHA256 declaredSHA = false) (.invalidInput "sha256 非法"))
  Task.ofExcept (failIf (declaredSize ≤ 0 ∨ declaredSize > config.maxUpload)
    (.invalidInput "大小非法或超限"))
  match ← Task.attempt (step (getByKeyID publisherKeyID)) with
  | .error _ => Task.fail (.forbidden "未注册的发布者")
  | .ok _ => do
      let sess : UploadSession := {
        id := id
        publisherKeyID := publisherKeyID
        stagingKey := stagingKey id
        declaredSHA256 := declaredSHA
        declaredSize := declaredSize.toNat
        status := .open
        error := ""
        artifactID := ""
        createdAt := now }
      step (createUpload sess)
      return sess

/-- `ReceiveContent`. -/
def receiveContent (sessionID : String) (content : β) : Work β Unit := do
  let sess ← step (getUpload sessionID)
  Task.ofExcept (failIf (sess.status ≠ .open) (.conflict "会话已结束"))
  let stored ← Task.attempt (do
    Task.ofExcept (failIf (env.length content ≠ sess.declaredSize)
      (.failure "写入大小与声明不符"))
    put sess.stagingKey content)
  match stored with
  | .error e => do
      ignoring (update { sess with status := .failed, error := "写入失败" })
      Task.fail e
  | .ok _ =>
      if env.sha256Hex content ≠ sess.declaredSHA256 then do
        ignoring (update { sess with status := .failed, error := "SHA-256 不匹配" })
        ignoring (step (deleteStaging sess.stagingKey))
        Task.fail (.invalidInput "上传内容 SHA-256 与声明不符")
      else
        update { sess with status := .completed }

/-! ## Releases -/

/-- `inspectPackage`. -/
def inspectPackage (sess : UploadSession) (req : ReleaseRequest) (permissions : List String) :
    Work β String := do
  let content ← step (readForInspection sess)
  Task.ofExcept (((openArchive env config sess.declaredSize content).bind
    (checkPackage req permissions)).mapError fun e => .failure e)

/-- The artifact `CreateRelease` creates. -/
def newArtifact (req : ReleaseRequest) (sess : UploadSession) (artifactID manifestDigest : String)
    (signature : String) (permissions : List String) (now : Int) : Artifact where
  id := artifactID
  publisherKeyID := sess.publisherKeyID
  toolID := req.toolID
  version := req.version
  channel := req.channel
  platform := req.platform
  arch := req.arch
  sha256 := sess.declaredSHA256
  manifestDigest := manifestDigest
  size := sess.declaredSize
  fileName := artifactID ++ ".useful"
  permissions := permissions
  status := .staged
  createdAt := now
  publishedAt := none
  publisherSignatureVerified := true
  signatureMethod := "ed25519"
  publisherSignature := signature
  signatureIdentity := sess.publisherKeyID
  securityScanPassed := false
  officialReviewPassed := false
  isNativeWorker := false
  sbomDigest := ""
  scanResultJSON := ""
  reproStatus := ""
  reproStrategy := ""

/-- The row of the tool `CreateRelease` writes. -/
def newTool (req : ReleaseRequest) (sess : UploadSession) (now : Int) : Tool where
  publisherKeyID := sess.publisherKeyID
  toolID := req.toolID
  name := req.name
  summary := req.summary
  license := req.license
  accessMode := if req.accessMode = "" then "free" else req.accessMode
  productID := req.productID
  isNativeWorker := false
  createdAt := now

/-- An identity with a publication that has not settled yet is not released again. -/
def checkIdentity : Except ServerError Artifact → Except ServerError Unit
  | .ok existing =>
      failIf (existing.status = .publishPending ∨ existing.status = .withdrawPending)
        (.conflict
          "release identity has a pending publication intent; reconcile it before re-release")
  | .error e => failIf (e.kind ≠ .notFound) e

/-- The text `json.Marshal` writes for the payload of a scan job. -/
def scanPayload (artifactID : String) : String :=
  "\x7b\"artifactId\":" ++ String.ofList (quoted artifactID) ++ "\x7d"

/-- `CreateRelease`. -/
def createRelease (req : ReleaseRequest) (artifactID jobID : String) (now : Int) :
    Work β Artifact := do
  Task.ofExcept req.validate
  let seen ← step (getUpload req.uploadSessionID)
  let checked ← Task.ofExcept (checkRelease env req seen)
  let existing ← Task.attempt (step (getByIdentity
    (seen.publisherKeyID, req.toolID, req.version, req.platform, req.arch)))
  Task.ofExcept (checkIdentity existing)
  acquireArchivePermit
  match ← Task.attempt (step (claimCompleted req.uploadSessionID)) with
  | .error e => Task.fail (e.also "upload session already claimed or not completed")
  | .ok sess => do
      match ← Task.attempt (inspectPackage env config sess req checked.2) with
      | .error e => Task.fail (.invalidInput s!"包检查失败: {e.text}")
      | .ok manifestDigest => do
          step (upsertTool (newTool req sess now))
          let art := newArtifact req sess artifactID manifestDigest checked.1 checked.2 now
          step (createArtifact art)
          update { sess with artifactID := artifactID }
          step (enqueue ⟨jobID, "scan-artifact", scanPayload artifactID, now⟩)
          return art

/-! ## Metadata -/

/-- `withMetadataPublishLease`. -/
def withMetadataPublishLease (task : Nat) (body : Work β Unit) : Work β Unit := do
  step (acquirePublishLease task)
  let outcome ← Task.attempt body
  let released ← Task.attempt (step (releaseLease task))
  match outcome, released with
  | .ok _, .ok _ => return ()
  | .error e, _ => Task.fail e
  | .ok _, .error e => Task.fail (e.within "release metadata publish lease")

/-- The attempts of `publishMetadataLocked` to write a release under a fresh version. -/
def writeRelease (task : Nat) (now : Int) (targets : List (String × TargetEntry)) :
    Nat → Work β Unit
  | 0 => Task.fail (.conflict "metadata version namespace repeatedly conflicted")
  | attempts + 1 => do
      let ver ← step (nextVersion task (max now 1))
      let release ← Task.ofExcept (signRelease env config.toMetadataKeys ver now targets)
      let putImmutable := fun (name : String) (content : β) =>
        Task.attempt (step (putIfAbsentOrSame env.length env.sha256Hex (metadataKey name) content))
      match ← putImmutable s!"{ver}.targets.json" release.targetsBytes with
      | .error e =>
          if e.kind = .objectConflict then writeRelease task now targets attempts else Task.fail e
      | .ok _ => do
          match ← putImmutable s!"{ver}.snapshot.json" release.snapshotBytes with
          | .error e =>
              if e.kind = .objectConflict then writeRelease task now targets attempts
              else Task.fail e
          | .ok _ => put (metadataKey "timestamp.json") release.timestampBytes

def maxMetadataVersionAttempts : Nat := 16

/-- A task whose error is put into a context. -/
def within {α : Type} (context : String) (work : Work β α) : Work β α := do
  match ← Task.attempt work with
  | .ok a => return a
  | .error e => Task.fail (e.within context)

/-- Finish the intents to publish. -/
def finalizePublish (now : Int) : List Artifact → Work β Unit
  | [] => return ()
  | art :: rest => do
      let id := art.id
      let sess ← within s!"finalize publish intent {id}" (step (getByArtifact id))
      within s!"clear publish staging {id}" (step (deleteStaging sess.stagingKey))
      within s!"finalize publish intent {id}"
        (step (updateStatus id .published (some (art.publishedAt.getD now))))
      finalizePublish now rest

/-- Finish the intents to withdraw. -/
def finalizeWithdraw : List Artifact → Work β Unit
  | [] => return ()
  | art :: rest => do
      let id := art.id
      within s!"finalize withdraw intent {id}" (step (updateStatus id .withdrawn none))
      finalizeWithdraw rest

/-- `publishMetadataLocked`. -/
def publishMetadataLocked (task : Nat) (now : Int) : Work β Unit := do
  let published ← step (listByStatus .published)
  let publishPending ← step (listByStatus .publishPending)
  let withdrawPending ← step (listByStatus .withdrawPending)
  let targets ← Task.ofExcept (collectTargets env [] (published ++ publishPending))
  writeRelease env config task now targets maxMetadataVersionAttempts
  finalizePublish now publishPending
  finalizeWithdraw withdrawPending

/-- `PublishMetadata`. -/
def publishMetadata (task : Nat) (now : Int) : Work β Unit :=
  withMetadataPublishLease task (publishMetadataLocked env config task now)

/-- `ReconcilePublications`. -/
def reconcilePublications (task : Nat) (now : Int) : Work β Unit := do
  let publishing ← step (listByStatus .publishPending)
  let withdrawing ← step (listByStatus .withdrawPending)
  if publishing = [] ∧ withdrawing = [] then return ()
  else publishMetadata env config task now

/-! ## Review -/

/-- What `Approve` does for a scanned artifact before it publishes metadata. -/
def requestPublication (art : Artifact) (now : Int) : Work β Unit := do
  Task.ofExcept (validateArtifactPublisherTrust env art)
  let sess ← step (getByArtifact art.id)
  copyToPublished env sess.stagingKey (publishedKey art.sha256)
  step (updateArtifact { art with
    officialReviewPassed := true
    status := .publishPending
    publishedAt := some now })

/-- `Approve`. -/
def approve (task : Nat) (artifactID : String) (now : Int) : Work β Unit :=
  withMetadataPublishLease task (do
    let art ← step (getArtifact artifactID)
    let publish : Work β Unit := do
      publishMetadataLocked env config task now
      let _ ← step (getArtifact artifactID)
    match art.status with
    | .published => return ()
    | .scanned => do
        requestPublication env art now
        publish
    | .publishPending => do
        Task.ofExcept (validateArtifactPublisherTrust env art)
        publish
    | _ => Task.fail (.conflict "仅扫描通过或 publish-pending 制品可审核发布"))

/-- `Withdraw`. -/
def withdraw (task : Nat) (artifactID : String) (now : Int) : Work β Unit :=
  withMetadataPublishLease task (do
    let art ← step (getArtifact artifactID)
    let publish : Work β Unit := do
      publishMetadataLocked env config task now
      let _ ← step (getArtifact artifactID)
    match art.status with
    | .withdrawn => return ()
    | .published => do
        step (updateArtifact { art with status := .withdrawPending })
        publish
    | .withdrawPending => publish
    | _ => Task.fail (.conflict "仅已发布或 withdraw-pending 制品可撤回"))

/-- `Reject`. -/
def reject (artifactID : String) : Work β Unit := do
  step (updateStatus artifactID .rejected none)
  match ← Task.attempt (step (getByArtifact artifactID)) with
  | .error _ => return ()
  | .ok sess => ignoring (step (deleteStaging sess.stagingKey))

/-- `scanPackage`. -/
def scanPackage (art : Artifact) (sess : UploadSession) : Work β ScanResult := do
  acquireArchivePermit
  let content ← step (readForScan art.id sess.stagingKey)
  let contents ← Task.ofExcept ((openArchive env config sess.declaredSize content).mapError
    fun e => .failure e)
  return scanResult contents art.permissions

/-- The artifact with the results of its scan. -/
def scannedArtifact (art : Artifact) (result : ScanResult) : Artifact :=
  { art with
    scanResultJSON := env.marshalScanResult result
    isNativeWorker := result.isNativeWorker
    securityScanPassed := result.passed
    sbomDigest := if result.hasSBOM then env.sha256Text art.sha256 else art.sbomDigest
    status := if result.passed then .scanned else .rejected }

/-- `RunScan`. -/
def runScan (task : Nat) (artifactID : String) (now : Int) : Work β Unit := do
  let art ← step (getArtifact artifactID)
  if art.status ≠ .staged then return ()
  else
    let sess ← step (getByArtifact artifactID)
    let result ← scanPackage env config art sess
    if result.passed then
      step (updateArtifact (scannedArtifact env art result))
      if config.autoApprove && !result.isNativeWorker then approve env config task artifactID now
      else return ()
    else
      ignoring (step (updateArtifact (scannedArtifact env art result)))
      ignoring (step (deleteStaging sess.stagingKey))

/-- `RecordReproVerification`. -/
def recordReproVerification (task : Nat) (artifactID : String) (res : ReproResult) (now : Int) :
    Work β Unit := do
  let art ← step (getArtifact artifactID)
  step (updateArtifact { art with reproStatus := res.status, reproStrategy := res.strategy })
  if art.status = .published then publishMetadata env config task now
  else return ()

/-! ## The machine -/

inductive Operation (β : Type)
  | createUploadSession (id publisherKeyID declaredSHA : String) (declaredSize now : Int)
  | receiveContent (sessionID : String) (content : β)
  | createRelease (req : ReleaseRequest) (uuid jobID : String) (now : Int)
  | runScan (artifactID : String) (now : Int)
  | approve (artifactID : String) (now : Int)
  | reject (artifactID : String)
  | withdraw (artifactID : String) (now : Int)
  | recordReproVerification (artifactID : String) (res : ReproResult) (now : Int)
  | publishMetadata (now : Int)
  | reconcilePublications (now : Int)

/-- The task of an operation. -/
def startOperation (task : Nat) : Operation β → Work β Unit
  | .createUploadSession id publisherKeyID declaredSHA declaredSize now => do
      let _ ← createUploadSession config id publisherKeyID declaredSHA declaredSize now
  | .receiveContent sessionID content => receiveContent env sessionID content
  | .createRelease req uuid jobID now => do
      let _ ← createRelease env config req ("art_" ++ uuid) jobID now
  | .runScan artifactID now => runScan env config task artifactID now
  | .approve artifactID now => approve env config task artifactID now
  | .reject artifactID => reject artifactID
  | .withdraw artifactID now => withdraw env config task artifactID now
  | .recordReproVerification artifactID res now =>
      recordReproVerification env config task artifactID res now
  | .publishMetadata now => publishMetadata env config task now
  | .reconcilePublications now => reconcilePublications env config task now

/-- Server instances over one repository and one store. A task that stops for good lets
its lease go. -/
def service : Machine (Label β) (World β) ServerError (Operation β) where
  start := startOperation env config
  abandon task w := if w.lease = some task then { w with lease := none } else w

end

/-! ## Rules for the operations -/

section

open Discipline

variable {β α : Type} {D : Discipline (Label β) (World β)} {i : Nat} {s : World β}

theorem ensures_ignoring {work : Work β Unit} {Q : Unit → World β → Prop}
    {E : ServerError → World β → Prop} (h : D.Ensures i work s Q E) :
    D.Ensures i (ignoring work) s (fun _ _ => True) fun _ _ => True :=
  h.outcome.seq fun _ _ _ => ensures_pure trivial

theorem steady_ignoring {work : Work β Unit} (h : D.Steady i work) : D.Steady i (ignoring work) :=
  fun s => ensures_ignoring (h s)

/-- A context changes the error and nothing else. -/
theorem ensures_within {context : String} {work : Work β α} {Q : α → World β → Prop}
    {E : World β → Prop} (h : D.Ensures i work s Q fun _ => E) :
    D.Ensures i (within context work) s Q fun _ => E := by
  have houtcome : D.Ensures i (Task.attempt work) s
      (fun outcome t =>
        match outcome with
        | .ok a => Q a t
        | .error _ => E t)
      fun _ => E := h.attempt (fun _ _ => id) fun _ _ => id
  apply houtcome.bind (fun _ _ => id)
  intro outcome t ht
  cases outcome with
  | ok a => exact ensures_pure ht
  | error e => exact ensures_fail ht

theorem steady_within (context : String) {work : Work β α} (h : D.Steady i work) :
    D.Steady i (within context work) :=
  fun s => ensures_within (h s)

end

end Useful.Server
