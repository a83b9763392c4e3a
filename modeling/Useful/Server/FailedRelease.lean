/-
# Releases that fail

CreateRelease writes to the repository several times, with nothing to undo an earlier write
when a later one fails. A call that fails before the row of the artifact is written leaves
the identity free. A call that fails after it leaves a staged artifact without a release,
and the identity is taken from then on.
-/

import Mathlib.Data.Fintype.EquivFin
import Useful.Server.PublishedBytes

namespace Useful.Server.FailedRelease

open Useful.Math

variable {β : Type} {env : External β} {config : Config} {req : ReleaseRequest}
  {artifactID jobID : String} {now : Int} {replies : Nat → Reply ServerError} {w w' : World β}

/-! ## The two halves of CreateRelease -/

/-- What is known before the first row is written. -/
structure Prepared where
  sess : UploadSession
  signature : String
  permissions : List String
  manifestDigest : String

/-- The checks, the claim and the inspection. -/
def prepareRelease (env : External β) (config : Config) (req : ReleaseRequest) :
    Work β Prepared := do
  Task.ofExcept req.validate
  let seen ← step (getUpload req.uploadSessionID)
  let checked ← Task.ofExcept (checkRelease env req seen)
  let existing ← Task.attempt (step (getByIdentity
    (seen.publisherKeyID, req.toolID, req.version, req.platform, req.arch)))
  Task.ofExcept (checkIdentity existing)
  acquireArchivePermit
  match ← Task.attempt (step (claimCompleted req.uploadSessionID)) with
  | .error e => Task.fail (e.also "upload session already claimed or not completed")
  | .ok sess => do
      match ← Task.attempt (inspectPackage env config sess req checked.2) with
      | .error e => Task.fail (.invalidInput s!"包检查失败: {e.text}")
      | .ok manifestDigest => return ⟨sess, checked.1, checked.2, manifestDigest⟩

/-- The row of the artifact. -/
def Prepared.artifact (prepared : Prepared) (req : ReleaseRequest) (artifactID : String)
    (now : Int) : Artifact :=
  newArtifact req prepared.sess artifactID prepared.manifestDigest prepared.signature
    prepared.permissions now

/-- The rows. -/
def storeRelease (req : ReleaseRequest) (artifactID jobID : String) (now : Int)
    (prepared : Prepared) : Work β Artifact := do
  step (upsertTool (newTool req prepared.sess now))
  let art := prepared.artifact req artifactID now
  step (createArtifact art)
  update { prepared.sess with artifactID := artifactID }
  step (enqueue ⟨jobID, "scan-artifact", scanPayload artifactID, now⟩)
  return art

theorem createRelease_eq : createRelease env config req artifactID jobID now =
    prepareRelease env config req >>= storeRelease req artifactID jobID now := by
  unfold createRelease prepareRelease
  simp only [Task.bind_assoc]
  refine congrArg _ (funext fun _ => congrArg _ (funext fun seen => congrArg _ (funext fun checked =>
    congrArg _ (funext fun existing => congrArg _ (funext fun _ => congrArg _ (funext fun _ =>
      congrArg _ (funext fun claimed => ?_)))))))
  cases claimed with
  | error e => rfl
  | ok sess =>
      simp only [Task.bind_assoc]
      refine congrArg _ (funext fun inspected => ?_)
      cases inspected with
      | error e => rfl
      | ok manifestDigest => rfl

/-- The row of a session that has been claimed. -/
def claimedRow (sess : UploadSession) : UploadSession := { sess with status := .releaseClaimed }

/-- The state after the inspection of a claimed session. -/
def inspectedWorld (w : World β) (sess : UploadSession) (content : β) : World β :=
  { w with
    uploads := w.uploads.put (claimedRow sess)
    inspections := (sess.id, content) :: w.inspections }

/-- The request and the package pass every check. -/
structure Prepares (env : External β) (config : Config) (req : ReleaseRequest) (w : World β)
    (sess : UploadSession) (content : β) (prepared : Prepared) : Prop where
  validate : req.validate = .ok ()
  found : w.uploads.find req.uploadSessionID = some sess
  checked : checkRelease env req sess = .ok (prepared.signature, prepared.permissions)
  identity : checkIdentity (orFail (.notFound "") (w.artifacts.rows.find? fun art =>
    art.identity = (sess.publisherKeyID, req.toolID, req.version, req.platform, req.arch))) = .ok ()
  completed : sess.status = .completed
  stored : w.objects sess.stagingKey = some content
  inspected : (openArchive env config sess.declaredSize content).bind
    (checkPackage req prepared.permissions) = .ok prepared.manifestDigest
  claimed : prepared.sess = claimedRow sess

theorem claimCompleted_eq_ok {id : String} {claimed : UploadSession} :
    claimCompleted id w = (.ok claimed, w') ↔ ∃ sess, w.uploads.find id = some sess ∧
      sess.status = .completed ∧ claimed = claimedRow sess ∧
        w' = { w with uploads := w.uploads.put (claimedRow sess) } := by
  unfold claimCompleted
  cases hfind : w.uploads.find id with
  | none => simp
  | some sess =>
      by_cases hstatus : sess.status = .completed
      · simp [hstatus, claimedRow, eq_comm]
      · simp [hstatus]

theorem readForInspection_eq_ok {sess : UploadSession} {content : β} :
    readForInspection sess w = (.ok content, w') ↔ w.objects sess.stagingKey = some content ∧
      w' = { w with inspections := (sess.id, content) :: w.inspections } := by
  unfold readForInspection
  cases hobject : w.objects sess.stagingKey with
  | none => simp
  | some found =>
      simp only [Prod.mk.injEq, Except.ok.injEq, Option.some.injEq]
      constructor
      · intro h
        exact ⟨h.1, h.1 ▸ h.2.symm⟩
      · intro h
        exact ⟨h.1, h.1 ▸ h.2.symm⟩

theorem get_eq_ok {ρ κ : Type} {key : ρ → κ} [DecidableEq κ] {table : World β → Table ρ key} {k : κ}
    {row : ρ} : get table k w = (.ok row, w') ↔ (table w).find k = some row ∧ w = w' := by
  unfold get reading
  simp only [Prod.mk.injEq, orFail_eq_ok]

/-- A request that passes every check is prepared, if nothing fails. -/
theorem ok_of_prepares {sess : UploadSession} {content : β} {prepared : Prepared}
    (hreplies : ∀ k < 5, replies k = .proceed)
    (h : Prepares env config req w sess content prepared) :
    (prepareRelease env config req).alone replies w =
      (.ok prepared, fun k => replies (k + 5), inspectedWorld w sess content) := by
  have hprepared : prepared = ⟨claimedRow sess, prepared.signature, prepared.permissions,
      prepared.manifestDigest⟩ := by
    rw [← h.claimed]
  have hget : get World.uploads req.uploadSessionID w = (.ok sess, w) := get_eq_ok.mpr ⟨h.found, rfl⟩
  have hclaim : claimCompleted req.uploadSessionID w =
      (.ok (claimedRow sess), { w with uploads := w.uploads.put (claimedRow sess) }) :=
    claimCompleted_eq_ok.mpr ⟨sess, h.found, h.completed, rfl, rfl⟩
  unfold prepareRelease
  refine Task.alone_bind_eq_ok.mpr
    ⟨_, _, _, Task.alone_ofExcept_eq_ok.mpr ⟨h.validate, rfl, rfl⟩, ?_⟩
  refine Task.alone_bind_eq_ok.mpr
    ⟨sess, _, _, Task.alone_call_eq_ok.mpr ⟨hreplies 0 (by decide), hget, rfl⟩, ?_⟩
  refine Task.alone_bind_eq_ok.mpr
    ⟨_, _, _, Task.alone_ofExcept_eq_ok.mpr ⟨h.checked, rfl, rfl⟩, ?_⟩
  refine Task.alone_bind_eq_ok.mpr ⟨_, _, _, Task.alone_attempt_eq_ok.mpr
    (by rw [step, Task.alone_call, hreplies 1 (by decide)]), ?_⟩
  refine Task.alone_bind_eq_ok.mpr
    ⟨_, _, _, Task.alone_ofExcept_eq_ok.mpr ⟨h.identity, rfl, rfl⟩, ?_⟩
  refine Task.alone_bind_eq_ok.mpr
    ⟨⟨⟩, _, _, Task.alone_call_eq_ok.mpr ⟨hreplies 2 (by decide), rfl, rfl⟩, ?_⟩
  refine Task.alone_bind_eq_ok.mpr ⟨.ok (claimedRow sess), _, _, Task.alone_attempt_eq_ok.mpr
    (Task.alone_call_eq_ok.mpr ⟨hreplies 3 (by decide), hclaim, rfl⟩), ?_⟩
  refine Task.alone_bind_eq_ok.mpr ⟨.ok prepared.manifestDigest, fun k => replies (k + 5),
    inspectedWorld w sess content, Task.alone_attempt_eq_ok.mpr ?_, ?_⟩
  · refine Task.alone_bind_eq_ok.mpr ⟨content, _, _, Task.alone_call_eq_ok.mpr
      ⟨hreplies 4 (by decide), readForInspection_eq_ok.mpr ⟨h.stored, rfl⟩, rfl⟩, ?_⟩
    exact Task.alone_ofExcept_eq_ok.mpr ⟨mapError_eq_ok.mpr h.inspected, rfl, rfl⟩
  · exact Task.alone_pure_eq_ok.mpr ⟨hprepared.symm, rfl, rfl⟩

/-! ## Calls that nothing disturbs -/

/-- The world with one more upload. -/
def uploading (w : World β) (sess : UploadSession) (content : β) : World β :=
  { w with
    uploads := w.uploads.put sess
    objects := Function.update w.objects sess.stagingKey (some content) }

/-- The world with the row of the tool. -/
def listedWorld (w : World β) (sess : UploadSession) (content : β) (tool : Tool) : World β :=
  { inspectedWorld w sess content with tools := w.tools.put tool }

/-- The world with the row of the artifact. -/
def createdWorld (w : World β) (sess : UploadSession) (content : β) (tool : Tool)
    (art : Artifact) : World β :=
  { listedWorld w sess content tool with
    artifacts := w.artifacts.put art
    artIdentityIx := Function.update w.artIdentityIx art.identity (some art.id) }

theorem createArtifact_eq_ok {art : Artifact} (hstaged : art.status = .staged) :
    createArtifact art w = (.ok (), w') ↔ w.artifacts.find art.id = none ∧
      identityTaken w art = false ∧ { w with
        artifacts := w.artifacts.put art
        artIdentityIx := Function.update w.artIdentityIx art.identity (some art.id) } = w' := by
  unfold createArtifact
  cases hfind : w.artifacts.find art.id with
  | some other => simp
  | none =>
      cases htaken : identityTaken w art with
      | true => simp
      | false => simp [hstaged]

/-- What it takes to succeed. -/
structure Releases (env : External β) (config : Config) (req : ReleaseRequest)
    (artifactID jobID : String) (now : Int) (w : World β) (sess : UploadSession) (content : β)
    (prepared : Prepared) : Prop where
  prepares : Prepares env config req w sess content prepared
  fresh : w.artifacts.find artifactID = none
  free : identityTaken w (prepared.artifact req artifactID now) = false
  unbound : sess.artifactID = "" ∨ sess.artifactID = artifactID
  freshJob : w.jobs.find jobID = none

/-- The identity is free in a world if it is free in one with the same artifacts. -/
theorem identityTaken_congr {v : World β} {art : Artifact} (hartifacts : v.artifacts = w.artifacts)
    (hindex : v.artIdentityIx = w.artIdentityIx) : identityTaken v art = identityTaken w art := by
  unfold identityTaken
  rw [hartifacts, hindex]

theorem updateUpload_eq_ok {sess : UploadSession} : updateUpload sess w = (.ok (), w') ↔
    ∃ current, w.uploads.find sess.id = some current ∧ uploadAllowed current sess = true ∧
      { w with uploads := w.uploads.put sess } = w' := by
  unfold updateUpload
  cases hfind : w.uploads.find sess.id with
  | none => simp
  | some current =>
      by_cases hallowed : uploadAllowed current sess = true
      · simp [hallowed]
      · simp [hallowed]

theorem enqueue_eq_ok {job : Job} : enqueue job w = (.ok (), w') ↔
    w.jobs.find job.id = none ∧ { w with jobs := w.jobs.put job } = w' := by
  unfold enqueue
  cases hfind : w.jobs.find job.id with
  | none => simp
  | some other => simp

/-- A claimed session is bound to one artifact. -/
theorem uploadAllowed_claimed {sess : UploadSession} :
    uploadAllowed (claimedRow sess) { claimedRow sess with artifactID := artifactID } = true ↔
      sess.artifactID = "" ∨ sess.artifactID = artifactID := by
  simp [uploadAllowed, claimedRow]

theorem alone_of_prepares {sess : UploadSession} {content : β} {prepared : Prepared}
    (hreplies : ∀ k < 5, replies k = .proceed)
    (h : Prepares env config req w sess content prepared) :
    (createRelease env config req artifactID jobID now).alone replies w =
      (storeRelease req artifactID jobID now prepared).alone (fun k => replies (k + 5))
        (inspectedWorld w sess content) := by
  rw [createRelease_eq, Task.alone_bind, ok_of_prepares hreplies h]

/-- The world with the session bound to the artifact. -/
def boundWorld (w : World β) (sess : UploadSession) (content : β) (tool : Tool) (art : Artifact) :
    World β :=
  { createdWorld w sess content tool art with
    uploads := (w.uploads.put (claimedRow sess)).put { claimedRow sess with artifactID := art.id } }

/-- The world after a release. -/
def releasedWorld (w : World β) (sess : UploadSession) (content : β) (tool : Tool) (art : Artifact)
    (jobID : String) (now : Int) : World β :=
  { boundWorld w sess content tool art with
    jobs := w.jobs.put ⟨jobID, "scan-artifact", scanPayload art.id, now⟩ }

/-- A release that nothing disturbs. -/
theorem alone_of_releases {sess : UploadSession} {content : β} {prepared : Prepared}
    (h : Releases env config req artifactID jobID now w sess content prepared) :
    (createRelease env config req artifactID jobID now).alone (fun _ => .proceed) w =
      (.ok (prepared.artifact req artifactID now), fun _ => .proceed,
        releasedWorld w sess content (newTool req prepared.sess now)
          (prepared.artifact req artifactID now) jobID now) := by
  have hfree : identityTaken (listedWorld w sess content (newTool req prepared.sess now))
      (prepared.artifact req artifactID now) = false := (identityTaken_congr rfl rfl).trans h.free
  have hcreate : createArtifact (prepared.artifact req artifactID now)
      (listedWorld w sess content (newTool req prepared.sess now)) =
      (.ok (), createdWorld w sess content (newTool req prepared.sess now)
        (prepared.artifact req artifactID now)) :=
    (createArtifact_eq_ok rfl).mpr ⟨h.fresh, hfree, rfl⟩
  have hupdate : updateUpload { prepared.sess with artifactID := artifactID }
      (createdWorld w sess content (newTool req prepared.sess now)
        (prepared.artifact req artifactID now)) = (.ok (), boundWorld w sess content
          (newTool req prepared.sess now) (prepared.artifact req artifactID now)) := by
    rw [h.prepares.claimed]
    exact updateUpload_eq_ok.mpr
      ⟨claimedRow sess, Table.find_put_self, uploadAllowed_claimed.mpr h.unbound, rfl⟩
  rw [alone_of_prepares (fun _ _ => rfl) h.prepares]
  refine Task.alone_bind_eq_ok.mpr ⟨_, _, _, Task.alone_call_eq_ok.mpr ⟨rfl, rfl, rfl⟩, ?_⟩
  refine Task.alone_bind_eq_ok.mpr ⟨_, _, _, Task.alone_call_eq_ok.mpr ⟨rfl, hcreate, rfl⟩, ?_⟩
  refine Task.alone_bind_eq_ok.mpr ⟨_, _, _, Task.alone_call_eq_ok.mpr ⟨rfl, hupdate, rfl⟩, ?_⟩
  refine Task.alone_bind_eq_ok.mpr ⟨_, _, _, Task.alone_call_eq_ok.mpr
    ⟨rfl, enqueue_eq_ok.mpr ⟨h.freshJob, rfl⟩, rfl⟩, ?_⟩
  exact Task.alone_pure_eq_ok.mpr ⟨rfl, rfl, rfl⟩

/-- The rows that a release of the identity is checked against, and the jobs. -/
structure Quiet (w w' : World β) : Prop where
  artifacts : w'.artifacts = w.artifacts
  artIdentityIx : w'.artIdentityIx = w.artIdentityIx
  jobs : w'.jobs = w.jobs

theorem Quiet.refl (w : World β) : Quiet w w := ⟨rfl, rfl, rfl⟩

theorem Quiet.trans {u v : World β} (h : Quiet u v) (h' : Quiet v w) : Quiet u w :=
  ⟨h'.artifacts.trans h.artifacts, h'.artIdentityIx.trans h.artIdentityIx, h'.jobs.trans h.jobs⟩

/-- A fresh upload is prepared in a world as it is in another one with the same artifacts. -/
theorem Prepares.congr {sess : UploadSession} {content : β} {prepared : Prepared}
    {sess' : UploadSession} {content' : β} (h : Quiet w w')
    (hsession : req.uploadSessionID = sess.id)
    (hprepares : Prepares env config req (uploading w sess content) sess' content' prepared) :
    Prepares env config req (uploading w' sess content) sess' content' prepared := by
  have hfound : (w.uploads.put sess).find sess.id = some sess' := hsession ▸ hprepares.found
  rw [Table.find_put_self] at hfound
  cases hfound
  have hstored : Function.update w.objects sess.stagingKey (some content) sess.stagingKey =
      some content' := hprepares.stored
  rw [Function.update_self] at hstored
  exact {
    hprepares with
    found := by
      rw [hsession]
      exact Table.find_put_self
    identity := by
      have hidentity := hprepares.identity
      simp only [uploading] at hidentity ⊢
      rw [h.artifacts]
      exact hidentity
    stored := by
      simp only [uploading, Function.update_self]
      exact hstored }

end Useful.Server.FailedRelease

/-! ## A release whose session is not updated -/

namespace Useful.Server.FailedRelease.Sample

open Useful.Math Useful.Server.Sample

def prepared : Prepared := ⟨claimed, signature, [], contents.manifestDigest⟩

theorem prepares_request : Prepares env config request uploaded completed .package prepared where
  validate := validate_request
  found := rfl
  checked := checkRelease_request
  identity := rfl
  completed := rfl
  stored := staged_self
  inspected := inspect_package
  claimed := rfl

end Useful.Server.FailedRelease.Sample
