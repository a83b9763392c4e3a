/-
# What the service may call

An operation reads, and it writes through a few calls. The calls are listed once, with what
is known of their arguments where the operation has checked it. Whatever all of them keep is
kept by every run of the service.
-/

import Useful.Server.Publishers

namespace Useful.Server

open Useful.Math

variable {β : Type} {env : External β} {config : Config}

/-- The effects of the calls of an operation. The row of an artifact that is written back by
the operation that records a result has this result. -/
inductive Calls (own : Option (String × ReproResult)) :
    (Reply ServerError → World β → World β) → Prop
  | reading {α : Type} (f : World β → Except ServerError α) : Calls own (Task.effect (reading f))
  | createUpload (sess : UploadSession) : Calls own (Task.effect (createUpload sess))
  | updateUpload (sess : UploadSession) : Calls own (Task.effect (updateUpload sess))
  | claimCompleted (id : String) : Calls own (Task.effect (claimCompleted id))
  | readForInspection (sess : UploadSession) : Calls own (Task.effect (readForInspection sess))
  | readForScan (artifactID key : String) : Calls own (Task.effect (readForScan artifactID key))
  | upsertTool {req : ReleaseRequest} (sess : UploadSession) (now : Int)
      (h : req.validate = .ok ()) : Calls own (Task.effect (upsertTool (newTool req sess now)))
  | createArtifact {req : ReleaseRequest} (sess : UploadSession)
      (artifactID manifestDigest signature : String) (permissions : List String) (now : Int)
      (h : req.validate = .ok ()) : Calls own (Task.effect (createArtifact
        (newArtifact req sess artifactID manifestDigest signature permissions now)))
  | updateArtifact (art : Artifact) (h : ∀ id res, own = some (id, res) →
      art.id = id ∧ art.reproStatus = res.status ∧ art.reproStrategy = res.strategy) :
      Calls own (Task.effect (updateArtifact art))
  | updateStatus (id : String) (status : ArtifactStatus) (publishedAt : Option Int) :
      Calls own (Task.effect (updateStatus id status publishedAt))
  | enqueue (job : Job) : Calls own (Task.effect (enqueue job))
  | putObject (key : String) (content : β) : Calls own (Task.effect (putObject key content))
  | putIfAbsentOrSame (length : β → Nat) (sha256Hex : β → String) (key : String) (content : β) :
      Calls own (Task.effect (putIfAbsentOrSame length sha256Hex key content))
  | deleteStaging (key : String) : Calls own (Task.effect (deleteStaging key))
  | acquirePublishLease (task : Nat) : Calls own (Task.effect (acquirePublishLease task))
  | releaseLease (task : Nat) : Calls own (Task.effect (releaseLease task))
  | nextVersion (task : Nat) (candidate : Int) : Calls own (Task.effect (nextVersion task candidate))

/-- Every step of the work is one of the calls. -/
def Performs {α : Type} (own : Option (String × ReproResult)) (work : Work β α) : Prop :=
  work.Takes (Calls own) fun _ => True

section

variable {α γ : Type} {own : Option (String × ReproResult)}

theorem performs_call {label : Label β} {f : Call β α} (h : Calls own (Task.effect f)) :
    Performs own (Task.call label f) :=
  Task.takes_call h fun _ _ _ => trivial

theorem performs_reading (f : World β → Except ServerError α) : Performs own (step (reading f)) :=
  performs_call (.reading f)

theorem performs_pure (a : α) : Performs own (pure a : Work β α) := Task.takes_pure trivial

theorem performs_fail (e : ServerError) : Performs own (Task.fail e : Work β α) :=
  Task.takes_fail e

theorem performs_ofExcept (x : Except ServerError α) : Performs own (Task.ofExcept x : Work β α) :=
  Task.takes_ofExcept fun _ _ => trivial

theorem Performs.seq {work : Work β α} {next : α → Work β γ} (h : Performs own work)
    (hnext : ∀ a, Performs own (next a)) : Performs own (work >>= next) :=
  Task.Takes.bind h fun a _ => hnext a

/-- The rest of a check may use what it has found. -/
theorem performs_check {x : Except ServerError α} {next : α → Work β γ}
    (hnext : ∀ a, x = .ok a → Performs own (next a)) :
    Performs own (Task.ofExcept x >>= next) :=
  Task.Takes.bind (Task.takes_ofExcept fun _ h => h) hnext

theorem Performs.attempt {work : Work β α} (h : Performs own work) :
    Performs own (Task.attempt work) :=
  (Task.Takes.attempt h).imp fun _ _ => trivial

theorem performs_ignoring {work : Work β Unit} (h : Performs own work) :
    Performs own (ignoring work) :=
  h.attempt.seq fun _ => performs_pure ()

theorem performs_within {context : String} {work : Work β α} (h : Performs own work) :
    Performs own (within context work) := by
  apply h.attempt.seq
  intro outcome
  cases outcome with
  | ok a => exact performs_pure a
  | error e => exact performs_fail _

/-- The row that is read has the identifier asked for. -/
theorem performs_getArtifact {id : String} {next : Artifact → Work β γ}
    (hnext : ∀ art, art.id = id → Performs own (next art)) :
    Performs own (step (getArtifact id) >>= next) := by
  have hread : (step (getArtifact (β := β) id)).Takes (Calls own) fun art => art.id = id := by
    apply Task.takes_call (.reading _)
    intro w art hfound
    exact (Table.find_eq_some.mp (orFail_eq_ok.mp hfound)).2
  exact Task.Takes.bind hread hnext

theorem Performs.takes {work : Work β α} (h : Performs own work) :
    work.Takes (Calls own) fun _ => True :=
  h

-- The rules above say all there is to know; unfolding would run the work.
attribute [irreducible] Performs

theorem performs_rewrite (art : Artifact) : Performs none (step (updateArtifact (β := β) art)) :=
  performs_call (.updateArtifact art nofun)

theorem performs_updateStatus (id : String) (status : ArtifactStatus) (publishedAt : Option Int) :
    Performs own (step (updateStatus (β := β) id status publishedAt)) :=
  performs_call (.updateStatus id status publishedAt)

theorem performs_put (key : String) (content : β) : Performs own (put key content) :=
  performs_call (.putObject key content)

theorem performs_update (sess : UploadSession) : Performs own (update (β := β) sess) :=
  performs_call (.updateUpload sess)

theorem performs_deleteStaging (key : String) :
    Performs own (step (deleteStaging (β := β) key)) :=
  performs_call (.deleteStaging key)

theorem performs_putIfAbsentOrSame (length : β → Nat) (sha256Hex : β → String) (key : String)
    (content : β) : Performs own (step (putIfAbsentOrSame length sha256Hex key content)) :=
  performs_call (.putIfAbsentOrSame length sha256Hex key content)

theorem performs_createUploadSession (id publisherKeyID declaredSHA : String)
    (declaredSize now : Int) : Performs own
      (createUploadSession (β := β) config id publisherKeyID declaredSHA declaredSize now) := by
  refine performs_check fun _ _ => performs_check fun _ _ => performs_check fun _ _ => ?_
  apply (performs_reading _).attempt.seq
  intro outcome
  cases outcome with
  | error e => exact performs_fail _
  | ok publisher =>
      exact Performs.seq (performs_call (.createUpload _)) fun _ => performs_pure _

theorem performs_receiveContent (sessionID : String) (content : β) :
    Performs own (receiveContent env sessionID content) := by
  apply (performs_reading _).seq
  intro sess
  refine performs_check fun _ _ => ?_
  have hstore : Performs own (do
      Task.ofExcept (failIf (env.length content ≠ sess.declaredSize)
        (.failure "写入大小与声明不符"))
      put sess.stagingKey content) := performs_check fun _ _ => performs_put _ _
  apply hstore.attempt.seq
  intro stored
  cases stored with
  | error e => exact (performs_ignoring (performs_update _)).seq fun _ => performs_fail e
  | ok _ =>
      simp only
      split
      · apply (performs_ignoring (performs_update _)).seq
        intro _
        exact (performs_ignoring (performs_deleteStaging _)).seq fun _ => performs_fail _
      · exact performs_update _

theorem performs_inspectPackage (sess : UploadSession) (req : ReleaseRequest)
    (permissions : List String) : Performs own (inspectPackage env config sess req permissions) := by
  exact Performs.seq (performs_call (.readForInspection sess)) fun _ => performs_ofExcept _

theorem performs_createRelease (req : ReleaseRequest) (artifactID jobID : String) (now : Int) :
    Performs own (createRelease env config req artifactID jobID now) := by
  refine performs_check fun _ hvalidate => ?_
  refine (performs_reading _).seq fun seen => ?_
  refine performs_check fun checked _ => ?_
  refine (performs_reading _).attempt.seq fun existing => ?_
  refine performs_check fun _ _ => ?_
  refine (performs_reading _).seq fun _ => ?_
  have hclaim : Performs own (step (claimCompleted (β := β) req.uploadSessionID)) :=
    performs_call (.claimCompleted _)
  refine hclaim.attempt.seq fun claimed => ?_
  cases claimed with
  | error e => exact performs_fail _
  | ok sess =>
      refine (performs_inspectPackage _ _ _).attempt.seq fun inspected => ?_
      cases inspected with
      | error e => exact performs_fail _
      | ok manifestDigest =>
          refine Performs.seq (performs_call (.upsertTool sess now hvalidate)) fun _ => ?_
          refine Performs.seq (performs_call (.createArtifact sess _ _ _ _ now hvalidate)) fun _ => ?_
          refine (performs_update _).seq fun _ => ?_
          exact Performs.seq (performs_call (.enqueue _)) fun _ => performs_pure _

theorem performs_withMetadataPublishLease {task : Nat} {body : Work β Unit}
    (hbody : Performs own body) : Performs own (withMetadataPublishLease task body) := by
  have hacquire : Performs own (step (acquirePublishLease (β := β) task)) :=
    performs_call (.acquirePublishLease task)
  have hrelease : Performs own (step (releaseLease (β := β) task)) :=
    performs_call (.releaseLease task)
  apply hacquire.seq
  intro _
  apply hbody.attempt.seq
  intro outcome
  apply hrelease.attempt.seq
  intro released
  cases outcome with
  | error e => exact performs_fail e
  | ok _ =>
      cases released with
      | ok _ => exact performs_pure ()
      | error e => exact performs_fail _

theorem performs_writeRelease (task : Nat) (now : Int) (targets : List (String × TargetEntry))
    (attempts : Nat) : Performs own (writeRelease env config task now targets attempts) := by
  induction attempts with
  | zero => exact performs_fail _
  | succ attempts ih =>
      have hversion : Performs own (step (nextVersion (β := β) task (max now 1))) :=
        performs_call (.nextVersion task _)
      refine hversion.seq fun ver => ?_
      refine performs_check fun release _ => ?_
      apply (performs_putIfAbsentOrSame _ _ _ _).attempt.seq
      intro outcome
      cases outcome with
      | error e =>
          simp only
          split
          · exact ih
          · exact performs_fail e
      | ok _ =>
          apply (performs_putIfAbsentOrSame _ _ _ _).attempt.seq
          intro outcome
          cases outcome with
          | error e =>
              simp only
              split
              · exact ih
              · exact performs_fail e
          | ok _ => exact performs_put _ _

theorem performs_finalizePublish (now : Int) (arts : List Artifact) :
    Performs own (finalizePublish (β := β) now arts) := by
  induction arts with
  | nil => exact performs_pure ()
  | cons art rest ih =>
      apply (performs_within (performs_reading _)).seq
      intro sess
      refine (performs_within (performs_deleteStaging _)).seq fun _ => ?_
      exact (performs_within (performs_updateStatus _ _ _)).seq fun _ => ih

theorem performs_finalizeWithdraw (arts : List Artifact) :
    Performs own (finalizeWithdraw (β := β) arts) := by
  induction arts with
  | nil => exact performs_pure ()
  | cons art rest ih => exact (performs_within (performs_updateStatus _ _ _)).seq fun _ => ih

theorem performs_publishMetadataLocked (task : Nat) (now : Int) :
    Performs own (publishMetadataLocked env config task now) := by
  refine (performs_reading _).seq fun published => (performs_reading _).seq fun publishPending =>
    (performs_reading _).seq fun withdrawPending => ?_
  refine performs_check fun targets _ => (performs_writeRelease _ _ _ _).seq fun _ => ?_
  exact (performs_finalizePublish _ _).seq fun _ => performs_finalizeWithdraw _

theorem performs_publishMetadata (task : Nat) (now : Int) :
    Performs own (publishMetadata env config task now) :=
  performs_withMetadataPublishLease (performs_publishMetadataLocked task now)

theorem performs_copyToPublished (staging published : String) :
    Performs own (copyToPublished env staging published) := by
  refine performs_check fun _ _ => performs_check fun _ _ => (performs_reading _).seq fun _ => ?_
  exact performs_putIfAbsentOrSame _ _ _ _

/-- The rest of Approve and Withdraw once the intent is there. -/
theorem performs_publish (task : Nat) (artifactID : String) (now : Int) : Performs own (do
    publishMetadataLocked env config task now
    let _ ← step (getArtifact artifactID)) :=
  (performs_publishMetadataLocked task now).seq fun _ =>
    (performs_reading _).seq fun _ => performs_pure ()

theorem performs_approve (task : Nat) (artifactID : String) (now : Int) :
    Performs none (approve env config task artifactID now) := by
  apply performs_withMetadataPublishLease
  apply (performs_reading _).seq
  intro art
  cases hstatus : art.status with
  | published => exact performs_pure ()
  | publishPending => exact performs_check fun _ _ => performs_publish task artifactID now
  | scanned =>
      have hrequest : Performs none (requestPublication env art now) := by
        refine performs_check fun _ _ => (performs_reading _).seq fun _ => ?_
        exact (performs_copyToPublished _ _).seq fun _ => performs_rewrite _
      exact hrequest.seq fun _ => performs_publish task artifactID now
  | staged | approved | withdrawPending | rejected | withdrawn => exact performs_fail _

theorem performs_withdraw (task : Nat) (artifactID : String) (now : Int) :
    Performs none (withdraw env config task artifactID now) := by
  apply performs_withMetadataPublishLease
  apply (performs_reading _).seq
  intro art
  cases hstatus : art.status with
  | withdrawn => exact performs_pure ()
  | withdrawPending => exact performs_publish task artifactID now
  | published =>
      exact (performs_rewrite _).seq fun _ => performs_publish task artifactID now
  | staged | scanned | approved | publishPending | rejected => exact performs_fail _

theorem performs_reject (artifactID : String) : Performs own (reject (β := β) artifactID) := by
  apply (performs_updateStatus _ _ _).seq
  intro _
  apply (performs_reading _).attempt.seq
  intro outcome
  cases outcome with
  | error e => exact performs_pure ()
  | ok sess => exact performs_ignoring (performs_deleteStaging _)

theorem performs_runScan (task : Nat) (artifactID : String) (now : Int) :
    Performs none (runScan env config task artifactID now) := by
  apply (performs_reading _).seq
  intro art
  split
  · exact performs_pure ()
  · apply (performs_reading _).seq
    intro sess
    have hscan : Performs none (scanPackage env config art sess) := by
      apply (performs_reading _).seq
      intro _
      refine Performs.seq (performs_call (.readForScan art.id sess.stagingKey)) fun content => ?_
      exact performs_check fun contents _ => performs_pure _
    apply hscan.seq
    intro scanned
    split
    · apply (performs_rewrite _).seq
      intro _
      split
      · exact performs_approve task artifactID now
      · exact performs_pure ()
    · apply (performs_ignoring (performs_rewrite _)).seq
      exact fun _ => performs_ignoring (performs_deleteStaging _)

/-- The row written has the result that is being recorded. -/
theorem performs_recordReproVerification (task : Nat) (artifactID : String) (res : ReproResult)
    (now : Int) : Performs (some (artifactID, res))
      (recordReproVerification env config task artifactID res now) := by
  apply performs_getArtifact
  intro art hid
  have hrow : ∀ id res', some (artifactID, res) = some (id, res') →
      art.id = id ∧ res.status = res'.status ∧ res.strategy = res'.strategy := by
    intro id res' heq
    cases heq
    exact ⟨hid, rfl, rfl⟩
  refine Performs.seq (performs_call (.updateArtifact _ hrow)) fun _ => ?_
  split
  · exact performs_publishMetadata task now
  · exact performs_pure ()

/-- The artifact and the result an operation records. -/
def Repro.ownResult : Operation β → Option (String × ReproResult)
  | .recordReproVerification artifactID res _ => some (artifactID, res)
  | _ => none

theorem performs_startOperation (task : Nat) (op : Operation β) :
    Performs (Repro.ownResult op) (startOperation env config task op) := by
  cases op with
  | createUploadSession id publisherKeyID declaredSHA declaredSize now =>
      exact (performs_createUploadSession _ _ _ _ _).seq fun _ => performs_pure ()
  | receiveContent sessionID content => exact performs_receiveContent sessionID content
  | createRelease req uuid jobID now =>
      exact (performs_createRelease _ _ _ _).seq fun _ => performs_pure ()
  | runScan artifactID now => exact performs_runScan task artifactID now
  | approve artifactID now => exact performs_approve task artifactID now
  | reject artifactID => exact performs_reject artifactID
  | withdraw artifactID now => exact performs_withdraw task artifactID now
  | recordReproVerification artifactID res now =>
      exact performs_recordReproVerification task artifactID res now
  | publishMetadata now => exact performs_publishMetadata task now
  | reconcilePublications now =>
      refine (performs_reading _).seq fun _ => (performs_reading _).seq fun _ => ?_
      split
      · exact performs_pure ()
      · exact performs_publishMetadata task now

/-! ## What the calls write -/

/-- The tools and the artifacts are as they were. -/
structure SameListing (w w' : World β) : Prop where
  tools : w'.tools = w.tools
  artifacts : w'.artifacts = w.artifacts
  artIdentityIx : w'.artIdentityIx = w.artIdentityIx

theorem SameListing.refl (w : World β) : SameListing w w := ⟨rfl, rfl, rfl⟩

theorem SameListing.effect {f : Call β α} (h : ∀ w, SameListing w (f w).2)
    (reply : Reply ServerError) (w : World β) : SameListing w (Task.effect f reply w) := by
  cases reply with
  | refuse e => exact .refl w
  | proceed => exact h w
  | lose e => exact h w

/-- A call that writes a row of a tool or of an artifact, or one that writes neither. -/
theorem cases_of_calls {effect : Reply ServerError → World β → World β} (h : Calls own effect) :
    (∀ reply w, SameListing w (effect reply w)) ∨
    (∃ (req : ReleaseRequest) (sess : UploadSession) (now : Int), req.validate = .ok () ∧
      effect = Task.effect (upsertTool (newTool req sess now))) ∨
    (∃ (req : ReleaseRequest) (sess : UploadSession) (artifactID manifestDigest signature : String)
      (permissions : List String) (now : Int), req.validate = .ok () ∧
      effect = Task.effect (createArtifact
        (newArtifact req sess artifactID manifestDigest signature permissions now))) ∨
    (∃ art : Artifact, (∀ id res, own = some (id, res) → art.id = id ∧
      art.reproStatus = res.status ∧ art.reproStrategy = res.strategy) ∧
      effect = Task.effect (updateArtifact art)) ∨
    ∃ (id : String) (status : ArtifactStatus) (publishedAt : Option Int),
      effect = Task.effect (updateStatus id status publishedAt) := by
  cases h with
  | upsertTool sess now h => exact .inr (.inl ⟨_, sess, now, h, rfl⟩)
  | createArtifact sess artifactID manifestDigest signature permissions now h =>
      exact .inr (.inr (.inl ⟨_, sess, artifactID, manifestDigest, signature, permissions, now, h, rfl⟩))
  | updateArtifact art h => exact .inr (.inr (.inr (.inl ⟨art, h, rfl⟩)))
  | updateStatus id status publishedAt =>
      exact .inr (.inr (.inr (.inr ⟨id, status, publishedAt, rfl⟩)))
  | reading f => exact .inl (.effect fun w => .refl w)
  | putObject key content => exact .inl (.effect fun w => ⟨rfl, rfl, rfl⟩)
  | createUpload sess =>
      refine .inl (.effect fun w => ?_)
      unfold createUpload
      split
      · exact .refl w
      · exact ⟨rfl, rfl, rfl⟩
  | updateUpload sess =>
      refine .inl (.effect fun w => ?_)
      unfold updateUpload
      split
      · exact .refl w
      · split
        · exact ⟨rfl, rfl, rfl⟩
        · exact .refl w
  | claimCompleted id =>
      refine .inl (.effect fun w => ?_)
      unfold claimCompleted
      split
      · exact .refl w
      · split
        · exact .refl w
        · exact ⟨rfl, rfl, rfl⟩
  | readForInspection sess =>
      refine .inl (.effect fun w => ?_)
      unfold readForInspection
      split
      · exact .refl w
      · exact ⟨rfl, rfl, rfl⟩
  | readForScan artifactID key =>
      refine .inl (.effect fun w => ?_)
      unfold readForScan
      split
      · exact .refl w
      · exact ⟨rfl, rfl, rfl⟩
  | enqueue job =>
      refine .inl (.effect fun w => ?_)
      unfold enqueue
      split
      · exact .refl w
      · exact ⟨rfl, rfl, rfl⟩
  | putIfAbsentOrSame length sha256Hex key content =>
      refine .inl (.effect fun w => ?_)
      unfold putIfAbsentOrSame
      split
      · exact ⟨rfl, rfl, rfl⟩
      · split
        · exact .refl w
        · exact .refl w
  | deleteStaging key =>
      refine .inl (.effect fun w => ?_)
      unfold deleteStaging
      split
      · exact ⟨rfl, rfl, rfl⟩
      · exact .refl w
  | acquirePublishLease task =>
      refine .inl (.effect fun w => ?_)
      unfold acquirePublishLease
      split
      · exact .refl w
      · exact ⟨rfl, rfl, rfl⟩
  | releaseLease task =>
      refine .inl (.effect fun w => ?_)
      unfold releaseLease
      split
      · exact ⟨rfl, rfl, rfl⟩
      · exact .refl w
  | nextVersion task candidate =>
      refine .inl (.effect fun w => ?_)
      unfold nextVersion
      split
      · exact .refl w
      · split
        · exact .refl w
        · exact ⟨rfl, rfl, rfl⟩

end

end Useful.Server
