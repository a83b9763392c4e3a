/-
# What is published is what was looked at

Every operation of the publisher service keeps the discipline of staged bytes, whatever
the others do between two of its steps. So no run in which every upload stores what its
session declares leads to a published object under a wrong digest, or to published bytes
that nobody has inspected and scanned.
-/

import Useful.Server.ContentAddressing

namespace Useful.Server

open Useful.Math Discipline

section

variable {β : Type} {env : External β} {config : Config} {i : Nat} {s : World β}

/-! ## Helpers of the operations -/

theorem steady_withMetadataPublishLease {task : Nat} {body : Work β Unit}
    (h : (staging env).Steady i body) :
    (staging env).Steady i (withMetadataPublishLease task body) := by
  apply (steady_acquirePublishLease task).bind
  intro _
  apply h.attempt.bind
  intro outcome
  apply (steady_releaseLease task).attempt.bind
  intro released
  cases outcome with
  | ok _ =>
      cases released with
      | ok _ => exact steady_pure ()
      | error e => exact steady_fail _
  | error e => exact steady_fail e

/-! ## Uploads -/

theorem steady_createUploadSession (id publisherKeyID declaredSHA : String)
    (declaredSize now : Int) :
    (staging env).Steady i
      (createUploadSession config id publisherKeyID declaredSHA declaredSize now) := by
  refine (steady_ofExcept _).bind fun _ s => ?_
  refine ensures_ofExcept_bind (fun _ _ => trivial) fun _ hsha => ?_
  have hdigest : isSHA256 declaredSHA = true := by simpa using failIf_eq_ok.mp hsha
  refine ensures_ofExcept_bind (fun _ _ => trivial) fun _ _ => ?_
  apply (ensures_reading fun _ _ _ _ => trivial).outcome.seq
  intro publisher t _
  cases publisher with
  | error e => exact ensures_fail trivial
  | ok _ =>
      have hcreate : ∀ sess : UploadSession, sess.stagingKey = stagingKey sess.id →
          sess.declaredSHA256 = declaredSHA → sess.status = .open → sess.artifactID = "" →
          (staging env).Steady i (step (createUpload sess)) := by
        intro sess hkey hdeclared
        exact steady_createUpload hkey (hdeclared ▸ hdigest)
      apply (hcreate _ rfl rfl rfl rfl t).seq
      exact fun _ _ _ => ensures_pure trivial

/-- Ending an upload. -/
theorem ensures_close {sess : UploadSession} (status : UploadSessionStatus) (error : String)
    (hs : KnownUpload sess s) :
    (staging env).Ensures i (update { sess with status := status, error := error }) s
      (fun _ _ => True) fun _ _ => True := by
  apply steady_update _ _ _ _ hs
  · rfl
  · rfl
  · rfl
  · rfl

/-- The first upload to end closes the session; others may still be on their way. -/
theorem steady_receiveContent (sessionID : String) (content : β) :
    (staging env).Steady i (receiveContent env sessionID content) := by
  intro s
  apply ensures_getUpload.seq
  intro sess t hsess
  refine ensures_ofExcept_bind (fun _ _ => trivial) fun _ _ => ?_
  have hstore : (staging env).Ensures i (do
      Task.ofExcept (failIf (env.length content ≠ sess.declaredSize)
        (.failure "写入大小与声明不符"))
      put sess.stagingKey content) t (fun _ _ => True) fun _ _ => True :=
    ensures_ofExcept_bind (fun _ _ => trivial) fun _ _ => ensures_putStaged hsess
  refine (carry hstore.attempt_true (lasting_knownUpload sess) hsess).seq fun stored u hknown => ?_
  cases stored with
  | error e =>
      apply (ensures_ignoring (ensures_close .failed "写入失败" hknown.2)).seq
      exact fun _ _ _ => ensures_fail trivial
  | ok _ =>
      simp only
      by_cases hdigest : env.sha256Hex content ≠ sess.declaredSHA256
      · rw [if_pos hdigest]
        apply (ensures_ignoring (ensures_close .failed "SHA-256 不匹配" hknown.2)).seq
        intro _ v _
        apply (ensures_ignoring (steady_deleteStaging _ v)).seq
        exact fun _ _ _ => ensures_fail trivial
      · rw [if_neg hdigest]
        exact ensures_close .completed sess.error hknown.2

/-! ## Releases -/

theorem ensures_inspectPackage {sess : UploadSession} {req : ReleaseRequest}
    {permissions : List String} (hs : KnownUpload sess s)
    (hclaimed : sess.status = .releaseClaimed) :
    (staging env).Ensures i (inspectPackage env config sess req permissions) s
      (fun _ t => ∃ b, (sess.id, b) ∈ t.inspections) fun _ _ => True := by
  apply (ensures_readForInspection hs hclaimed).bind (fun _ _ => id)
  intro content t hread
  exact ensures_ofExcept (fun _ _ => hread) fun _ _ => trivial

/-- What follows once the session has been claimed and inspected. -/
theorem ensures_recordRelease {sess : UploadSession} {tool : Tool} {art : Artifact} {job : Job}
    (hs : KnownUpload sess s) (hinspected : ∃ b, (sess.id, b) ∈ s.inspections)
    (hid : art.id ≠ "") (hsha : isSHA256 art.sha256 = true) (hstatus : art.status = .staged)
    (hdeclared : art.sha256 = sess.declaredSHA256) :
    (staging env).Ensures i (do
      step (upsertTool tool)
      step (createArtifact art)
      update { sess with artifactID := art.id }
      step (enqueue job)
      return art) s (fun _ _ => True) fun _ _ => True := by
  have hlasting : Lasting fun w : World β => KnownUpload sess w ∧ ∃ b, (sess.id, b) ∈ w.inspections :=
    (lasting_knownUpload sess).and (lasting_inspection sess.id)
  apply (carry (steady_upsertTool tool s) hlasting ⟨hs, hinspected⟩).seq
  intro _ t ht
  apply (carry (ensures_createArtifact hid hsha hstatus) hlasting ht.2).seq
  intro _ u hu
  obtain ⟨⟨cur, hcur, hcurId, hcurSha⟩, hknown, hread⟩ := hu
  have hbound : Bound u { sess with artifactID := art.id } :=
    ⟨hread, cur, hcur, hcurId, hcurSha.trans hdeclared⟩
  apply (ensures_bindArtifact hknown hbound).seq
  intro _ v _
  apply (steady_enqueue job v).seq
  exact fun _ _ _ => ensures_pure trivial

theorem ne_empty_of_prefix (uuid : String) : "art_" ++ uuid ≠ "" := by
  intro heq
  have hlength := congrArg (fun id => id.toList.length) heq
  simp only [String.toList_append, List.length_append] at hlength
  simp at hlength

theorem steady_createRelease (req : ReleaseRequest) (uuid jobID : String) (now : Int) :
    (staging env).Steady i (createRelease env config req ("art_" ++ uuid) jobID now) := by
  have hid := ne_empty_of_prefix uuid
  generalize "art_" ++ uuid = artifactID at hid ⊢
  refine (steady_ofExcept _).bind fun _ => ?_
  apply (steady_reading _).bind
  intro seen
  refine (steady_ofExcept _).bind fun checked => ?_
  apply (steady_reading _).attempt.bind
  intro existing
  refine (steady_ofExcept _).bind fun _ => ?_
  apply (steady_reading _).bind
  intro _ s
  apply ensures_claimCompleted.outcome.seq
  intro claim t hclaim
  cases claim with
  | error e => exact ensures_fail trivial
  | ok sess =>
      obtain ⟨hknown, hclaimed, hsha⟩ := hclaim
      have hinspect : (staging env).Ensures i (inspectPackage env config sess req checked.2) t
          (fun _ u => (∃ b, (sess.id, b) ∈ u.inspections) ∧ KnownUpload sess u)
          fun _ u => KnownUpload sess u :=
        carry (ensures_inspectPackage hknown hclaimed) (lasting_knownUpload sess) hknown
      apply hinspect.outcome.seq
      intro manifest u hmanifest
      cases manifest with
      | error e => exact ensures_fail trivial
      | ok manifestDigest =>
          exact ensures_recordRelease hmanifest.2 hmanifest.1 hid hsha rfl rfl

/-! ## Metadata -/

theorem steady_writeRelease (task : Nat) (now : Int) (targets : List (String × TargetEntry))
    (attempts : Nat) : (staging env).Steady i (writeRelease env config task now targets attempts) := by
  induction attempts with
  | zero => exact steady_fail _
  | succ attempts ih =>
      have hretry : ∀ e : ServerError, (staging env).Steady i
          (if e.kind = .objectConflict then writeRelease env config task now targets attempts
          else Task.fail e) := by
        intro e
        split
        · exact ih
        · exact steady_fail e
      apply (steady_nextVersion task _).bind
      intro ver
      -- the text of the documents plays no part
      generalize signRelease env config.toMetadataKeys ver now targets = signed
      apply (steady_ofExcept signed).bind
      intro release
      apply (steady_putMetadata _ _).attempt.bind
      intro targetsWritten
      cases targetsWritten with
      | error e => exact hretry e
      | ok _ =>
          apply (steady_putMetadata _ _).attempt.bind
          intro snapshotWritten
          cases snapshotWritten with
          | error e => exact hretry e
          | ok _ => exact steady_putTimestamp _

theorem steady_finalizePublish (now : Int) (arts : List Artifact) :
    (staging env).Steady i (finalizePublish now arts) := by
  induction arts with
  | nil => exact steady_pure ()
  | cons art rest ih =>
      apply (steady_within _ (steady_reading _)).bind
      intro sess
      apply (steady_within _ (steady_deleteStaging _)).bind
      intro _
      apply (steady_within _ (steady_updateStatus (.inr (by decide)))).bind
      exact fun _ => ih

theorem steady_finalizeWithdraw (arts : List Artifact) :
    (staging env).Steady i (finalizeWithdraw arts) := by
  induction arts with
  | nil => exact steady_pure ()
  | cons art rest ih =>
      apply (steady_within _ (steady_updateStatus (.inr (by decide)))).bind
      exact fun _ => ih

theorem steady_publishMetadataLocked (task : Nat) (now : Int) :
    (staging env).Steady i (publishMetadataLocked env config task now) := by
  apply (steady_reading _).bind
  intro published
  apply (steady_reading _).bind
  intro publishPending
  apply (steady_reading _).bind
  intro withdrawPending
  refine (steady_ofExcept _).bind fun targets => ?_
  apply (steady_writeRelease task now targets _).bind
  intro _
  apply (steady_finalizePublish now publishPending).bind
  exact fun _ => steady_finalizeWithdraw withdrawPending

theorem steady_publishMetadata (task : Nat) (now : Int) :
    (staging env).Steady i (publishMetadata env config task now) :=
  steady_withMetadataPublishLease (steady_publishMetadataLocked task now)

theorem steady_reconcilePublications (task : Nat) (now : Int) :
    (staging env).Steady i (reconcilePublications env config task now) := by
  apply (steady_reading _).bind
  intro publishing
  apply (steady_reading _).bind
  intro withdrawing
  split
  · exact steady_pure ()
  · exact steady_publishMetadata task now

/-! ## Review -/

/-- A known artifact and the session that is bound to it declare one digest. -/
theorem KnownArtifact.sha256_eq {art : Artifact} {sess : UploadSession} {w : World β}
    (h : KnownArtifact art w) (hbound : Bound w sess) (hartifact : sess.artifactID = art.id) :
    art.sha256 = sess.declaredSHA256 := by
  obtain ⟨cur, hcur, hcurId, hcurSha⟩ := h.1
  obtain ⟨_, row, hrow, hrowId, hrowSha⟩ := hbound
  have hsame : cur = row :=
    Table.eq_of_key_eq hcur hrow (hcurId.trans (hartifact.symm.trans hrowId.symm))
  rw [← hcurSha, hsame]
  exact hrowSha

/-- The row stays right when only its status changes, to one that says no more. -/
theorem ArtifactOk.released_of_scanned {art next : Artifact} {w : World β} (h : ArtifactOk w art)
    (hid : next.id = art.id) (hsha : next.sha256 = art.sha256) (hstaged : art.status ≠ .staged)
    (hrejected : art.status ≠ .rejected)
    (hpublished : ∃ b, w.objects (publishedKey art.sha256) = some b) : ArtifactOk w next where
  id_ne := hid ▸ h.id_ne
  sha256 := hsha ▸ h.sha256
  scanned _ _ := hid ▸ h.scanned hstaged hrejected
  released _ := hsha ▸ hpublished

theorem ensures_requestPublication {art : Artifact} {now : Int} (hart : KnownArtifact art s)
    (hscanned : art.status = .scanned) :
    (staging env).Ensures i (requestPublication env art now) s (fun _ _ => True)
      fun _ _ => True := by
  refine ensures_ofExcept_bind (fun _ _ => trivial) fun _ _ => ?_
  apply (carry (ensures_getByArtifact hart.2.id_ne) (lasting_knownArtifact art) hart).seq
  intro sess t ht
  obtain ⟨⟨hsess, hclaimed, hartifact, hbound⟩, hknown⟩ := ht
  have hsha := hknown.sha256_eq hbound hartifact
  have hcopied : (staging env).Ensures i
      (copyToPublished env sess.stagingKey (publishedKey sess.declaredSHA256)) t
      (fun _ u => ∃ b, u.objects (publishedKey sess.declaredSHA256) = some b) fun _ _ => True :=
    ensures_copyToPublished hsess hclaimed
  have hcopy := carry hcopied (lasting_knownArtifact art) hknown
  rw [← hsha] at hcopy
  refine hcopy.seq fun _ u hu => ?_
  apply ensures_updateArtifact hu.2
  · rfl
  · rfl
  · apply hu.2.2.released_of_scanned
    · rfl
    · rfl
    · rw [hscanned]
      decide
    · rw [hscanned]
      decide
    · exact hu.1

theorem steady_publishAndGet (task : Nat) (artifactID : String) (now : Int) :
    (staging env).Steady i (do
      publishMetadataLocked env config task now
      let _ ← step (getArtifact artifactID)) := by
  apply (steady_publishMetadataLocked task now).bind
  intro _
  apply (steady_reading _).bind
  exact fun _ => steady_pure ()

theorem steady_approve (task : Nat) (artifactID : String) (now : Int) :
    (staging env).Steady i (approve env config task artifactID now) := by
  apply steady_withMetadataPublishLease
  intro s
  apply ensures_getArtifact.seq
  intro art t hart
  have hpublish : (staging env).Steady i (do
      publishMetadataLocked env config task now
      let _ ← step (getArtifact artifactID)) := steady_publishAndGet task artifactID now
  cases hstatus : art.status with
  | scanned =>
      simp only
      apply (ensures_requestPublication hart.1 hstatus).seq
      exact fun _ u _ => hpublish u
  | publishPending =>
      simp only
      exact ensures_ofExcept_bind (fun _ _ => trivial) fun _ _ => hpublish t
  | _ =>
      simp only
      first
      | exact ensures_pure trivial
      | exact ensures_fail trivial

theorem ArtifactOk.of_eq {art next : Artifact} {w : World β} (h : ArtifactOk w art)
    (hid : next.id = art.id) (hsha : next.sha256 = art.sha256) (hstatus : next.status = art.status) :
    ArtifactOk w next where
  id_ne := hid ▸ h.id_ne
  sha256 := hsha ▸ h.sha256
  scanned hstaged hrejected := hid ▸ h.scanned (hstatus ▸ hstaged) (hstatus ▸ hrejected)
  released hreleased := hsha ▸ h.released (hstatus ▸ hreleased)

theorem steady_withdraw (task : Nat) (artifactID : String) (now : Int) :
    (staging env).Steady i (withdraw env config task artifactID now) := by
  apply steady_withMetadataPublishLease
  intro s
  apply ensures_getArtifact.seq
  intro art t hart
  have hpublish : (staging env).Steady i (do
      publishMetadataLocked env config task now
      let _ ← step (getArtifact artifactID)) := steady_publishAndGet task artifactID now
  cases hstatus : art.status with
  | published =>
      simp only
      have hnext : ArtifactOk t { art with status := .withdrawPending } := by
        apply hart.1.2.released_of_scanned
        · rfl
        · rfl
        · rw [hstatus]
          decide
        · rw [hstatus]
          decide
        · apply hart.1.2.released
          rw [hstatus]
          decide
      have hupdate : (staging env).Ensures i
          (step (updateArtifact { art with status := .withdrawPending })) t (fun _ _ => True)
          fun _ _ => True := by
        apply ensures_updateArtifact hart.1
        · rfl
        · rfl
        · exact hnext
      apply hupdate.seq
      exact fun _ u _ => hpublish u
  | withdrawPending => exact hpublish t
  | _ =>
      simp only
      first
      | exact ensures_pure trivial
      | exact ensures_fail trivial

theorem steady_reject (artifactID : String) :
    (staging env).Steady i (reject artifactID) := by
  apply (steady_updateStatus (.inl rfl)).bind
  intro _
  apply (steady_reading _).attempt.bind
  intro session
  cases session with
  | error e => exact steady_pure ()
  | ok sess => exact steady_ignoring (steady_deleteStaging _)

/-! ## Scans -/

theorem ensures_scanPackage {art : Artifact} {sess : UploadSession} (hart : KnownArtifact art s)
    (hs : KnownUpload sess s) (hclaimed : sess.status = .releaseClaimed)
    (hsha : art.sha256 = sess.declaredSHA256) :
    (staging env).Ensures i (scanPackage env config art sess) s
      (fun _ t => ∃ b, (art.id, b) ∈ t.scans) fun _ _ => True := by
  have hknown : Lasting fun w : World β => KnownArtifact art w ∧ KnownUpload sess w :=
    (lasting_knownArtifact art).and (lasting_knownUpload sess)
  apply (carry (steady_reading _ s) hknown ⟨hart, hs⟩).bind (fun _ _ _ => trivial)
  intro _ t ht
  apply (ensures_readForScan ht.2.1 ht.2.2 hclaimed hsha).bind (fun _ _ => id)
  intro content u hread
  refine ensures_ofExcept_bind (fun _ _ => trivial) fun _ _ => ?_
  exact ensures_pure hread

/-- The inspected session of a known artifact. -/
theorem KnownUpload.inspected {sess : UploadSession} {w : World β} (h : KnownUpload sess w)
    (hbound : Bound w sess) (hne : sess.artifactID ≠ "") : Inspected w sess.artifactID := by
  obtain ⟨cur, hcur, hcontinues⟩ := h
  obtain ⟨⟨b, hb⟩, _⟩ := hbound
  exact ⟨cur, hcur, hcontinues.artifactID hne, b, hcontinues.id ▸ hb⟩

theorem scannedArtifact_ok {art : Artifact} {result : ScanResult} {w : World β}
    (h : ArtifactOk w art) (hinspected : Inspected w art.id) (hscan : ∃ b, (art.id, b) ∈ w.scans) :
    ArtifactOk w (scannedArtifact env art result) where
  id_ne := h.id_ne
  sha256 := h.sha256
  scanned _ _ := ⟨hinspected, hscan⟩
  released hreleased := by
    have hstatus : (scannedArtifact env art result).status =
        if result.passed then .scanned else .rejected := rfl
    rw [hstatus] at hreleased
    split at hreleased
    · cases hreleased
    · cases hreleased

theorem lasting_inspected {id : String} (hid : id ≠ "") :
    Lasting fun w : World β => Inspected w id :=
  fun _ _ hprogress h => h.mono hid hprogress

theorem steady_runScan (task : Nat) (artifactID : String) (now : Int) :
    (staging env).Steady i (runScan env config task artifactID now) := by
  intro s
  apply ensures_getArtifact.seq
  intro art t hart
  by_cases hstaged : art.status ≠ .staged
  · rw [if_pos hstaged]
    exact ensures_pure trivial
  · rw [if_neg hstaged]
    obtain ⟨hknown, hid⟩ := hart
    rw [← hid]
    apply (carry (ensures_getByArtifact hknown.2.id_ne) (lasting_knownArtifact art) hknown).seq
    intro sess u hu
    obtain ⟨⟨hsess, hclaimed, hartifact, hbound⟩, hknown'⟩ := hu
    have hinspected : Inspected u art.id := by
      rw [← hartifact]
      apply hsess.inspected hbound
      rw [hartifact]
      exact hknown'.2.id_ne
    have hlasting : Lasting fun w : World β => KnownArtifact art w ∧ Inspected w art.id :=
      (lasting_knownArtifact art).and (lasting_inspected hknown'.2.id_ne)
    have hscan : (staging env).Ensures i (scanPackage env config art sess) u
        (fun _ t => ∃ b, (art.id, b) ∈ t.scans) fun _ _ => True :=
      ensures_scanPackage hknown' hsess hclaimed (hknown'.sha256_eq hbound hartifact)
    apply (carry hscan hlasting ⟨hknown', hinspected⟩).seq
    intro result v hv
    obtain ⟨hread, hcurrent, hseen⟩ := hv
    have hupdate : (staging env).Ensures i (step (updateArtifact (scannedArtifact env art result)))
        v (fun _ _ => True) fun _ _ => True := by
      apply ensures_updateArtifact hcurrent
      · rfl
      · rfl
      · exact scannedArtifact_ok hcurrent.2 hseen hread
    split
    · apply hupdate.seq
      intro _ x _
      split
      · exact steady_approve task art.id now x
      · exact ensures_pure trivial
    · apply (ensures_ignoring hupdate).seq
      exact fun _ x _ => steady_ignoring (steady_deleteStaging _) x

theorem steady_recordReproVerification (task : Nat) (artifactID : String) (res : ReproResult)
    (now : Int) :
    (staging env).Steady i (recordReproVerification env config task artifactID res now) := by
  intro s
  apply ensures_getArtifact.seq
  intro art t hart
  have hupdate : (staging env).Ensures i (step (updateArtifact
      { art with reproStatus := res.status, reproStrategy := res.strategy })) t (fun _ _ => True)
      fun _ _ => True := by
    apply ensures_updateArtifact hart.1
    · rfl
    · rfl
    · apply hart.1.2.of_eq
      · rfl
      · rfl
      · rfl
  apply hupdate.seq
  intro _ u _
  split
  · exact steady_publishMetadata task now u
  · exact ensures_pure trivial

/-! ## Runs -/

theorem steady_startOperation (task : Nat) (op : Operation β) :
    (staging env).Steady i (startOperation env config task op) := by
  cases op with
  | createUploadSession id publisherKeyID declaredSHA declaredSize now =>
      apply (steady_createUploadSession id publisherKeyID declaredSHA declaredSize now).bind
      exact fun _ => steady_pure ()
  | receiveContent sessionID content => exact steady_receiveContent sessionID content
  | createRelease req uuid jobID now =>
      apply (steady_createRelease req uuid jobID now).bind
      exact fun _ => steady_pure ()
  | runScan artifactID now => exact steady_runScan task artifactID now
  | approve artifactID now => exact steady_approve task artifactID now
  | reject artifactID => exact steady_reject artifactID
  | withdraw artifactID now => exact steady_withdraw task artifactID now
  | recordReproVerification artifactID res now =>
      exact steady_recordReproVerification task artifactID res now
  | publishMetadata now => exact steady_publishMetadata task now
  | reconcilePublications now => exact steady_reconcilePublications task now

/-- Nothing has been uploaded yet. -/
structure Fresh (w : World β) : Prop where
  uploads : w.uploads.rows = []
  artifacts : w.artifacts.rows = []
  inspections : w.inspections = []
  scans : w.scans = []
  published : ∀ sha256, w.objects (publishedKey sha256) = none

theorem Fresh.consistent {w : World β} (h : Fresh w) : Consistent env w := by
  constructor
  · intro sess hmem
    rw [h.uploads] at hmem
    cases hmem
  · intro sess hmem
    rw [h.uploads] at hmem
    cases hmem
  · intro sess hmem
    rw [h.uploads] at hmem
    cases hmem
  · intro id b hread
    rw [h.inspections] at hread
    cases hread
  · intro id b hread
    rw [h.scans] at hread
    cases hread
  · intro art hmem
    rw [h.artifacts] at hmem
    cases hmem
  · intro sha256 b hb
    rw [h.published sha256] at hb
    cases hb

/-- Published objects have the digest in their key, and for an artifact they are what its
inspection and its scan have read. -/
structure ContentAddressed (env : External β) (w : World β) : Prop where
  digest : ∀ sha256 b, w.objects (publishedKey sha256) = some b → env.sha256Hex b = sha256
  inspected : ∀ art ∈ w.artifacts.rows, ∀ b, w.objects (publishedKey art.sha256) = some b →
    ∀ sess ∈ w.uploads.rows, sess.artifactID = art.id → ∀ b', (sess.id, b') ∈ w.inspections →
      b' = b
  scanned : ∀ art ∈ w.artifacts.rows, ∀ b, w.objects (publishedKey art.sha256) = some b →
    ∀ b', (art.id, b') ∈ w.scans → b' = b
  released : ∀ art ∈ w.artifacts.rows, art.status.isReleased = true →
    ∃ b, w.objects (publishedKey art.sha256) = some b ∧ (art.id, b) ∈ w.scans ∧
      ∃ sess ∈ w.uploads.rows, sess.artifactID = art.id ∧ (sess.id, b) ∈ w.inspections

theorem Consistent.contentAddressed {w : World β} (hinj : Function.Injective env.sha256Hex)
    (h : Consistent env w) : ContentAddressed env w := by
  have hinspected : ∀ art ∈ w.artifacts.rows, ∀ b, w.objects (publishedKey art.sha256) = some b →
      ∀ sess ∈ w.uploads.rows, sess.artifactID = art.id → ∀ b', (sess.id, b') ∈ w.inspections →
        b' = b := by
    intro art hart b hb sess hsess hartifact b' hread
    obtain ⟨cur, hcur, hcurId, hcurSha⟩ := h.inspected _ _ hread
    have hsame := Table.eq_of_key_eq hcur hsess hcurId
    have hne : sess.artifactID ≠ "" := by
      rw [hartifact]
      exact (h.artifact art hart).id_ne
    obtain ⟨_, row, hrow, hrowId, hrowSha⟩ := (h.bound sess hsess hne).2
    have hrow' : row = art := Table.eq_of_key_eq hrow hart (hrowId.trans hartifact)
    apply hinj
    rw [hcurSha, hsame, ← hrowSha, hrow', h.published _ _ hb]
  have hscanned : ∀ art ∈ w.artifacts.rows, ∀ b, w.objects (publishedKey art.sha256) = some b →
      ∀ b', (art.id, b') ∈ w.scans → b' = b := by
    intro art hart b hb b' hread
    obtain ⟨cur, hcur, hcurId, hcurSha⟩ := h.scanned _ _ hread
    have hsame := Table.eq_of_key_eq hcur hart hcurId
    apply hinj
    rw [hcurSha, hsame, h.published _ _ hb]
  refine ⟨h.published, hinspected, hscanned, ?_⟩
  intro art hart hreleased
  have hok := h.artifact art hart
  obtain ⟨b, hb⟩ := hok.released hreleased
  have hstaged : art.status ≠ .staged := by
    intro heq
    rw [heq] at hreleased
    cases hreleased
  have hrejected : art.status ≠ .rejected := by
    intro heq
    rw [heq] at hreleased
    cases hreleased
  obtain ⟨⟨sess, hsess, hartifact, b', hread'⟩, b'', hread''⟩ := hok.scanned hstaged hrejected
  have hb' := hinspected art hart b hb sess hsess hartifact b' hread'
  have hb'' := hscanned art hart b hb b'' hread''
  rw [hb'] at hread'
  rw [hb''] at hread''
  exact ⟨b, hb, hread'', sess, hsess, hartifact, hread'⟩

/-- Runs of the service in which no upload stores bytes with another digest for a session
that has been completed, and none completes a session over such bytes. -/
theorem contentAddressed_of_run {sys sys' : System (Label β) (World β) ServerError}
    {events : List (SystemEvent ServerError (Operation β))}
    (hinj : Function.Injective env.sha256Hex) (hfresh : Fresh sys.shared) (hidle : sys.tasks = [])
    (hrun : Run (Guarded (Machine.Meets (StoresDeclared env)) (service env config).Step)
      sys events sys') : ContentAddressed env sys'.shared := by
  have hdisciplined : Machine.Disciplined (staging env) sys :=
    Machine.disciplined_of_idle hfresh.consistent hidle
  have habandon : ∀ i w, Consistent env w →
      (staging env).Keeps i w ((service env config).abandon i w) := by
    intro i w hw
    show (staging env).Keeps i w (if w.lease = some i then { w with lease := none } else w)
    split
    · exact keeps_of_eq hw rfl rfl rfl rfl rfl
    · exact keeps_refl hw
  apply Consistent.contentAddressed hinj
  exact Machine.inv_of_run (D := staging env) (fun i op => steady_startOperation i op) habandon hrun
    hdisciplined

end

/-! ## Two uploads into one session -/

namespace Sample

/-- A signed package, another one of the same length, and texts. -/
inductive Content
  | package
  | tampered
  | text (s : String)
  deriving DecidableEq

def packageDigest : String := "4a45f48c173fcdce504bba0e0f20fee01fb57e177e01c1fac799b8a0b9bc2c56"

def tamperedDigest : String := "8533f4450ea12d94990da6bcd9793d83adda39f5d7353a388eac2e93e8367e25"

def sha256Hex : Content → String
  | .package => packageDigest
  | .tampered => tamperedDigest
  | .text s => "?" ++ s

def publisherHex : String := "ea4a6c63e29c520abef5507b132ec5f9954776aebebe7b92421eea691446d22c"

def signatureParts : String × String × String × String :=
  ("0e0212d5a6a1f7ea44116b4299800b3a", "01535c15b3c8cc8631ebf6f7e2c2a949",
    "8dd4b45b4731c49f81a9ce866da38470", "73effb0b4f7a943145ec1fb56d8ea606")

/-- The signature of the payload that names the package. -/
def signature : String :=
  signatureParts.1 ++ (signatureParts.2.1 ++ (signatureParts.2.2.1 ++ signatureParts.2.2.2))

def contents : ArchiveContents where
  manifestDigest := "ce0cf7b7190cf442491ead69db64bff26dd14c91fda3497f36492d6821ab4cda"
  schemaVersion := 1
  id := "tool-a"
  version := "1.0.0"
  permissions := []
  entryType := "web"
  isNativeWorker := false
  executableHashes := []
  hasSBOM := false

def env : External Content where
  length
    | .package | .tampered => 338
    | .text s => s.utf8ByteSize
  sha256Hex := sha256Hex
  sha256Text := id
  identityDigest := String.join
  ed25519Verify publicHex message sig :=
    publicHex == publisherHex && message == signingPayload "tool-a" "1.0.0" packageDigest &&
      sig == signature
  ed25519Sign _ _ := signature
  hexError _ := ""
  marshalIndent _ := .text "metadata"
  marshalScanResult _ :=
    "\x7b\"structureSafe\":true,\"manifestValid\":true,\"permissionsReviewed\":true,\"isNativeWorker\":false,\"hasSbom\":false,\"passed\":true\x7d"
  formatTime _ := "2026-01-01T00:00:00Z"
  readArchive
    | .package | .tampered => .ok contents
    | .text _ => .error "zip: not a valid zip file"

def key (keyID : String) : Key := ⟨keyID, publisherHex, true⟩

def config : Config where
  targetsKey := key "targets"
  snapshotKey := key "snapshot"
  timestampKey := key "timestamp"
  targetsExpireDays := 90
  snapshotExpireDays := 7
  timestampExpireDays := 1
  maxUpload := 1048576
  autoApprove := false

def publisher : Publisher where
  id := "pub-1"
  displayName := "Publisher"
  keyID := "ed25519:" ++ publisherHex
  createdAt := 0
  identityIssuer := ""
  identitySANExact := ""
  identitySANPattern := ""

def world : World Content where
  publishers := ⟨[publisher], by simp⟩
  tools := .empty
  artifacts := .empty
  artIdentityIx _ := none
  uploads := .empty
  jobs := .empty
  objects _ := none
  lease := none
  tufVersion := 0
  inspections := []
  scans := []

def request : ReleaseRequest where
  uploadSessionID := "u1"
  toolID := "tool-a"
  name := "Tool A"
  summary := ""
  license := "MIT"
  version := "1.0.0"
  channel := "stable"
  platform := "windows"
  arch := "x86_64"
  accessMode := "free"
  productID := ""
  permissions := []
  publisherSignature := signature
  sigstoreBundle := ""

def session : UploadSession where
  id := "u1"
  publisherKeyID := "ed25519:" ++ publisherHex
  stagingKey := stagingKey "u1"
  declaredSHA256 := packageDigest
  declaredSize := 338
  status := .open
  error := ""
  artifactID := ""
  createdAt := 0

def artifactID : String := "art_00000000-0000-4000-8000-000000000000"

def artifact : Artifact := newArtifact request session artifactID contents.manifestDigest signature [] 0

def completed : UploadSession := { session with status := .completed }

def claimed : UploadSession := { session with status := .releaseClaimed }

def bound : UploadSession := { claimed with artifactID := artifactID }

/-! ### The worlds of the run -/

def opened : World Content := { world with uploads := world.uploads.put session }

def staged : String → Option Content := Function.update world.objects (stagingKey "u1") (some .package)

def uploaded : World Content :=
  { opened with
    objects := staged
    uploads := opened.uploads.put completed }

def inspected : World Content :=
  { uploaded with
    uploads := uploaded.uploads.put claimed
    inspections := [("u1", .package)] }

def released : World Content :=
  { inspected with
    tools := inspected.tools.put (newTool request claimed 0)
    artifacts := inspected.artifacts.put artifact
    artIdentityIx := Function.update inspected.artIdentityIx artifact.identity (some artifact.id)
    uploads := inspected.uploads.put bound
    jobs := inspected.jobs.put ⟨"job-1", "scan-artifact", scanPayload artifactID, 0⟩ }

def scanned : World Content :=
  { released with
    scans := [(artifactID, .package)]
    artifacts := released.artifacts.put (scannedArtifact env artifact (scanResult contents [])) }

/-- The object in the staging key replaced. -/
def overwritten (w : World Content) : World Content :=
  { w with objects := Function.update w.objects (stagingKey "u1") (some .tampered) }

theorem publisher_checks : isPublisherKey ("ed25519:" ++ publisherHex) = true ∧
    isEd25519PublisherKey ("ed25519:" ++ publisherHex) = true ∧
    String.ofList (("ed25519:" ++ publisherHex).toList.drop 8) = publisherHex := by
  decide

theorem digest_checks : isSHA256 packageDigest = true ∧
    isStagingKey (publishedKey packageDigest) = false ∧ packageDigest ≠ tamperedDigest ∧
    packageDigest.toList.head? ≠ some '?' ∧ tamperedDigest.toList.head? ≠ some '?' := by
  decide

theorem isPublisherKey_publisher : isPublisherKey ("ed25519:" ++ publisherHex) = true :=
  publisher_checks.1

theorem isEd25519PublisherKey_publisher :
    isEd25519PublisherKey ("ed25519:" ++ publisherHex) = true :=
  publisher_checks.2.1

theorem isSHA256_packageDigest : isSHA256 packageDigest = true := digest_checks.1

section

variable {α : Type} {f : Call Content α} {outcome : Except ServerError α} {w w' : World Content}

theorem advance_step (h : f w = (outcome, w')) :
    Advance (StoresDeclared env) (step f) w (.done outcome) w' :=
  .call trivial h

theorem advance_attempt (h : f w = (outcome, w')) :
    Advance (StoresDeclared env) (Task.attempt (step f)) w (.done (.ok outcome)) w' :=
  (advance_step h).attempt

end

abbrev finished : Work Content Unit := .done (.ok ())

theorem open_advances (task : Nat) : Advance (StoresDeclared env)
    (startOperation env config task
      (.createUploadSession "u1" ("ed25519:" ++ publisherHex) packageDigest 338 0)) world
    (.done (.ok ())) opened := by
  have hpublisher : getByKeyID ("ed25519:" ++ publisherHex) world = (.ok publisher, world) := by
    simp [getByKeyID, get, reading, world, Table.find, publisher, orFail]
  have hcreate : createUpload session world = (.ok (), opened) := rfl
  refine Advance.seq (a := session) ?_ (.refl _ _)
  refine Advance.pass ?_ ?_
  · simp [isPublisherKey_publisher]
  refine Advance.pass ?_ ?_
  · simp [isSHA256_packageDigest]
  refine Advance.pass (by decide) ?_
  refine (advance_attempt hpublisher).seq ?_
  exact (advance_step hcreate).seq (.refl _ _)

theorem staged_self : staged (stagingKey "u1") = some .package := Function.update_self _ _ _

/-- Both uploads find the session open; the second one has still to store its bytes. -/
theorem overlap_advances : ∃ rest : Work Content Unit,
    Advance (StoresDeclared env) (receiveContent env "u1" .tampered) opened rest opened ∧
    ∀ w, ∃ rest', Advance (fun _ _ => True) rest w rest' (overwritten w) := by
  have hget : getUpload "u1" opened = (.ok session, opened) := rfl
  have hstore : ∀ w, Advance (fun _ _ => True) (do
      Task.ofExcept (failIf (env.length .tampered ≠ session.declaredSize)
        (.failure "写入大小与声明不符"))
      put session.stagingKey .tampered) w (.done (.ok ())) (overwritten w) :=
    fun w => Advance.pass (by decide) (Advance.call trivial rfl)
  refine ⟨_, (advance_step hget).bind, fun w => ?_⟩
  exact ⟨_, Advance.pass (by decide) (hstore w).attempt.bind⟩

theorem storesDeclared_package : StoresDeclared env
    (.putObject (stagingKey "u1") .package) opened := by
  intro sess hmem _ _
  cases List.mem_singleton.mp hmem
  rfl

theorem receive_advances : Advance (StoresDeclared env) (receiveContent env "u1" .package) opened
    (.done (.ok ())) uploaded := by
  have hget : getUpload "u1" opened = (.ok session, opened) := rfl
  have hstore : Advance (StoresDeclared env) (do
      Task.ofExcept (failIf (env.length .package ≠ session.declaredSize)
        (.failure "写入大小与声明不符"))
      put session.stagingKey .package) opened (.done (.ok ()))
      { opened with objects := staged } :=
    Advance.pass (by decide) (Advance.call storesDeclared_package rfl)
  have hupdate : Advance (StoresDeclared env) (update completed)
      { opened with objects := staged } (.done (.ok ())) uploaded := by
    refine Advance.call ?_ rfl
    intro _ b hb
    have hb' : some Content.package = some b := staged_self.symm.trans hb
    cases hb'
    rfl
  refine (advance_step hget).seq ?_
  refine Advance.pass (by decide) ?_
  refine hstore.attempt.seq ?_
  exact hupdate

/-! ### Release, scan and approval -/

/-- Part by part, which is what the kernel can compute. -/
theorem toList_signature : signature.toList = signatureParts.1.toList ++
    (signatureParts.2.1.toList ++ (signatureParts.2.2.1.toList ++
      signatureParts.2.2.2.toList)) := by
  unfold signature
  generalize signatureParts = parts
  rw [String.toList_append, String.toList_append, String.toList_append]

theorem signature_checks : signature.toList.map Char.toLower = signature.toList ∧
    isHexText signature.toList = true ∧ signature.toList.length = 128 := by
  rw [toList_signature]
  decide +kernel

theorem toLower_signature : signature.toLower = signature := by
  apply String.toList_inj.mp
  exact String.toList_map.trans signature_checks.1

theorem isHexText_signature : isHexText signature.toList = true := signature_checks.2.1

theorem length_signature : signature.toList.length = 128 := signature_checks.2.2

theorem verify_signature : verifyPublisherSignature env ("ed25519:" ++ publisherHex) "tool-a"
    "1.0.0" packageDigest signature = .ok () := by
  have hdigits := publisher_checks.2.2
  have hverify : env.ed25519Verify publisherHex (signingPayload "tool-a" "1.0.0" packageDigest)
      signature = true := by
    simp [env]
  unfold verifyPublisherSignature
  rw [toLower_signature, hdigits, hverify]
  simp [failIf, isHexText_signature, length_signature, isEd25519PublisherKey_publisher]
  rfl

theorem signature_ne : signature ≠ "" := by
  intro heq
  have hlength := length_signature
  rw [heq] at hlength
  simp at hlength

theorem checkRelease_request :
    checkRelease env request completed = .ok (signature, []) := by
  unfold checkRelease
  refine bind_eq_ok.mpr ⟨⟨⟩, failIf_eq_ok.mpr ?_, ?_⟩
  · simp [request, signature_ne]
  refine bind_eq_ok.mpr ⟨⟨⟩, failIf_eq_ok.mpr (by simp [request]), ?_⟩
  refine bind_eq_ok.mpr ⟨⟨⟩, failIf_eq_ok.mpr ?_, ?_⟩
  · simp [completed, session, isEd25519PublisherKey_publisher]
  refine bind_eq_ok.mpr ⟨⟨⟩, ?_, ?_⟩
  · have hverify := verify_signature
    simp only [completed, session, request]
    rw [hverify]
    rfl
  refine bind_eq_ok.mpr ⟨[], rfl, ?_⟩
  refine bind_eq_ok.mpr ⟨⟨⟩, failIf_eq_ok.mpr (by simp [request]), ?_⟩
  rw [show request.publisherSignature = signature from rfl, toLower_signature]
  rfl

theorem request_checks : request.validate = .ok () ∧
    (openArchive env config 338 .package).bind (checkPackage request []) =
      .ok contents.manifestDigest := by
  decide

theorem validate_request : request.validate = .ok () := request_checks.1

theorem inspect_package : (openArchive env config 338 .package).bind (checkPackage request []) =
    .ok contents.manifestDigest :=
  request_checks.2

theorem read_inspected : readForInspection claimed
    { uploaded with uploads := uploaded.uploads.put claimed } = (.ok .package, inspected) := by
  unfold readForInspection
  rw [show claimed.stagingKey = stagingKey "u1" from rfl]
  simp only [uploaded, staged_self]
  rfl

/-- The release of what has been uploaded. -/
def releaseWorld : World Content :=
  { inspected with
    tools := inspected.tools.put (newTool request claimed 0)
    artifacts := inspected.artifacts.put artifact
    artIdentityIx := Function.update inspected.artIdentityIx artifact.identity (some artifact.id) }

theorem release_advances (task : Nat) : Advance (StoresDeclared env)
    (startOperation env config task
      (.createRelease request "00000000-0000-4000-8000-000000000000" "job-1" 0)) uploaded
    (.done (.ok ())) released := by
  have hget : getUpload "u1" uploaded = (.ok completed, uploaded) := rfl
  have hnone : ∀ identity, getByIdentity identity uploaded = (.error (.notFound ""), uploaded) :=
    fun _ => rfl
  have hclaim : claimCompleted "u1" uploaded =
      (.ok claimed, { uploaded with uploads := uploaded.uploads.put claimed }) := rfl
  have htool : upsertTool (newTool request claimed 0) inspected =
      (.ok (), { inspected with tools := inspected.tools.put (newTool request claimed 0) }) := rfl
  have hcreate : createArtifact artifact
      { inspected with tools := inspected.tools.put (newTool request claimed 0) } =
      (.ok (), releaseWorld) := rfl
  have hbind : Advance (StoresDeclared env) (update bound) releaseWorld (.done (.ok ()))
      { releaseWorld with uploads := inspected.uploads.put bound } := by
    refine Advance.call ?_ rfl
    intro hcompleted
    cases hcompleted
  have henqueue : enqueue ⟨"job-1", "scan-artifact", scanPayload artifactID, 0⟩
      { releaseWorld with uploads := inspected.uploads.put bound } = (.ok (), released) := rfl
  have hinspect : Advance (StoresDeclared env) (inspectPackage env config claimed request [])
      { uploaded with uploads := uploaded.uploads.put claimed }
      (.done (.ok contents.manifestDigest)) inspected := by
    refine (advance_step read_inspected).seq ?_
    have hok : ((openArchive env config 338 .package).bind (checkPackage request [])).mapError
        (fun e => ServerError.failure e) = .ok contents.manifestDigest := by
      rw [inspect_package]
      rfl
    exact hok ▸ .refl _ _
  refine Advance.seq (a := artifact) ?_ (.refl _ _)
  refine Advance.check validate_request ?_
  refine (advance_step hget).seq ?_
  refine Advance.check checkRelease_request ?_
  refine (advance_attempt (hnone _)).seq ?_
  refine Advance.check rfl ?_
  refine Advance.seq (advance_step (f := reading fun _ => .ok ()) rfl) ?_
  refine (advance_attempt hclaim).seq ?_
  refine hinspect.attempt.seq ?_
  refine (advance_step htool).seq ?_
  refine (advance_step hcreate).seq ?_
  refine hbind.seq ?_
  exact (advance_step henqueue).seq (.refl _ _)

theorem read_released : readForScan artifactID (stagingKey "u1") released =
    (.ok .package, { released with scans := [(artifactID, .package)] }) := by
  unfold readForScan
  rw [show released.objects = staged from rfl, staged_self]
  rfl

theorem openArchive_package : (openArchive env config 338 .package).mapError
    (fun e => ServerError.failure e) = .ok contents := by
  rw [show openArchive env config 338 .package = .ok contents from rfl]
  rfl

theorem scan_advances (task : Nat) : Advance (StoresDeclared env)
    (startOperation env config task (.runScan artifactID 0)) released (.done (.ok ()))
    scanned := by
  have hget : getArtifact artifactID released = (.ok artifact, released) := rfl
  have hsession : getByArtifact artifactID released = (.ok bound, released) := rfl
  have hscan : Advance (StoresDeclared env) (scanPackage env config artifact bound) released
      (.done (.ok (scanResult contents []))) { released with scans := [(artifactID, .package)] } := by
    refine Advance.seq (advance_step (f := reading fun _ => .ok ()) rfl) ?_
    refine (advance_step read_released).seq ?_
    refine Advance.check openArchive_package ?_
    exact .refl _ _
  have hupdate : updateArtifact (scannedArtifact env artifact (scanResult contents []))
      { released with scans := [(artifactID, .package)] } = (.ok (), scanned) := rfl
  refine (advance_step hget).seq ?_
  refine (advance_step hsession).seq ?_
  refine hscan.seq ?_
  exact (advance_step hupdate).seq (.refl _ _)

def scannedRow : Artifact := scannedArtifact env artifact (scanResult contents [])

def pendingRow : Artifact :=
  { scannedRow with
    officialReviewPassed := true
    status := .publishPending
    publishedAt := some 0 }

theorem trust_scannedRow : validateArtifactPublisherTrust env scannedRow = .ok () := by
  have hsignature : scannedRow.publisherSignature = signature := rfl
  have hsemver : isSemver scannedRow.version = true := by decide
  unfold validateArtifactPublisherTrust
  rw [hsignature]
  refine bind_eq_ok.mpr ⟨⟨⟩, failIf_eq_ok.mpr ?_, ?_⟩
  · simp [signature_ne]
    rfl
  rw [if_pos (show scannedRow.signatureMethod = "ed25519" from rfl)]
  refine bind_eq_ok.mpr ⟨⟨⟩, failIf_eq_ok.mpr ?_, ?_⟩
  · rw [show scannedRow.publisherKeyID = "ed25519:" ++ publisherHex from rfl,
      isEd25519PublisherKey_publisher, hsemver, toLower_signature,
      show scannedRow.sha256 = packageDigest from rfl, isSHA256_packageDigest]
    simp only [signature_ne, Bool.true_eq_false, ne_eq, not_true_eq_false, false_or]
    decide
  rw [show scannedRow.publisherKeyID = "ed25519:" ++ publisherHex from rfl,
    show scannedRow.toolID = "tool-a" from rfl, show scannedRow.version = "1.0.0" from rfl,
    show scannedRow.sha256 = packageDigest from rfl, verify_signature]
  rfl

/-- The world after the intent to publish some content. -/
def approved (task : Nat) (objects : String → Option Content) (content : Content) :
    World Content :=
  { scanned with
    lease := some task
    objects := Function.update objects (publishedKey packageDigest) (some content)
    artifacts := scanned.artifacts.put pendingRow }

theorem published_approved (task : Nat) (objects : String → Option Content) (content : Content) :
    (approved task objects content).objects (publishedKey packageDigest) = some content := by
  simp only [approved, Function.update_self]

theorem overwritten_staged (w : World Content) :
    (overwritten w).objects (stagingKey "u1") = some .tampered := by
  simp only [overwritten, Function.update_self]

theorem overwritten_published (w : World Content) :
    (overwritten w).objects (publishedKey packageDigest) = w.objects (publishedKey packageDigest) :=
  Function.update_of_ne (stagingKey_ne_publishedKey "u1" packageDigest).symm
    (some Content.tampered) w.objects

/-- Whatever is in the staging key by then is published. -/
theorem approve_advances (task : Nat) {objects : String → Option Content} {content : Content}
    (hstaged : objects (stagingKey "u1") = some content)
    (hnone : objects (publishedKey packageDigest) = none) :
    ∃ rest, Advance (StoresDeclared env) (startOperation env config task (.approve artifactID 0))
      { scanned with objects := objects } rest (approved task objects content) := by
  have hacquire : acquirePublishLease task { scanned with objects := objects } =
      (.ok (), { scanned with objects := objects, lease := some task }) := rfl
  have hget : getArtifact artifactID { scanned with objects := objects, lease := some task } =
      (.ok scannedRow, { scanned with objects := objects, lease := some task }) := rfl
  have hsession : getByArtifact artifactID { scanned with objects := objects, lease := some task } =
      (.ok bound, { scanned with objects := objects, lease := some task }) := rfl
  have hread : getObject (stagingKey "u1") { scanned with objects := objects, lease := some task } =
      (.ok content, { scanned with objects := objects, lease := some task }) := by
    simp only [getObject, reading, hstaged]
    rfl
  have hwrite : putIfAbsentOrSame env.length env.sha256Hex (publishedKey packageDigest) content
      { scanned with objects := objects, lease := some task } = (.ok (), { scanned with
        lease := some task
        objects := Function.update objects (publishedKey packageDigest) (some content) }) := by
    simp only [putIfAbsentOrSame, hnone]
  have hupdate : updateArtifact pendingRow { scanned with
      lease := some task
      objects := Function.update objects (publishedKey packageDigest) (some content) } =
      (.ok (), approved task objects content) := rfl
  have hstagingKey : isStagingKey (stagingKey "u1") = true := by decide
  have hpublishedKey := digest_checks.2.1
  have hcopy : Advance (StoresDeclared env)
      (copyToPublished env (stagingKey "u1") (publishedKey packageDigest))
      { scanned with objects := objects, lease := some task } (.done (.ok ()))
      { scanned with
        lease := some task
        objects := Function.update objects (publishedKey packageDigest) (some content) } := by
    unfold copyToPublished
    refine Advance.pass (by simp [hstagingKey]) ?_
    refine Advance.pass (by simp [hpublishedKey]) ?_
    exact (advance_step hread).seq (advance_step hwrite)
  have hrequest : Advance (StoresDeclared env) (requestPublication env scannedRow 0)
      { scanned with objects := objects, lease := some task } (.done (.ok ()))
      (approved task objects content) := by
    unfold requestPublication
    refine Advance.check trust_scannedRow ?_
    refine (advance_step hsession).seq ?_
    exact hcopy.seq (advance_step hupdate)
  have hpublish : ∀ rest : Work Content Unit, Advance (StoresDeclared env)
      (requestPublication env scannedRow 0 >>= fun _ => rest)
      { scanned with objects := objects, lease := some task } rest
      (approved task objects content) :=
    fun rest => hrequest.seq (.refl rest _)
  exact ⟨_, (advance_step hacquire).seq
    (Advance.bind (Advance.attempt ((advance_step hget).seq (hpublish _))))⟩

/-! ### Runs -/

abbrev GuardedStep := Guarded (Machine.Meets (StoresDeclared env)) (service env config).Step

theorem start_run (tasks : List (Work Content Unit)) {w w' : World Content}
    {task : Work Content Unit} (op : Operation Content)
    (h : Advance (StoresDeclared env) (startOperation env config tasks.length op) w task w') :
    ∃ events, Run GuardedStep ⟨w, tasks⟩ events ⟨w', tasks ++ [task]⟩ := by
  have hstart : ∃ n, Run (Guarded (fun sys event => Machine.Meets (StoresDeclared env) sys event ∧
      event.Lets fun _ => True) (service env config).Step) ⟨w, tasks⟩
      (.start op :: List.replicate n (.step tasks.length .proceed)) ⟨w', tasks ++ [task]⟩ :=
    Advance.run_start trivial h
  obtain ⟨n, hrun⟩ := hstart
  exact ⟨_, hrun.mono fun _ _ _ hstep => ⟨hstep.1.1, hstep.2⟩⟩

theorem open_run : ∃ events, Run GuardedStep ⟨world, []⟩ events ⟨opened, [finished]⟩ :=
  start_run [] (.createUploadSession "u1" ("ed25519:" ++ publisherHex) packageDigest 338 0)
    (open_advances _)

/-- From an upload to the end of its scan, whatever other tasks there are. -/
theorem scanned_run (tasks : List (Work Content Unit)) : ∃ events,
    Run GuardedStep ⟨opened, tasks⟩ events
      ⟨scanned, tasks ++ [finished] ++ [finished] ++ [finished]⟩ := by
  obtain ⟨upload, hupload⟩ := start_run tasks (.receiveContent "u1" .package) receive_advances
  obtain ⟨release, hrelease⟩ := start_run (tasks ++ [finished])
    (.createRelease request "00000000-0000-4000-8000-000000000000" "job-1" 0) (release_advances _)
  obtain ⟨scan, hscan⟩ := start_run (tasks ++ [finished] ++ [finished]) (.runScan artifactID 0)
    (scan_advances _)
  exact ⟨_, (hupload.append hrelease).append hscan⟩

theorem staged_publishedKey : staged (publishedKey packageDigest) = none :=
  Function.update_of_ne (stagingKey_ne_publishedKey _ _).symm _ _

theorem fresh_world : Fresh world := ⟨rfl, rfl, rfl, rfl, fun _ => rfl⟩

theorem packageDigest_ne : packageDigest ≠ tamperedDigest := digest_checks.2.2.1

theorem digest_ne_text {digest : String} (hdigest : digest.toList.head? ≠ some '?') (s : String) :
    digest ≠ "?" ++ s := by
  intro heq
  apply hdigest
  rw [heq, String.toList_append]
  rfl

theorem sha256Hex_injective : Function.Injective env.sha256Hex := by
  have hpackage := digest_checks.2.2.2.1
  have htampered := digest_checks.2.2.2.2
  intro a b hab
  cases a with
  | package =>
      cases b with
      | package => rfl
      | tampered => exact absurd hab packageDigest_ne
      | text s => exact absurd hab (digest_ne_text hpackage s)
  | tampered =>
      cases b with
      | package => exact absurd hab.symm packageDigest_ne
      | tampered => rfl
      | text s => exact absurd hab (digest_ne_text htampered s)
  | text s =>
      cases b with
      | package => exact absurd hab.symm (digest_ne_text hpackage s)
      | tampered => exact absurd hab.symm (digest_ne_text htampered s)
      | text s' =>
          have htext := congrArg String.toList hab
          have happend : ∀ x : String, ("?" ++ x).toList = "?".toList ++ x.toList := fun x =>
            String.toList_append
          have htext' : ("?" ++ s).toList = ("?" ++ s').toList := htext
          rw [happend, happend] at htext'
          rw [String.toList_inj.mp (List.append_cancel_left htext')]

/-- A single upload is published as it was inspected and scanned. -/
theorem contentAddressed_of_run_package : ∃ events sys,
    Run GuardedStep ⟨world, []⟩ events sys ∧
      sys.shared.objects (publishedKey packageDigest) = some .package ∧
      ContentAddressed env sys.shared := by
  obtain ⟨opening, hopen⟩ := open_run
  obtain ⟨middle, hscanned⟩ := scanned_run [finished]
  obtain ⟨rest, happrove⟩ := approve_advances 4 staged_self staged_publishedKey
  obtain ⟨ending, hending⟩ := start_run ([finished] ++ [finished] ++ [finished] ++ [finished])
    (.approve artifactID 0) happrove
  have hrun := (hopen.append hscanned).append hending
  refine ⟨_, _, hrun, published_approved _ _ _, ?_⟩
  exact contentAddressed_of_run sha256Hex_injective fresh_world rfl hrun

/-- Two uploads of one session find it open. The first one ends, is released and scanned;
then the second one stores its bytes, which are published under the digest of the first. -/
theorem second_upload_is_published : Fresh world ∧ Function.Injective env.sha256Hex ∧
    ∃ events sys, Run (service env config).Step ⟨world, []⟩ events sys ∧
      sys.shared.objects (publishedKey packageDigest) = some .tampered ∧
      ¬ ContentAddressed env sys.shared := by
  obtain ⟨opening, hopen⟩ := open_run
  obtain ⟨pending, hpending, hstore⟩ := overlap_advances
  obtain ⟨overlap, hoverlap⟩ := start_run [finished] (.receiveContent "u1" .tampered) hpending
  obtain ⟨middle, hscanned⟩ := scanned_run ([finished] ++ [pending])
  obtain ⟨pending', hpending'⟩ := hstore scanned
  let tasks := [finished] ++ [pending] ++ [finished] ++ [finished] ++ [finished]
  have hstored : Advance (fun _ _ => True) pending
      (System.shared ⟨scanned, tasks⟩) pending' (overwritten scanned) := hpending'
  have hsteps : ∃ n, Run (Guarded (fun sys event => Machine.Meets (fun _ _ => True) sys event ∧
      event.Lets fun _ => True) (service env config).Step) ⟨scanned, tasks⟩
      (List.replicate n (.step 1 .proceed)) _ := hstored.run rfl
  obtain ⟨steps, hstore'⟩ := hsteps
  have hnone := (overwritten_published scanned).trans staged_publishedKey
  obtain ⟨rest, happrove⟩ := approve_advances 5 (overwritten_staged scanned) hnone
  obtain ⟨ending, hending⟩ := start_run (tasks.set 1 pending') (.approve artifactID 0) happrove
  have hrun := (((hopen.append hoverlap).append hscanned).of_guarded.append
    hstore'.of_guarded).append hending.of_guarded
  refine ⟨fresh_world, sha256Hex_injective, _, _, hrun, published_approved _ _ _, ?_⟩
  intro hcontent
  exact packageDigest_ne (hcontent.digest _ _ (published_approved _ _ _)).symm

end Sample

end Useful.Server
