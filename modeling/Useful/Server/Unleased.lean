/-
# Work without the publish lease

Uploads, releases, scans and rejections leave alone what the publish lease protects,
whoever holds it: each of their calls is quiet.
-/

import Useful.Server.PublishLease

namespace Useful.Server.Leasing

open Useful.Math Useful.TufMeta Discipline

variable {β : Type} {parse : β → Option (Json GoNumber)} {env : External β} {config : Config}
  {i : Nat} {s : World β}

/-! ## Calls -/

theorem steady_reading {α : Type} (f : World β → Except ServerError α) :
    (leasing parse env).Steady i (step (reading f)) :=
  steady_quiet fun w _ => quiet_reading f w

/-- A session that was read is staged where it should be. -/
def Staged (sess : UploadSession) : Prop := ∃ id, sess.stagingKey = stagingKey id

theorem ensures_getUpload {id : String} : (leasing parse env).Ensures i (step (getUpload id)) s
    (fun sess _ => Staged sess) fun _ _ => True := by
  apply ensures_quiet (fun w _ => quiet_reading _ w)
  intro w sess hw h
  exact hw.sessions sess (Table.find_eq_some.mp (orFail_eq_ok.mp h)).1

theorem ensures_getArtifact {id : String} :
    (leasing parse env).Ensures i (step (getArtifact id)) s
      (fun art t => Known art t ∧ art.id = id) fun _ _ => True := by
  apply ensures_quiet (fun w _ => quiet_reading _ w)
  intro w art _ h
  have hfind := orFail_eq_ok.mp h
  have hid : art.id = id := (Table.find_eq_some.mp hfind).2
  subst hid
  exact ⟨⟨art, hfind, rfl, .refl⟩, rfl⟩

theorem ensures_claimCompleted {id : String} :
    (leasing parse env).Ensures i (step (claimCompleted id)) s (fun sess _ => Staged sess)
      fun _ _ => True := by
  have hfound : ∀ (w : World β) sess, Agreeing parse env w → w.uploads.find id = some sess →
      Staged { sess with status := .releaseClaimed } :=
    fun w sess hw hsess => hw.sessions sess (Table.find_eq_some.mp hsess).1
  apply ensures_quiet
  · intro w hw
    unfold claimCompleted
    cases hsess : w.uploads.find id with
    | none => exact .refl w
    | some sess =>
        simp only
        split
        · exact .refl w
        · exact quiet_putUpload (hfound w sess hw hsess)
  · intro w sess hw
    unfold claimCompleted
    cases hsess : w.uploads.find id with
    | none => exact fun h => nomatch h
    | some current =>
        simp only
        split
        · exact fun h => nomatch h
        · intro h
          cases h
          exact hfound w current hw hsess

theorem steady_update {sess : UploadSession} (hsess : Staged sess) :
    (leasing parse env).Steady i (update sess) := by
  apply steady_quiet
  intro w _
  unfold updateUpload
  cases w.uploads.find sess.id with
  | none => exact .refl w
  | some current =>
      simp only
      split
      · exact quiet_putUpload hsess
      · exact .refl w

theorem steady_createUpload {sess : UploadSession} (hsess : Staged sess) :
    (leasing parse env).Steady i (step (createUpload sess)) := by
  apply steady_quiet
  intro w _
  unfold createUpload
  cases w.uploads.find sess.id with
  | none => exact quiet_putUpload hsess
  | some current => exact .refl w

theorem steady_putStaged {sess : UploadSession} (hsess : Staged sess) (content : β) :
    (leasing parse env).Steady i (put sess.stagingKey content) := by
  obtain ⟨id, hkey⟩ := hsess
  rw [hkey]
  apply steady_quiet
  intro w _
  exact quiet_putObject fun name => (stagingKey_ne_metadataKey id name).symm

/-- A staging key is no key of metadata. -/
theorem metadataKey_ne_of_isStagingKey {key : String} (h : isStagingKey key = true)
    (name : String) : metadataKey name ≠ key := by
  intro heq
  simp only [isStagingKey, Bool.and_eq_true] at h
  obtain ⟨rest, hrest⟩ := List.isPrefixOf_iff_prefix.mp h.2
  have hhead := congrArg List.head? hrest
  rw [← heq, metadataKey, String.toList_append, List.head?_append, List.head?_append, head_staging,
    head_metadata] at hhead
  exact absurd (Option.some.inj hhead) (by decide)

theorem quiet_deleteStaging (key : String) (w : World β) : Quiet w (deleteStaging key w).2 := by
  unfold deleteStaging
  by_cases hkey : isStagingKey key = true
  · rw [if_pos hkey]
    exact quiet_putObject (metadataKey_ne_of_isStagingKey hkey)
  · rw [if_neg hkey]
    exact .refl w

theorem steady_deleteStaging (key : String) :
    (leasing parse env).Steady i (step (deleteStaging key)) :=
  steady_quiet fun w _ => quiet_deleteStaging key w

theorem steady_upsertTool (tool : Tool) :
    (leasing parse env).Steady i (step (upsertTool tool)) :=
  steady_quiet fun _ _ => .of_eq rfl rfl rfl rfl fun h => h

theorem steady_enqueue (job : Job) : (leasing parse env).Steady i (step (enqueue job)) := by
  apply steady_quiet
  intro w _
  unfold enqueue
  split
  · exact .refl w
  · exact .of_eq rfl rfl rfl rfl fun h => h

theorem steady_readForInspection (sess : UploadSession) :
    (leasing parse env).Steady i (step (readForInspection sess)) := by
  apply steady_quiet
  intro w _
  unfold readForInspection
  split
  · exact .refl w
  · exact .of_eq rfl rfl rfl rfl fun h => h

theorem steady_readForScan (artifactID key : String) :
    (leasing parse env).Steady i (step (readForScan artifactID key)) := by
  apply steady_quiet
  intro w _
  unfold readForScan
  split
  · exact .refl w
  · exact .of_eq rfl rfl rfl rfl fun h => h

theorem quiet_publishObject (sha256 : String) (content : β) (w : World β) :
    Quiet w (putIfAbsentOrSame env.length env.sha256Hex (publishedKey sha256) content w).2 := by
  unfold putIfAbsentOrSame
  split
  · exact quiet_putObject fun name => metadataKey_ne_publishedKey name sha256
  · split
    · exact .refl w
    · exact .refl w

theorem steady_createArtifact {art : Artifact} (hstatus : art.status = .staged) :
    (leasing parse env).Steady i (step (createArtifact art)) := by
  apply steady_quiet
  intro w _
  unfold createArtifact
  cases hnew : w.artifacts.find art.id with
  | some existing => exact .refl w
  | none =>
      simp only
      split
      · exact .refl w
      · exact quiet_newArtifact hnew (hstatus ▸ rfl)

/-- What was read is written back under the status it had, or without an approval. -/
theorem quiet_updateArtifact {art next : Artifact} {w : World β} (hart : Known art w)
    (hcore : next.core = art.core)
    (hquiet : next.status = art.status ∨ next.status.isReleased = false) :
    Quiet w (updateArtifact next w).2 := by
  obtain ⟨cur, hcur, hcurCore, hleads⟩ := hart
  have hid : next.core.id = art.core.id := congrArg Artifact.id hcore
  change next.id = art.id at hid
  unfold updateArtifact
  rw [hid, hcur]
  simp only
  by_cases hallowed : canTransition cur.status next.status = true
  · rw [if_pos hallowed]
    apply quiet_putArtifact (hid ▸ hcur) (hcore.trans hcurCore.symm) hallowed
    apply hquiet.imp_left
    intro hstatus
    rw [hstatus] at hallowed
    exact hstatus.trans (eq_of_leads_of_canTransition hleads hallowed).symm
  · rw [if_neg hallowed]
    exact .refl w

theorem ensures_updateArtifact {art next : Artifact} (hart : Known art s)
    (hcore : next.core = art.core)
    (hquiet : next.status = art.status ∨ next.status.isReleased = false) :
    (leasing parse env).Ensures i (step (updateArtifact next)) s (fun _ _ => True)
      fun _ _ => True :=
  ensures_call
    (fun _ hrely hw _ => (quiet_updateArtifact (hart.grows hrely.1) hcore hquiet).keeps hw)
    (fun _ _ _ _ _ _ => trivial) (fun _ _ _ _ _ => trivial) fun _ _ _ _ => trivial

theorem steady_rejected (id : String) :
    (leasing parse env).Steady i (step (updateStatus id .rejected none)) := by
  apply steady_quiet
  intro w _
  unfold updateStatus
  cases hcur : w.artifacts.find id with
  | none => exact .refl w
  | some current =>
      have hid : current.id = id := (Table.find_eq_some.mp hcur).2
      simp only
      by_cases hallowed : canTransition current.status .rejected = true
      · rw [if_pos hallowed]
        have hrow : w.artifacts.find (withStatus current .rejected none).id = some current :=
          hid ▸ hcur
        exact quiet_putArtifact hrow rfl hallowed (.inr rfl)
      · rw [if_neg hallowed]
        exact .refl w

/-! ## Operations -/

theorem steady_createUploadSession (id publisherKeyID declaredSHA : String)
    (declaredSize now : Int) :
    (leasing parse env).Steady i
      (createUploadSession config id publisherKeyID declaredSHA declaredSize now) := by
  refine (steady_ofExcept _).bind fun _ => ?_
  refine (steady_ofExcept _).bind fun _ => ?_
  refine (steady_ofExcept _).bind fun _ => ?_
  apply (steady_reading _).attempt.bind
  intro publisher
  cases publisher with
  | error e => exact steady_fail _
  | ok _ =>
      apply (steady_createUpload ⟨id, rfl⟩).bind
      exact fun _ => steady_pure _

theorem steady_receiveContent (sessionID : String) (content : β) :
    (leasing parse env).Steady i (receiveContent env sessionID content) := by
  intro s
  apply ensures_getUpload.seq
  intro sess t hsess
  have hclose : ∀ status error, (leasing parse env).Steady i
      (update { sess with status := status, error := error }) :=
    fun _ _ => steady_update hsess
  have hstore : (leasing parse env).Steady i (do
      Task.ofExcept (failIf (env.length content ≠ sess.declaredSize)
        (.failure "写入大小与声明不符"))
      put sess.stagingKey content) :=
    (steady_ofExcept _).bind fun _ => steady_putStaged hsess content
  refine ensures_ofExcept_bind (fun _ _ => trivial) fun _ _ => ?_
  apply (hstore.attempt t).seq
  intro stored u _
  cases stored with
  | error e =>
      apply (steady_ignoring (hclose _ _) u).seq
      exact fun _ _ _ => ensures_fail trivial
  | ok _ =>
      simp only
      split
      · apply (steady_ignoring (hclose _ _) u).seq
        intro _ v _
        apply (steady_ignoring (steady_deleteStaging _) v).seq
        exact fun _ _ _ => ensures_fail trivial
      · exact hclose _ sess.error u

theorem steady_inspectPackage (sess : UploadSession) (req : ReleaseRequest)
    (permissions : List String) :
    (leasing parse env).Steady i (inspectPackage env config sess req permissions) := by
  apply (steady_readForInspection sess).bind
  exact fun _ => steady_ofExcept _

theorem steady_createRelease (req : ReleaseRequest) (artifactID jobID : String) (now : Int) :
    (leasing parse env).Steady i (createRelease env config req artifactID jobID now) := by
  refine (steady_ofExcept _).bind fun _ => ?_
  apply (steady_reading _).bind
  intro seen
  refine (steady_ofExcept _).bind fun checked => ?_
  apply (steady_reading _).attempt.bind
  intro existing
  refine (steady_ofExcept _).bind fun _ => ?_
  apply (steady_reading _).bind
  intro _ s
  apply ensures_claimCompleted.outcome.seq
  intro claim t hclaim
  cases claim with
  | error e => exact ensures_fail trivial
  | ok sess =>
      have hbind : (leasing parse env).Steady i (update { sess with artifactID := artifactID }) :=
        steady_update hclaim
      apply ((steady_inspectPackage sess req checked.2).attempt t).seq
      intro manifest u _
      cases manifest with
      | error e => exact ensures_fail trivial
      | ok manifestDigest =>
          apply (steady_upsertTool _ u).seq
          intro _ v _
          apply (steady_createArtifact rfl v).seq
          intro _ x _
          apply (hbind x).seq
          intro _ y _
          apply (steady_enqueue _ y).seq
          exact fun _ _ _ => ensures_pure trivial

theorem steady_reject (artifactID : String) :
    (leasing parse env).Steady i (reject artifactID) := by
  apply (steady_rejected artifactID).bind
  intro _
  apply (steady_reading _).attempt.bind
  intro session
  cases session with
  | error e => exact steady_pure ()
  | ok sess => exact steady_ignoring (steady_deleteStaging _)

theorem steady_scanPackage (art : Artifact) (sess : UploadSession) :
    (leasing parse env).Steady i (scanPackage env config art sess) := by
  apply (steady_reading _).bind
  intro _
  apply (steady_readForScan _ _).bind
  intro content
  refine (steady_ofExcept _).bind fun _ => ?_
  exact steady_pure _

end Useful.Server.Leasing
