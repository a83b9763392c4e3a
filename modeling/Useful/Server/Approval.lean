/-
# Approvals that nothing disturbs

What it takes to approve a scanned artifact when no other task is at work and nothing fails,
and the world after it: the artifact is published under its digest, a release of metadata is
written, and the row says so.
-/

import Useful.Server.Unleased

namespace Useful.Server.Approval

open Useful.Math Useful.TufMeta

variable {β : Type} {env : External β} {config : Config} {task : Nat} {now ver : Int}
  {targets : List (String × TargetEntry)} {release : Release β} {w : World β}

/-- A step that nothing guards. -/
theorem advance_step {α : Type} {f : Call β α} {outcome : Except ServerError α} {w' : World β}
    (h : f w = (outcome, w')) :
    Advance (fun _ _ => True) (step f) w (.done outcome) w' :=
  .call trivial h

/-- An operation that is done before any other task takes a step. -/
theorem run_of_advance {tasks : List (Work β Unit)} {w' : World β} {op : Operation β}
    (h : ∀ task, Advance (fun _ _ => True) (startOperation env config task op) w
      (.done (.ok ())) w') :
    ∃ events, Run (service env config).Step ⟨w, tasks⟩ events ⟨w', tasks ++ [.done (.ok ())]⟩ := by
  have hstart : ∃ n, Run (Guarded (fun sys event =>
      Machine.Meets (fun _ _ => True) sys event ∧ event.Lets fun _ => True)
      (service env config).Step) ⟨w, tasks⟩
      (.start op :: List.replicate n (.step tasks.length .proceed)) ⟨w', tasks ++ [.done (.ok ())]⟩ :=
    Advance.run_start trivial (h tasks.length)
  obtain ⟨n, hrun⟩ := hstart
  exact ⟨_, hrun.of_guarded⟩

/-! ## A release of metadata -/

/-- A document of integers is signed with any key that has its private half. -/
theorem exists_sign {signed : Json GoNumber} {key : Key} (hsigned : Readable signed)
    (hkey : key.hasPrivate = true) : ∃ bytes, sign env signed key = .ok bytes := by
  have hnumber : ∀ n, (! isInt n) = false → writeNumber n = .ok ((writeNumber n).toOption.getD []) := by
    intro n hn
    cases n with
    | int n => rfl
    | float64 value => cases hn
    | jsonNumber text => cases hn
  have hcanonical := Json.encode_eq_ok Tuf.byteLe writeCanonicalString hnumber hsigned.ints
  have hmessage : ∃ message, canonicalJSON signed = .ok message := ⟨_, hcanonical⟩
  obtain ⟨message, hmessage⟩ := hmessage
  refine ⟨_, bind_eq_ok.mpr ⟨message, ?_, bind_eq_ok.mpr ⟨⟨⟩, failIf_eq_ok.mpr ?_, rfl⟩⟩⟩
  · rw [hmessage]
    rfl
  · simp [hkey]

/-- The private halves of the keys are there. -/
structure Signing (keys : MetadataKeys) : Prop where
  targets : keys.targetsKey.hasPrivate = true
  snapshot : keys.snapshotKey.hasPrivate = true
  timestamp : keys.timestampKey.hasPrivate = true

theorem exists_signRelease {keys : MetadataKeys} (hkeys : Signing keys) (ver now : Int)
    (hnames : (targets.map Prod.fst).Nodup)
    (htargets : ∀ target ∈ targets, Readable (targetJson target.2)) :
    ∃ release, signRelease env keys ver now targets = .ok release := by
  have hsnapshot : ∀ bytes, Readable (buildSnapshot env ver
      (expiresIn keys.snapshotExpireDays now) bytes ver) := fun _ => readable_buildSnapshot
  have htimestamp : ∀ bytes, Readable (buildTimestamp env ver
      (expiresIn keys.timestampExpireDays now) bytes ver) := fun _ => readable_buildTimestamp
  have hdocument : Readable (buildTargets env ver (expiresIn keys.targetsExpireDays now) targets) :=
    readable_buildTargets hnames htargets
  obtain ⟨targetsBytes, htargetsBytes⟩ := exists_sign hdocument hkeys.targets
  obtain ⟨snapshotBytes, hsnapshotBytes⟩ := exists_sign (hsnapshot targetsBytes) hkeys.snapshot
  obtain ⟨timestampBytes, htimestampBytes⟩ := exists_sign (htimestamp snapshotBytes) hkeys.timestamp
  refine ⟨⟨targetsBytes, snapshotBytes, timestampBytes⟩, ?_⟩
  refine bind_eq_ok.mpr ⟨targetsBytes, htargetsBytes, ?_⟩
  refine bind_eq_ok.mpr ⟨snapshotBytes, hsnapshotBytes, ?_⟩
  exact bind_eq_ok.mpr ⟨timestampBytes, htimestampBytes, rfl⟩

/-- A release can be written at the first attempt. -/
structure Writable (env : External β) (config : Config) (now : Int)
    (targets : List (String × TargetEntry)) (w : World β) (ver : Int) (release : Release β) :
    Prop where
  version : ver = max (max now 1) (w.tufVersion + 1)
  bounded : w.tufVersion ≠ 2 ^ 63 - 1
  signed : signRelease env config.toMetadataKeys ver now targets = .ok release
  targetsFree : w.objects (targetsKey ver) = none
  snapshotFree : w.objects (snapshotKey ver) = none

/-- The objects with the documents of a release. -/
def withRelease (objects : String → Option β) (ver : Int) (release : Release β) :
    String → Option β :=
  Function.update (Function.update (Function.update objects
    (targetsKey ver) (some release.targetsBytes))
    (snapshotKey ver) (some release.snapshotBytes))
    timestampKey (some release.timestampBytes)

theorem targetsKey_ne_snapshotKey (ver : Int) : targetsKey ver ≠ snapshotKey ver := by
  intro heq
  have hname : toString ver ++ ".targets.json" = toString ver ++ ".snapshot.json" :=
    (String.append_right_inj _).mp heq
  exact absurd ((String.append_right_inj _).mp hname) (by decide)

theorem putIfAbsentOrSame_of_free {key : String} {content : β} (h : w.objects key = none) :
    putIfAbsentOrSame env.length env.sha256Hex key content w =
      (.ok (), { w with objects := Function.update w.objects key (some content) }) := by
  unfold putIfAbsentOrSame
  rw [h]

theorem advance_writeRelease (attempts : Nat) (hlease : w.lease = some task)
    (h : Writable env config now targets w ver release) :
    Advance (fun _ _ => True) (writeRelease env config task now targets (attempts + 1)) w
      (.done (.ok ()))
      { w with
        tufVersion := ver
        objects := withRelease w.objects ver release } := by
  have hnext : nextVersion task (max now 1) w = (.ok ver, { w with tufVersion := ver }) := by
    have hcandidate : ¬ max now 1 < 1 := not_lt.mpr (le_max_right _ _)
    unfold nextVersion
    simp only [hlease, ne_eq, not_true_eq_false, if_false, hcandidate, h.bounded, or_self, h.version]
  let versioned : World β := { w with tufVersion := ver }
  let pinned : World β :=
    { versioned with
      objects := Function.update w.objects (targetsKey ver) (some release.targetsBytes) }
  have htargets : putIfAbsentOrSame env.length env.sha256Hex (targetsKey ver)
      release.targetsBytes versioned = (.ok (), pinned) := putIfAbsentOrSame_of_free h.targetsFree
  have hsnapshot : pinned.objects (snapshotKey ver) = none :=
    (Function.update_of_ne (targetsKey_ne_snapshotKey ver).symm _ _).trans h.snapshotFree
  refine (advance_step hnext).seq ?_
  refine Advance.check h.signed ?_
  refine Advance.seq (advance_step htargets).attempt ?_
  refine Advance.seq (advance_step (putIfAbsentOrSame_of_free hsnapshot)).attempt ?_
  exact Advance.call trivial rfl

/-! ## The approval -/

/-- The row of the intent to publish. -/
def pendingRow (art : Artifact) (now : Int) : Artifact :=
  { art with
    officialReviewPassed := true
    status := .publishPending
    publishedAt := some now }

/-- The row once the intent is settled. -/
def publishedRow (art : Artifact) (now : Int) : Artifact :=
  withStatus (pendingRow art now) .published (some now)

/-- What it takes to approve an artifact. -/
structure Approvable (env : External β) (config : Config) (now : Int) (w : World β)
    (art : Artifact) (sess : UploadSession) (content : β)
    (targets : List (String × TargetEntry)) (ver : Int) (release : Release β) : Prop where
  leaseFree : w.lease = none
  found : w.artifacts.find art.id = some art
  scanned : art.status = .scanned
  trusted : validateArtifactPublisherTrust env art = .ok ()
  session : w.uploads.rows.find? (fun sess => sess.artifactID = art.id) = some sess
  staging : isStagingKey sess.stagingKey = true
  stored : w.objects sess.stagingKey = some content
  unpublished : w.objects (publishedKey art.sha256) = none
  settled : ∀ other ∈ w.artifacts.rows,
    other.status ≠ .publishPending ∧ other.status ≠ .withdrawPending
  collected : collectTargets env []
    (w.artifacts.rows.filter (fun other => other.status = .published) ++ [pendingRow art now]) =
      .ok targets
  writable : Writable env config now targets w ver release

/-- The world after the intent. -/
def intendedWorld (w : World β) (task : Nat) (art : Artifact) (content : β) (now : Int) : World β :=
  { w with
    lease := some task
    objects := Function.update w.objects (publishedKey art.sha256) (some content)
    artifacts := w.artifacts.put (pendingRow art now) }

/-- The world after the approval. -/
def approvedWorld (w : World β) (art : Artifact) (sess : UploadSession) (content : β) (now ver : Int)
    (release : Release β) : World β :=
  { w with
    lease := none
    tufVersion := ver
    objects := Function.update (withRelease
      (Function.update w.objects (publishedKey art.sha256) (some content)) ver release)
      sess.stagingKey none
    artifacts := (w.artifacts.put (pendingRow art now)).put (publishedRow art now) }

variable {art : Artifact} {sess : UploadSession} {content : β}

theorem mem_approvedWorld : publishedRow art now ∈
    (approvedWorld w art sess content now ver release).artifacts.rows :=
  Table.mem_put.mpr (.inl rfl)

theorem tools_approvedWorld :
    (approvedWorld w art sess content now ver release).tools = w.tools := rfl

theorem isStagingKey_publishedKey (sha256 : String) : isStagingKey (publishedKey sha256) = false := by
  apply Bool.eq_false_of_not_eq_true
  intro h
  exact ne_publishedKey_of_isStagingKey h sha256 rfl

theorem advance_requestPublication
    (h : Approvable env config now w art sess content targets ver release) :
    Advance (fun _ _ => True) (requestPublication env art now) { w with lease := some task }
      (.done (.ok ())) (intendedWorld w task art content now) := by
  let leased : World β := { w with lease := some task }
  have hsession : getByArtifact art.id leased = (.ok sess, leased) := by
    show (orFail _ (w.uploads.rows.find? _), leased) = _
    rw [h.session]
    rfl
  have hread : getObject sess.stagingKey leased = (.ok content, leased) := by
    show (orFail _ (w.objects sess.stagingKey), leased) = _
    rw [h.stored]
    rfl
  have hwrite : putIfAbsentOrSame env.length env.sha256Hex (publishedKey art.sha256) content leased =
      (.ok (), { leased with
        objects := Function.update w.objects (publishedKey art.sha256) (some content) }) :=
    putIfAbsentOrSame_of_free h.unpublished
  have hupdate : updateArtifact (pendingRow art now) { leased with
      objects := Function.update w.objects (publishedKey art.sha256) (some content) } =
      (.ok (), intendedWorld w task art content now) := by
    unfold updateArtifact
    have hfind : w.artifacts.find (pendingRow art now).id = some art := h.found
    simp only [leased, hfind, h.scanned]
    rfl
  refine Advance.check h.trusted ?_
  refine (advance_step hsession).seq ?_
  refine Advance.seq (a := ()) ?_ (advance_step hupdate)
  refine Advance.pass (by simp [h.staging]) ?_
  refine Advance.pass (by simp [isStagingKey_publishedKey]) ?_
  exact (advance_step hread).seq (advance_step hwrite)

/-- What the metadata is collected from. -/
theorem listByStatus_intendedWorld (task : Nat)
    (h : Approvable env config now w art sess content targets ver release) :
    listByStatus .published (intendedWorld w task art content now) =
        (.ok (w.artifacts.rows.filter fun other => other.status = .published),
          intendedWorld w task art content now) ∧
      listByStatus .publishPending (intendedWorld w task art content now) =
        (.ok [pendingRow art now], intendedWorld w task art content now) ∧
      listByStatus .withdrawPending (intendedWorld w task art content now) =
        (.ok [], intendedWorld w task art content now) := by
  have hsame : ∀ other ∈ w.artifacts.rows, other.id = art.id → other = art := fun other hmem heq =>
    Table.eq_of_key_eq hmem (Table.find_eq_some.mp h.found).1 heq
  have hpublished : (w.artifacts.put (pendingRow art now)).rows.filter
      (fun other => other.status = .published) =
      w.artifacts.rows.filter fun other => other.status = .published := by
    apply Table.filter_put_of_not rfl
    intro other hmem heq
    rw [hsame other hmem heq, h.scanned]
    rfl
  have hpending : (w.artifacts.put (pendingRow art now)).rows.filter
      (fun other => other.status = .publishPending) = [pendingRow art now] := by
    apply Table.filter_put_eq_singleton rfl
    exact fun other hmem => decide_eq_false (h.settled other hmem).1
  have hwithdrawn : (w.artifacts.put (pendingRow art now)).rows.filter
      (fun other => other.status = .withdrawPending) =
      w.artifacts.rows.filter fun other => other.status = .withdrawPending := by
    apply Table.filter_put_of_not rfl
    exact fun other hmem _ => decide_eq_false (h.settled other hmem).2
  have hnone : w.artifacts.rows.filter (fun other => other.status = .withdrawPending) = [] := by
    apply List.filter_eq_nil_iff.mpr
    intro other hmem
    simp [(h.settled other hmem).2]
  refine ⟨?_, ?_, ?_⟩
  · exact congrArg (fun rows => (Except.ok rows, intendedWorld w task art content now)) hpublished
  · exact congrArg (fun rows => (Except.ok rows, intendedWorld w task art content now)) hpending
  · exact congrArg (fun rows => (Except.ok rows, intendedWorld w task art content now))
      (hwithdrawn.trans hnone)

theorem Writable.intended (task : Nat) (art : Artifact) (content : β)
    (h : Writable env config now targets w ver release) :
    Writable env config now targets (intendedWorld w task art content now) ver release := by
  have hkept : ∀ name, (intendedWorld w task art content now).objects (metadataKey name) =
      w.objects (metadataKey name) :=
    fun name => Function.update_of_ne (metadataKey_ne_publishedKey name art.sha256) (some content) _
  exact ⟨h.version, h.bounded, h.signed, (hkept _).trans h.targetsFree, (hkept _).trans h.snapshotFree⟩

theorem advance_within {α : Type} {context : String} {work : Work β α} {a : α} {w' : World β}
    (h : Advance (fun _ _ => True) work w (.done (.ok a)) w') :
    Advance (fun _ _ => True) (within context work) w (.done (.ok a)) w' :=
  h.attempt.seq (.refl _ _)

/-- The world in which the intent is settled, with the lease still held. -/
def settledWorld (w : World β) (task : Nat) (art : Artifact) (sess : UploadSession) (content : β)
    (now ver : Int) (release : Release β) : World β :=
  { approvedWorld w art sess content now ver release with lease := some task }

theorem advance_publishMetadataLocked
    (h : Approvable env config now w art sess content targets ver release) :
    Advance (fun _ _ => True) (publishMetadataLocked env config task now)
      (intendedWorld w task art content now) (.done (.ok ()))
      (settledWorld w task art sess content now ver release) := by
  obtain ⟨hpublished, hpending, hwithdrawn⟩ := listByStatus_intendedWorld task h
  have hwrite := advance_writeRelease 15 (rfl : (intendedWorld w task art content now).lease = some task)
    (h.writable.intended task art content)
  let written : World β :=
    { intendedWorld w task art content now with
      tufVersion := ver
      objects := withRelease (Function.update w.objects (publishedKey art.sha256) (some content))
        ver release }
  have hsession : getByArtifact art.id written = (.ok sess, written) := by
    show (orFail _ (w.uploads.rows.find? _), written) = _
    rw [h.session]
    rfl
  have hdelete : deleteStaging sess.stagingKey written = (.ok (), { written with
      objects := Function.update written.objects sess.stagingKey none }) := by
    unfold deleteStaging
    rw [if_pos h.staging]
  have hstatus : updateStatus art.id .published (some now) { written with
      objects := Function.update written.objects sess.stagingKey none } =
      (.ok (), settledWorld w task art sess content now ver release) := by
    unfold updateStatus
    have hfind : (w.artifacts.put (pendingRow art now)).find art.id = some (pendingRow art now) :=
      Table.find_put_self
    simp only [written, intendedWorld, hfind]
    rfl
  refine (advance_step hpublished).seq ?_
  refine (advance_step hpending).seq ?_
  refine (advance_step hwithdrawn).seq ?_
  refine Advance.check h.collected ?_
  refine hwrite.seq ?_
  refine Advance.seq (a := ()) ?_ (.refl _ _)
  refine (advance_within (advance_step hsession)).seq ?_
  refine (advance_within (advance_step hdelete)).seq ?_
  exact (advance_within (advance_step hstatus)).seq (.refl _ _)

/-- An approval that nothing disturbs. -/
theorem advance_approve (task : Nat)
    (h : Approvable env config now w art sess content targets ver release) :
    Advance (fun _ _ => True) (approve env config task art.id now) w (.done (.ok ()))
      (approvedWorld w art sess content now ver release) := by
  let leased : World β := { w with lease := some task }
  let settled : World β := settledWorld w task art sess content now ver release
  have hacquire : acquirePublishLease task w = (.ok (), leased) := by
    unfold acquirePublishLease
    rw [h.leaseFree]
  have hget : getArtifact art.id leased = (.ok art, leased) := by
    show (orFail _ (w.artifacts.find art.id), leased) = _
    rw [h.found]
    rfl
  have hfind : settled.artifacts.find art.id = some (publishedRow art now) := Table.find_put_self
  have hread : getArtifact art.id settled = (.ok (publishedRow art now), settled) := by
    show (orFail _ (settled.artifacts.find art.id), settled) = _
    rw [hfind]
    rfl
  have hrelease : releaseLease task settled =
      (.ok (), approvedWorld w art sess content now ver release) := by
    unfold releaseLease
    rw [if_pos (show settled.lease = some task from rfl)]
    rfl
  refine (advance_step hacquire).seq ?_
  -- What runs under the lease ends in the settled world, and the deferred release follows it.
  refine (Advance.attempt (?_ : Advance (fun _ _ => True) _ leased (.done (.ok ())) settled)).seq ?_
  · refine (advance_step hget).seq ?_
    simp only [h.scanned]
    refine (advance_requestPublication h).seq ?_
    refine (advance_publishMetadataLocked h).seq ?_
    exact (advance_step hread).seq (.refl _ _)
  · exact (advance_step hrelease).attempt.seq (.refl _ _)

end Useful.Server.Approval
