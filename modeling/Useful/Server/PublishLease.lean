/-
# What the publish lease protects

While a task holds the publish lease, nobody else moves `timestamp.json`, writes metadata,
draws a version, or changes the status of an artifact that has been approved. Calls by
tasks without the lease leave all that alone: a row that was read before is written back
only while its status is still the one that was read.

With or without the lease, artifacts keep what they were created with, versioned metadata
never changes, and `timestamp.json` only ever moves to a higher version.
-/

import Useful.Server.Documents
import Useful.Server.StagedBytes

namespace Useful.Server

open Useful.Math Useful.TufMeta Discipline

variable {β : Type}

/-! ## Artifacts -/

/-- An artifact without what operations change. -/
def Artifact.core (art : Artifact) : Artifact :=
  { art with
    status := .staged
    publishedAt := none
    securityScanPassed := false
    officialReviewPassed := false
    isNativeWorker := false
    sbomDigest := ""
    scanResultJSON := ""
    reproStatus := ""
    reproStrategy := "" }

theorem Artifact.core_core (art : Artifact) : art.core.core = art.core := rfl

/-- The row of an approved artifact, as far as metadata depend on it. -/
def World.settled (w : World β) (id : String) : Option (Artifact × ArtifactStatus) :=
  match w.artifacts.find id with
  | some art => if art.status.isReleased then some (art.core, art.status) else none
  | none => none

theorem settled_eq_some {w : World β} {id : String} {core : Artifact} {status : ArtifactStatus} :
    w.settled id = some (core, status) ↔ ∃ art, w.artifacts.find id = some art ∧
      art.status.isReleased = true ∧ art.core = core ∧ art.status = status := by
  unfold World.settled
  cases w.artifacts.find id with
  | none => simp
  | some art =>
      by_cases hreleased : art.status.isReleased = true
      · simp [hreleased]
      · simp [hreleased]

theorem core_id_of_settled {w : World β} {id : String} {core : Artifact} {status : ArtifactStatus}
    (h : w.settled id = some (core, status)) : core.id = id := by
  obtain ⟨art, hart, _, hcore, _⟩ := settled_eq_some.mp h
  rw [← hcore]
  exact (Table.find_eq_some.mp hart).2

/-- A row that is written settles, or does not. -/
theorem settled_put (w : World β) (row : Artifact) (id : String) :
    { w with artifacts := w.artifacts.put row }.settled id =
      if row.id = id then
        if row.status.isReleased then some (row.core, row.status) else none
      else w.settled id := by
  unfold World.settled
  simp only [Table.find_put]
  by_cases hid : row.id = id
  · simp [hid]
  · simp [hid]

/-! ### Statuses -/

/-- How far an artifact has come. -/
def ArtifactStatus.rank : ArtifactStatus → Nat
  | .staged => 0
  | .scanned => 1
  | .approved => 2
  | .publishPending => 3
  | .published => 4
  | .withdrawPending => 5
  | .withdrawn => 6
  | .rejected => 7

theorem rank_lt_of_canTransition {source target : ArtifactStatus}
    (h : canTransition source target = true) : source = target ∨ source.rank < target.rank := by
  revert h
  cases source with
  | _ => cases target with
    | _ => decide

theorem ArtifactStatus.Leads.rank_le {source target : ArtifactStatus} (h : source.Leads target) :
    source = target ∨ source.rank < target.rank := by
  induction h with
  | refl => exact .inl rfl
  | tail _ hstep ih =>
      have hstep := rank_lt_of_canTransition hstep
      cases ih with
      | inl heq =>
          subst heq
          exact hstep
      | inr hlt =>
          cases hstep with
          | inl heq => exact .inr (heq ▸ hlt)
          | inr hlt' => exact .inr (Nat.lt_trans hlt hlt')

/-- Nobody goes back to a status that was left. -/
theorem eq_of_leads_of_canTransition {source target : ArtifactStatus} (h : source.Leads target)
    (hback : canTransition target source = true) : target = source := by
  cases rank_lt_of_canTransition hback with
  | inl heq => exact heq
  | inr hlt =>
      cases h.rank_le with
      | inl heq => exact heq.symm
      | inr hlt' => exact absurd (Nat.lt_trans hlt hlt') (Nat.lt_irrefl _)

theorem isReleased_mono {source target : ArtifactStatus} (h : canTransition source target = true)
    (hsource : source.isReleased = true) : target.isReleased = true := by
  revert h hsource
  cases source with
  | _ => cases target with
    | _ => decide

/-! ## Progress -/

section

variable (parse : β → Option (Json GoNumber))

/-- `timestamp.json` has moved to a higher version. -/
def Newer (s t : World β) : Prop :=
  ∃ bytes version, t.objects timestampKey = some bytes ∧ versionOf parse bytes = some version ∧
    ∀ old oldVersion, s.objects timestampKey = some old → versionOf parse old = some oldVersion →
      oldVersion < version

/-- What every step of every task may be relied on to do. -/
structure Grows (s t : World β) : Prop where
  artifacts : ∀ id art, s.artifacts.find id = some art → ∃ later,
    t.artifacts.find id = some later ∧ later.core = art.core ∧ art.status.Leads later.status
  documents : ∀ name bytes, metadataKey name ≠ timestampKey →
    s.objects (metadataKey name) = some bytes → t.objects (metadataKey name) = some bytes
  timestamp : t.objects timestampKey = s.objects timestampKey ∨ Newer parse s t

/-- What steps of tasks without the lease leave as it is. -/
structure Frozen (s t : World β) : Prop where
  lease : t.lease = s.lease
  tufVersion : t.tufVersion = s.tufVersion
  documents : ∀ name, t.objects (metadataKey name) = s.objects (metadataKey name)
  settled : t.settled = s.settled

end

variable {parse : β → Option (Json GoNumber)}

theorem Grows.refl (parse : β → Option (Json GoNumber)) (s : World β) : Grows parse s s where
  artifacts _ art h := ⟨art, h, rfl, .refl⟩
  documents _ _ _ h := h
  timestamp := .inl rfl

theorem Grows.trans {s t u : World β} (hst : Grows parse s t) (htu : Grows parse t u) :
    Grows parse s u where
  artifacts id art h := by
    obtain ⟨mid, hmid, hcore, hleads⟩ := hst.artifacts id art h
    obtain ⟨later, hlater, hcore', hleads'⟩ := htu.artifacts id mid hmid
    exact ⟨later, hlater, hcore'.trans hcore, hleads.trans hleads'⟩
  documents name bytes hname h :=
    htu.documents name bytes hname (hst.documents name bytes hname h)
  timestamp := by
    cases htu.timestamp with
    | inl hsame =>
        cases hst.timestamp with
        | inl hsame' => exact .inl (hsame.trans hsame')
        | inr hnewer =>
            obtain ⟨bytes, version, hbytes, hversion, hold⟩ := hnewer
            exact .inr ⟨bytes, version, hsame.trans hbytes, hversion, hold⟩
    | inr hnewer =>
        obtain ⟨bytes, version, hbytes, hversion, hold⟩ := hnewer
        refine .inr ⟨bytes, version, hbytes, hversion, ?_⟩
        cases hst.timestamp with
        | inl hsame =>
            rw [← hsame]
            exact hold
        | inr hnewer' =>
            obtain ⟨mid, midVersion, hmid, hmidVersion, hold'⟩ := hnewer'
            intro old oldVersion ho hv
            exact Int.lt_trans (hold' old oldVersion ho hv) (hold mid midVersion hmid hmidVersion)

theorem Frozen.refl (s : World β) : Frozen s s := ⟨rfl, rfl, fun _ => rfl, rfl⟩

theorem Frozen.trans {s t u : World β} (hst : Frozen s t) (htu : Frozen t u) : Frozen s u where
  lease := htu.lease.trans hst.lease
  tufVersion := htu.tufVersion.trans hst.tufVersion
  documents name := (htu.documents name).trans (hst.documents name)
  settled := htu.settled.trans hst.settled

/-! ## Agreement -/

section

variable (parse) (env : External β)

/-- The documents that `timestamp.json` leads to are those of the settled artifacts: they
list what is published, and nothing that has been withdrawn or was never approved. -/
structure Serves (w : World β) (r : Reached β) (version : Int) : Prop where
  reached : reach parse w.objects = some r
  closed : r.Closed parse env version
  version_le : version ≤ w.tufVersion
  listed : ∀ id core, w.settled id = some (core, .published) → r.Lists parse env core
  members : ∀ members, targetsOf parse r.targets = some members →
    ∀ name ∈ members.map Prod.fst, ∃ id core status, w.settled id = some (core, status) ∧
      status ≠ .withdrawn ∧ artifactTargetName env core = .ok name

/-- The metadata are those of the artifacts, and uploads stay in their place. -/
structure Agreeing (w : World β) : Prop where
  sessions : ∀ sess ∈ w.uploads.rows, ∃ id, sess.stagingKey = stagingKey id
  served : w.objects timestampKey ≠ none → ∃ r version, Serves parse env w r version
  unpublished : w.objects timestampKey = none → ∀ id core, w.settled id ≠ some (core, .published)

/-- The holder of the lease relies on what it protects; everybody relies on progress. -/
def leasing : Discipline (Label β) (World β) where
  inv := Agreeing parse env
  rely i s t := Grows parse s t ∧ (s.lease = some i → Frozen s t)
  guard _ _ := True
  refl _ s := ⟨.refl parse s, fun _ => .refl s⟩
  trans _ _ _ _ hst htu := ⟨hst.1.trans htu.1, fun h =>
    (hst.2 h).trans (htu.2 ((hst.2 h).lease.trans h))⟩

end

variable {env : External β} {s t w w' : World β} {i : Nat}

/-- Reading the metadata takes nothing but the metadata. -/
theorem reach_congr {objects objects' : String → Option β}
    (h : ∀ name, objects' (metadataKey name) = objects (metadataKey name)) :
    reach parse objects' = reach parse objects := by
  have htimestamp : objects' timestampKey = objects timestampKey := h _
  have hsnapshot : ∀ version, objects' (snapshotKey version) = objects (snapshotKey version) :=
    fun _ => h _
  have htargets : ∀ version, objects' (targetsKey version) = objects (targetsKey version) :=
    fun _ => h _
  unfold reach
  simp only [htimestamp, hsnapshot, htargets]

theorem Serves.of_frozen {r : Reached β} {version : Int} (h : Serves parse env w r version)
    (hfrozen : Frozen w w') : Serves parse env w' r version where
  reached := (reach_congr hfrozen.documents).trans h.reached
  closed := h.closed
  version_le := hfrozen.tufVersion.symm ▸ h.version_le
  listed := hfrozen.settled.symm ▸ h.listed
  members := hfrozen.settled.symm ▸ h.members

theorem Agreeing.of_frozen (h : Agreeing parse env w) (hfrozen : Frozen w w')
    (hsessions : ∀ sess ∈ w'.uploads.rows, ∃ id, sess.stagingKey = stagingKey id) :
    Agreeing parse env w' := by
  have htimestamp : w'.objects timestampKey = w.objects timestampKey := hfrozen.documents _
  refine ⟨hsessions, ?_, ?_⟩
  · rw [htimestamp]
    intro hsome
    obtain ⟨r, version, hserves⟩ := h.served hsome
    exact ⟨r, version, hserves.of_frozen hfrozen⟩
  · rw [htimestamp, hfrozen.settled]
    exact h.unpublished

/-! ## Steps with and without the lease -/

/-- A step that leaves everything alone that the lease protects. -/
structure Quiet (s t : World β) : Prop extends Frozen s t where
  artifacts : ∀ id art, s.artifacts.find id = some art → ∃ later,
    t.artifacts.find id = some later ∧ later.core = art.core ∧ art.status.Leads later.status
  sessions : (∀ sess ∈ s.uploads.rows, ∃ id, sess.stagingKey = stagingKey id) →
    ∀ sess ∈ t.uploads.rows, ∃ id, sess.stagingKey = stagingKey id

theorem Quiet.grows (h : Quiet s t) : Grows parse s t where
  artifacts := h.artifacts
  documents name _ _ hbytes := (h.documents name).trans hbytes
  timestamp := .inl (h.documents "timestamp.json")

theorem Quiet.keeps (h : Quiet s t) (hs : Agreeing parse env s) :
    (leasing parse env).Keeps i s t :=
  ⟨hs.of_frozen h.toFrozen (h.sessions hs.sessions), fun _ _ => ⟨h.grows, fun _ => h.toFrozen⟩⟩

/-- What a task may do while nobody else holds the lease. -/
theorem keeps_of_grows (hlease : ∀ j, j ≠ i → s.lease ≠ some j) (ht : Agreeing parse env t)
    (hgrows : Grows parse s t) : (leasing parse env).Keeps i s t :=
  ⟨ht, fun j hj => ⟨hgrows, fun hheld => absurd hheld (hlease j hj)⟩⟩

theorem grows_of_keeps (h : (leasing parse env).Keeps i s t) : Grows parse s t :=
  (h.2 (i + 1) (Nat.succ_ne_self i)).1

/-- A step that touches neither artifacts nor objects nor the lease. -/
theorem Quiet.of_eq (hartifacts : t.artifacts = s.artifacts) (hobjects : t.objects = s.objects)
    (hlease : t.lease = s.lease) (hversion : t.tufVersion = s.tufVersion)
    (hsessions : (∀ sess ∈ s.uploads.rows, ∃ id, sess.stagingKey = stagingKey id) →
      ∀ sess ∈ t.uploads.rows, ∃ id, sess.stagingKey = stagingKey id) : Quiet s t where
  lease := hlease
  tufVersion := hversion
  documents name := by rw [hobjects]
  settled := by
    unfold World.settled
    rw [hartifacts]
  artifacts id art h := ⟨art, by rw [hartifacts, h], rfl, .refl⟩
  sessions := hsessions

theorem Quiet.refl (s : World β) : Quiet s s := .of_eq rfl rfl rfl rfl fun h => h

/-- A session that is written stays where it was. -/
theorem quiet_putUpload {sess : UploadSession} (hsess : ∃ id, sess.stagingKey = stagingKey id) :
    Quiet s { s with uploads := s.uploads.put sess } := by
  apply Quiet.of_eq
  · rfl
  · rfl
  · rfl
  · rfl
  · intro h other hother
    cases Table.mem_put.mp hother with
    | inl heq => exact heq ▸ hsess
    | inr hmem => exact h other hmem.1

/-- An object outside the metadata. -/
theorem quiet_objects {objects : String → Option β}
    (h : ∀ name, objects (metadataKey name) = s.objects (metadataKey name)) :
    Quiet s { s with objects := objects } :=
  { lease := rfl, tufVersion := rfl, documents := h, settled := rfl,
    artifacts := fun _ art hart => ⟨art, hart, rfl, .refl⟩, sessions := fun hsess => hsess }

theorem quiet_putObject {key : String} {content : Option β} (h : ∀ name, metadataKey name ≠ key) :
    Quiet s { s with objects := Function.update s.objects key content } :=
  quiet_objects fun name => Function.update_of_ne (h name) _ _

/-- A row in the place of one with the same core. -/
theorem find_put_artifact {next cur : Artifact} (hcur : s.artifacts.find next.id = some cur)
    (hcore : next.core = cur.core) (hstatus : canTransition cur.status next.status = true)
    {id : String} {art : Artifact} (h : s.artifacts.find id = some art) : ∃ later,
    (s.artifacts.put next).find id = some later ∧ later.core = art.core ∧
      art.status.Leads later.status := by
  rw [Table.find_put]
  by_cases hid : next.id = id
  · subst hid
    cases hcur.symm.trans h
    rw [if_pos rfl]
    exact ⟨next, rfl, hcore, .single hstatus⟩
  · rw [if_neg hid]
    exact ⟨art, h, rfl, .refl⟩

/-- An update that neither approves nor withdraws is quiet. -/
theorem quiet_putArtifact {next cur : Artifact} (hcur : s.artifacts.find next.id = some cur)
    (hcore : next.core = cur.core) (hstatus : canTransition cur.status next.status = true)
    (hquiet : next.status = cur.status ∨ next.status.isReleased = false) :
    Quiet s { s with artifacts := s.artifacts.put next } where
  lease := rfl
  tufVersion := rfl
  documents _ := rfl
  settled := by
    funext id
    rw [settled_put]
    by_cases hid : next.id = id
    · subst hid
      rw [if_pos rfl]
      unfold World.settled
      rw [hcur]
      cases hquiet with
      | inl hsame => rw [hsame, hcore]
      | inr hunreleased =>
          have hcurUnreleased : cur.status.isReleased = false := by
            by_contra hne
            have hreleased := isReleased_mono hstatus (Bool.not_eq_false _ ▸ hne)
            rw [hunreleased] at hreleased
            cases hreleased
          simp [hunreleased, hcurUnreleased]
    · rw [if_neg hid]
  artifacts _ _ h := find_put_artifact hcur hcore hstatus h
  sessions h := h

/-- A row under a new identifier. -/
theorem quiet_newArtifact {art : Artifact} (hnew : s.artifacts.find art.id = none)
    (hstatus : art.status.isReleased = false) {ix} :
    Quiet s { s with artifacts := s.artifacts.put art, artIdentityIx := ix } where
  lease := rfl
  tufVersion := rfl
  documents _ := rfl
  settled := by
    funext id
    have hput := settled_put s art id
    unfold World.settled at hput ⊢
    rw [hput]
    by_cases hid : art.id = id
    · subst hid
      simp [hnew, hstatus]
    · rw [if_neg hid]
  artifacts id other h := by
    have hne : art.id ≠ id := by
      intro heq
      rw [← heq, hnew] at h
      cases h
    exact ⟨other, (Table.find_put_of_ne hne).trans h, rfl, .refl⟩
  sessions h := h

/-! ## What a task knows -/

/-- The artifact with the row that was read, or a later one. -/
def Known (art : Artifact) (w : World β) : Prop :=
  ∃ later, w.artifacts.find art.id = some later ∧ later.core = art.core ∧
    art.status.Leads later.status

theorem Known.grows {art : Artifact} (h : Known art s) (hgrows : Grows parse s t) :
    Known art t := by
  obtain ⟨mid, hmid, hcore, hleads⟩ := h
  obtain ⟨later, hlater, hcore', hleads'⟩ := hgrows.artifacts _ mid hmid
  exact ⟨later, hlater, hcore'.trans hcore, hleads.trans hleads'⟩

/-- What progress keeps is still known when a task has ended. -/
theorem carryGrown {α : Type} {task : Work β α} {Q : α → World β → Prop}
    {E : ServerError → World β → Prop} {K : World β → Prop}
    (hK : ∀ u v, Grows parse u v → K u → K v) (h : (leasing parse env).Ensures i task s Q E)
    (hs : K s) :
    (leasing parse env).Ensures i task s (fun a t => Q a t ∧ K t) fun e t => E e t ∧ K t :=
  h.frame (fun u v hrely => hK u v hrely.1) (fun u v hkeeps => hK u v (grows_of_keeps hkeeps)) hs

/-- What holds while the lease is held, and nothing is done that it protects. -/
structure Holding (i : Nat) (K : World β → Prop) (w : World β) : Prop where
  lease : w.lease = some i
  known : K w

/-- What waiting and quiet steps leave true. -/
def Lasts (parse : β → Option (Json GoNumber)) (K : World β → Prop) : Prop :=
  ∀ s t, Grows parse s t → Frozen s t → K s → K t

theorem Holding.wait {K : World β → Prop} (hK : Lasts parse K) (h : Holding i K s)
    (hrely : (leasing parse env).rely i s t) : Holding i K t :=
  ⟨((hrely.2 h.lease).lease).trans h.lease, hK s t hrely.1 (hrely.2 h.lease) h.known⟩

theorem Holding.quiet {K : World β → Prop} (hK : Lasts parse K) (h : Holding i K s)
    (hquiet : Quiet s t) : Holding i K t :=
  ⟨hquiet.lease.trans h.lease, hK s t hquiet.grows hquiet.toFrozen h.known⟩

theorem lasts_true : Lasts parse fun _ : World β => True := fun _ _ _ _ h => h

theorem lasts_known (art : Artifact) : Lasts (β := β) parse (Known art) :=
  fun _ _ hgrows _ h => h.grows hgrows

theorem Lasts.and {K L : World β → Prop} (hK : Lasts parse K) (hL : Lasts parse L) :
    Lasts parse fun w => K w ∧ L w :=
  fun s t hgrows hfrozen h => ⟨hK s t hgrows hfrozen h.1, hL s t hgrows hfrozen h.2⟩

/-! ## Quiet calls -/

section

variable {α : Type} {f : Call β α} {label : Label β}

theorem steady_quiet (h : ∀ w, Agreeing parse env w → Quiet w (f w).2) :
    (leasing parse env).Steady i (Task.call label f) :=
  steady_call fun w hw _ => (h w hw).keeps hw

theorem ensures_quiet {Q : α → World β → Prop} (h : ∀ w, Agreeing parse env w → Quiet w (f w).2)
    (hQ : ∀ w a, Agreeing parse env w → (f w).1 = .ok a → Q a (f w).2) :
    (leasing parse env).Ensures i (Task.call label f) s Q fun _ _ => True :=
  ensures_call (fun w _ hw _ => (h w hw).keeps hw) (fun w a _ hw _ ha => hQ w a hw ha)
    (fun _ _ _ _ _ => trivial) fun _ _ _ _ => trivial

/-- A quiet call of the holder. -/
theorem ensures_holding {K : World β → Prop} {Q : α → World β → Prop} (hK : Lasts parse K)
    (hs : Holding i K s) (h : ∀ w, Agreeing parse env w → Quiet w (f w).2)
    (hQ : ∀ w a, Agreeing parse env w → Holding i K w → (f w).1 = .ok a → Q a (f w).2) :
    (leasing parse env).Ensures i (Task.call label f) s (fun a t => Q a t ∧ Holding i K t)
      fun _ t => Holding i K t :=
  ensures_call (fun w _ hw _ => (h w hw).keeps hw)
    (fun w a hrely hw _ ha => ⟨hQ w a hw (hs.wait hK hrely) ha, (hs.wait hK hrely).quiet hK (h w hw)⟩)
    (fun w _ hrely hw _ => (hs.wait hK hrely).quiet hK (h w hw))
    fun _ _ hrely _ => hs.wait hK hrely

theorem quiet_reading (f : World β → Except ServerError α) (w : World β) :
    Quiet w (reading f w).2 :=
  .refl w

end

end Useful.Server
