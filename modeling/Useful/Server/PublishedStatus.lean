/-
# Published status and signed metadata

The holder of the lease changes the status of an approved artifact only as far as the
metadata in place allow: to published once they list it, to withdrawn once they omit it.
So the statuses and the documents that `timestamp.json` leads to agree in every state that
any number of server instances can reach.
-/

import Useful.Server.Publication

namespace Useful.Server.Leasing

open Useful.Math Useful.TufMeta Discipline

variable {β : Type} {parse : β → Option (Json GoNumber)} {env : External β} {config : Config}
  {i : Nat} {s t w : World β} {r : Reached β}

/-! ## Settling an artifact -/

/-- The metadata in place allow an artifact to have a status. -/
structure Allows (parse : β → Option (Json GoNumber)) (env : External β) (w : World β)
    (next : Artifact) (status : ArtifactStatus) : Prop where
  published : next.status = .published → status = .published ∨
    ∃ r, reach parse w.objects = some r ∧ r.Lists parse env next
  withdrawn : next.status = .withdrawn → status = .withdrawn ∨
    ∃ r, reach parse w.objects = some r ∧ r.Omits parse env next

theorem settled_of_find {cur : Artifact} {id : String} (hcur : w.artifacts.find id = some cur)
    {core : Artifact} {status : ArtifactStatus} (h : w.settled id = some (core, status)) :
    cur.status.isReleased = true ∧ cur.core = core ∧ cur.status = status := by
  obtain ⟨art, hart, hreleased, hcore, hstatus⟩ := settled_eq_some.mp h
  rw [hcur] at hart
  cases hart
  exact ⟨hreleased, hcore, hstatus⟩

section

variable {next cur : Artifact} (hcur : w.artifacts.find next.id = some cur)
  (hcore : next.core = cur.core) (hstatus : canTransition cur.status next.status = true)
  (hallows : Allows parse env w next cur.status)

include hcur hcore hstatus hallows

theorem serves_putArtifact {version : Int} (h : Serves parse env w r version) :
    Serves parse env { w with artifacts := w.artifacts.put next } r version where
  reached := h.reached
  closed := h.closed
  version_le := h.version_le
  listed id core hsettled := by
    rw [settled_put] at hsettled
    by_cases hid : next.id = id
    · rw [if_pos hid] at hsettled
      by_cases hreleased : next.status.isReleased = true
      · rw [if_pos hreleased] at hsettled
        simp only [Option.some.injEq, Prod.mk.injEq] at hsettled
        obtain ⟨hsame, hpublished⟩ := hsettled
        cases hallows.published hpublished with
        | inl hbefore =>
            apply h.listed next.id core
            exact settled_eq_some.mpr ⟨cur, hcur, hbefore ▸ rfl, hcore.symm.trans hsame, hbefore⟩
        | inr hlists =>
            obtain ⟨r', hr', hlists⟩ := hlists
            cases h.reached.symm.trans hr'
            rw [← hsame]
            exact lists_core hlists next.core_core.symm
      · rw [if_neg hreleased] at hsettled
        cases hsettled
    · rw [if_neg hid] at hsettled
      exact h.listed id core hsettled
  members members hmembers name hname := by
    obtain ⟨id, core, status, hsettled, hnotWithdrawn, htarget⟩ := h.members members hmembers name hname
    by_cases hid : next.id = id
    · subst hid
      obtain ⟨hreleased, hcurCore, hcurStatus⟩ := settled_of_find hcur hsettled
      refine ⟨next.id, next.core, next.status, ?_, ?_, ?_⟩
      · rw [settled_put, if_pos rfl, if_pos (isReleased_mono hstatus hreleased)]
      · intro hwithdrawn
        cases hallows.withdrawn hwithdrawn with
        | inl hbefore => exact hnotWithdrawn (hcurStatus.symm.trans hbefore)
        | inr homits =>
            obtain ⟨r', hr', homits⟩ := homits
            cases h.reached.symm.trans hr'
            apply homits name members _ hmembers hname
            rw [← artifactTargetName_core, hcore, hcurCore]
            exact htarget
      · rw [hcore, hcurCore]
        exact htarget
    · refine ⟨id, core, status, ?_, hnotWithdrawn, htarget⟩
      rw [settled_put, if_neg hid]
      exact hsettled

theorem agreeing_putArtifact (h : Agreeing parse env w) :
    Agreeing parse env { w with artifacts := w.artifacts.put next } where
  sessions := h.sessions
  served hsome := by
    obtain ⟨r, version, hserves⟩ := h.served hsome
    exact ⟨r, version, serves_putArtifact hcur hcore hstatus hallows hserves⟩
  unpublished hnone id core hsettled := by
    have hnoReach : ∀ r, reach parse w.objects ≠ some r := by
      intro r hr
      have htimestamp := timestamp_of_reach hr
      rw [show w.objects timestampKey = none from hnone] at htimestamp
      cases htimestamp
    rw [settled_put] at hsettled
    by_cases hid : next.id = id
    · rw [if_pos hid] at hsettled
      by_cases hreleased : next.status.isReleased = true
      · rw [if_pos hreleased] at hsettled
        simp only [Option.some.injEq, Prod.mk.injEq] at hsettled
        cases hallows.published hsettled.2 with
        | inl hbefore =>
            apply h.unpublished hnone next.id cur.core
            exact settled_eq_some.mpr ⟨cur, hcur, hbefore ▸ rfl, rfl, hbefore⟩
        | inr hlists => exact hnoReach _ hlists.choose_spec.1
      · rw [if_neg hreleased] at hsettled
        cases hsettled
    · rw [if_neg hid] at hsettled
      exact h.unpublished hnone id core hsettled

/-- The holder writes a row that the metadata allow. -/
theorem keeps_putArtifact (h : Agreeing parse env w) (hlease : w.lease = some i) :
    (leasing parse env).Keeps i w { w with artifacts := w.artifacts.put next } := by
  apply keeps_of_grows (others_of_lease hlease)
  · exact agreeing_putArtifact hcur hcore hstatus hallows h
  · refine ⟨fun _ _ hart => find_put_artifact hcur hcore hstatus hart, fun _ _ _ hb => hb, .inl rfl⟩

end

/-- A call of the holder that keeps what it knows. -/
theorem ensures_held {α : Type} {f : Call β α} {K : World β → Prop} (hK : Lasts parse K)
    (hs : Holding i K s) (h : ∀ w, Agreeing parse env w → Holding i K w →
      (leasing parse env).Keeps i w (f w).2 ∧ Holding i K (f w).2) :
    (leasing parse env).Ensures i (step f) s (fun _ t => Holding i K t) fun _ t => Holding i K t := by
  apply ensures_call
  · exact fun w hrely hw _ => (h w hw (hs.wait hK hrely)).1
  · exact fun w _ hrely hw _ _ => (h w hw (hs.wait hK hrely)).2
  · exact fun w _ hrely hw _ => (h w hw (hs.wait hK hrely)).2
  · exact fun w _ hrely _ => hs.wait hK hrely

/-- What a new row of an artifact leaves true. -/
def KeptByRows (K : World β → Prop) : Prop :=
  ∀ w next cur, w.artifacts.find next.id = some cur → next.core = cur.core →
    canTransition cur.status next.status = true → K w →
    K { w with artifacts := w.artifacts.put next }

theorem keptByRows_known (art : Artifact) : KeptByRows (Known (β := β) art) := by
  intro w next cur hcur hcore hstatus h
  obtain ⟨mid, hmid, hmidCore, hleads⟩ := h
  obtain ⟨later, hlater, hlaterCore, hleads'⟩ := find_put_artifact hcur hcore hstatus hmid
  exact ⟨later, hlater, hlaterCore.trans hmidCore, hleads.trans hleads'⟩

/-- The holder changes a status through `Update`. -/
theorem ensures_updateHeld {art next : Artifact} {K : World β → Prop} (hK : Lasts parse K)
    (hrows : KeptByRows K) (hs : Holding i (fun w => K w ∧ Known art w) s)
    (hcore : next.core = art.core)
    (hallows : ∀ w status, K w → canTransition status next.status = true →
      Allows parse env w next status) :
    (leasing parse env).Ensures i (step (updateArtifact next)) s
      (fun _ t => Holding i (fun w => K w ∧ Known art w) t)
      fun _ t => Holding i (fun w => K w ∧ Known art w) t := by
  apply ensures_held (hK.and (lasts_known art)) hs
  intro w hw hheld
  obtain ⟨hk, hknown⟩ := hheld.known
  have hid : next.core.id = art.core.id := congrArg Artifact.id hcore
  change next.id = art.id at hid
  obtain ⟨cur, hcur, hcurCore, _⟩ := hknown
  unfold updateArtifact
  rw [hid, hcur]
  rw [← hid] at hcur
  have hsame : next.core = cur.core := hcore.trans hcurCore.symm
  simp only
  by_cases hallowed : canTransition cur.status next.status = true
  · rw [if_pos hallowed]
    refine ⟨?_, hheld.lease, hrows w next cur hcur hsame hallowed hk,
      keptByRows_known art w next cur hcur hsame hallowed hheld.known.2⟩
    exact keeps_putArtifact hcur hsame hallowed (hallows w cur.status hk hallowed) hw hheld.lease
  · rw [if_neg hallowed]
    exact ⟨keeps_refl hw, hheld⟩

/-- The holder changes a status through `UpdateStatus`. -/
theorem ensures_settle {art : Artifact} {status : ArtifactStatus} {publishedAt : Option Int}
    {K : World β → Prop} (hK : Lasts parse K) (hrows : KeptByRows K)
    (hs : Holding i (fun w => K w ∧ Known art w) s)
    (hallows : ∀ w cur next, K w → next.core = art.core → next.status = status →
      Allows parse env w next cur) :
    (leasing parse env).Ensures i (step (updateStatus art.id status publishedAt)) s
      (fun _ t => Holding i (fun w => K w ∧ Known art w) t)
      fun _ t => Holding i (fun w => K w ∧ Known art w) t := by
  apply ensures_held (hK.and (lasts_known art)) hs
  intro w hw hheld
  obtain ⟨hk, hknown⟩ := hheld.known
  obtain ⟨cur, hcur, hcurCore, _⟩ := hknown
  have hid : cur.id = art.id := (Table.find_eq_some.mp hcur).2
  have hrow : w.artifacts.find (withStatus cur status publishedAt).id = some cur := hid ▸ hcur
  have hcore : (withStatus cur status publishedAt).core = cur.core := rfl
  have hnext : Allows parse env w (withStatus cur status publishedAt) cur.status :=
    hallows w cur.status _ hk hcurCore rfl
  unfold updateStatus
  rw [hcur]
  simp only
  by_cases hallowed : canTransition cur.status status = true
  · rw [if_pos hallowed]
    refine ⟨keeps_putArtifact hrow hcore hallowed hnext hw hheld.lease, hheld.lease, ?_, ?_⟩
    · exact hrows w _ cur hrow hcore hallowed hk
    · exact keptByRows_known art w _ cur hrow hcore hallowed hheld.known.2
  · rw [if_neg hallowed]
    exact ⟨keeps_refl hw, hheld⟩

/-! ## Settling all intents -/

/-- The documents that `timestamp.json` leads to. -/
def Leads (parse : β → Option (Json GoNumber)) (r : Reached β) (w : World β) : Prop :=
  reach parse w.objects = some r

theorem lasts_leads (r : Reached β) : Lasts (β := β) parse (Leads parse r) :=
  fun _ _ _ hfrozen h => (reach_congr hfrozen.documents).trans h

theorem keptByRows_leads (r : Reached β) : KeptByRows (Leads parse r) :=
  fun _ _ _ _ _ _ h => h

theorem ensures_finalizePublish {now : Int} {arts : List Artifact}
    (hlists : ∀ art ∈ arts, r.Lists parse env art) (hknown : ∀ art ∈ arts, Known art s)
    (hs : Holding i (Leads parse r) s) :
    (leasing parse env).Ensures i (finalizePublish now arts) s
      (fun _ t => Holding i (Leads parse r) t) fun _ _ => True := by
  induction arts generalizing s with
  | nil => exact ensures_pure hs
  | cons art rest ih =>
      have hmono : ∀ u v : World β, Grows parse u v →
          (∀ other ∈ art :: rest, Known other u) → ∀ other ∈ art :: rest, Known other v :=
        fun u v hgrows h other hother => (h other hother).grows hgrows
      have hquiet : ∀ {α : Type} {f : Call β α} {context : String} {u},
          (∀ w, Agreeing parse env w → Quiet w (f w).2) →
          Holding i (Leads parse r) u → (∀ other ∈ art :: rest, Known other u) →
          (leasing parse env).Ensures i (within context (step f)) u
            (fun _ v => Holding i (Leads parse r) v ∧ ∀ other ∈ art :: rest, Known other v)
            fun _ _ => True := by
        intro α f context u hf hu hall
        have hcall : (leasing parse env).Ensures i (step f) u
            (fun _ v => True ∧ Holding i (Leads parse r) v) fun _ v => Holding i (Leads parse r) v :=
          ensures_holding (lasts_leads r) hu hf fun _ _ _ _ _ => trivial
        have hcarried := carryGrown hmono hcall hall
        exact ensures_within (hcarried.imp (fun _ _ h => ⟨h.1.2, h.2⟩) fun _ _ _ => trivial)
      apply (hquiet (fun w _ => quiet_reading _ w) hs hknown).bind (fun _ _ => id)
      intro sess t ht
      apply (hquiet (fun w _ => quiet_deleteStaging _ w) ht.1 ht.2).bind (fun _ _ => id)
      intro _ u hu
      have hsettle : (leasing parse env).Ensures i (step (updateStatus art.id .published
          (some (art.publishedAt.getD now)))) u _ _ :=
        ensures_settle (lasts_leads r) (keptByRows_leads r)
          ⟨hu.1.lease, hu.1.known, hu.2 art List.mem_cons_self⟩
          fun w cur next hw hcore hstatus => by
            refine ⟨fun _ => .inr ⟨r, hw, ?_⟩, fun hwithdrawn => ?_⟩
            · exact lists_core (hlists art List.mem_cons_self) hcore.symm
            · rw [hstatus] at hwithdrawn
              cases hwithdrawn
      have hcarried := carryGrown hmono hsettle hu.2
      apply (ensures_within (hcarried.imp (fun _ _ h => h) fun _ _ _ => trivial)).bind (fun _ _ => id)
      intro _ v hv
      exact ih (fun other hother => hlists other (List.mem_cons_of_mem _ hother))
        (fun other hother => hv.2 other (List.mem_cons_of_mem _ hother))
        ⟨hv.1.lease, hv.1.known.1⟩

theorem ensures_finalizeWithdraw {arts : List Artifact}
    (homits : ∀ art ∈ arts, r.Omits parse env art) (hknown : ∀ art ∈ arts, Known art s)
    (hs : Holding i (Leads parse r) s) :
    (leasing parse env).Ensures i (finalizeWithdraw arts) s (fun _ _ => True) fun _ _ => True := by
  induction arts generalizing s with
  | nil => exact ensures_pure trivial
  | cons art rest ih =>
      have hmono : ∀ u v : World β, Grows parse u v →
          (∀ other ∈ art :: rest, Known other u) → ∀ other ∈ art :: rest, Known other v :=
        fun u v hgrows h other hother => (h other hother).grows hgrows
      have hsettle : (leasing parse env).Ensures i (step (updateStatus art.id .withdrawn none)) s
          _ _ :=
        ensures_settle (lasts_leads r) (keptByRows_leads r)
          ⟨hs.lease, hs.known, hknown art List.mem_cons_self⟩
          fun w cur next hw hcore hstatus => by
            refine ⟨fun hpublished => ?_, fun _ => .inr ⟨r, hw, ?_⟩⟩
            · rw [hstatus] at hpublished
              cases hpublished
            · intro name members hname
              rw [← artifactTargetName_core, hcore, artifactTargetName_core] at hname
              exact homits art List.mem_cons_self name members hname
      have hcarried := carryGrown hmono hsettle hknown
      apply (ensures_within (hcarried.imp (fun _ _ h => h) fun _ _ _ => trivial)).bind (fun _ _ => id)
      intro _ v hv
      exact ih (fun other hother => homits other (List.mem_cons_of_mem _ hother))
        (fun other hother => hv.2 other (List.mem_cons_of_mem _ hother))
        ⟨hv.1.lease, hv.1.known.1⟩

/-! ## Operations that hold the lease -/

theorem ensures_list {status : ArtifactStatus} (hreleased : status.isReleased = true)
    {K : World β → Prop} (hK : Lasts parse K) (hs : Holding i K s) :
    (leasing parse env).Ensures i (step (listByStatus status)) s
      (fun arts t => Holding i (fun w => K w ∧ Listed status arts w) t) fun _ _ => True := by
  have hcall : (leasing parse env).Ensures i (step (listByStatus status)) s
      (fun arts t => Listed status arts t ∧ Holding i K t) fun _ t => Holding i K t :=
    ensures_holding hK hs (fun w _ => quiet_reading _ w)
      fun w arts _ _ h => listed_listByStatus hreleased h
  exact hcall.imp (fun _ _ h => ⟨h.2.lease, h.2.known, h.1⟩) fun _ _ _ => trivial

section

variable (hparse : ReadsBack parse env) (hsha : Function.Injective env.sha256Hex)
  (hid : Function.Injective env.identityDigest)

include hparse hsha hid

theorem ensures_publishMetadataLocked {now : Int} (hs : Holding i (fun _ => True) s) :
    (leasing parse env).Ensures i (publishMetadataLocked env config i now) s (fun _ _ => True)
      fun _ _ => True := by
  apply (ensures_list rfl lasts_true hs).seq
  intro published t ht
  apply (ensures_list rfl (lasts_true.and (lasts_listed .published published)) ht).seq
  intro publishPending u hu
  apply (ensures_list rfl ((lasts_true.and (lasts_listed .published published)).and
    (lasts_listed .publishPending publishPending)) hu).seq
  intro withdrawPending v hv
  obtain ⟨hlease, ⟨⟨_, hpublished⟩, hpublishPending⟩, hwithdrawPending⟩ := hv
  refine ensures_ofExcept_bind (fun _ _ => trivial) fun targets hcollect => ?_
  have htargets : Targets env [] (published ++ publishPending) targets :=
    collectTargets_eq_ok List.nodup_nil hcollect
  have hcollected : Holding i (Collected published publishPending withdrawPending) v :=
    ⟨hlease, hpublished, hpublishPending, hwithdrawPending⟩
  apply (ensures_writeRelease hparse hsha htargets _ hcollected).seq
  intro _ x hx
  obtain ⟨version, release, hread, hleaseX, hlists, hreach⟩ := hx
  have hpublish : (leasing parse env).Ensures i (finalizePublish now publishPending) x
      (fun _ t => Holding i (Leads parse (releaseReached env version release)) t)
      fun _ _ => True :=
    ensures_finalizePublish
      (fun art hart => lists_releaseReached hread htargets (List.mem_append_right _ hart))
      (fun art hart => hlists.publishPending.known hart) ⟨hleaseX, hreach⟩
  have hknown : ∀ a b : World β, Grows parse a b →
      (∀ art ∈ withdrawPending, Known art a) → ∀ art ∈ withdrawPending, Known art b :=
    fun a b hgrows h art hart => (h art hart).grows hgrows
  apply (carryGrown hknown hpublish fun art hart => hlists.withdrawPending.known hart).seq
  intro _ y hy
  exact ensures_finalizeWithdraw
    (fun art hart => omits_releaseReached hid hread htargets hlists hart) hy.2 hy.1

theorem steady_publishMetadata (now : Int) :
    (leasing parse env).Steady i (publishMetadata env config i now) :=
  steady_withMetadataPublishLease fun _ hs => ensures_publishMetadataLocked hparse hsha hid hs

theorem steady_reconcilePublications (now : Int) :
    (leasing parse env).Steady i (reconcilePublications env config i now) := by
  apply (steady_reading _).bind
  intro publishing
  apply (steady_reading _).bind
  intro withdrawing
  split
  · exact steady_pure ()
  · exact steady_publishMetadata hparse hsha hid now

theorem ensures_publishAndGet {artifactID : String} {now : Int}
    (hs : Holding i (fun _ => True) s) :
    (leasing parse env).Ensures i (do
      publishMetadataLocked env config i now
      let _ ← step (getArtifact artifactID)) s (fun _ _ => True) fun _ _ => True := by
  apply (ensures_publishMetadataLocked hparse hsha hid hs).seq
  intro _ t _
  apply (steady_reading _ t).seq
  exact fun _ _ _ => ensures_pure trivial

end

/-- The artifact an operation starts from. -/
theorem ensures_getHeld {id : String} (hs : Holding i (fun _ => True) s) :
    (leasing parse env).Ensures i (step (getArtifact id)) s
      (fun art t => Holding i (fun w => True ∧ Known art w) t) fun _ _ => True := by
  have hcall : (leasing parse env).Ensures i (step (getArtifact id)) s
      (fun art t => Known art t ∧ Holding i (fun _ => True) t)
      fun _ t => Holding i (fun _ => True) t := by
    apply ensures_holding lasts_true hs (fun w _ => quiet_reading _ w)
    intro w art _ _ h
    have hfind := orFail_eq_ok.mp h
    have hartId : art.id = id := (Table.find_eq_some.mp hfind).2
    subst hartId
    exact ⟨art, hfind, rfl, .refl⟩
  exact hcall.imp (fun _ _ h => ⟨h.2.lease, trivial, h.1⟩) fun _ _ _ => trivial

/-- Quiet work of the holder. -/
theorem ensures_quietHeld {α : Type} {f : Call β α} {K : World β → Prop} (hK : Lasts parse K)
    (hs : Holding i K s) (h : ∀ w, Agreeing parse env w → Quiet w (f w).2) :
    (leasing parse env).Ensures i (step f) s (fun _ t => Holding i K t) fun _ _ => True := by
  have hcall : (leasing parse env).Ensures i (step f) s (fun _ t => True ∧ Holding i K t)
      fun _ t => Holding i K t := ensures_holding hK hs h fun _ _ _ _ _ => trivial
  exact hcall.imp (fun _ _ h => h.2) fun _ _ _ => trivial

theorem ensures_copyToPublished {key sha256 : String} {K : World β → Prop} (hK : Lasts parse K)
    (hs : Holding i K s) :
    (leasing parse env).Ensures i (copyToPublished env key (publishedKey sha256)) s
      (fun _ t => Holding i K t) fun _ _ => True := by
  have hpublish : ∀ content t, Holding i K t → (leasing parse env).Ensures i
      (step (putIfAbsentOrSame env.length env.sha256Hex (publishedKey sha256) content)) t
      (fun _ t => Holding i K t) fun _ _ => True :=
    fun content t ht => ensures_quietHeld hK ht fun w _ => quiet_publishObject sha256 content w
  -- a variable in place of the key keeps the checks on it from being evaluated
  generalize publishedKey sha256 = published at hpublish ⊢
  refine ensures_ofExcept_bind (fun _ _ => trivial) fun _ _ => ?_
  refine ensures_ofExcept_bind (fun _ _ => trivial) fun _ _ => ?_
  refine (ensures_quietHeld hK hs fun w _ => quiet_reading _ w).bind (fun _ _ => id) ?_
  exact fun content t ht => hpublish content t ht

/-- Between two statuses that metadata say nothing about. -/
theorem allows_pending {next : Artifact} {status : ArtifactStatus}
    (hpublished : next.status ≠ .published) (hwithdrawn : next.status ≠ .withdrawn) :
    Allows parse env w next status :=
  ⟨fun h => absurd h hpublished, fun h => absurd h hwithdrawn⟩

/-- The holder asks for a publication or a withdrawal. -/
theorem ensures_intend {art next : Artifact} (hs : Holding i (fun w => True ∧ Known art w) s)
    (hcore : next.core = art.core) (hpublished : next.status ≠ .published)
    (hwithdrawn : next.status ≠ .withdrawn) :
    (leasing parse env).Ensures i (step (updateArtifact next)) s
      (fun _ t => Holding i (fun _ => True) t) fun _ _ => True :=
  (ensures_updateHeld lasts_true (fun _ _ _ _ _ _ h => h) hs hcore
    fun _ _ _ _ => allows_pending hpublished hwithdrawn).imp
    (fun _ _ h => ⟨h.lease, trivial⟩) fun _ _ _ => trivial

theorem ensures_requestPublication {art : Artifact} {now : Int}
    (hs : Holding i (fun w => True ∧ Known art w) s) :
    (leasing parse env).Ensures i (requestPublication env art now) s
      (fun _ t => Holding i (fun _ => True) t) fun _ _ => True := by
  have hK : Lasts (β := β) parse fun w => True ∧ Known art w := lasts_true.and (lasts_known art)
  refine ensures_ofExcept_bind (fun _ _ => trivial) fun _ _ => ?_
  refine (ensures_quietHeld hK hs fun w _ => quiet_reading _ w).bind (fun _ _ => id) ?_
  intro sess t ht
  refine (ensures_copyToPublished hK ht).bind (fun _ _ => id) ?_
  intro _ u hu
  exact ensures_intend hu rfl nofun nofun

section

variable (hparse : ReadsBack parse env) (hsha : Function.Injective env.sha256Hex)
  (hid : Function.Injective env.identityDigest)

include hparse hsha hid

theorem steady_approve (artifactID : String) (now : Int) :
    (leasing parse env).Steady i (approve env config i artifactID now) := by
  apply steady_withMetadataPublishLease
  intro s hs
  apply (ensures_getHeld hs).seq
  intro art t ht
  have hpublish : ∀ u : World β, Holding i (fun _ => True) u →
      (leasing parse env).Ensures i (do
        publishMetadataLocked env config i now
        let _ ← step (getArtifact artifactID)) u (fun _ _ => True) fun _ _ => True :=
    fun u hu => ensures_publishAndGet hparse hsha hid hu
  cases hstatus : art.status with
  | published => exact ensures_pure trivial
  | scanned =>
      apply (ensures_requestPublication ht).seq
      exact fun _ u hu => hpublish u hu
  | publishPending =>
      refine ensures_ofExcept_bind (fun _ _ => trivial) fun _ _ => ?_
      exact hpublish t ⟨ht.lease, trivial⟩
  | staged | approved | withdrawPending | withdrawn | rejected => exact ensures_fail trivial

theorem steady_withdraw (artifactID : String) (now : Int) :
    (leasing parse env).Steady i (withdraw env config i artifactID now) := by
  apply steady_withMetadataPublishLease
  intro s hs
  apply (ensures_getHeld hs).seq
  intro art t ht
  have hpublish : ∀ u : World β, Holding i (fun _ => True) u →
      (leasing parse env).Ensures i (do
        publishMetadataLocked env config i now
        let _ ← step (getArtifact artifactID)) u (fun _ _ => True) fun _ _ => True :=
    fun u hu => ensures_publishAndGet hparse hsha hid hu
  have hintend : (leasing parse env).Ensures i
      (step (updateArtifact { art with status := .withdrawPending })) t
      (fun _ u => Holding i (fun _ => True) u) fun _ _ => True := ensures_intend ht rfl nofun nofun
  cases hstatus : art.status with
  | withdrawn => exact ensures_pure trivial
  | published =>
      apply hintend.seq
      exact fun _ u hu => hpublish u hu
  | withdrawPending => exact hpublish t ⟨ht.lease, trivial⟩
  | staged | scanned | approved | publishPending | rejected => exact ensures_fail trivial

/-! ## Operations that start without the lease -/

theorem steady_runScan (artifactID : String) (now : Int) :
    (leasing parse env).Steady i (runScan env config i artifactID now) := by
  intro s
  apply ensures_getArtifact.seq
  intro art t ht
  have hgrown : ∀ u v : World β, Grows parse u v → Known art u → Known art v :=
    fun u v hgrows h => h.grows hgrows
  split
  · exact ensures_pure trivial
  · apply (carryGrown hgrown (steady_reading _ t) ht.1).seq
    intro sess u hu
    apply (carryGrown hgrown (steady_scanPackage art sess u) hu.2).seq
    intro result v hv
    have hstatus : (scannedArtifact env art result).status = art.status ∨
        (scannedArtifact env art result).status.isReleased = false := by
      apply Or.inr
      unfold scannedArtifact
      cases result.passed with
      | true => rfl
      | false => rfl
    have hupdate : (leasing parse env).Ensures i
        (step (updateArtifact (scannedArtifact env art result))) v (fun _ _ => True)
        fun _ _ => True := ensures_updateArtifact hv.2 rfl hstatus
    cases result.passed with
    | true =>
        apply hupdate.seq
        intro _ x _
        split
        · exact steady_approve hparse hsha hid artifactID now x
        · exact ensures_pure trivial
    | false =>
        apply (ensures_ignoring hupdate).seq
        intro _ x _
        exact steady_ignoring (steady_deleteStaging _) x

theorem steady_recordReproVerification (artifactID : String) (res : ReproResult) (now : Int) :
    (leasing parse env).Steady i (recordReproVerification env config i artifactID res now) := by
  intro s
  apply ensures_getArtifact.seq
  intro art t ht
  have hupdate : (leasing parse env).Ensures i
      (step (updateArtifact { art with reproStatus := res.status, reproStrategy := res.strategy })) t
      (fun _ _ => True) fun _ _ => True := ensures_updateArtifact ht.1 rfl (.inl rfl)
  apply hupdate.seq
  intro _ u _
  split
  · exact steady_publishMetadata hparse hsha hid now u
  · exact ensures_pure trivial

theorem steady_startOperation (op : Operation β) :
    (leasing parse env).Steady i (startOperation env config i op) := by
  cases op with
  | createUploadSession id publisherKeyID declaredSHA declaredSize now =>
      apply (steady_createUploadSession id publisherKeyID declaredSHA declaredSize now).bind
      exact fun _ => steady_pure ()
  | receiveContent sessionID content => exact steady_receiveContent sessionID content
  | createRelease req uuid jobID now =>
      apply (steady_createRelease req ("art_" ++ uuid) jobID now).bind
      exact fun _ => steady_pure ()
  | runScan artifactID now => exact steady_runScan hparse hsha hid artifactID now
  | approve artifactID now => exact steady_approve hparse hsha hid artifactID now
  | reject artifactID => exact steady_reject artifactID
  | withdraw artifactID now => exact steady_withdraw hparse hsha hid artifactID now
  | recordReproVerification artifactID res now =>
      exact steady_recordReproVerification hparse hsha hid artifactID res now
  | publishMetadata now => exact steady_publishMetadata hparse hsha hid now
  | reconcilePublications now => exact steady_reconcilePublications hparse hsha hid now

end

end Useful.Server.Leasing
