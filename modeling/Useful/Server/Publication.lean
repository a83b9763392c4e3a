/-
# Publishing metadata

The holder of the publish lease lists the artifacts to publish, writes a release of the
metadata under a fresh version, moves `timestamp.json` to it and only then settles the
artifacts. The documents that `timestamp.json` leads to therefore agree with the statuses
after every step, wherever a task fails or stops.
-/

import Useful.Server.Unleased

namespace Useful.Server.Leasing

open Useful.Math Useful.TufMeta Discipline

variable {β : Type} {parse : β → Option (Json GoNumber)} {env : External β} {config : Config}
  {i : Nat} {s t w : World β}

/-! ## The lease and the version -/

theorem grows_of_eq (hartifacts : t.artifacts = s.artifacts) (hobjects : t.objects = s.objects) :
    Grows parse s t where
  artifacts id art h := ⟨art, by rw [hartifacts, h], rfl, .refl⟩
  documents name bytes _ h := by rw [hobjects, h]
  timestamp := .inl (by rw [hobjects])

/-- Agreement does not depend on who holds the lease, and a higher version is no harm. -/
theorem agreeing_of_version (h : Agreeing parse env w) (lease : Option Nat) {version : Int}
    (hversion : w.tufVersion ≤ version) :
    Agreeing parse env { w with lease := lease, tufVersion := version } where
  sessions := h.sessions
  served hsome := by
    obtain ⟨r, current, hserves⟩ := h.served hsome
    exact ⟨r, current, hserves.reached, hserves.closed, Int.le_trans hserves.version_le hversion,
      hserves.listed, hserves.members⟩
  unpublished := h.unpublished

theorem others_of_lease (hlease : s.lease = some i) (j : Nat) (hj : j ≠ i) : s.lease ≠ some j :=
  fun heq => hj (Option.some.inj (heq.symm.trans hlease))

theorem ensures_acquire : (leasing parse env).Ensures i (step (acquirePublishLease i)) s
    (fun _ t => Holding i (fun _ => True) t) fun _ _ => True := by
  apply ensures_call
  · intro w _ hw _
    unfold acquirePublishLease
    cases hlease : w.lease with
    | some j => exact keeps_refl hw
    | none =>
        apply keeps_of_grows
        · intro j _
          rw [hlease]
          exact fun heq => nomatch heq
        · exact agreeing_of_version hw _ (Int.le_refl _)
        · exact grows_of_eq rfl rfl
  · intro w _ _ hw _
    unfold acquirePublishLease
    cases w.lease with
    | some j => exact fun h => nomatch h
    | none => exact fun _ => ⟨rfl, trivial⟩
  · exact fun _ _ _ _ _ => trivial
  · exact fun _ _ _ _ => trivial

theorem steady_releaseLease : (leasing parse env).Steady i (step (releaseLease i)) := by
  apply steady_call
  intro w hw _
  unfold releaseLease
  by_cases hlease : w.lease = some i
  · rw [if_pos hlease]
    apply keeps_of_grows (others_of_lease hlease)
    · exact agreeing_of_version hw _ (Int.le_refl _)
    · exact grows_of_eq rfl rfl
  · rw [if_neg hlease]
    exact keeps_refl hw

theorem steady_withMetadataPublishLease {body : Work β Unit}
    (h : ∀ s, Holding i (fun _ => True) s →
      (leasing parse env).Ensures i body s (fun _ _ => True) fun _ _ => True) :
    (leasing parse env).Steady i (withMetadataPublishLease i body) := by
  intro s
  apply ensures_acquire.seq
  intro _ t ht
  apply (h t ht).attempt_true.seq
  intro outcome u _
  apply (steady_releaseLease.attempt u).seq
  intro released _ _
  cases outcome with
  | ok _ =>
      cases released with
      | ok _ => exact ensures_pure trivial
      | error e => exact ensures_fail trivial
  | error e => exact ensures_fail trivial

/-! ## What is to be published -/

/-- A list of the artifacts with a status. -/
structure Listed (status : ArtifactStatus) (arts : List Artifact) (w : World β) : Prop where
  status_eq : ∀ art ∈ arts, art.status = status
  complete : ∀ id core, w.settled id = some (core, status) → ∃ art ∈ arts, art.core = core
  sound : ∀ art ∈ arts, w.settled art.id = some (art.core, status)

/-- What the holder has read of the statuses. -/
structure Collected (published publishPending withdrawPending : List Artifact) (w : World β) :
    Prop where
  published : Listed .published published w
  publishPending : Listed .publishPending publishPending w
  withdrawPending : Listed .withdrawPending withdrawPending w

theorem Listed.of_settled {status : ArtifactStatus} {arts : List Artifact}
    (h : Listed status arts s) (hsettled : t.settled = s.settled) : Listed status arts t where
  status_eq := h.status_eq
  complete := hsettled.symm ▸ h.complete
  sound := hsettled.symm ▸ h.sound

theorem Collected.of_settled {published publishPending withdrawPending : List Artifact}
    (h : Collected published publishPending withdrawPending s) (hsettled : t.settled = s.settled) :
    Collected published publishPending withdrawPending t :=
  ⟨h.published.of_settled hsettled, h.publishPending.of_settled hsettled,
    h.withdrawPending.of_settled hsettled⟩

theorem lasts_listed (status : ArtifactStatus) (arts : List Artifact) :
    Lasts (β := β) parse (Listed status arts) :=
  fun _ _ _ hfrozen h => h.of_settled hfrozen.settled

theorem listed_listByStatus {status : ArtifactStatus} (hreleased : status.isReleased = true)
    {arts : List Artifact} (h : (listByStatus status w).1 = .ok arts) : Listed status arts w := by
  have hmem : ∀ art, art ∈ arts ↔ art ∈ w.artifacts.rows ∧ art.status = status := by
    intro art
    cases h
    simp [List.mem_filter]
  constructor
  · exact fun art hart => ((hmem art).mp hart).2
  · intro id core hsettled
    obtain ⟨art, hart, _, hcore, hstatus⟩ := settled_eq_some.mp hsettled
    exact ⟨art, (hmem art).mpr ⟨(Table.find_eq_some.mp hart).1, hstatus⟩, hcore⟩
  · intro art hart
    obtain ⟨hrow, hstatus⟩ := (hmem art).mp hart
    exact settled_eq_some.mpr ⟨art, Table.find_eq_some.mpr ⟨hrow, rfl⟩, hstatus ▸ hreleased, rfl,
      hstatus⟩

theorem Listed.known {status : ArtifactStatus} {arts : List Artifact} (h : Listed status arts w)
    {art : Artifact} (hart : art ∈ arts) : Known art w := by
  obtain ⟨row, hrow, _, hcore, hsame⟩ := settled_eq_some.mp (h.sound art hart)
  refine ⟨row, hrow, hcore, ?_⟩
  rw [hsame, h.status_eq art hart]
  exact .refl

/-! ### Targets -/

theorem targetEntry_core (art : Artifact) : targetEntry art.core = targetEntry art := rfl

theorem artifactTargetName_core (art : Artifact) :
    artifactTargetName env art.core = artifactTargetName env art := rfl

theorem lists_core {r : Reached β} {art other : Artifact} (h : r.Lists parse env art) (hcore : art.core = other.core) :
    r.Lists parse env other := by
  obtain ⟨name, members, hname, hmembers, hentry⟩ := h
  refine ⟨name, members, ?_, hmembers, ?_⟩
  · rw [← artifactTargetName_core, ← hcore, artifactTargetName_core]
    exact hname
  · rw [← targetEntry_core, ← hcore, targetEntry_core]
    exact hentry

/-- The loop adds the targets of its artifacts to those it has, under new names. -/
structure Targets (env : External β) (before : List (String × TargetEntry)) (arts : List Artifact)
    (targets : List (String × TargetEntry)) : Prop where
  names : (targets.map Prod.fst).Nodup
  kept : ∀ target ∈ before, target ∈ targets
  added : ∀ art ∈ arts, ∃ name, artifactTargetName env art = .ok name ∧
    (name, targetEntry art) ∈ targets
  source : ∀ target ∈ targets, target ∈ before ∨ ∃ art ∈ arts,
    artifactTargetName env art = .ok target.1 ∧ target.2 = targetEntry art

theorem collectTargets_eq_ok {arts : List Artifact} {before targets : List (String × TargetEntry)}
    (hbefore : (before.map Prod.fst).Nodup) (h : collectTargets env before arts = .ok targets) :
    Targets env before arts targets := by
  induction arts generalizing before with
  | nil =>
      cases h
      exact ⟨hbefore, fun _ hmem => hmem, fun _ hmem => absurd hmem List.not_mem_nil,
        fun _ hmem => .inl hmem⟩
  | cons art rest ih =>
      obtain ⟨-, -, h⟩ := bind_eq_ok.mp h
      obtain ⟨name, hname, h⟩ := bind_eq_ok.mp h
      obtain ⟨_, hfresh, h⟩ := bind_eq_ok.mp h
      have hnew : ((before ++ [(name, targetEntry art)]).map Prod.fst).Nodup := by
        rw [List.map_append, List.nodup_append]
        refine ⟨hbefore, by simp, ?_⟩
        intro a ha b hb heq
        rw [List.map_cons, List.map_nil, List.mem_singleton] at hb
        have hsame : a = name := heq.trans hb
        exact failIf_eq_ok.mp hfresh (hsame ▸ ha)
      have hrest := ih hnew h
      constructor
      · exact hrest.names
      · exact fun target hmem => hrest.kept target (List.mem_append_left _ hmem)
      · intro other hother
        cases List.mem_cons.mp hother with
        | inl heq =>
            subst heq
            exact ⟨name, hname, hrest.kept _ (List.mem_append_right _ (List.mem_singleton.mpr rfl))⟩
        | inr hmem => exact hrest.added other hmem
      · intro target hmem
        cases hrest.source target hmem with
        | inl hold =>
            cases List.mem_append.mp hold with
            | inl hmem' => exact .inl hmem'
            | inr hlast =>
                cases List.mem_singleton.mp hlast
                exact .inr ⟨art, List.mem_cons_self, hname, rfl⟩
        | inr hsource =>
            obtain ⟨other, hother, hpost⟩ := hsource
            exact .inr ⟨other, List.mem_cons_of_mem _ hother, hpost⟩

/-- Artifacts with one target name are one artifact. -/
theorem id_eq_of_targetName (hid : Function.Injective env.identityDigest) {a b : Artifact}
    {name : String} (ha : artifactTargetName env a = .ok name)
    (hb : artifactTargetName env b = .ok name) : a.id = b.id := by
  obtain ⟨-, -, ha⟩ := bind_eq_ok.mp ha
  obtain ⟨-, -, hb⟩ := bind_eq_ok.mp hb
  have hnames : env.identityDigest a.targetIdentity ++ ".useful" =
      env.identityDigest b.targetIdentity ++ ".useful" :=
    (Except.ok.inj ha).trans (Except.ok.inj hb).symm
  have hdigests := hid ((String.append_left_inj _).mp hnames)
  simp only [Artifact.targetIdentity, List.cons.injEq, and_true] at hdigests
  exact hdigests.2.2.2.2.2

/-! ## Writing a release -/

/-- The version that was drawn is above that of `timestamp.json`. -/
structure Drawn (parse : β → Option (Json GoNumber)) (version : Int) (w : World β) : Prop where
  tufVersion : w.tufVersion = version
  fresh : ∀ bytes old, w.objects timestampKey = some bytes → versionOf parse bytes = some old →
    old < version

theorem timestamp_of_reach {objects : String → Option β} {r : Reached β}
    (h : reach parse objects = some r) : objects timestampKey = some r.timestamp := by
  unfold reach at h
  simp only [Option.bind_eq_bind, Option.bind_eq_some_iff] at h
  obtain ⟨timestamp, htimestamp, _, _, _, _, _, _, _, _, hr⟩ := h
  cases hr
  exact htimestamp

/-- The version of `timestamp.json` has been drawn before. -/
theorem version_le_of_agreeing (h : Agreeing parse env w) {bytes : β} {version : Int}
    (hbytes : w.objects timestampKey = some bytes) (hversion : versionOf parse bytes = some version) :
    version ≤ w.tufVersion := by
  obtain ⟨r, current, hserves⟩ := h.served (by rw [hbytes]; exact fun heq => nomatch heq)
  have htimestamp := timestamp_of_reach hserves.reached
  rw [hbytes] at htimestamp
  cases htimestamp
  rw [hserves.closed.1] at hversion
  cases hversion
  exact hserves.version_le

section

variable {published publishPending withdrawPending : List Artifact}

theorem ensures_nextVersion {candidate : Int}
    (hs : Holding i (Collected published publishPending withdrawPending) s) :
    (leasing parse env).Ensures i (step (nextVersion i candidate)) s
      (fun version t => Holding i (fun w => Collected published publishPending withdrawPending w ∧
        Drawn parse version w) t)
      fun _ _ => True := by
  have hlasts : Lasts parse (Collected (β := β) published publishPending withdrawPending) :=
    fun _ _ _ hfrozen h => h.of_settled hfrozen.settled
  have hnext : ∀ w : World β, w.tufVersion ≤ max candidate (w.tufVersion + 1) := fun w => by omega
  apply ensures_call
  · intro w hrely hw _
    have hheld := hs.wait hlasts hrely
    unfold nextVersion
    rw [if_neg (not_not.mpr hheld.lease)]
    split
    · exact keeps_refl hw
    · apply keeps_of_grows (others_of_lease hheld.lease)
      · exact agreeing_of_version hw w.lease (hnext w)
      · exact grows_of_eq rfl rfl
  · intro w version hrely hw _
    have hheld := hs.wait hlasts hrely
    unfold nextVersion
    rw [if_neg (not_not.mpr hheld.lease)]
    split
    · exact fun h => nomatch h
    · intro h
      cases h
      refine ⟨hheld.lease, hheld.known.of_settled rfl, rfl, ?_⟩
      intro bytes old hbytes hold
      have hle := version_le_of_agreeing hw hbytes hold
      omega
  · exact fun _ _ _ _ _ => trivial
  · exact fun _ _ _ _ => trivial

end

/-! ### Versioned documents -/

/-- Every document that is there is still there. -/
theorem reach_mono {objects objects' : String → Option β} {r : Reached β}
    (h : ∀ name bytes, objects (metadataKey name) = some bytes →
      objects' (metadataKey name) = some bytes)
    (hr : reach parse objects = some r) : reach parse objects' = some r := by
  unfold reach at hr ⊢
  simp only [Option.bind_eq_bind, Option.bind_eq_some_iff] at hr ⊢
  obtain ⟨timestamp, htimestamp, pin, hpin, snapshot, hsnapshot, pin', hpin', targets, htargets, hr⟩ := hr
  exact ⟨timestamp, h _ _ htimestamp, pin, hpin, snapshot, h _ _ hsnapshot, pin', hpin', targets,
    h _ _ htargets, hr⟩

/-- A document under a name that is free. -/
def addDocument (name : String) (bytes : β) (w : World β) : World β :=
  { w with objects := Function.update w.objects (metadataKey name) (some bytes) }

section

variable {name : String} {bytes : β}

theorem objects_addDocument (hfree : w.objects (metadataKey name) = none) {key : String} {b : β}
    (h : w.objects key = some b) : (addDocument name bytes w).objects key = some b := by
  have hne : key ≠ metadataKey name := by
    intro heq
    rw [heq, hfree] at h
    cases h
  exact (Function.update_of_ne hne _ _).trans h

theorem timestamp_addDocument (hname : metadataKey name ≠ timestampKey) :
    (addDocument name bytes w).objects timestampKey = w.objects timestampKey :=
  Function.update_of_ne hname.symm _ _

theorem agreeing_addDocument (h : Agreeing parse env w) (hname : metadataKey name ≠ timestampKey)
    (hfree : w.objects (metadataKey name) = none) : Agreeing parse env (addDocument name bytes w) where
  sessions := h.sessions
  served hsome := by
    rw [timestamp_addDocument hname] at hsome
    obtain ⟨r, version, hserves⟩ := h.served hsome
    exact ⟨r, version, reach_mono (fun _ _ => objects_addDocument hfree) hserves.reached,
      hserves.closed, hserves.version_le, hserves.listed, hserves.members⟩
  unpublished hnone := h.unpublished ((timestamp_addDocument hname).symm.trans hnone)

theorem grows_addDocument (hname : metadataKey name ≠ timestampKey)
    (hfree : w.objects (metadataKey name) = none) : Grows parse w (addDocument name bytes w) where
  artifacts _ art h := ⟨art, h, rfl, .refl⟩
  documents _ _ _ h := objects_addDocument hfree h
  timestamp := .inl (timestamp_addDocument hname)

/-- What a new document leaves true. -/
def Extends (K : World β → Prop) : Prop :=
  ∀ w name bytes, metadataKey name ≠ timestampKey → w.objects (metadataKey name) = none → K w →
    K (addDocument name bytes w)

/-- `putImmutable`: in the end the document is there, whoever has written it. -/
theorem ensures_putDocument (hsha : Function.Injective env.sha256Hex) {K : World β → Prop}
    (hK : Lasts parse K) (hextends : Extends K) (hname : metadataKey name ≠ timestampKey)
    (hs : Holding i K s) :
    (leasing parse env).Ensures i
      (step (putIfAbsentOrSame env.length env.sha256Hex (metadataKey name) bytes)) s
      (fun _ t => Holding i (fun w => K w ∧ w.objects (metadataKey name) = some bytes) t)
      fun _ t => Holding i K t := by
  have hcases : ∀ w, Agreeing parse env w → Holding i K w →
      (leasing parse env).Keeps i w (putIfAbsentOrSame env.length env.sha256Hex
        (metadataKey name) bytes w).2 ∧
      Holding i K (putIfAbsentOrSame env.length env.sha256Hex (metadataKey name) bytes w).2 ∧
      ∀ a, (putIfAbsentOrSame env.length env.sha256Hex (metadataKey name) bytes w).1 = .ok a →
        (putIfAbsentOrSame env.length env.sha256Hex (metadataKey name) bytes w).2.objects
          (metadataKey name) = some bytes := by
    intro w hw hheld
    unfold putIfAbsentOrSame
    cases hobject : w.objects (metadataKey name) with
    | none =>
        refine ⟨?_, ?_, fun _ _ => Function.update_self _ _ _⟩
        · exact keeps_of_grows (others_of_lease hheld.lease) (agreeing_addDocument hw hname hobject)
            (grows_addDocument hname hobject)
        · exact ⟨hheld.lease, hextends w name bytes hname hobject hheld.known⟩
    | some existing =>
        simp only
        split
        · next hsame =>
            refine ⟨keeps_refl hw, hheld, fun _ _ => ?_⟩
            rw [hobject, hsha hsame.2]
        · exact ⟨keeps_refl hw, hheld, fun _ h => nomatch h⟩
  apply ensures_call
  · exact fun w hrely hw _ => (hcases w hw (hs.wait hK hrely)).1
  · intro w a hrely hw _ h
    have hpost := hcases w hw (hs.wait hK hrely)
    exact ⟨hpost.2.1.lease, hpost.2.1.known, hpost.2.2 a h⟩
  · exact fun w _ hrely hw _ => (hcases w hw (hs.wait hK hrely)).2.1
  · exact fun w _ hrely _ => hs.wait hK hrely

theorem extends_stored : Extends fun w : World β => w.objects (metadataKey name) = some bytes :=
  fun _ _ _ _ hfree h => objects_addDocument hfree h

theorem lasts_stored : Lasts (β := β) parse fun w => w.objects (metadataKey name) = some bytes :=
  fun _ _ _ hfrozen h => (hfrozen.documents name).trans h

theorem lasts_drawn (version : Int) : Lasts (β := β) parse (Drawn parse version) := by
  intro s t _ hfrozen h
  have htimestamp : t.objects timestampKey = s.objects timestampKey := hfrozen.documents _
  refine ⟨hfrozen.tufVersion.trans h.tufVersion, ?_⟩
  rw [htimestamp]
  exact h.fresh

theorem extends_drawn (version : Int) : Extends (β := β) (Drawn parse version) := by
  intro w name bytes hname _ h
  refine ⟨h.tufVersion, ?_⟩
  rw [timestamp_addDocument hname]
  exact h.fresh

theorem Extends.and {K L : World β → Prop} (hK : Extends K) (hL : Extends L) :
    Extends fun w => K w ∧ L w :=
  fun w name bytes hname hfree h => ⟨hK w name bytes hname hfree h.1, hL w name bytes hname hfree h.2⟩

end

/-! ### Moving the timestamp -/

/-- A versioned name has another letter than `timestamp.json` where that has its `p`. -/
theorem versioned_ne_timestamp (suffix : String) (c : Char)
    (h : suffix.toList.reverse[5]? = some c) (hc : c ≠ 'p') (stem : String) :
    metadataKey (stem ++ suffix) ≠ timestampKey := by
  intro heq
  have hname : stem ++ suffix = "timestamp.json" := (String.append_right_inj _).mp heq
  have hlist := congrArg (fun name => name.toList.reverse[5]?) hname
  have hlength : 5 < suffix.toList.reverse.length := (List.getElem?_eq_some_iff.mp h).1
  have htimestamp : "timestamp.json".toList.reverse[5]? = some 'p' := by decide
  simp only [String.toList_append, List.reverse_append, List.getElem?_append_left hlength, h,
    htimestamp] at hlist
  exact hc (Option.some.inj hlist)

theorem targetsKey_ne_timestampKey (version : Int) : targetsKey version ≠ timestampKey :=
  versioned_ne_timestamp ".targets.json" 's' (by decide) (by decide) _

theorem snapshotKey_ne_timestampKey (version : Int) : snapshotKey version ≠ timestampKey :=
  versioned_ne_timestamp ".snapshot.json" 't' (by decide) (by decide) _

/-- The documents that a reader of a release reaches. -/
def releaseReached (env : External β) (version : Int) (release : Release β) : Reached β where
  timestamp := release.timestampBytes
  snapshotPin := ⟨version, env.length release.snapshotBytes, env.sha256Hex release.snapshotBytes⟩
  snapshot := release.snapshotBytes
  targetsPin := ⟨version, env.length release.targetsBytes, env.sha256Hex release.targetsBytes⟩
  targets := release.targetsBytes

/-- The world once `timestamp.json` has been moved. -/
def moveTimestamp (bytes : β) (w : World β) : World β :=
  { w with objects := Function.update w.objects timestampKey (some bytes) }

theorem timestamp_moveTimestamp (bytes : β) (w : World β) :
    (moveTimestamp bytes w).objects timestampKey = some bytes := by
  simp only [moveTimestamp, Function.update_self]

theorem document_moveTimestamp {key : String} (hkey : key ≠ timestampKey) (bytes : β)
    (w : World β) : (moveTimestamp bytes w).objects key = w.objects key := by
  simp only [moveTimestamp, Function.update_of_ne hkey]

section

variable {published publishPending withdrawPending : List Artifact} {version : Int}
  {targets : List (String × TargetEntry)} {release : Release β}

/-- Everything is ready for the move. -/
structure Prepared (parse : β → Option (Json GoNumber))
    (published publishPending withdrawPending : List Artifact) (version : Int) (release : Release β)
    (w : World β) : Prop where
  collected : Collected published publishPending withdrawPending w
  drawn : Drawn parse version w
  targets : w.objects (targetsKey version) = some release.targetsBytes
  snapshot : w.objects (snapshotKey version) = some release.snapshotBytes

theorem reach_moveTimestamp (hread : ReadRelease parse env version targets release)
    (h : Prepared parse published publishPending withdrawPending version release w) :
    reach parse (moveTimestamp release.timestampBytes w).objects =
      some (releaseReached env version release) := by
  have hsnapshot := (document_moveTimestamp (snapshotKey_ne_timestampKey version)
    release.timestampBytes w).trans h.snapshot
  have htargets := (document_moveTimestamp (targetsKey_ne_timestampKey version)
    release.timestampBytes w).trans h.targets
  unfold reach
  simp only [timestamp_moveTimestamp, Option.bind_eq_bind, Option.bind_some, hread.snapshotPin, hsnapshot,
    hread.targetsPin, htargets]
  rfl

theorem lists_releaseReached (hread : ReadRelease parse env version targets release)
    {arts : List Artifact} (htargets : Targets env [] arts targets) {art : Artifact}
    (hart : art ∈ arts) : (releaseReached env version release).Lists parse env art := by
  obtain ⟨members, hmembers, hperm⟩ := hread.members
  obtain ⟨name, hname, hentry⟩ := htargets.added art hart
  refine ⟨name, members, hname, hmembers, ?_⟩
  rw [hperm.mem_iff]
  exact List.mem_map.mpr ⟨_, hentry, rfl⟩

/-- Every name among the targets is that of an artifact to be published. -/
theorem source_of_releaseReached (hread : ReadRelease parse env version targets release)
    {arts : List Artifact} (htargets : Targets env [] arts targets)
    {members : List (String × Json GoNumber)}
    (hmembers : targetsOf parse (releaseReached env version release).targets = some members)
    {name : String} (hname : name ∈ members.map Prod.fst) :
    ∃ art ∈ arts, artifactTargetName env art = .ok name := by
  obtain ⟨members', hmembers', hperm⟩ := hread.members
  cases hmembers'.symm.trans hmembers
  rw [(hperm.map Prod.fst).mem_iff, List.map_map] at hname
  obtain ⟨target, htarget, hsame⟩ := List.mem_map.mp hname
  obtain ⟨art, hart, hartName, _⟩ := (htargets.source target htarget).resolve_left List.not_mem_nil
  exact ⟨art, hart, hsame ▸ hartName⟩

/-- Its targets are the artifacts that were listed to be published. -/
theorem serves_moveTimestamp (hread : ReadRelease parse env version targets release)
    (htargets : Targets env [] (published ++ publishPending) targets)
    (h : Prepared parse published publishPending withdrawPending version release w) :
    Serves parse env (moveTimestamp release.timestampBytes w) (releaseReached env version release)
      version := by
  constructor
  · exact reach_moveTimestamp hread h
  · exact ⟨hread.timestamp, hread.snapshot, hread.targets, rfl, rfl⟩
  · exact le_of_eq h.drawn.tufVersion.symm
  · intro id core hsettled
    obtain ⟨art, hart, hcore⟩ := h.collected.published.complete id core hsettled
    rw [← hcore]
    apply lists_core _ art.core_core.symm
    exact lists_releaseReached hread htargets (List.mem_append_left _ hart)
  · intro members hmembers name hname
    obtain ⟨art, hart, hartName⟩ := source_of_releaseReached hread htargets hmembers hname
    cases List.mem_append.mp hart with
    | inl hpublished =>
        exact ⟨art.id, art.core, .published, h.collected.published.sound art hpublished,
          by decide, hartName⟩
    | inr hpending =>
        exact ⟨art.id, art.core, .publishPending, h.collected.publishPending.sound art hpending,
          by decide, hartName⟩

/-- What is to be withdrawn has no target. -/
theorem omits_releaseReached (hid : Function.Injective env.identityDigest)
    (hread : ReadRelease parse env version targets release)
    (htargets : Targets env [] (published ++ publishPending) targets)
    (h : Collected published publishPending withdrawPending w) {art : Artifact}
    (hart : art ∈ withdrawPending) : (releaseReached env version release).Omits parse env art := by
  intro name members hname hmembers hmem
  obtain ⟨other, hother, hotherName⟩ := source_of_releaseReached hread htargets hmembers hmem
  have hsame : other.id = art.id := id_eq_of_targetName hid hotherName hname
  have hwithdrawing := h.withdrawPending.sound art hart
  cases List.mem_append.mp hother with
  | inl hpublished =>
      have hsettled := h.published.sound other hpublished
      rw [hsame, hwithdrawing] at hsettled
      simp at hsettled
  | inr hpending =>
      have hsettled := h.publishPending.sound other hpending
      rw [hsame, hwithdrawing] at hsettled
      simp at hsettled

theorem keeps_moveTimestamp (hread : ReadRelease parse env version targets release)
    (htargets : Targets env [] (published ++ publishPending) targets)
    (hw : Agreeing parse env w) (hlease : w.lease = some i)
    (h : Prepared parse published publishPending withdrawPending version release w) :
    (leasing parse env).Keeps i w (moveTimestamp release.timestampBytes w) := by
  have htimestamp := timestamp_moveTimestamp release.timestampBytes w
  apply keeps_of_grows (others_of_lease hlease)
  · refine ⟨hw.sessions, fun _ => ⟨_, _, serves_moveTimestamp hread htargets h⟩, fun hnone => ?_⟩
    rw [htimestamp] at hnone
    cases hnone
  · refine ⟨fun _ art hart => ⟨art, hart, rfl, .refl⟩, ?_, ?_⟩
    · exact fun name bytes hname hbytes => (document_moveTimestamp hname _ w).trans hbytes
    · exact .inr ⟨_, version, htimestamp, hread.timestamp, h.drawn.fresh⟩

theorem ensures_putTimestamp (hread : ReadRelease parse env version targets release)
    (htargets : Targets env [] (published ++ publishPending) targets)
    (hs : Holding i (Prepared parse published publishPending withdrawPending version release) s) :
    (leasing parse env).Ensures i (put (metadataKey "timestamp.json") release.timestampBytes) s
      (fun _ t => Holding i (fun w => Collected published publishPending withdrawPending w ∧
        reach parse w.objects = some (releaseReached env version release)) t)
      fun _ _ => True := by
  have hlasts : Lasts parse
      (Prepared (β := β) parse published publishPending withdrawPending version release) :=
    fun u v hgrows hfrozen h => ⟨h.collected.of_settled hfrozen.settled,
      lasts_drawn version u v hgrows hfrozen h.drawn, (hfrozen.documents _).trans h.targets,
      (hfrozen.documents _).trans h.snapshot⟩
  apply ensures_call
  · intro w hrely hw _
    have hheld := hs.wait hlasts hrely
    exact keeps_moveTimestamp hread htargets hw hheld.lease hheld.known
  · intro w _ hrely _ _ _
    have hheld := hs.wait hlasts hrely
    exact ⟨hheld.lease, hheld.known.collected.of_settled rfl, reach_moveTimestamp hread hheld.known⟩
  · exact fun _ _ _ _ _ => trivial
  · exact fun _ _ _ _ => trivial

/-- The entries of collected targets can be read back. -/
theorem Targets.readable {arts : List Artifact} (h : Targets env [] arts targets) :
    ∀ target ∈ targets, Readable (targetJson target.2) := by
  intro target htarget
  obtain ⟨art, _, _, hentry⟩ := (h.source target htarget).resolve_left List.not_mem_nil
  rw [hentry]
  exact readable_targetJson _ (readable_custom art)

/-- The documents are written under the first version that is free, and then served. -/
theorem ensures_writeRelease (hparse : ReadsBack parse env)
    (hsha : Function.Injective env.sha256Hex) {now : Int}
    (htargets : Targets env [] (published ++ publishPending) targets) (attempts : Nat)
    (hs : Holding i (Collected published publishPending withdrawPending) s) :
    (leasing parse env).Ensures i (writeRelease env config i now targets attempts) s
      (fun _ t => ∃ version release, ReadRelease parse env version targets release ∧
        Holding i (fun w => Collected published publishPending withdrawPending w ∧
          reach parse w.objects = some (releaseReached env version release)) t)
      fun _ _ => True := by
  induction attempts generalizing s with
  | zero => exact ensures_fail trivial
  | succ attempts ih =>
      apply (ensures_nextVersion hs).bind (fun _ _ => id)
      intro version t ht
      -- the text of the documents is read, never computed
      generalize hsigned : signRelease env config.toMetadataKeys version now targets = signed
      refine ensures_ofExcept_bind (fun _ _ => trivial) fun release hrelease => ?_
      rw [hrelease] at hsigned
      have hread : ReadRelease parse env version targets release :=
        readRelease_signRelease hparse htargets.names htargets.readable hsigned
      have hretry : ∀ (e : ServerError) (K : World β → Prop) u, Holding i (fun w =>
            Collected published publishPending withdrawPending w ∧ K w) u →
          (leasing parse env).Ensures i
            (if e.kind = .objectConflict then writeRelease env config i now targets attempts
            else Task.fail e) u
            (fun _ t => ∃ version release, ReadRelease parse env version targets release ∧
              Holding i (fun w => Collected published publishPending withdrawPending w ∧
                reach parse w.objects = some (releaseReached env version release)) t)
            fun _ _ => True := by
        intro e K u hu
        split
        · exact ih ⟨hu.lease, hu.known.1⟩
        · exact ensures_fail trivial
      have hcollected : Lasts parse
          (Collected (β := β) published publishPending withdrawPending) :=
        fun _ _ _ hfrozen h => h.of_settled hfrozen.settled
      have hlasts := hcollected.and (lasts_drawn version)
      have hextends : Extends fun w : World β =>
          Collected published publishPending withdrawPending w ∧ Drawn parse version w :=
        Extends.and (fun _ _ _ _ _ h => h.of_settled rfl) (extends_drawn version)
      have htargetsPut : (leasing parse env).Ensures i (step (putIfAbsentOrSame env.length
          env.sha256Hex (targetsKey version) release.targetsBytes)) t _ _ :=
        ensures_putDocument hsha hlasts hextends (targetsKey_ne_timestampKey version) ht
      apply htargetsPut.outcome.bind (fun _ _ => id)
      intro targetsWritten u hu
      cases targetsWritten with
      | error e => exact hretry e _ u hu
      | ok _ =>
          have hsnapshotPut : (leasing parse env).Ensures i (step (putIfAbsentOrSame env.length
              env.sha256Hex (snapshotKey version) release.snapshotBytes)) u _ _ :=
            ensures_putDocument hsha (hlasts.and lasts_stored) (hextends.and extends_stored)
              (snapshotKey_ne_timestampKey version) hu
          apply hsnapshotPut.outcome.bind (fun _ _ => id)
          intro snapshotWritten v hv
          cases snapshotWritten with
          | error e => exact hretry e (fun _ => True) v ⟨hv.lease, hv.known.1.1, trivial⟩
          | ok _ =>
              obtain ⟨hlease, ⟨⟨hlists, hdrawn⟩, htargetsStored⟩, hsnapshotStored⟩ := hv
              have hprepared : Holding i (Prepared parse published publishPending withdrawPending
                  version release) v :=
                ⟨hlease, hlists, hdrawn, htargetsStored, hsnapshotStored⟩
              apply (ensures_putTimestamp hread htargets hprepared).imp
              · exact fun _ x hx => ⟨version, release, hread, hx⟩
              · exact fun _ _ h => h

end

end Useful.Server.Leasing
