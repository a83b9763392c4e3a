/-
# Content-addressed publication

Published objects have the digest in their key, and what is published for an artifact is
what its inspection and its scan have read, in every run of the service in which nobody
stores other bytes for a session that has been completed. Overlapping uploads into one
session can do that: the digest is checked on the way to the staging key, but the second
upload replaces the bytes of the first, and nothing looks at them again.
-/

import Useful.Server.StagedBytes

namespace Useful.Server

open Useful.Math Discipline

variable {β : Type} {env : External β} {config : Config} {i : Nat} {s : World β}

/-! ## Knowledge -/

/-- A fact that no progress takes back. -/
def Lasting (K : World β → Prop) : Prop := ∀ w w', Progress w w' → K w → K w'

theorem Lasting.and {K L : World β → Prop} (hK : Lasting K) (hL : Lasting L) :
    Lasting fun w => K w ∧ L w :=
  fun w w' hprogress h => ⟨hK w w' hprogress h.1, hL w w' hprogress h.2⟩

/-- Lasting facts are carried along. -/
theorem carry {α : Type} {task : Work β α} {Q : α → World β → Prop} {K : World β → Prop}
    (h : (staging env).Ensures i task s Q fun _ _ => True) (hK : Lasting K) (hs : K s) :
    (staging env).Ensures i task s (fun a t => Q a t ∧ K t) fun _ => K := by
  have hwait : ∀ s t, (staging env).rely i s t → K s → K t := hK
  have hstep : ∀ s t, (staging env).Keeps i s t → K s → K t := fun s t hkeeps =>
    hK s t (progress_of_keeps hkeeps)
  exact (h.frame hwait hstep hs).imp (fun _ _ => id) fun _ _ => And.right

/-- The snapshot of a session is, up to progress, in the table. -/
def KnownUpload (sess : UploadSession) (w : World β) : Prop :=
  ∃ cur ∈ w.uploads.rows, sess.Continues cur

/-- The snapshot of an artifact is, up to progress, in the table, and what it says is
true. -/
def KnownArtifact (art : Artifact) (w : World β) : Prop :=
  (∃ cur ∈ w.artifacts.rows, cur.id = art.id ∧ cur.sha256 = art.sha256) ∧ ArtifactOk w art

theorem lasting_knownUpload (sess : UploadSession) : Lasting (KnownUpload (β := β) sess) := by
  intro w w' hprogress h
  obtain ⟨cur, hcur, hcontinues⟩ := h
  obtain ⟨later, hlater, hlater'⟩ := hprogress.uploads cur hcur
  exact ⟨later, hlater, hcontinues.trans hlater'⟩

theorem lasting_knownArtifact (art : Artifact) : Lasting (KnownArtifact (β := β) art) := by
  intro w w' hprogress h
  obtain ⟨⟨cur, hcur, hid, hsha⟩, hok⟩ := h
  obtain ⟨later, hlater, hid', hsha'⟩ := hprogress.artifacts cur hcur
  exact ⟨⟨later, hlater, hid'.trans hid, hsha'.trans hsha⟩, hok.mono hprogress⟩

theorem lasting_published (sha256 : String) :
    Lasting fun w : World β => ∃ b, w.objects (publishedKey sha256) = some b := by
  intro w w' hprogress h
  obtain ⟨b, hb⟩ := h
  exact ⟨b, hprogress.published _ _ hb⟩

theorem lasting_inspection (id : String) :
    Lasting fun w : World β => ∃ b, (id, b) ∈ w.inspections := by
  intro w w' hprogress h
  obtain ⟨b, hb⟩ := h
  exact ⟨b, hprogress.inspections _ hb⟩

theorem lasting_scan (id : String) : Lasting fun w : World β => ∃ b, (id, b) ∈ w.scans := by
  intro w w' hprogress h
  obtain ⟨b, hb⟩ := h
  exact ⟨b, hprogress.scans _ hb⟩

/-- What the rows say about a known session. -/
theorem KnownUpload.row {sess : UploadSession} {w : World β} (h : KnownUpload sess w) : ∀ cur ∈ w.uploads.rows, cur.id = sess.id →
      sess.Continues cur := by
  intro cur hcur hid
  obtain ⟨cur', hcur', hcontinues⟩ := h
  rw [Table.eq_of_key_eq hcur hcur' (hid.trans hcontinues.id.symm)]
  exact hcontinues

theorem KnownUpload.stagingKey_eq {sess : UploadSession} {w : World β} (h : KnownUpload sess w)
    (hw : Consistent env w) : sess.stagingKey = stagingKey sess.id := by
  obtain ⟨cur, hcur, hcontinues⟩ := h
  rw [← hcontinues.stagingKey, ← hcontinues.id]
  exact (hw.session cur hcur).1

/-- The staged bytes of a known claimed session have its digest. -/
theorem KnownUpload.staged {sess : UploadSession} {w : World β} (h : KnownUpload sess w)
    (hw : Consistent env w) (hclaimed : sess.status = .releaseClaimed) {b : β}
    (hb : w.objects sess.stagingKey = some b) : env.sha256Hex b = sess.declaredSHA256 := by
  obtain ⟨cur, hcur, hcontinues⟩ := h
  rw [← hcontinues.declaredSHA256]
  apply hw.staged cur hcur (.inr (hcontinues.claimed hclaimed)) b
  rw [hcontinues.stagingKey]
  exact hb

/-! ## Calls -/

theorem ensures_reading {α : Type} {f : World β → Except ServerError α} {Q : α → World β → Prop}
    (h : ∀ t a, Consistent env t → f t = .ok a → Q a t) :
    (staging env).Ensures i (step (reading f)) s Q fun _ _ => True :=
  ensures_call (fun _ _ ht _ => keeps_refl ht) (fun t a _ ht _ hf => h t a ht hf)
    (fun _ _ _ _ _ => trivial) fun _ _ _ _ => trivial

theorem steady_reading {α : Type} (f : World β → Except ServerError α) :
    (staging env).Steady i (step (reading f)) :=
  fun _ => ensures_reading fun _ _ _ _ => trivial

theorem ensures_getUpload {id : String} : (staging env).Ensures i (step (getUpload id)) s
    (fun sess t => KnownUpload sess t) fun _ _ => True := by
  apply ensures_reading
  intro t sess _ h
  exact ⟨sess, (Table.find_eq_some.mp (orFail_eq_ok.mp h)).1, .refl sess⟩

theorem ensures_getArtifact {id : String} : (staging env).Ensures i (step (getArtifact id)) s
    (fun art t => KnownArtifact art t ∧ art.id = id) fun _ _ => True := by
  apply ensures_reading
  intro t art ht h
  obtain ⟨hmem, hid⟩ := Table.find_eq_some.mp (orFail_eq_ok.mp h)
  exact ⟨⟨⟨art, hmem, rfl, rfl⟩, ht.artifact art hmem⟩, hid⟩

/-- The session of an artifact is claimed and declares its digest. -/
theorem ensures_getByArtifact {id : String} (hid : id ≠ "") :
    (staging env).Ensures i (step (getByArtifact id)) s
      (fun sess t => KnownUpload sess t ∧ sess.status = .releaseClaimed ∧
        sess.artifactID = id ∧ Bound t sess) fun _ _ => True := by
  apply ensures_reading
  intro t sess ht h
  have hfind := orFail_eq_ok.mp h
  have hmem := List.mem_of_find?_eq_some hfind
  have hartifact : sess.artifactID = id := by simpa using List.find?_some hfind
  have hbound := ht.bound sess hmem (by rw [hartifact]; exact hid)
  exact ⟨⟨sess, hmem, .refl sess⟩, hbound.1, hartifact, hbound.2⟩

/-- Updates keep what was declared and bind only artifacts with the declared digest. -/
theorem keeps_updateUpload {sess : UploadSession} {w : World β} (h : Consistent env w)
    (hguard : StoresDeclared env (.updateUpload sess) w)
    (hknown : ∀ cur ∈ w.uploads.rows, cur.id = sess.id →
      cur.stagingKey = sess.stagingKey ∧ cur.declaredSHA256 = sess.declaredSHA256)
    (hbound : sess.artifactID ≠ "" → Bound w sess) :
    (staging env).Keeps i w (updateUpload sess w).2 := by
  unfold updateUpload
  cases hfind : w.uploads.find sess.id with
  | none => exact keeps_refl h
  | some cur =>
      simp only
      by_cases hallowed : uploadAllowed cur sess = true
      · rw [if_pos hallowed]
        obtain ⟨hcur, hid⟩ := Table.find_eq_some.mp hfind
        have hsame := hknown cur hcur hid
        have hsession := h.session cur hcur
        rw [hsame.1, hsame.2, hid] at hsession
        simp only [uploadAllowed, Bool.or_eq_true, Bool.and_eq_true, beq_iff_eq, bne_iff_ne]
          at hallowed
        have hcontinues : (cur.status = .releaseClaimed → sess.status = .releaseClaimed) →
            (cur.artifactID ≠ "" → sess.artifactID = cur.artifactID) →
            ∀ cur' ∈ w.uploads.rows, cur'.id = sess.id → cur'.Continues sess := by
          intro hclaimed hartifact cur' hcur' hid'
          rw [Table.eq_of_key_eq hcur' hcur (hid'.trans hid.symm)]
          exact ⟨hid.symm, hsame.1.symm, hsame.2.symm, hclaimed, hartifact⟩
        rcases hallowed with (hrefresh | hclose) | hrelease
        · have hunbound : sess.artifactID = "" := by
            by_contra hne
            exact hrefresh.1.2 (h.bound cur hcur (by rw [hrefresh.2]; exact hne)).1
          apply keeps_putUpload h hsession
          · intro hcomplete
            apply hguard
            apply hcomplete.resolve_right
            rw [← hrefresh.1.1]
            exact hrefresh.1.2
          · exact fun hne => absurd hunbound hne
          · exact hcontinues (fun hclaimed => absurd hclaimed hrefresh.1.2)
              fun _ => hrefresh.2.symm
        · have hopen : cur.status ≠ .releaseClaimed := by
            rw [hclose.1.1]
            simp
          apply keeps_putUpload h hsession
          · intro hcomplete
            apply hguard
            apply hcomplete.resolve_right
            intro hclaimed
            rw [hclaimed] at hclose
            simp at hclose
          · exact fun hne => absurd hclose.2 hne
          · exact hcontinues (fun hclaimed => absurd hclaimed hopen)
              fun hne => absurd (h.bound cur hcur hne).1 hopen
        · apply keeps_putUpload h hsession
          · intro _ b hb
            rw [← hsame.2]
            exact h.staged cur hcur (.inr hrelease.1.1) b (by rw [hsame.1]; exact hb)
          · exact fun hne => ⟨hrelease.1.2, hbound hne⟩
          · exact hcontinues (fun _ => hrelease.1.2)
              fun hne => (hrelease.2.resolve_left hne).symm
      · rw [if_neg hallowed]
        exact keeps_refl h

/-- A known session binds no artifact it has not been released as. -/
theorem KnownUpload.bound {sess : UploadSession} {w : World β} (h : KnownUpload sess w)
    (hw : Consistent env w) (hne : sess.artifactID ≠ "") : Bound w sess := by
  obtain ⟨cur, hcur, hcontinues⟩ := h
  have hsame := hcontinues.artifactID hne
  have hbound := (hw.bound cur hcur (by rw [hsame]; exact hne)).2
  exact hbound.of_eq hcontinues.id.symm hcontinues.declaredSHA256.symm hsame.symm

/-- Updating a known session, except to bind an artifact. -/
theorem steady_update {sess next : UploadSession} (hid : next.id = sess.id)
    (hkey : next.stagingKey = sess.stagingKey)
    (hdeclared : next.declaredSHA256 = sess.declaredSHA256)
    (hartifact : next.artifactID = sess.artifactID) (hs : KnownUpload sess s) :
    (staging env).Ensures i (update next) s (fun _ _ => True) fun _ _ => True := by
  apply ensures_call
  · intro t hrely ht hguard
    have hknown := lasting_knownUpload sess s t hrely hs
    apply keeps_updateUpload ht hguard
    · intro cur hcur hcurId
      have hcontinues := hknown.row cur hcur (hcurId.trans hid)
      exact ⟨hcontinues.stagingKey.trans hkey.symm, hcontinues.declaredSHA256.trans hdeclared.symm⟩
    · intro hne
      rw [hartifact] at hne
      exact (hknown.bound ht hne).of_eq hid hdeclared hartifact
  · exact fun _ _ _ _ _ _ => trivial
  · exact fun _ _ _ _ _ => trivial
  · exact fun _ _ _ _ => trivial

/-- Binding an artifact with the declared digest to a known session that has been
inspected. -/
theorem ensures_bindArtifact {sess : UploadSession} {artifactID : String}
    (hs : KnownUpload sess s) (hbound : Bound s { sess with artifactID := artifactID }) :
    (staging env).Ensures i (update { sess with artifactID := artifactID }) s (fun _ _ => True)
      fun _ _ => True := by
  apply ensures_call
  · intro t hrely ht hguard
    have hknown := lasting_knownUpload sess s t hrely hs
    apply keeps_updateUpload ht hguard
    · intro cur hcur hcurId
      have hcontinues := hknown.row cur hcur hcurId
      exact ⟨hcontinues.stagingKey, hcontinues.declaredSHA256⟩
    · exact fun _ => hbound.mono hrely
  · exact fun _ _ _ _ _ _ => trivial
  · exact fun _ _ _ _ _ => trivial
  · exact fun _ _ _ _ => trivial

theorem ensures_claimCompleted {id : String} :
    (staging env).Ensures i (step (claimCompleted id)) s
      (fun sess t => KnownUpload sess t ∧ sess.status = .releaseClaimed ∧
        isSHA256 sess.declaredSHA256 = true) fun _ _ => True := by
  apply ensures_call
  · intro t _ ht _
    unfold claimCompleted
    cases hfind : t.uploads.find id with
    | none => exact keeps_refl ht
    | some sess =>
        simp only
        by_cases hstatus : sess.status ≠ .completed
        · rw [if_pos hstatus]
          exact keeps_refl ht
        · rw [if_neg hstatus]
          have hcompleted := not_not.mp hstatus
          have hmem := (Table.find_eq_some.mp hfind).1
          have hunbound : sess.artifactID = "" := by
            by_contra hne
            rw [(ht.bound sess hmem hne).1] at hcompleted
            cases hcompleted
          have hsession : ∀ claimed : UploadSession,
              claimed = { sess with status := .releaseClaimed } →
              claimed.stagingKey = stagingKey claimed.id ∧
                isSHA256 claimed.declaredSHA256 = true := by
            intro claimed heq
            rw [heq]
            exact ht.session sess hmem
          apply keeps_putUpload ht (hsession _ rfl)
          · exact fun _ => ht.staged sess hmem (.inl hcompleted)
          · exact fun hne => absurd hunbound hne
          · intro cur hcur hid
            rw [Table.eq_of_key_eq hcur hmem hid]
            exact ⟨rfl, rfl, rfl, fun _ => rfl, fun _ => rfl⟩
  · intro t sess _ ht _ hok
    unfold claimCompleted at hok ⊢
    cases hfind : t.uploads.find id with
    | none =>
        rw [hfind] at hok
        cases hok
    | some row =>
        simp only [hfind] at hok ⊢
        by_cases hstatus : row.status ≠ .completed
        · rw [if_pos hstatus] at hok
          cases hok
        · rw [if_neg hstatus] at hok ⊢
          cases hok
          have hsha := (ht.session row (Table.find_eq_some.mp hfind).1).2
          exact ⟨⟨_, Table.mem_put.mpr (.inl rfl), .refl _⟩, rfl, hsha⟩
  · exact fun _ _ _ _ _ => trivial
  · exact fun _ _ _ _ => trivial

/-- The inspection reads bytes with the declared digest. -/
theorem ensures_readForInspection {sess : UploadSession} (hs : KnownUpload sess s)
    (hclaimed : sess.status = .releaseClaimed) :
    (staging env).Ensures i (step (readForInspection sess)) s
      (fun _ t => ∃ b, (sess.id, b) ∈ t.inspections) fun _ _ => True := by
  apply ensures_call
  · intro t hrely ht _
    have hknown := lasting_knownUpload sess s t hrely hs
    unfold readForInspection
    cases hobject : t.objects sess.stagingKey with
    | none => exact keeps_refl ht
    | some content =>
        have hprogress : Progress t
            { t with inspections := (sess.id, content) :: t.inspections } :=
          ⟨fun cur hmem => ⟨cur, hmem, .refl cur⟩, fun art hmem => ⟨art, hmem, rfl, rfl⟩,
            fun _ _ hb => hb, fun _ hr => List.mem_cons_of_mem _ hr, fun _ hr => hr⟩
        apply keeps_of_progress _ hprogress
        refine ⟨ht.session, ht.staged, ?_, ?_, ht.scanned, ?_, ht.published⟩
        · intro cur hcur hne
          exact ⟨(ht.bound cur hcur hne).1, (ht.bound cur hcur hne).2.mono hprogress⟩
        · intro id b hread
          cases List.mem_cons.mp hread with
          | inl heq =>
              cases heq
              have hsha := hknown.staged ht hclaimed hobject
              obtain ⟨cur, hcur, hcontinues⟩ := hknown
              exact ⟨cur, hcur, hcontinues.id, hsha.trans hcontinues.declaredSHA256.symm⟩
          | inr hold => exact ht.inspected id b hold
        · exact fun art hmem => (ht.artifact art hmem).mono hprogress
  · intro t content _ _ _ hok
    unfold readForInspection at hok ⊢
    cases hobject : t.objects sess.stagingKey with
    | none =>
        rw [hobject] at hok
        cases hok
    | some b => exact ⟨b, List.mem_cons_self⟩
  · exact fun _ _ _ _ _ => trivial
  · exact fun _ _ _ _ => trivial

/-- The scan reads bytes with the digest of the artifact. -/
theorem ensures_readForScan {art : Artifact} {sess : UploadSession} (hart : KnownArtifact art s)
    (hs : KnownUpload sess s) (hclaimed : sess.status = .releaseClaimed)
    (hsha : art.sha256 = sess.declaredSHA256) :
    (staging env).Ensures i (step (readForScan art.id sess.stagingKey)) s
      (fun _ t => ∃ b, (art.id, b) ∈ t.scans) fun _ _ => True := by
  apply ensures_call
  · intro t hrely ht _
    have hknown := lasting_knownUpload sess s t hrely hs
    have hknown' := lasting_knownArtifact art s t hrely hart
    unfold readForScan
    cases hobject : t.objects sess.stagingKey with
    | none => exact keeps_refl ht
    | some content =>
        have hprogress : Progress t { t with scans := (art.id, content) :: t.scans } :=
          ⟨fun cur hmem => ⟨cur, hmem, .refl cur⟩, fun art hmem => ⟨art, hmem, rfl, rfl⟩,
            fun _ _ hb => hb, fun _ hr => hr, fun _ hr => List.mem_cons_of_mem _ hr⟩
        apply keeps_of_progress _ hprogress
        refine ⟨ht.session, ht.staged, ht.bound, ht.inspected, ?_, ?_, ht.published⟩
        · intro id b hread
          cases List.mem_cons.mp hread with
          | inl heq =>
              cases heq
              have hstaged := hknown.staged ht hclaimed hobject
              obtain ⟨cur, hcur, hcurId, hcurSha⟩ := hknown'.1
              exact ⟨cur, hcur, hcurId, hstaged.trans (hsha.symm.trans hcurSha.symm)⟩
          | inr hold => exact ht.scanned id b hold
        · exact fun art hmem => (ht.artifact art hmem).mono hprogress
  · intro t content _ _ _ hok
    unfold readForScan at hok ⊢
    cases hobject : t.objects sess.stagingKey with
    | none =>
        rw [hobject] at hok
        cases hok
    | some b => exact ⟨b, List.mem_cons_self⟩
  · exact fun _ _ _ _ _ => trivial
  · exact fun _ _ _ _ => trivial

/-! ## Calls on artifacts -/

/-- A fresh row with a digest is created. -/
theorem ensures_createArtifact {art : Artifact} (hid : art.id ≠ "")
    (hsha : isSHA256 art.sha256 = true) (hstatus : art.status = .staged) :
    (staging env).Ensures i (step (createArtifact art)) s
      (fun _ t => ∃ cur ∈ t.artifacts.rows, cur.id = art.id ∧ cur.sha256 = art.sha256)
      fun _ _ => True := by
  have hok : ∀ w : World β, ArtifactOk w art := fun w =>
    ⟨hid, hsha, fun hne => absurd hstatus hne, fun hreleased => by
      rw [hstatus] at hreleased
      cases hreleased⟩
  apply ensures_call
  · intro t _ ht _
    unfold createArtifact
    cases hfind : t.artifacts.find art.id with
    | some existing => exact keeps_refl ht
    | none =>
        simp only
        by_cases htaken : identityTaken t art = true
        · rw [if_pos htaken]
          exact keeps_refl ht
        · rw [if_neg htaken]
          apply keeps_putArtifact ht (hok t)
          exact fun cur hcur hcurId => absurd hcurId (Table.find_eq_none.mp hfind cur hcur)
  · intro t _ _ _ _ hcreated
    unfold createArtifact at hcreated ⊢
    cases hfind : t.artifacts.find art.id with
    | some existing =>
        rw [hfind] at hcreated
        cases hcreated
    | none =>
        simp only [hfind] at hcreated ⊢
        by_cases htaken : identityTaken t art = true
        · rw [if_pos htaken] at hcreated
          cases hcreated
        · rw [if_neg htaken]
          exact ⟨art, Table.mem_put.mpr (.inl rfl), rfl, rfl⟩
  · exact fun _ _ _ _ _ => trivial
  · exact fun _ _ _ _ => trivial

/-- A known artifact may be updated to a row that is right. -/
theorem ensures_updateArtifact {art next : Artifact} (hart : KnownArtifact art s)
    (hid : next.id = art.id) (hsha : next.sha256 = art.sha256) (hnext : ArtifactOk s next) :
    (staging env).Ensures i (step (updateArtifact next)) s (fun _ _ => True) fun _ _ => True := by
  apply ensures_call
  · intro t hrely ht _
    have hknown := lasting_knownArtifact art s t hrely hart
    unfold updateArtifact
    cases hfind : t.artifacts.find next.id with
    | none => exact keeps_refl ht
    | some current =>
        simp only
        by_cases hallowed : canTransition current.status next.status = true
        · rw [if_pos hallowed]
          apply keeps_putArtifact ht (hnext.mono hrely)
          intro cur hcur hcurId
          obtain ⟨row, hrow, hrowId, hrowSha⟩ := hknown.1
          rw [Table.eq_of_key_eq hcur hrow (hcurId.trans (hid.trans hrowId.symm)), hrowSha, hsha]
        · rw [if_neg hallowed]
          exact keeps_refl ht
  · exact fun _ _ _ _ _ _ => trivial
  · exact fun _ _ _ _ _ => trivial
  · exact fun _ _ _ _ => trivial

/-- Only released artifacts go on to the later states. -/
theorem isReleased_of_canTransition {source target : ArtifactStatus}
    (h : canTransition source target = true) (hreleased : target.isReleased = true)
    (hne : target ≠ .publishPending) : source.isReleased = true := by
  revert h hreleased hne
  cases source <;> cases target <;> decide

theorem ArtifactOk.withStatus {art : Artifact} {w : World β} (h : ArtifactOk w art)
    {status : ArtifactStatus} {publishedAt : Option Int}
    (hallowed : canTransition art.status status = true)
    (hstatus : status = .rejected ∨ (status.isReleased = true ∧ status ≠ .publishPending)) :
    ArtifactOk w (withStatus art status publishedAt) := by
  refine ⟨h.id_ne, h.sha256, ?_, ?_⟩
  · intro _ hrejected
    have hlater := hstatus.resolve_left hrejected
    have hreleased := isReleased_of_canTransition hallowed hlater.1 hlater.2
    apply h.scanned
    · intro hstaged
      rw [hstaged] at hreleased
      cases hreleased
    · intro hstaged
      rw [hstaged] at hreleased
      cases hreleased
  · intro hreleased
    have hne : status ≠ .rejected := by
      intro heq
      have hstatus' : status.isReleased = true := hreleased
      rw [heq] at hstatus'
      cases hstatus'
    have hlater := hstatus.resolve_left hne
    exact h.released (isReleased_of_canTransition hallowed hlater.1 hlater.2)

theorem steady_updateStatus {id : String} {status : ArtifactStatus} {publishedAt : Option Int}
    (hstatus : status = .rejected ∨ (status.isReleased = true ∧ status ≠ .publishPending)) :
    (staging env).Steady i (step (updateStatus id status publishedAt)) := by
  apply steady_call
  intro t ht _
  unfold updateStatus
  cases hfind : t.artifacts.find id with
  | none => exact keeps_refl ht
  | some current =>
      simp only
      by_cases hallowed : canTransition current.status status = true
      · rw [if_pos hallowed]
        have hmem := (Table.find_eq_some.mp hfind).1
        apply keeps_putArtifact ht ((ht.artifact current hmem).withStatus hallowed hstatus)
        intro cur hcur hcurId
        rw [Table.eq_of_key_eq hcur hmem hcurId]
        rfl
      · rw [if_neg hallowed]
        exact keeps_refl ht

/-! ## Calls that matter to nobody here -/

theorem steady_deleteStaging (key : String) :
    (staging env).Steady i (step (deleteStaging key)) :=
  steady_call fun _ ht _ => keeps_deleteStaging ht

theorem steady_upsertTool (tool : Tool) : (staging env).Steady i (step (upsertTool tool)) :=
  steady_call fun _ ht _ => keeps_of_eq ht rfl rfl rfl rfl rfl

theorem steady_enqueue (job : Job) : (staging env).Steady i (step (enqueue job)) := by
  apply steady_call
  intro t ht _
  unfold enqueue
  split
  · exact keeps_refl ht
  · exact keeps_of_eq ht rfl rfl rfl rfl rfl

theorem steady_acquirePublishLease (task : Nat) :
    (staging env).Steady i (step (acquirePublishLease task)) := by
  apply steady_call
  intro t ht _
  unfold acquirePublishLease
  split
  · exact keeps_refl ht
  · exact keeps_of_eq ht rfl rfl rfl rfl rfl

theorem steady_releaseLease (task : Nat) :
    (staging env).Steady i (step (releaseLease task)) := by
  apply steady_call
  intro t ht _
  unfold releaseLease
  split
  · exact keeps_of_eq ht rfl rfl rfl rfl rfl
  · exact keeps_refl ht

theorem steady_nextVersion (task : Nat) (candidate : Int) :
    (staging env).Steady i (step (nextVersion task candidate)) := by
  apply steady_call
  intro t ht _
  unfold nextVersion
  split
  · exact keeps_refl ht
  · split
    · exact keeps_refl ht
    · exact keeps_of_eq ht rfl rfl rfl rfl rfl

/-- Metadata lies apart from staged and published objects. -/
theorem steady_putMetadata (name : String) (content : β) :
    (staging env).Steady i (step (putIfAbsentOrSame env.length env.sha256Hex (metadataKey name)
      content)) := by
  apply steady_call
  intro t ht _
  unfold putIfAbsentOrSame
  cases hold : t.objects (metadataKey name) with
  | some existing =>
      simp only
      split
      · exact keeps_refl ht
      · exact keeps_refl ht
  | none =>
      apply keeps_objects ht
      · intro sha256
        exact Function.update_of_ne (metadataKey_ne_publishedKey name sha256).symm _ _
      · intro sess hmem hcomplete b hb
        have hne : sess.stagingKey ≠ metadataKey name := by
          rw [(ht.session sess hmem).1]
          exact stagingKey_ne_metadataKey _ _
        rw [Function.update_of_ne hne] at hb
        exact ht.staged sess hmem hcomplete b hb

/-! ## Staged bytes -/

/-- A session is opened for its own staging key. -/
theorem steady_createUpload {sess : UploadSession} (hkey : sess.stagingKey = stagingKey sess.id)
    (hsha : isSHA256 sess.declaredSHA256 = true) (hopen : sess.status = .open)
    (hartifact : sess.artifactID = "") : (staging env).Steady i (step (createUpload sess)) := by
  apply steady_call
  intro t ht _
  unfold createUpload
  cases hfind : t.uploads.find sess.id with
  | some existing => exact keeps_refl ht
  | none =>
      apply keeps_putUpload ht ⟨hkey, hsha⟩
      · intro hcomplete
        simp [UploadSession.isComplete, hopen] at hcomplete
      · exact fun hne => absurd hartifact hne
      · exact fun cur hcur hid => absurd hid (Table.find_eq_none.mp hfind cur hcur)

theorem ensures_putStaged {sess : UploadSession} {content : β} (hs : KnownUpload sess s) :
    (staging env).Ensures i (put sess.stagingKey content) s (fun _ _ => True)
      fun _ _ => True := by
  apply ensures_call
  · intro t hrely ht hguard
    apply keeps_putObject ht hguard
    intro sha256
    rw [(lasting_knownUpload sess s t hrely hs).stagingKey_eq ht]
    exact stagingKey_ne_publishedKey _ _
  · exact fun _ _ _ _ _ _ => trivial
  · exact fun _ _ _ _ _ => trivial
  · exact fun _ _ _ _ => trivial

theorem ensures_getStaged {sess : UploadSession} (hs : KnownUpload sess s)
    (hclaimed : sess.status = .releaseClaimed) :
    (staging env).Ensures i (step (getObject sess.stagingKey)) s
      (fun content _ => env.sha256Hex content = sess.declaredSHA256 ∧
        isSHA256 sess.declaredSHA256 = true) fun _ _ => True := by
  apply ensures_call
  · exact fun t _ ht _ => keeps_refl ht
  · intro t content hrely ht _ hok
    have hknown := lasting_knownUpload sess s t hrely hs
    refine ⟨hknown.staged ht hclaimed (orFail_eq_ok.mp hok), ?_⟩
    obtain ⟨cur, hcur, hcontinues⟩ := hknown
    rw [← hcontinues.declaredSHA256]
    exact (ht.session cur hcur).2
  · exact fun _ _ _ _ _ => trivial
  · exact fun _ _ _ _ => trivial

/-- What is published stays, whether these bytes or those that were there. -/
theorem exists_of_putIfAbsentOrSame {length : β → Nat} {sha256Hex : β → String} {key : String}
    {content : β} {w : World β}
    (h : (putIfAbsentOrSame length sha256Hex key content w).1 = .ok ()) :
    ∃ b, (putIfAbsentOrSame length sha256Hex key content w).2.objects key = some b := by
  unfold putIfAbsentOrSame at h ⊢
  cases hold : w.objects key with
  | none => exact ⟨content, Function.update_self _ _ _⟩
  | some existing =>
      simp only [hold] at h ⊢
      split at h
      · rw [if_pos ‹_›]
        exact ⟨existing, hold⟩
      · cases h

theorem ensures_publish {sha256 : String} {content : β} (hsha : isSHA256 sha256 = true)
    (hcontent : env.sha256Hex content = sha256) :
    (staging env).Ensures i
      (step (putIfAbsentOrSame env.length env.sha256Hex (publishedKey sha256) content)) s
      (fun _ t => ∃ b, t.objects (publishedKey sha256) = some b) fun _ _ => True := by
  apply ensures_call
  · exact fun u _ hu _ => keeps_publish hu hsha hcontent
  · exact fun u _ _ _ _ hok => exists_of_putIfAbsentOrSame hok
  · exact fun _ _ _ _ _ => trivial
  · exact fun _ _ _ _ => trivial

/-- The bytes of a claimed session are published under the digest it declares. -/
theorem ensures_copyToPublished {sess : UploadSession} (hs : KnownUpload sess s)
    (hclaimed : sess.status = .releaseClaimed) :
    (staging env).Ensures i
      (copyToPublished env sess.stagingKey (publishedKey sess.declaredSHA256)) s
      (fun _ t => ∃ b, t.objects (publishedKey sess.declaredSHA256) = some b)
      fun _ _ => True := by
  have hpublish := fun content (hcontent : env.sha256Hex content = sess.declaredSHA256) t hsha =>
    ensures_publish (i := i) (s := t) hsha hcontent
  -- a variable in place of the key keeps the checks on it from being evaluated
  generalize publishedKey sess.declaredSHA256 = key at *
  unfold copyToPublished
  refine ensures_ofExcept_bind (fun _ _ => trivial) fun _ _ => ?_
  refine ensures_ofExcept_bind (fun _ _ => trivial) fun _ _ => ?_
  refine (ensures_getStaged hs hclaimed).bind (fun _ _ => id) fun content t hcontent => ?_
  exact hpublish content hcontent.1 t hcontent.2

theorem steady_putTimestamp (content : β) :
    (staging env).Steady i (put (metadataKey "timestamp.json") content) :=
  steady_call fun _ ht hguard => keeps_putObject ht hguard (metadataKey_ne_publishedKey _)

end Useful.Server
