/-
# Staged and published bytes

What uploads, inspections, scans and publications do to the bytes of a release. The
sessions, artifacts and published objects only ever progress: nothing that another task
may have seen is taken back. As long as nobody stores other bytes for a session that has
been completed, the staged bytes of such a session have the declared digest, and so does
everything that is read from there.
-/

import Useful.Server.Publishers

namespace Useful.Server

open Useful.Math

/-! ## Keys -/

theorem toList_publishedKey (sha256 : String) :
    (publishedKey sha256).toList = "artifacts/sha256/".toList ++ (sha256.toList.take 2 ++ '/' ::
      ((sha256.toList.drop 2).take 2 ++ '/' :: sha256.toList)) := by
  have htext : ∀ (a c e : String) (x y : List Char),
      (a ++ (String.ofList x ++ c ++ (String.ofList y ++ c ++ e))).toList =
        a.toList ++ (x ++ (c.toList ++ (y ++ (c.toList ++ e.toList)))) := by
    intro a c e x y
    simp only [String.toList_append, String.toList_ofList, List.append_assoc]
  have hslash : "/".toList = ['/'] := rfl
  have hkey := htext "artifacts/sha256/" "/" sha256 (sha256.toList.take 2)
    ((sha256.toList.drop 2).take 2)
  rw [hslash] at hkey
  exact hkey

/-- A digest is read off its published key. -/
theorem publishedKey_inj {h sha256 : String} (hsha : isSHA256 sha256 = true)
    (heq : publishedKey h = publishedKey sha256) : h = sha256 := by
  have hlist := congrArg String.toList heq
  rw [toList_publishedKey, toList_publishedKey] at hlist
  have hrest := List.append_cancel_left hlist
  simp only [isSHA256, Bool.and_eq_true, beq_iff_eq] at hsha
  have hlength := congrArg List.length hrest
  simp only [List.length_append, List.length_cons, List.length_take, List.length_drop, hsha.1]
    at hlength
  have hsame : h.toList.length = 64 := by omega
  have hdrop := congrArg (List.drop 6) hrest
  have hsix : ∀ digits : List Char, digits.length = 64 →
      (digits.take 2 ++ '/' :: ((digits.drop 2).take 2 ++ '/' :: digits)).drop 6 = digits := by
    intro digits hdigits
    rw [List.drop_append, List.drop_of_length_le (by simp)]
    have htwo : 6 - (digits.take 2).length = 4 := by
      rw [List.length_take, hdigits]
      rfl
    have hlen : ((digits.drop 2).take 2).length = 2 := by
      rw [List.length_take, List.length_drop, hdigits]
      rfl
    rw [htwo, List.nil_append, List.drop_succ_cons, List.drop_append,
      List.drop_of_length_le (by omega), hlen]
    rfl
  rw [hsix _ hsame, hsix _ hsha.1] at hdrop
  exact String.toList_inj.mp hdrop

/-- A key that begins with another letter is no published key. -/
theorem ne_publishedKey {key : String} {c : Char} {text rest : List Char}
    (h : key.toList = text ++ rest) (hhead : text.head? = some c) (hc : c ≠ 'a')
    (sha256 : String) : key ≠ publishedKey sha256 := by
  intro heq
  have hlist := congrArg (fun k => k.toList.head?) heq
  have hartifacts : "artifacts/sha256/".toList.head? = some 'a' := by decide
  simp only [h, toList_publishedKey, List.head?_append, hhead, hartifacts] at hlist
  exact hc (Option.some.inj hlist)

theorem head_staging : "staging/".toList.head? = some 's' := by decide

theorem head_metadata : "metadata/".toList.head? = some 'm' := by decide

theorem stagingKey_ne_publishedKey (id sha256 : String) : stagingKey id ≠ publishedKey sha256 :=
  ne_publishedKey String.toList_append head_staging (by decide) sha256

theorem metadataKey_ne_publishedKey (name sha256 : String) :
    metadataKey name ≠ publishedKey sha256 :=
  ne_publishedKey String.toList_append head_metadata (by decide) sha256

theorem stagingKey_ne_metadataKey (id name : String) : stagingKey id ≠ metadataKey name := by
  intro heq
  have hlist := congrArg (fun k => k.toList.head?) heq
  simp only [stagingKey, metadataKey, String.toList_append, List.head?_append, head_staging,
    head_metadata] at hlist
  exact absurd (Option.some.inj hlist) (by decide)

/-- Staging keys, and no others, may be deleted. -/
theorem ne_publishedKey_of_isStagingKey {key : String} (h : isStagingKey key = true)
    (sha256 : String) : key ≠ publishedKey sha256 := by
  simp only [isStagingKey, Bool.and_eq_true] at h
  obtain ⟨rest, hrest⟩ := List.isPrefixOf_iff_prefix.mp h.2
  exact ne_publishedKey hrest.symm head_staging (by decide) sha256

/-! ## Progress -/

variable {β : Type}

/-- A later row of the same session: what was declared stays, a claim stays, and so does
the artifact of a release. -/
structure UploadSession.Continues (sess later : UploadSession) : Prop where
  id : later.id = sess.id
  stagingKey : later.stagingKey = sess.stagingKey
  declaredSHA256 : later.declaredSHA256 = sess.declaredSHA256
  claimed : sess.status = .releaseClaimed → later.status = .releaseClaimed
  artifactID : sess.artifactID ≠ "" → later.artifactID = sess.artifactID

theorem UploadSession.Continues.refl (sess : UploadSession) : sess.Continues sess :=
  ⟨rfl, rfl, rfl, fun h => h, fun _ => rfl⟩

theorem UploadSession.Continues.trans {a b c : UploadSession} (hab : a.Continues b)
    (hbc : b.Continues c) : a.Continues c where
  id := hbc.id.trans hab.id
  stagingKey := hbc.stagingKey.trans hab.stagingKey
  declaredSHA256 := hbc.declaredSHA256.trans hab.declaredSHA256
  claimed h := hbc.claimed (hab.claimed h)
  artifactID h := (hbc.artifactID (by rw [hab.artifactID h]; exact h)).trans (hab.artifactID h)

/-- Nothing that was seen is taken back. -/
structure Progress (w w' : World β) : Prop where
  uploads : ∀ sess ∈ w.uploads.rows, ∃ later ∈ w'.uploads.rows, sess.Continues later
  artifacts : ∀ art ∈ w.artifacts.rows, ∃ later ∈ w'.artifacts.rows,
    later.id = art.id ∧ later.sha256 = art.sha256
  published : ∀ h b, w.objects (publishedKey h) = some b → w'.objects (publishedKey h) = some b
  inspections : ∀ read ∈ w.inspections, read ∈ w'.inspections
  scans : ∀ read ∈ w.scans, read ∈ w'.scans

theorem Progress.refl (w : World β) : Progress w w where
  uploads sess hmem := ⟨sess, hmem, .refl sess⟩
  artifacts art hmem := ⟨art, hmem, rfl, rfl⟩
  published _ _ h := h
  inspections _ h := h
  scans _ h := h

theorem Progress.trans {u v w : World β} (huv : Progress u v) (hvw : Progress v w) :
    Progress u w where
  uploads sess hmem := by
    obtain ⟨mid, hmid, hcontinues⟩ := huv.uploads sess hmem
    obtain ⟨later, hlater, hcontinues'⟩ := hvw.uploads mid hmid
    exact ⟨later, hlater, hcontinues.trans hcontinues'⟩
  artifacts art hmem := by
    obtain ⟨mid, hmid, hid, hsha⟩ := huv.artifacts art hmem
    obtain ⟨later, hlater, hid', hsha'⟩ := hvw.artifacts mid hmid
    exact ⟨later, hlater, hid'.trans hid, hsha'.trans hsha⟩
  published h b hb := hvw.published h b (huv.published h b hb)
  inspections read hread := hvw.inspections read (huv.inspections read hread)
  scans read hread := hvw.scans read (huv.scans read hread)

/-- Changes of other parts of the world. -/
theorem Progress.of_eq {w w' : World β} (huploads : w'.uploads = w.uploads)
    (hartifacts : w'.artifacts = w.artifacts) (hobjects : w'.objects = w.objects)
    (hinspections : w'.inspections = w.inspections) (hscans : w'.scans = w.scans) :
    Progress w w' where
  uploads sess hmem := ⟨sess, huploads ▸ hmem, .refl sess⟩
  artifacts art hmem := ⟨art, hartifacts ▸ hmem, rfl, rfl⟩
  published _ _ h := hobjects ▸ h
  inspections _ h := hinspections ▸ h
  scans _ h := hscans ▸ h

/-! ## The invariant -/

/-- The artifact has a session, of which the inspection has read the bytes. -/
def Inspected (w : World β) (artifactID : String) : Prop :=
  ∃ sess ∈ w.uploads.rows, sess.artifactID = artifactID ∧ ∃ b, (sess.id, b) ∈ w.inspections

/-- What a row of an artifact says about the world. -/
structure ArtifactOk (w : World β) (art : Artifact) : Prop where
  id_ne : art.id ≠ ""
  sha256 : isSHA256 art.sha256 = true
  scanned : art.status ≠ .staged → art.status ≠ .rejected →
    Inspected w art.id ∧ ∃ b, (art.id, b) ∈ w.scans
  released : art.status.isReleased = true → ∃ b, w.objects (publishedKey art.sha256) = some b

/-- The session has been inspected, and its artifact has the digest it declares. -/
def Bound (w : World β) (sess : UploadSession) : Prop :=
  (∃ b, (sess.id, b) ∈ w.inspections) ∧
    ∃ art ∈ w.artifacts.rows, art.id = sess.artifactID ∧ art.sha256 = sess.declaredSHA256

/-- Uploaded bytes may be released. -/
def UploadSession.isComplete (sess : UploadSession) : Prop :=
  sess.status = .completed ∨ sess.status = .releaseClaimed

section

variable (env : External β)

/-- The bytes of a release are those with its digest, wherever they are. -/
structure Consistent (w : World β) : Prop where
  session : ∀ sess ∈ w.uploads.rows,
    sess.stagingKey = stagingKey sess.id ∧ isSHA256 sess.declaredSHA256 = true
  staged : ∀ sess ∈ w.uploads.rows, sess.isComplete → ∀ b,
    w.objects sess.stagingKey = some b → env.sha256Hex b = sess.declaredSHA256
  bound : ∀ sess ∈ w.uploads.rows, sess.artifactID ≠ "" →
    sess.status = .releaseClaimed ∧ Bound w sess
  inspected : ∀ id b, (id, b) ∈ w.inspections → ∃ sess ∈ w.uploads.rows,
    sess.id = id ∧ env.sha256Hex b = sess.declaredSHA256
  scanned : ∀ id b, (id, b) ∈ w.scans → ∃ art ∈ w.artifacts.rows,
    art.id = id ∧ env.sha256Hex b = art.sha256
  artifact : ∀ art ∈ w.artifacts.rows, ArtifactOk w art
  published : ∀ h b, w.objects (publishedKey h) = some b → env.sha256Hex b = h

/-- Nobody stores other bytes for a session that has been completed, and nobody
completes one over other bytes. -/
def StoresDeclared : Label β → World β → Prop
  | .putObject key content, w => ∀ sess ∈ w.uploads.rows, sess.stagingKey = key →
      sess.isComplete → env.sha256Hex content = sess.declaredSHA256
  | .updateUpload sess, w => sess.status = .completed → ∀ b,
      w.objects sess.stagingKey = some b → env.sha256Hex b = sess.declaredSHA256
  | .other, _ => True

/-- Every task relies on the others making progress only. -/
def staging : Discipline (Label β) (World β) where
  inv := Consistent env
  rely _ := Progress
  guard := StoresDeclared env
  refl _ := Progress.refl
  trans _ _ _ _ := Progress.trans

end

/-! ## What is known stays known -/

variable {env : External β} {w w' : World β} {i : Nat}

theorem Inspected.mono {id : String} (h : Inspected w id) (hid : id ≠ "")
    (hprogress : Progress w w') : Inspected w' id := by
  obtain ⟨sess, hmem, hartifact, b, hread⟩ := h
  obtain ⟨later, hlater, hcontinues⟩ := hprogress.uploads sess hmem
  have hsame : later.artifactID = sess.artifactID :=
    hcontinues.artifactID (by rw [hartifact]; exact hid)
  refine ⟨later, hlater, hsame.trans hartifact, b, ?_⟩
  rw [hcontinues.id]
  exact hprogress.inspections _ hread

theorem Bound.mono {sess : UploadSession} (h : Bound w sess) (hprogress : Progress w w') :
    Bound w' sess := by
  obtain ⟨⟨b, hb⟩, art, hart, hid, hsha⟩ := h
  obtain ⟨later, hlater, hid', hsha'⟩ := hprogress.artifacts art hart
  exact ⟨⟨b, hprogress.inspections _ hb⟩, later, hlater, hid'.trans hid, hsha'.trans hsha⟩

theorem Bound.of_eq {sess next : UploadSession} (h : Bound w sess) (hid : next.id = sess.id)
    (hdeclared : next.declaredSHA256 = sess.declaredSHA256)
    (hartifact : next.artifactID = sess.artifactID) : Bound w next := by
  unfold Bound
  rw [hid, hdeclared, hartifact]
  exact h

theorem ArtifactOk.mono {art : Artifact} (h : ArtifactOk w art) (hprogress : Progress w w') :
    ArtifactOk w' art where
  id_ne := h.id_ne
  sha256 := h.sha256
  scanned hstaged hrejected := by
    obtain ⟨hinspected, b, hread⟩ := h.scanned hstaged hrejected
    exact ⟨hinspected.mono h.id_ne hprogress, b, hprogress.scans _ hread⟩
  released hreleased := by
    obtain ⟨b, hb⟩ := h.released hreleased
    exact ⟨b, hprogress.published _ _ hb⟩

theorem keeps_of_progress (h : Consistent env w') (hprogress : Progress w w') :
    (staging env).Keeps i w w' :=
  ⟨h, fun _ _ => hprogress⟩

theorem progress_of_keeps (h : (staging env).Keeps i w w') : Progress w w' :=
  h.2 (i + 1) (Nat.succ_ne_self i)

/-! ## What each kind of change keeps -/

/-- Tools, jobs, the lease and the metadata version play no part. -/
theorem keeps_of_eq (h : Consistent env w) (huploads : w'.uploads = w.uploads)
    (hartifacts : w'.artifacts = w.artifacts) (hobjects : w'.objects = w.objects)
    (hinspections : w'.inspections = w.inspections) (hscans : w'.scans = w.scans) :
    (staging env).Keeps i w w' := by
  have hprogress := Progress.of_eq huploads hartifacts hobjects hinspections hscans
  apply keeps_of_progress _ hprogress
  constructor
  · rw [huploads]
    exact h.session
  · rw [huploads, hobjects]
    exact h.staged
  · rw [huploads]
    exact fun sess hmem hne => ⟨(h.bound sess hmem hne).1, (h.bound sess hmem hne).2.mono hprogress⟩
  · rw [huploads, hinspections]
    exact h.inspected
  · rw [hartifacts, hscans]
    exact h.scanned
  · rw [hartifacts]
    exact fun art hmem => (h.artifact art hmem).mono hprogress
  · rw [hobjects]
    exact h.published

theorem keeps_putUpload {sess : UploadSession} (h : Consistent env w)
    (hsession : sess.stagingKey = stagingKey sess.id ∧ isSHA256 sess.declaredSHA256 = true)
    (hstaged : sess.isComplete → ∀ b, w.objects sess.stagingKey = some b →
      env.sha256Hex b = sess.declaredSHA256)
    (hbound : sess.artifactID ≠ "" → sess.status = .releaseClaimed ∧ Bound w sess)
    (hcontinues : ∀ cur ∈ w.uploads.rows, cur.id = sess.id → cur.Continues sess) :
    (staging env).Keeps i w { w with uploads := w.uploads.put sess } := by
  have hprogress : Progress w { w with uploads := w.uploads.put sess } := by
    refine ⟨?_, fun art hmem => ⟨art, hmem, rfl, rfl⟩, fun _ _ hb => hb, fun _ hr => hr,
      fun _ hr => hr⟩
    intro cur hcur
    by_cases hid : cur.id = sess.id
    · exact ⟨sess, Table.mem_put.mpr (.inl rfl), hcontinues cur hcur hid⟩
    · exact ⟨cur, Table.mem_put.mpr (.inr ⟨hcur, hid⟩), .refl cur⟩
  apply keeps_of_progress _ hprogress
  constructor
  · intro cur hcur
    cases Table.mem_put.mp hcur with
    | inl heq => exact heq ▸ hsession
    | inr hold => exact h.session cur hold.1
  · intro cur hcur
    cases Table.mem_put.mp hcur with
    | inl heq => exact heq ▸ hstaged
    | inr hold => exact h.staged cur hold.1
  · intro cur hcur
    cases Table.mem_put.mp hcur with
    | inl heq => exact heq ▸ hbound
    | inr hold => exact h.bound cur hold.1
  · intro id b hread
    obtain ⟨cur, hcur, hid, hsha⟩ := h.inspected id b hread
    obtain ⟨later, hlater, hlater'⟩ := hprogress.uploads cur hcur
    exact ⟨later, hlater, hlater'.id.trans hid, hsha.trans hlater'.declaredSHA256.symm⟩
  · exact h.scanned
  · exact fun art hmem => (h.artifact art hmem).mono hprogress
  · exact h.published

theorem keeps_putArtifact {art : Artifact}
    {ix : String × String × String × String × String → Option String} (h : Consistent env w)
    (hok : ArtifactOk w art)
    (hsame : ∀ cur ∈ w.artifacts.rows, cur.id = art.id → cur.sha256 = art.sha256) :
    (staging env).Keeps i w
      { w with artifacts := w.artifacts.put art, artIdentityIx := ix } := by
  have hartifacts : ∀ cur ∈ w.artifacts.rows, ∃ later ∈ (w.artifacts.put art).rows,
      later.id = cur.id ∧ later.sha256 = cur.sha256 := by
    intro cur hcur
    by_cases hid : cur.id = art.id
    · exact ⟨art, Table.mem_put.mpr (.inl rfl), hid.symm, (hsame cur hcur hid).symm⟩
    · exact ⟨cur, Table.mem_put.mpr (.inr ⟨hcur, hid⟩), rfl, rfl⟩
  have hprogress : Progress w
      { w with artifacts := w.artifacts.put art, artIdentityIx := ix } :=
    ⟨fun sess hmem => ⟨sess, hmem, .refl sess⟩, hartifacts, fun _ _ hb => hb, fun _ hr => hr,
      fun _ hr => hr⟩
  apply keeps_of_progress _ hprogress
  constructor
  · exact h.session
  · exact h.staged
  · exact fun sess hmem hne => ⟨(h.bound sess hmem hne).1, (h.bound sess hmem hne).2.mono hprogress⟩
  · exact h.inspected
  · intro id b hread
    obtain ⟨cur, hcur, hid, hsha⟩ := h.scanned id b hread
    obtain ⟨later, hlater, hlaterId, hlaterSha⟩ := hartifacts cur hcur
    exact ⟨later, hlater, hlaterId.trans hid, hsha.trans hlaterSha.symm⟩
  · intro cur hcur
    cases Table.mem_put.mp hcur with
    | inl heq => exact heq ▸ hok.mono hprogress
    | inr hold => exact (h.artifact cur hold.1).mono hprogress
  · exact h.published

/-- A change of objects that leaves the published ones alone. -/
theorem keeps_objects {objects : String → Option β} (h : Consistent env w)
    (hpublished : ∀ sha256, objects (publishedKey sha256) = w.objects (publishedKey sha256))
    (hstaged : ∀ sess ∈ w.uploads.rows, sess.isComplete → ∀ b,
      objects sess.stagingKey = some b → env.sha256Hex b = sess.declaredSHA256) :
    (staging env).Keeps i w { w with objects := objects } := by
  have hprogress : Progress w { w with objects := objects } :=
    ⟨fun sess hmem => ⟨sess, hmem, .refl sess⟩, fun art hmem => ⟨art, hmem, rfl, rfl⟩,
      fun sha256 b hb => (hpublished sha256).trans hb, fun _ hr => hr, fun _ hr => hr⟩
  apply keeps_of_progress _ hprogress
  refine ⟨h.session, hstaged, h.bound, h.inspected, h.scanned, ?_, ?_⟩
  · exact fun art hmem => (h.artifact art hmem).mono hprogress
  · intro sha256 b hb
    exact h.published sha256 b ((hpublished sha256).symm.trans hb)

theorem keeps_putObject {key : String} {content : β} (h : Consistent env w)
    (hguard : StoresDeclared env (.putObject key content) w)
    (hkey : ∀ sha256, key ≠ publishedKey sha256) :
    (staging env).Keeps i w (putObject key content w).2 := by
  apply keeps_objects h
  · intro sha256
    exact Function.update_of_ne (hkey sha256).symm _ _
  · intro sess hmem hcomplete b hb
    by_cases hsame : sess.stagingKey = key
    · rw [hsame, Function.update_self] at hb
      cases hb
      exact hguard sess hmem hsame hcomplete
    · rw [Function.update_of_ne hsame] at hb
      exact h.staged sess hmem hcomplete b hb

theorem keeps_deleteStaging {key : String} (h : Consistent env w) :
    (staging env).Keeps i w (deleteStaging key w).2 := by
  unfold deleteStaging
  by_cases hkey : isStagingKey key = true
  · rw [if_pos hkey]
    apply keeps_objects h
    · intro sha256
      exact Function.update_of_ne (ne_publishedKey_of_isStagingKey hkey sha256).symm _ _
    · intro sess hmem hcomplete b hb
      by_cases hsame : sess.stagingKey = key
      · rw [hsame, Function.update_self] at hb
        cases hb
      · rw [Function.update_of_ne hsame] at hb
        exact h.staged sess hmem hcomplete b hb
  · rw [if_neg hkey]
    exact Discipline.keeps_refl h

/-- Publishing bytes under their own digest. -/
theorem keeps_publish {sha256 : String} {content : β} (h : Consistent env w)
    (hsha : isSHA256 sha256 = true) (hcontent : env.sha256Hex content = sha256) :
    (staging env).Keeps i w
      (putIfAbsentOrSame env.length env.sha256Hex (publishedKey sha256) content w).2 := by
  unfold putIfAbsentOrSame
  cases hold : w.objects (publishedKey sha256) with
  | some existing =>
      simp only
      split
      · exact Discipline.keeps_refl h
      · exact Discipline.keeps_refl h
  | none =>
      simp only
      generalize hobjects : Function.update w.objects (publishedKey sha256) (some content) = objects
      have hself : objects (publishedKey sha256) = some content := by
        rw [← hobjects, Function.update_self]
      have hother : ∀ key, key ≠ publishedKey sha256 → objects key = w.objects key := by
        intro key hne
        rw [← hobjects, Function.update_of_ne hne]
      have hprogress : Progress w { w with objects := objects } := by
        refine ⟨fun sess hmem => ⟨sess, hmem, .refl sess⟩, fun art hmem => ⟨art, hmem, rfl, rfl⟩,
          ?_, fun _ hr => hr, fun _ hr => hr⟩
        intro other b hb
        have hne : publishedKey other ≠ publishedKey sha256 := by
          intro heq
          rw [heq, hold] at hb
          cases hb
        rw [← hb]
        exact hother _ hne
      apply keeps_of_progress _ hprogress
      refine ⟨h.session, ?_, h.bound, h.inspected, h.scanned, ?_, ?_⟩
      · intro sess hmem hcomplete b hb
        have hne : sess.stagingKey ≠ publishedKey sha256 := by
          rw [(h.session sess hmem).1]
          exact stagingKey_ne_publishedKey _ _
        have hb' : objects sess.stagingKey = some b := hb
        rw [hother _ hne] at hb'
        exact h.staged sess hmem hcomplete b hb'
      · exact fun art hmem => (h.artifact art hmem).mono hprogress
      · intro other b hb
        by_cases heq : publishedKey other = publishedKey sha256
        · have hb' : objects (publishedKey other) = some b := hb
          rw [heq, hself] at hb'
          cases hb'
          rw [publishedKey_inj hsha heq]
          exact hcontent
        · have hb' : objects (publishedKey other) = some b := hb
          rw [hother _ heq] at hb'
          exact h.published other b hb'

end Useful.Server
