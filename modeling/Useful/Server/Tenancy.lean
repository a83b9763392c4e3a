/-
# Tenants

What a request of a publisher's identity can change. A row under a key stays as it is, or
belongs to the publisher before and after; only the signing of metadata also settles the
pending artifacts of others. An identifier that belongs to somebody else is answered like
one that does not exist, with one exception: the new key of a rotation.
-/

import Useful.Server.TokenScopes

namespace Useful.Server

open Useful.Math

variable {β : Type} {env : External β} {config : HttpConfig} {p : Principal} {around : Surroundings}
  {K : String}

/-! ## Rows and their owner -/

/-- What may become of the row under a key. -/
inductive Change {ρ : Type} (own : ρ → Prop) (settles : ρ → ρ → Prop) : Option ρ → Option ρ → Prop
  | same {row : Option ρ} : Change own settles row row
  | owned {before : Option ρ} {after : ρ} (hbefore : ∀ row, before = some row → own row)
      (hafter : own after) : Change own settles before (some after)
  | settled {before after : ρ} (h : settles before after) :
      Change own settles (some before) (some after)

section

variable {ρ κ : Type} {own : ρ → Prop} {settles : ρ → ρ → Prop} {a b c : Option ρ}

/-- A row that belongs to somebody else belongs to nobody else afterwards. -/
theorem Change.owns (howner : ∀ a b, settles a b → (own a ↔ own b)) (h : Change own settles a b)
    (ha : ∀ row, a = some row → own row) : ∀ row, b = some row → own row := by
  intro row hrow
  cases h with
  | same => exact ha row hrow
  | owned hbefore hafter =>
      cases hrow
      exact hafter
  | settled h =>
      cases hrow
      exact (howner _ _ h).mp (ha _ rfl)

theorem Change.trans (howner : ∀ a b, settles a b → (own a ↔ own b))
    (honce : ∀ a b c, settles a b → ¬ settles b c) (hab : Change own settles a b)
    (hbc : Change own settles b c) : Change own settles a c := by
  cases hbc with
  | same => exact hab
  | owned hbefore hafter =>
      cases hab with
      | same => exact .owned hbefore hafter
      | owned hbefore' _ => exact .owned hbefore' hafter
      | settled h =>
          apply Change.owned _ hafter
          intro row hrow
          cases hrow
          exact (howner _ _ h).mpr (hbefore _ rfl)
  | settled h =>
      cases hab with
      | same => exact .settled h
      | owned hbefore hafter => exact .owned hbefore ((howner _ _ h).mp hafter)
      | settled h' => exact absurd h (honce _ _ _ h')

variable [DecidableEq κ] {key : ρ → κ} {table : Table ρ key} {row : ρ}

/-- A row of the owner in the place of a row of the owner. -/
theorem change_put (hnew : own row) (hold : ∀ cur, table.find (key row) = some cur → own cur)
    (k : κ) : Change own settles (table.find k) ((table.put row).find k) := by
  rw [Table.find_put]
  split
  · rename_i hkey
    subst hkey
    exact .owned hold hnew
  · exact .same

end

/-- A pending intent is finalised. -/
inductive Finalised : Artifact → Artifact → Prop
  | published {art : Artifact} (publishedAt : Option Int) (h : art.status = .publishPending) :
      Finalised art (withStatus art .published publishedAt)
  | withdrawn {art : Artifact} (h : art.status = .withdrawPending) :
      Finalised art (withStatus art .withdrawn none)

theorem Finalised.owner {art next : Artifact} (h : Finalised art next) :
    art.publisherKeyID = K ↔ next.publisherKeyID = K := by
  cases h with
  | published publishedAt h => exact .rfl
  | withdrawn h => exact .rfl

theorem Finalised.once {art next last : Artifact} (h : Finalised art next) :
    ¬ Finalised next last := by
  intro h'
  have hstatus : next.status = .publishPending ∨ next.status = .withdrawPending := by
    cases h' with
    | published publishedAt h => exact .inl h
    | withdrawn h => exact .inr h
  cases h with
  | published publishedAt h => cases hstatus with | inl h | inr h => cases h
  | withdrawn h => cases hstatus with | inl h | inr h => cases h

/-- Rows of sessions, tools and artifacts change only for one publisher key, apart from
artifacts that are finalised. -/
structure Confined (K : String) (w w' : World β) : Prop where
  uploads : ∀ id, Change (fun sess => sess.publisherKeyID = K) (fun _ _ => False)
    (w.uploads.find id) (w'.uploads.find id)
  tools : ∀ id, Change (fun tool => tool.publisherKeyID = K) (fun _ _ => False)
    (w.tools.find id) (w'.tools.find id)
  artifacts : ∀ id, Change (fun art => art.publisherKeyID = K) Finalised
    (w.artifacts.find id) (w'.artifacts.find id)

namespace Confined

variable {w w' w'' : World β}

theorem refl (w : World β) : Confined K w w :=
  ⟨fun _ => .same, fun _ => .same, fun _ => .same⟩

theorem trans (h : Confined K w w') (h' : Confined K w' w'') : Confined K w w'' where
  uploads id := (h.uploads id).trans (fun _ _ => False.elim) (fun _ _ _ => False.elim) (h'.uploads id)
  tools id := (h.tools id).trans (fun _ _ => False.elim) (fun _ _ _ => False.elim) (h'.tools id)
  artifacts id := (h.artifacts id).trans (fun _ _ => Finalised.owner)
    (fun _ _ _ => Finalised.once) (h'.artifacts id)

/-- The three tables are left as they are. -/
theorem of_eq (huploads : w'.uploads = w.uploads) (htools : w'.tools = w.tools)
    (hartifacts : w'.artifacts = w.artifacts) : Confined K w w' := by
  refine ⟨fun id => ?_, fun id => ?_, fun id => ?_⟩
  · exact huploads ▸ .same
  · exact htools ▸ .same
  · exact hartifacts ▸ .same

theorem putUpload {sess : UploadSession} {id : String} (hid : sess.id = id)
    (hnew : sess.publisherKeyID = K)
    (hold : ∀ cur, w.uploads.find id = some cur → cur.publisherKeyID = K) :
    Confined K w { w with uploads := w.uploads.put sess } := by
  subst hid
  exact ⟨change_put hnew hold, fun _ => .same, fun _ => .same⟩

theorem putTool {tool : Tool} (hnew : tool.publisherKeyID = K) :
    Confined K w { w with tools := w.tools.put tool } := by
  refine ⟨fun _ => .same, change_put hnew ?_, fun _ => .same⟩
  intro cur hcur
  have hkey : (cur.publisherKeyID, cur.toolID) = (tool.publisherKeyID, tool.toolID) :=
    (Table.find_eq_some.mp hcur).2
  exact (congrArg Prod.fst hkey).trans hnew

theorem putArtifact {art : Artifact} {id : String} (hid : art.id = id)
    (hnew : art.publisherKeyID = K)
    (hold : ∀ cur, w.artifacts.find id = some cur → cur.publisherKeyID = K) :
    Confined K w { w with artifacts := w.artifacts.put art } := by
  subst hid
  exact ⟨fun _ => .same, fun _ => .same, change_put hnew hold⟩

theorem ownsUpload {id : String} (h : Confined K w w')
    (hw : ∀ sess, w.uploads.find id = some sess → sess.publisherKeyID = K) :
    ∀ sess, w'.uploads.find id = some sess → sess.publisherKeyID = K :=
  (h.uploads id).owns nofun hw

theorem ownsArtifact {id : String} (h : Confined K w w')
    (hw : ∀ art, w.artifacts.find id = some art → art.publisherKeyID = K) :
    ∀ art, w'.artifacts.find id = some art → art.publisherKeyID = K :=
  (h.artifacts id).owns (fun _ _ => Finalised.owner) hw

end Confined

/-! ## Work of the service -/

/-- Whatever comes of the work, rows change only for one publisher key. -/
def Stays {α : Type} (K : String) (w : World β) (work : Work β α) : Prop :=
  work.Yields w (fun _ w' => Confined K w w') fun _ w' => Confined K w w'

section

variable {α γ : Type} {w : World β}

theorem stays_pure (a : α) : Stays K w (pure a : Work β α) := Task.yields_pure (.refl w)

theorem stays_fail (e : ServerError) : Stays K w (Task.fail e : Work β α) :=
  Task.yields_fail (.refl w)

theorem stays_ofExcept (x : Except ServerError α) : Stays K w (Task.ofExcept x : Work β α) :=
  Task.yields_ofExcept (fun _ _ => .refl w) fun _ _ => .refl w

theorem stays_call {label : Label β} {f : Call β α} (h : Confined K w (f w).2) :
    Stays K w (Task.call label f) :=
  Task.yields_call (fun _ _ => h) (fun _ => h) fun _ => .refl w

theorem stays_bind {work : Work β α} {next : α → Work β γ} {Q : α → World β → Prop}
    (h : work.Yields w (fun a w' => Confined K w w' ∧ Q a w') fun _ w' => Confined K w w')
    (hnext : ∀ a w', Q a w' → Confined K w w' → Stays K w' (next a)) :
    Stays K w (work >>= next) := by
  apply h.bind (fun _ _ => id)
  intro a w' hw'
  exact (hnext a w' hw'.2 hw'.1).imp (fun _ _ => hw'.1.trans) fun _ _ => hw'.1.trans

theorem Stays.seq {work : Work β α} {next : α → Work β γ} (h : Stays K w work)
    (hnext : ∀ a w', Confined K w w' → Stays K w' (next a)) : Stays K w (work >>= next) :=
  stays_bind (Q := fun _ _ => True) (h.imp (fun _ _ hw' => ⟨hw', trivial⟩) fun _ _ => id)
    fun a w' _ => hnext a w'

theorem Stays.attempt {work : Work β α} (h : Stays K w work) : Stays K w (Task.attempt work) :=
  Task.Yields.attempt h (fun _ _ => id) fun _ _ => id

theorem stays_check {x : Except ServerError α} {next : α → Work β γ}
    (hnext : ∀ a, x = .ok a → Stays K w (next a)) : Stays K w (Task.ofExcept x >>= next) :=
  Task.yields_ofExcept_bind (fun _ _ => .refl w) hnext

theorem stays_ignoring {work : Work β Unit} (h : Stays K w work) : Stays K w (ignoring work) :=
  h.attempt.seq fun _ _ _ => stays_pure ()

theorem stays_within {context : String} {work : Work β α} (h : Stays K w work) :
    Stays K w (within context work) := by
  apply h.attempt.seq
  intro outcome w' _
  cases outcome with
  | ok a => exact stays_pure a
  | error e => exact stays_fail _

/-- A row that is looked up. -/
theorem yields_get {ρ κ : Type} {key : ρ → κ} [DecidableEq κ] (table : World β → Table ρ key)
    (k : κ) : (step (get table k)).Yields w (fun row w' => w' = w ∧ (table w).find k = some row)
      fun _ w' => w' = w :=
  Task.yields_call (fun _ hfound => ⟨rfl, orFail_eq_ok.mp hfound⟩) (fun _ => rfl) fun _ => rfl

theorem stays_get {ρ κ : Type} {key : ρ → κ} [DecidableEq κ] {table : World β → Table ρ key}
    {k : κ} {next : ρ → Work β γ} (hnext : ∀ row, (table w).find k = some row → Stays K w (next row)) :
    Stays K w (step (get table k) >>= next) := by
  apply (yields_get table k).bind (fun _ w' hw' => by rw [hw']; exact .refl w)
  intro row w' hw'
  obtain ⟨rfl, hrow⟩ := hw'
  exact hnext row hrow

theorem stays_reading (f : World β → Except ServerError α) : Stays K w (step (reading f)) :=
  stays_call (.refl w)

end

/-! ### Uploads and releases -/

section

variable {w : World β}

theorem stays_createUploadSession (id declaredSHA : String) (declaredSize now : Int) :
    Stays K w (createUploadSession config.toConfig id K declaredSHA declaredSize now) := by
  refine stays_check fun _ _ => ?_
  refine stays_check fun _ _ => ?_
  refine stays_check fun _ _ => ?_
  apply (stays_reading _).attempt.seq
  intro outcome w' _
  cases outcome with
  | error e => exact stays_fail _
  | ok publisher =>
      apply Stays.seq
      · apply stays_call
        unfold createUpload
        split
        · exact .refl w'
        · rename_i hfree
          exact .putUpload rfl rfl fun cur hcur => absurd hcur (by simp [hfree])
      · exact fun _ _ _ => stays_pure _

theorem stays_update {sess : UploadSession} {id : String} (hid : sess.id = id)
    (hnew : sess.publisherKeyID = K)
    (hold : ∀ cur, w.uploads.find id = some cur → cur.publisherKeyID = K) :
    Stays K w (update sess) := by
  subst hid
  apply stays_call
  unfold updateUpload
  split
  · exact .refl w
  · split
    · exact .putUpload rfl hnew hold
    · exact .refl w

theorem stays_put (key : String) (content : β) : Stays K w (put key content) :=
  stays_call (.of_eq rfl rfl rfl)

theorem stays_deleteStaging (key : String) : Stays K w (step (deleteStaging key)) := by
  apply stays_call
  unfold deleteStaging
  split
  · exact .of_eq rfl rfl rfl
  · exact .refl w

theorem stays_receiveContent {id : String} {content : β}
    (hsess : ∀ sess, w.uploads.find id = some sess → sess.publisherKeyID = K) :
    Stays K w (receiveContent env id content) := by
  apply stays_get
  intro sess hfind
  have howner := hsess sess hfind
  have hid : sess.id = id := (Table.find_eq_some.mp hfind).2
  have hupdate : ∀ (w' : World β) (status : UploadSessionStatus) (error : String),
      Confined K w w' → Stays K w' (update { sess with status := status, error := error }) := by
    intro w' status error hw'
    exact stays_update hid howner (hw'.ownsUpload hsess)
  refine stays_check fun _ _ => ?_
  have hstore : Stays K w (Task.attempt (do
      Task.ofExcept (failIf (env.length content ≠ sess.declaredSize)
        (.failure "写入大小与声明不符"))
      put sess.stagingKey content)) := by
    apply Stays.attempt
    exact stays_check fun _ _ => stays_put _ _
  apply hstore.seq
  intro stored w' hw'
  cases stored with
  | error e => exact (stays_ignoring (hupdate w' _ _ hw')).seq fun _ _ _ => stays_fail e
  | ok _ =>
      simp only
      split
      · apply (stays_ignoring (hupdate w' _ _ hw')).seq
        intro _ w'' _
        apply (stays_ignoring (stays_deleteStaging _)).seq
        exact fun _ _ _ => stays_fail _
      · exact hupdate w' _ sess.error hw'

theorem stays_inspectPackage (sess : UploadSession) (req : ReleaseRequest)
    (permissions : List String) :
    Stays K w (inspectPackage env config.toConfig sess req permissions) := by
  apply Stays.seq
  · apply stays_call
    unfold readForInspection
    split
    · exact .refl w
    · exact .of_eq rfl rfl rfl
  · exact fun _ _ _ => stays_ofExcept _

theorem yields_claimCompleted {id : String}
    (hsess : ∀ sess, w.uploads.find id = some sess → sess.publisherKeyID = K) :
    (step (claimCompleted id)).Yields w
      (fun sess w' => Confined K w w' ∧ sess.publisherKeyID = K ∧ sess.id = id)
      fun _ w' => Confined K w w' := by
  have hclaim : Confined K w (claimCompleted id w).2 ∧ ∀ sess, (claimCompleted id w).1 = .ok sess →
      sess.publisherKeyID = K ∧ sess.id = id := by
    unfold claimCompleted
    cases hfind : w.uploads.find id with
    | none => exact ⟨.refl w, nofun⟩
    | some sess =>
        have howner := hsess sess hfind
        have hid : sess.id = id := (Table.find_eq_some.mp hfind).2
        simp only
        split
        · exact ⟨.refl w, nofun⟩
        · constructor
          · exact .putUpload hid howner hsess
          · intro claimed heq
            cases heq
            exact ⟨howner, hid⟩
  exact Task.yields_call (fun sess hok => ⟨hclaim.1, hclaim.2 sess hok⟩) (fun _ => hclaim.1)
    fun _ => .refl w

theorem stays_createArtifact {art : Artifact} (h : art.publisherKeyID = K) :
    Stays K w (step (createArtifact art)) := by
  apply stays_call
  unfold createArtifact
  split
  · exact .refl w
  · rename_i hfree
    split
    · exact .refl w
    · have hput : Confined K w { w with artifacts := w.artifacts.put art } :=
        .putArtifact rfl h fun cur hcur => absurd hcur (by simp [hfree])
      exact ⟨hput.uploads, hput.tools, hput.artifacts⟩

theorem stays_enqueue (job : Job) : Stays K w (step (enqueue job)) := by
  apply stays_call
  unfold enqueue
  split
  · exact .refl w
  · exact .of_eq rfl rfl rfl

theorem stays_createRelease {req : ReleaseRequest} {artifactID jobID : String} {now : Int}
    (hsess : ∀ sess, w.uploads.find req.uploadSessionID = some sess → sess.publisherKeyID = K) :
    Stays K w (createRelease env config.toConfig req artifactID jobID now) := by
  refine stays_check fun _ _ => ?_
  apply stays_get
  intro seen _
  refine stays_check fun checked _ => ?_
  apply (stays_reading _).attempt.seq
  intro existing w₁ hw₁
  refine stays_check fun _ _ => ?_
  apply (stays_reading _).seq
  intro _ w₂ hw₂
  have hsess₂ := (hw₁.trans hw₂).ownsUpload hsess
  have hclaim : (Task.attempt (step (claimCompleted req.uploadSessionID))).Yields w₂
      (fun outcome w' => Confined K w₂ w' ∧ ∀ sess, outcome = .ok sess →
        sess.publisherKeyID = K ∧ sess.id = req.uploadSessionID) fun _ w' => Confined K w₂ w' := by
    apply (yields_claimCompleted hsess₂).attempt
    · intro sess w' hw'
      refine ⟨hw'.1, fun sess' heq => ?_⟩
      cases heq
      exact hw'.2
    · exact fun e w' hw' => ⟨hw', nofun⟩
  apply stays_bind hclaim
  intro outcome w₃ houtcome hw₃
  cases outcome with
  | error e => exact stays_fail _
  | ok sess =>
      obtain ⟨howner, hid⟩ := houtcome sess rfl
      apply (stays_inspectPackage _ _ _).attempt.seq
      intro inspected w₄ hw₄
      cases inspected with
      | error e => exact stays_fail _
      | ok manifestDigest =>
          have htool : Stays K w₄ (step (upsertTool (newTool req sess now))) :=
            stays_call (Confined.putTool howner)
          apply htool.seq
          intro _ w₅ hw₅
          apply (stays_createArtifact howner).seq
          intro _ w₆ hw₆
          have hupdate : Stays K w₆ (update { sess with artifactID := artifactID }) :=
            stays_update hid howner
              ((hw₃.trans (hw₄.trans (hw₅.trans hw₆))).ownsUpload hsess₂)
          apply hupdate.seq
          intro _ w₇ _
          exact (stays_enqueue _).seq fun _ _ _ => stays_pure _

end

/-! ### Metadata -/

/-- The rows of sessions, tools and artifacts are left as they are. -/
structure SameRows (w w' : World β) : Prop where
  uploads : w'.uploads = w.uploads
  tools : w'.tools = w.tools
  artifacts : w'.artifacts = w.artifacts

/-- The artifacts an intent to publish or to withdraw is pending for. -/
structure Pending (status : ArtifactStatus) (w : World β) (arts : List Artifact) : Prop where
  found : ∀ art ∈ arts, w.artifacts.find art.id = some art ∧ art.status = status
  nodup : (arts.map Artifact.id).Nodup

section

variable {w w' w'' : World β}

theorem SameRows.refl (w : World β) : SameRows w w := ⟨rfl, rfl, rfl⟩

theorem SameRows.trans (h : SameRows w w') (h' : SameRows w' w'') : SameRows w w'' :=
  ⟨h'.uploads.trans h.uploads, h'.tools.trans h.tools, h'.artifacts.trans h.artifacts⟩

theorem SameRows.confined (h : SameRows w w') : Confined K w w' :=
  .of_eq h.uploads h.tools h.artifacts

theorem sameRows_putIfAbsentOrSame (length : β → Nat) (sha256Hex : β → String) (key : String)
    (content : β) : SameRows w (putIfAbsentOrSame length sha256Hex key content w).2 := by
  unfold putIfAbsentOrSame
  split
  · exact ⟨rfl, rfl, rfl⟩
  · split
    · exact .refl w
    · exact .refl w

theorem sameRows_nextVersion (task : Nat) (candidate : Int) :
    SameRows w (nextVersion task candidate w).2 := by
  unfold nextVersion
  split
  · exact .refl w
  · split
    · exact .refl w
    · exact ⟨rfl, rfl, rfl⟩

-- the rules of `Yields` are used as they stand, and the release is never computed
attribute [local irreducible] Task.Yields in
/-- Writing a release touches objects and the version only. -/
theorem sameRows_writeRelease (task : Nat) (now : Int) (targets : List (String × TargetEntry))
    (attempts : Nat) : (writeRelease env config.toConfig task now targets attempts).Yields w
      (fun _ w' => SameRows w w') fun _ w' => SameRows w w' := by
  have hput : ∀ (v : World β) (name : String) (content : β), (Task.attempt (step
      (putIfAbsentOrSame env.length env.sha256Hex (metadataKey name) content))).Yields v
      (fun _ w' => SameRows v w') fun _ w' => SameRows v w' := by
    intro v name content
    have hcall : (step (putIfAbsentOrSame env.length env.sha256Hex (metadataKey name)
        content)).Yields v (fun _ w' => SameRows v w') fun _ w' => SameRows v w' :=
      Task.yields_call (fun _ _ => sameRows_putIfAbsentOrSame ..)
        (fun _ => sameRows_putIfAbsentOrSame ..) fun _ => .refl v
    exact hcall.attempt (fun _ _ => id) fun _ _ => id
  induction attempts generalizing w with
  | zero => exact Task.yields_fail (.refl w)
  | succ attempts ih =>
      have hretry : ∀ v, SameRows w v →
          (writeRelease env config.toConfig task now targets attempts).Yields v
            (fun _ w' => SameRows w w') fun _ w' => SameRows w w' := fun v hv =>
        (ih (w := v)).imp (fun _ _ => hv.trans) fun _ _ => hv.trans
      have hver : (step (nextVersion (β := β) task (max now 1))).Yields w
          (fun _ w' => SameRows w w') fun _ w' => SameRows w w' :=
        Task.yields_call (fun _ _ => sameRows_nextVersion ..) (fun _ => sameRows_nextVersion ..)
          fun _ => .refl w
      apply hver.bind (fun _ _ => id)
      intro ver w₁ hw₁
      apply Task.yields_ofExcept_bind (fun _ _ => hw₁)
      intro release _
      apply (hput w₁ _ _).bind (fun _ _ => hw₁.trans)
      intro outcome w₂ hw₂
      have hw₂ := hw₁.trans hw₂
      cases outcome with
      | error e =>
          simp only
          split
          · exact hretry w₂ hw₂
          · exact Task.yields_fail hw₂
      | ok _ =>
          apply (hput w₂ _ _).bind (fun _ _ => hw₂.trans)
          intro outcome w₃ hw₃
          have hw₃ := hw₂.trans hw₃
          cases outcome with
          | error e =>
              simp only
              split
              · exact hretry w₃ hw₃
              · exact Task.yields_fail hw₃
          | ok _ =>
              have hsame : SameRows w₃ (putObject (metadataKey "timestamp.json")
                  release.timestampBytes w₃).2 := ⟨rfl, rfl, rfl⟩
              exact Task.yields_call (fun _ _ => hw₃.trans hsame) (fun _ => hw₃.trans hsame)
                fun _ => hw₃

theorem pending_listByStatus (status : ArtifactStatus) :
    (step (listByStatus status)).Yields w (fun arts w' => w' = w ∧ Pending status w arts)
      fun _ w' => w' = w := by
  apply Task.yields_call
  · intro arts hlist
    have hlist : w.artifacts.rows.filter (fun art => art.status = status) = arts :=
      Except.ok.inj hlist
    subst hlist
    refine ⟨rfl, ?_, ?_⟩
    · intro art hart
      obtain ⟨hmem, hstatus⟩ := List.mem_filter.mp hart
      exact ⟨Table.find_eq_some.mpr ⟨hmem, rfl⟩, of_decide_eq_true hstatus⟩
    · exact w.artifacts.nodup.sublist (List.Sublist.map _ List.filter_sublist)
  · exact fun _ => rfl
  · exact fun _ => rfl

/-- A status that settles a pending artifact. -/
theorem updateStatus_pending {id : String} {cur : Artifact} {status : ArtifactStatus}
    {publishedAt : Option Int} (hcur : w.artifacts.find id = some cur)
    (hsettles : Finalised cur (withStatus cur status publishedAt)) :
    Confined K w (updateStatus id status publishedAt w).2 ∧
      ∀ other, other ≠ id →
        (updateStatus id status publishedAt w).2.artifacts.find other = w.artifacts.find other := by
  have hid : cur.id = id := (Table.find_eq_some.mp hcur).2
  unfold updateStatus
  rw [hcur]
  simp only
  split
  · constructor
    · refine ⟨fun _ => .same, fun _ => .same, fun other => ?_⟩
      show Change _ _ _ ((w.artifacts.put (withStatus cur status publishedAt)).find other)
      rw [Table.find_put]
      split
      · rename_i hsame
        have hother : other = id := hsame.symm.trans hid
        rw [hother, hcur]
        exact .settled hsettles
      · exact .same
    · intro other hne
      apply Table.find_put_of_ne
      intro hsame
      exact hne (hsame.symm.trans hid)
  · exact ⟨.refl w, fun _ _ => rfl⟩

/-- The rest of a list of pending artifacts, after the first has changed. -/
theorem Pending.tail {status : ArtifactStatus} {art : Artifact} {rest : List Artifact}
    (h : Pending status w (art :: rest))
    (hsame : ∀ other, other ≠ art.id → w'.artifacts.find other = w.artifacts.find other) :
    Pending status w' rest := by
  obtain ⟨hhead, hrest⟩ := List.nodup_cons.mp (List.map_cons (f := Artifact.id) ▸ h.nodup)
  refine ⟨fun other hother => ?_, hrest⟩
  obtain ⟨hfind, hstatus⟩ := h.found other (List.mem_cons_of_mem _ hother)
  refine ⟨(hsame other.id fun heq => hhead ?_).trans hfind, hstatus⟩
  exact heq ▸ List.mem_map_of_mem hother

theorem Pending.sameRows {status : ArtifactStatus} {arts : List Artifact}
    (h : Pending status w arts) (hsame : SameRows w w') : Pending status w' arts := by
  refine ⟨?_, h.nodup⟩
  rw [hsame.artifacts]
  exact h.found

/-- A change of one artifact leaves the pending ones of another status. -/
theorem Pending.other {status : ArtifactStatus} {arts : List Artifact} {cur : Artifact}
    (h : Pending status w arts) (hcur : w.artifacts.find cur.id = some cur)
    (hne : cur.status ≠ status)
    (hsame : ∀ other, other ≠ cur.id → w'.artifacts.find other = w.artifacts.find other) :
    Pending status w' arts := by
  refine ⟨fun other hother => ?_, h.nodup⟩
  obtain ⟨hfind, hstatus⟩ := h.found other hother
  refine ⟨(hsame other.id fun heq => hne ?_).trans hfind, hstatus⟩
  rw [heq, hcur] at hfind
  cases hfind
  exact hstatus

/-- A context changes the error and nothing else. -/
theorem yields_within {α : Type} {context : String} {work : Work β α} {Q : α → World β → Prop}
    {E : World β → Prop} (h : work.Yields w Q fun _ => E) :
    (within context work).Yields w Q fun _ => E := by
  apply h.attempt_bind
  · intro a w' ha
    exact Task.yields_pure ha
  · intro e w' he
    exact Task.yields_fail he

/-- The call that settles the first of the pending artifacts. -/
theorem yields_updateStatus {context id : String} {cur : Artifact} {status : ArtifactStatus}
    {publishedAt : Option Int} (hcur : w.artifacts.find id = some cur)
    (hsettles : Finalised cur (withStatus cur status publishedAt)) :
    (within context (step (updateStatus id status publishedAt))).Yields w
      (fun _ w' => Confined K w w' ∧
        ∀ other, other ≠ id → w'.artifacts.find other = w.artifacts.find other)
      fun _ w' => Confined K w w' := by
  have hcall := updateStatus_pending (K := K) hcur hsettles
  apply yields_within
  exact Task.yields_call (fun _ _ => hcall) (fun _ => hcall.1) fun _ => .refl w

/-- Every intent to publish is finalised; the intents to withdraw are still pending. -/
theorem yields_finalizePublish (now : Int) {arts others : List Artifact}
    (harts : Pending .publishPending w arts) (hothers : Pending .withdrawPending w others) :
    (finalizePublish now arts).Yields w
      (fun _ w' => Confined K w w' ∧ Pending .withdrawPending w' others)
      fun _ w' => Confined K w w' := by
  induction arts generalizing w with
  | nil => exact Task.yields_pure ⟨.refl w, hothers⟩
  | cons art rest ih =>
      obtain ⟨hcur, hstatus⟩ := harts.found art List.mem_cons_self
      have hread : (within s!"finalize publish intent {art.id}"
          (step (getByArtifact (β := β) art.id))).Yields w (fun _ w' => w' = w)
          fun _ w' => w' = w :=
        yields_within (Task.yields_call (fun _ _ => rfl) (fun _ => rfl) fun _ => rfl)
      apply hread.bind (fun _ w' hw' => by rw [hw']; exact .refl w)
      intro sess w' hw'
      subst hw'
      have hdelete : (within s!"clear publish staging {art.id}"
          (step (deleteStaging (β := β) sess.stagingKey))).Yields w' (fun _ v => SameRows w' v)
          fun _ v => SameRows w' v := by
        have hsame : SameRows w' (deleteStaging sess.stagingKey w').2 := by
          unfold deleteStaging
          split
          · exact ⟨rfl, rfl, rfl⟩
          · exact .refl w'
        exact yields_within (Task.yields_call (fun _ _ => hsame) (fun _ => hsame) fun _ => .refl w')
      apply hdelete.bind (fun _ _ hv => hv.confined)
      intro _ v hv
      rw [← hv.artifacts] at hcur
      apply (yields_updateStatus hcur (.published _ hstatus)).bind
        (fun _ _ hu => hv.confined.trans hu)
      intro _ u hu
      have hsame : ∀ other, other ≠ art.id → u.artifacts.find other = w'.artifacts.find other := by
        intro other hne
        rw [hu.2 other hne, hv.artifacts]
      have hconfined := hv.confined.trans hu.1
      rw [hv.artifacts] at hcur
      apply (ih (harts.tail hsame)
        (hothers.other hcur (by rw [hstatus]; decide) hsame)).imp
      · exact fun _ _ ht => ⟨hconfined.trans ht.1, ht.2⟩
      · exact fun _ _ ht => hconfined.trans ht

theorem stays_finalizeWithdraw {arts : List Artifact} (harts : Pending .withdrawPending w arts) :
    Stays K w (finalizeWithdraw arts) := by
  induction arts generalizing w with
  | nil => exact stays_pure ()
  | cons art rest ih =>
      obtain ⟨hcur, hstatus⟩ := harts.found art List.mem_cons_self
      apply stays_bind (yields_updateStatus hcur (.withdrawn hstatus))
      intro _ w' hw' _
      exact ih (harts.tail hw')

theorem stays_publishMetadataLocked (task : Nat) (now : Int) :
    Stays K w (publishMetadataLocked env config.toConfig task now) := by
  apply (stays_reading _).seq
  intro published w₁ _
  apply (pending_listByStatus _).bind (fun _ w' hw' => by rw [hw']; exact .refl w₁)
  intro publishPending w₂ hpublish
  obtain ⟨rfl, hpublish⟩ := hpublish
  apply (pending_listByStatus _).bind (fun _ w' hw' => by rw [hw']; exact .refl w₂)
  intro withdrawPending w₃ hwithdraw
  obtain ⟨rfl, hwithdraw⟩ := hwithdraw
  refine stays_check fun targets _ => ?_
  have hwrite : (writeRelease env config.toConfig task now targets maxMetadataVersionAttempts).Yields
      w₃ (fun _ w' => Confined K w₃ w' ∧ Pending .publishPending w' publishPending ∧
        Pending .withdrawPending w' withdrawPending) fun _ w' => Confined K w₃ w' :=
    (sameRows_writeRelease task now targets _).imp
      (fun _ _ hw' => ⟨hw'.confined, hpublish.sameRows hw', hwithdraw.sameRows hw'⟩)
      fun _ _ hw' => hw'.confined
  apply stays_bind hwrite
  intro _ w₄ hpending _
  apply stays_bind (yields_finalizePublish now hpending.1 hpending.2)
  exact fun _ _ hw' _ => stays_finalizeWithdraw hw'

theorem stays_withMetadataPublishLease {task : Nat} {body : Work β Unit}
    (hbody : ∀ w', SameRows w w' → Stays K w' body) :
    Stays K w (withMetadataPublishLease task body) := by
  have hacquire : (step (acquirePublishLease (β := β) task)).Yields w
      (fun _ w' => Confined K w w' ∧ SameRows w w') fun _ w' => Confined K w w' := by
    have hsame : SameRows w (acquirePublishLease task w).2 := by
      unfold acquirePublishLease
      split
      · exact .refl w
      · exact ⟨rfl, rfl, rfl⟩
    exact Task.yields_call (fun _ _ => ⟨hsame.confined, hsame⟩) (fun _ => hsame.confined)
      fun _ => .refl w
  apply stays_bind hacquire
  intro _ w₁ hsame _
  apply (hbody w₁ hsame).attempt.seq
  intro outcome w₂ _
  have hrelease : Stays K w₂ (step (releaseLease (β := β) task)) := by
    apply stays_call
    unfold releaseLease
    split
    · exact .of_eq rfl rfl rfl
    · exact .refl w₂
  apply hrelease.attempt.seq
  intro released w₃ _
  cases outcome with
  | error e => exact stays_fail e
  | ok _ =>
      cases released with
      | ok _ => exact stays_pure ()
      | error e => exact stays_fail _

theorem stays_updateArtifact {art : Artifact} {id : String} (hid : art.id = id)
    (hnew : art.publisherKeyID = K)
    (hold : ∀ cur, w.artifacts.find id = some cur → cur.publisherKeyID = K) :
    Stays K w (step (updateArtifact art)) := by
  subst hid
  apply stays_call
  unfold updateArtifact
  split
  · exact .refl w
  · split
    · exact .putArtifact rfl hnew hold
    · exact .refl w

theorem stays_withdraw {task : Nat} {id : String} {now : Int}
    (hart : ∀ art, w.artifacts.find id = some art → art.publisherKeyID = K) :
    Stays K w (withdraw env config.toConfig task id now) := by
  apply stays_withMetadataPublishLease
  intro w₁ hw₁
  rw [← hw₁.artifacts] at hart
  apply stays_get
  intro art hfind
  have howner := hart art hfind
  have hid : art.id = id := (Table.find_eq_some.mp hfind).2
  have hpublish : ∀ v, Stays K v (do
      publishMetadataLocked env config.toConfig task now
      let _ ← step (getArtifact id)) := by
    intro v
    apply (stays_publishMetadataLocked task now).seq
    intro _ v' _
    exact (stays_reading _).seq fun _ _ _ => stays_pure _
  cases hstatus : art.status with
  | withdrawn => exact stays_pure ()
  | withdrawPending => exact hpublish w₁
  | published =>
      have hupdate : Stays K w₁ (step (updateArtifact { art with status := .withdrawPending })) :=
        stays_updateArtifact hid howner hart
      exact hupdate.seq fun _ v _ => hpublish v
  | staged | scanned | approved | publishPending | rejected => exact stays_fail _

end

end Useful.Server
