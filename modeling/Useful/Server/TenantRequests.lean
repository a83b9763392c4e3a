/-
# Requests of a tenant

A request that carries the token of an identity bound to one publisher key changes rows of
that publisher only, and learns nothing of the identifiers of others that it would not
learn of one that does not exist. The new key of a rotation is the exception: whether it
is registered can be told from the answer.
-/

import Useful.Server.Tenancy

namespace Useful.Server

open Useful.Math

variable {β : Type} {env : External β} {config : HttpConfig} {p : Principal} {around : Surroundings}
  {K : String}

/-! ## What a tenant changes -/

/-- Rows change only for one publisher key: a new key has the publisher of that key, and was
rotated from it. -/
structure Tenant (K : String) (s t : Api β) : Prop where
  world : Confined K s.world t.world
  advisories : ∃ added, t.advisories = s.advisories ++ added ∧
    ∀ adv ∈ added, adv.publisherKeyID = K
  keys : ∀ keyID, t.keys.find keyID = s.keys.find keyID ∨
    s.keys.find keyID = none ∧ ∃ key old, t.keys.find keyID = some key ∧ key.rotatedFrom = K ∧
      s.keys.find K = some old ∧ key.publisherID = old.publisherID

namespace Tenant

variable {s t u : Api β}

theorem refl (s : Api β) : Tenant K s s :=
  ⟨.refl _, ⟨[], (List.append_nil _).symm, nofun⟩, fun _ => .inl rfl⟩

theorem trans (h : Tenant K s t) (h' : Tenant K t u) : Tenant K s u where
  world := h.world.trans h'.world
  advisories := by
    obtain ⟨added, hadded, hown⟩ := h.advisories
    obtain ⟨added', hadded', hown'⟩ := h'.advisories
    refine ⟨added ++ added', by rw [hadded', hadded, List.append_assoc], fun adv hadv => ?_⟩
    exact (List.mem_append.mp hadv).elim (hown adv) (hown' adv)
  keys keyID := by
    cases h'.keys keyID with
    | inl hsame' => exact hsame' ▸ h.keys keyID
    | inr hnew' =>
        obtain ⟨hfree, key, old, hkey, hrotated, hold, hpublisher⟩ := hnew'
        have holdS : s.keys.find K = some old := by
          cases h.keys K with
          | inl hsame => exact hsame.symm.trans hold
          | inr hnew =>
              obtain ⟨hnone, _, _, _, _, hsome, _⟩ := hnew
              rw [hnone] at hsome
              cases hsome
        have hfreeS : s.keys.find keyID = none := by
          cases h.keys keyID with
          | inl hsame => exact hsame.symm.trans hfree
          | inr hnew => exact hnew.1
        exact .inr ⟨hfreeS, key, old, hkey, hrotated, holdS, hpublisher⟩

theorem of_eq (h : t = s) : Tenant K s t := h ▸ .refl t

theorem of_touched (h : Touched s t) : Tenant K s t := by
  refine ⟨h.world ▸ .refl _, ⟨[], by rw [h.advisories, List.append_nil], nofun⟩, fun keyID => ?_⟩
  exact .inl (by rw [h.keys])

end Tenant

/-- Whatever comes of the request, rows change only for one publisher key. -/
def Heeds (K : String) (s : Api β) {α : Type} (task : Handling β α) : Prop :=
  task.Yields s (fun _ t => Tenant K s t) fun _ t => Tenant K s t

section

variable {s : Api β} {α : Type}

theorem heeds_pure (a : α) : Heeds K s (pure a : Handling β α) := Task.yields_pure (.refl s)

theorem heeds_onWorld {work : Work β α} (h : Stays K s.world work) : Heeds K s (onWorld work) := by
  have hworld : ∀ w, Confined K s.world w → Tenant K s { s with world := w } := fun w hw =>
    ⟨hw, ⟨[], (List.append_nil _).symm, nofun⟩, fun _ => .inl rfl⟩
  exact yields_onWorld h (fun _ w hw => hworld w hw) fun _ w hw => hworld w hw

/-- Work, and the handling of its result. -/
theorem heeds_orProblem {work : Handling β α} {next : α → Handling β Response}
    {Q : α → Api β → Prop}
    (h : work.Yields s (fun a t => Tenant K s t ∧ Q a t) fun _ t => Tenant K s t)
    (hnext : ∀ a t, Q a t → Heeds K t (next a)) : Heeds K s (orProblem work next) := by
  apply yields_orProblem h
  · exact fun _ _ ht => ht
  · intro a t ht
    exact (hnext a t ht.2).imp (fun _ _ => ht.1.trans) fun _ _ => ht.1.trans

theorem Heeds.orProblem {work : Handling β α} {next : α → Handling β Response}
    (h : Heeds K s work) (hnext : ∀ a t, Heeds K t (next a)) :
    Heeds K s (orProblem work next) :=
  heeds_orProblem (Q := fun _ _ => True) (h.imp (fun _ _ ht => ⟨ht, trivial⟩) fun _ _ => id)
    fun a t _ => hnext a t

/-- The row of the service that a request names. -/
theorem yields_onWorld_get {ρ κ : Type} {key : ρ → κ} [DecidableEq κ]
    (table : World β → Table ρ key) (k : κ) : (onWorld (step (get table k))).Yields s
      (fun row t => t = s ∧ (table s.world).find k = some row) fun _ t => t = s := by
  apply yields_onWorld (yields_get table k)
  · intro row w hw
    obtain ⟨rfl, hrow⟩ := hw
    exact ⟨rfl, hrow⟩
  · exact fun _ w hw => hw ▸ rfl

theorem heeds_get {ρ κ : Type} {key : ρ → κ} [DecidableEq κ] {table : World β → Table ρ key} {k : κ}
    {next : ρ → Handling β Response}
    (hnext : ∀ row, (table s.world).find k = some row → Heeds K s (next row)) :
    Heeds K s (orProblem (onWorld (step (get table k))) next) := by
  have hget : (onWorld (step (get table k))).Yields s
      (fun row t => Tenant K s t ∧ t = s ∧ (table s.world).find k = some row)
      fun _ t => Tenant K s t :=
    (yields_onWorld_get table k).imp (fun _ _ ht => ⟨.of_eq ht.1, ht⟩)
      fun _ _ ht => .of_eq ht
  apply heeds_orProblem hget
  intro row t ht
  obtain ⟨rfl, hrow⟩ := ht
  exact hnext row hrow

/-- A caller without a role beyond the tenant. -/
structure Principal.Tenant (p : Principal) (K : String) (scope : Scope) : Prop where
  key : p.publisherKeyID = K
  noInstanceAdmin : .instanceAdmin ∉ p.roles
  noSourceAdmin : .sourceAdmin ∉ p.roles
  noSecurityReviewer : scope = .publisherAdvisory → .securityReviewer ∉ p.roles

theorem mayActFor_iff {publisherKeyID : String} {scope : Scope} (hp : p.Tenant K scope) :
    p.mayActFor publisherKeyID scope = true ↔
      hasPublisherRole p.roles = true ∧ K = publisherKeyID := by
  have hinstance : p.roles.contains .instanceAdmin = false := by
    simpa using hp.noInstanceAdmin
  have hsource : p.roles.contains .sourceAdmin = false := by
    simpa using hp.noSourceAdmin
  have hsecurity : (scope == .publisherAdvisory && p.roles.contains .securityReviewer) = false := by
    by_cases hscope : scope = .publisherAdvisory
    · simpa [hscope] using hp.noSecurityReviewer hscope
    · simp [hscope]
  unfold Principal.mayActFor Principal.hasGlobalPublisherScope
  rw [hinstance, hsource, hsecurity, hp.key]
  simp only [Bool.or_self, Bool.false_or, Bool.and_eq_true, beq_iff_eq]

theorem heeds_forOwner {publisherKeyID : String} {scope : Scope} {next : Handling β Response}
    (hp : p.Tenant K scope) (hnext : publisherKeyID = K → Heeds K s next) :
    Heeds K s (forOwner p publisherKeyID scope next) := by
  unfold forOwner
  split
  · rename_i hmay
    exact hnext ((mayActFor_iff hp).mp hmay).2.symm
  · exact heeds_pure _

end

/-! ### The publisher handlers -/

section

variable {s : Api β}

theorem heeds_createUpload (hp : p.Tenant K .publisherWrite) (body : Option UploadBody) :
    Heeds K s (handleCreateUpload config p around body) := by
  cases body with
  | none => exact heeds_pure _
  | some req =>
      apply heeds_forOwner hp
      intro howner
      rw [howner]
      exact (heeds_onWorld (stays_createUploadSession _ _ _ _)).orProblem fun _ _ => heeds_pure _

theorem heeds_uploadContent (hp : p.Tenant K .publisherWrite) (id : String) (content : β) :
    Heeds K s (handleUploadContent env p id content) := by
  apply heeds_get
  intro sess hsess
  apply heeds_forOwner hp
  intro howner
  have hstays : Stays K s.world (receiveContent env id content) := by
    apply stays_receiveContent
    intro sess' hsess'
    rw [hsess] at hsess'
    cases hsess'
    exact howner
  exact (heeds_onWorld hstays).orProblem fun _ _ => heeds_pure _

theorem heeds_createRelease (hp : p.Tenant K .publisherWrite) (body : Option ReleaseRequest) :
    Heeds K s (handleCreateRelease env config p around body) := by
  cases body with
  | none => exact heeds_pure _
  | some req =>
      apply heeds_get
      intro sess hsess
      apply heeds_forOwner hp
      intro howner
      have hstays : Stays K s.world (createRelease env config.toConfig req
          ("art_" ++ around.artifactUUID) around.jobID around.now) := by
        apply stays_createRelease
        intro sess' hsess'
        rw [hsess] at hsess'
        cases hsess'
        exact howner
      exact (heeds_onWorld hstays).orProblem fun _ _ => heeds_pure _

theorem heeds_getRelease (hp : p.Tenant K .publisherWrite) (releaseID : String) :
    Heeds K s (handleGetRelease p releaseID) := by
  apply heeds_get
  intro art _
  exact heeds_forOwner hp fun _ => heeds_pure _

theorem heeds_withdraw (hp : p.Tenant K .publisherWithdraw) (releaseID : String)
    (reason : Option String) : Heeds K s (handleWithdraw env config p around releaseID reason) := by
  cases reason with
  | none => exact heeds_pure _
  | some reason =>
      rw [handleWithdraw]
      split
      · exact heeds_pure _
      · apply heeds_get
        intro art hart
        apply heeds_forOwner hp
        intro howner
        have hstays : Stays K s.world
            (withdraw env config.toConfig around.task releaseID around.now) := by
          apply stays_withdraw
          intro art' hart'
          rw [hart] at hart'
          cases hart'
          exact howner
        exact (heeds_onWorld hstays).orProblem fun _ _ => heeds_pure _

theorem heeds_createAdvisory (hp : p.Tenant K .publisherAdvisory) (body : Option AdvisoryBody) :
    Heeds K s (handleCreateAdvisory p around body) := by
  cases body with
  | none => exact heeds_pure _
  | some req =>
      rw [handleCreateAdvisory]
      split
      · exact heeds_pure _
      · apply heeds_forOwner hp
        intro howner
        have htool : Heeds K s (ask (getTool (β := β) req.publisherKeyID req.toolID)) :=
          Task.yields_call (fun _ _ => .refl s) (fun _ => .refl s) fun _ => .refl s
        apply htool.orProblem
        intro tool t
        have hadvisory : ∀ adv : SecurityAdvisory, adv.publisherKeyID = K →
            Heeds K t (createAdvisory adv) := by
          intro adv hadv
          have hadded : Tenant K t (insertAdvisory adv t).2 :=
            ⟨.refl _, ⟨[adv], rfl, by simpa using hadv⟩, fun _ => .inl rfl⟩
          refine Task.yields_ofExcept_bind (fun _ _ => .refl t) fun _ _ => ?_
          refine Task.yields_ofExcept_bind (fun _ _ => .refl t) fun _ _ => ?_
          refine Task.yields_ofExcept_bind (fun _ _ => .refl t) fun _ _ => ?_
          have hcall : Heeds K t (ask (insertAdvisory adv)) :=
            Task.yields_call (fun _ _ => hadded) (fun _ => hadded) fun _ => .refl t
          apply hcall.bind (fun _ _ => id)
          exact fun _ _ hu => Task.yields_pure hu
        exact (hadvisory _ howner).orProblem fun _ _ => heeds_pure _

theorem tenant_addKey {key old : PublisherKey} (hold : s.keys.find K = some old)
    (hrotated : key.rotatedFrom = K) (hpublisher : key.publisherID = old.publisherID) :
    Tenant K s (addKey key s).2 := by
  unfold addKey
  split
  · exact .refl s
  · split
    · exact .refl s
    · rename_i hfree
      split
      · exact .refl s
      · split
        · exact .refl s
        · split
          · exact .refl s
          · split
            · exact .refl s
            · refine ⟨.of_eq rfl rfl rfl, ⟨[], (List.append_nil _).symm, ?_⟩, fun keyID => ?_⟩
              · intro _ hmem
                cases hmem
              show (s.keys.put key).find keyID = _ ∨ _
              rw [Table.find_put]
              split
              · rename_i hkey
                subst hkey
                exact .inr ⟨hfree, key, old, rfl, hrotated, hold, hpublisher⟩
              · exact .inl rfl

theorem heeds_rotateKey (hp : p.Tenant K .publisherKeys) (body : Option RotateBody) :
    Heeds K s (handleRotateKey env p around body) := by
  have hlookup : ∀ keyID, (ask (getKey (β := β) keyID)).Yields s
      (fun key t => t = s ∧ s.keys.find keyID = some key) fun _ t => t = s := fun keyID =>
    Task.yields_call (fun _ hfound => ⟨rfl, orFail_eq_ok.mp hfound⟩) (fun _ => rfl) fun _ => rfl
  cases body with
  | none => exact heeds_pure _
  | some req =>
      have hfirst : (ask (getKey (β := β) req.oldKeyID)).Yields s
          (fun key t => Tenant K s t ∧ t = s ∧ s.keys.find req.oldKeyID = some key)
          fun _ t => Tenant K s t :=
        (hlookup _).imp (fun _ _ ht => ⟨.of_eq ht.1, ht⟩) fun _ _ ht => .of_eq ht
      apply heeds_orProblem hfirst
      intro oldKey t ht
      obtain ⟨rfl, hold⟩ := ht
      apply heeds_forOwner hp
      intro howner
      have hK : req.oldKeyID = K := (Table.find_eq_some.mp hold).2.symm.trans howner
      have hrotate : Heeds K t (rotateKey env req.oldKeyID req.newKeyID req.crossSignature
          around.now) := by
        have hsecond : (Task.attempt (ask (getKey (β := β) req.oldKeyID))).Yields t
            (fun outcome u => u = t ∧ ∀ key, outcome = .ok key →
              t.keys.find req.oldKeyID = some key) fun _ u => u = t := by
          apply (hlookup req.oldKeyID).attempt
          · intro key u hu
            refine ⟨hu.1, fun key' heq => ?_⟩
            cases heq
            exact hu.2
          · exact fun e u hu => ⟨hu, nofun⟩
        apply hsecond.bind (fun _ _ hu => .of_eq hu)
        intro outcome u hu
        obtain ⟨rfl, hfound⟩ := hu
        cases outcome with
        | error e => exact Task.yields_fail (.refl u)
        | ok old =>
            have hfind := hK ▸ hfound old rfl
            refine Task.yields_ofExcept_bind (fun _ _ => .refl u) fun _ _ => ?_
            have hadd : ∀ key : PublisherKey, key.rotatedFrom = K →
                key.publisherID = old.publisherID → Heeds K u (ask (addKey key)) := by
              intro key hrotated hpublisher
              have hstep := tenant_addKey hfind hrotated hpublisher
              exact Task.yields_call (fun _ _ => hstep) (fun _ => hstep) fun _ => .refl u
            exact hadd _ hK rfl
      exact hrotate.orProblem fun _ _ => heeds_pure _

end

/-! ## Authenticated requests -/

/-- A request with the token of an identity bound to a publisher key, without a role beyond
the tenant and without the scope of reviews. -/
structure TenantRequest (env : External β) (K : String) (s : Api β) (req : ApiRequest β)
    (raw : String) (token : APIToken) (identity : Identity) : Prop where
  bearer : bearer req.credentials.authorization = some raw
  stored : token ∈ s.tokens.table.rows
  hash : token.tokenHash = env.sha256Text raw
  owner : s.identities.find token.identityID = some identity
  key : identity.publisherKeyID = K
  noInstanceAdmin : .instanceAdmin ∉ identity.roles
  noSourceAdmin : .sourceAdmin ∉ identity.roles
  noSecurityReviewer : req.endpoint.scope = .publisherAdvisory →
    .securityReviewer ∉ identity.roles
  noReview : .reviewWrite ∉ token.scopes

section

variable {s : Api β} {req : ApiRequest β} {raw : String} {token : APIToken} {identity : Identity}

theorem TenantRequest.principal (h : TenantRequest env K s req raw token identity)
    (hp : Authenticated env raw s p) :
    p.Tenant K req.endpoint.scope ∧ .reviewWrite ∉ p.scopes := by
  obtain ⟨row, hrow, hhash, hscopes, found, hfound, hroles, hkey⟩ := hp.row
  have hsame : row = token := s.tokens.unique row hrow token h.stored (hhash.trans h.hash.symm)
  subst hsame
  rw [h.owner] at hfound
  cases hfound
  rw [← hscopes]
  refine ⟨⟨hkey.symm.trans h.key, ?_, ?_, ?_⟩, h.noReview⟩
  · exact hroles ▸ h.noInstanceAdmin
  · exact hroles ▸ h.noSourceAdmin
  · exact hroles ▸ h.noSecurityReviewer

/-- Without the two administrators, roles give no scope of administration. -/
theorem no_admin_scope {roles : List Role} (hinstance : .instanceAdmin ∉ roles)
    (hsource : .sourceAdmin ∉ roles) : .adminIdentities ∉ scopesForRoles roles ∧
      .adminTokens ∉ scopesForRoles roles := by
  have hrole : ∀ scope : Scope, (scope = .adminIdentities ∨ scope = .adminTokens) →
      scope ∉ scopesForRoles roles := by
    intro scope hscope hmem
    obtain ⟨role, hrole, hallowed⟩ := mem_scopesForRoles.mp hmem
    cases role with
    | instanceAdmin => exact hinstance hrole
    | sourceAdmin => exact hsource hrole
    | unknown name => cases hallowed
    | publisherOwner | publisherMaintainer | publisherViewer | reviewer | securityReviewer =>
        cases hscope with
        | inl heq | inr heq =>
            subst heq
            revert hallowed
            decide
  exact ⟨hrole _ (.inl rfl), hrole _ (.inr rfl)⟩

theorem heeds_serve {endpoint : Endpoint β} (hp : p.Tenant K endpoint.scope)
    (hreview : .reviewWrite ∉ p.scopes)
    (hscopes : ∀ scope ∈ p.scopes, scope ∈ scopesForRoles p.roles) :
    Heeds K s (serve env config p around endpoint) := by
  have hadmin := no_admin_scope hp.noInstanceAdmin hp.noSourceAdmin
  unfold serve
  split
  · rename_i hcontains
    have hscope : endpoint.scope ∈ p.scopes := List.contains_iff_mem.mp hcontains
    cases endpoint with
    | createUpload body => exact heeds_createUpload hp body
    | uploadContent id content => exact heeds_uploadContent hp id content
    | createRelease body => exact heeds_createRelease hp body
    | getRelease releaseID => exact heeds_getRelease hp releaseID
    | review releaseID body => exact absurd hscope hreview
    | withdraw releaseID reason => exact heeds_withdraw hp releaseID reason
    | createAdvisory body => exact heeds_createAdvisory hp body
    | rotateKey body => exact heeds_rotateKey hp body
    | createIdentity | listIdentities | listAudit | registerPublisher | listPublishers =>
        exact absurd (hscopes _ hscope) hadmin.1
    | createAPIToken | listAPITokens | revokeAPIToken => exact absurd (hscopes _ hscope) hadmin.2
  · exact heeds_pure _

theorem TenantRequest.yields_authenticate (h : TenantRequest env K s req raw token identity) :
    (authenticateAdmin env config req.credentials req.around.now).Yields s
      (fun found t => Touched s t ∧ ∀ p, found = some p → Authenticated env raw s p)
      fun _ t => Touched s t := by
  unfold authenticateAdmin
  rw [h.bearer]
  exact yields_authenticateToken raw req.around.now

theorem heeds_respond (h : TenantRequest env K s req raw token identity) :
    Heeds K s (respond env config req.credentials req.around req.endpoint) := by
  apply h.yields_authenticate.bind (fun _ _ ht => .of_touched ht)
  intro found t ht
  cases found with
  | none => exact Task.yields_pure (.of_touched ht.1)
  | some p =>
      have hp := ht.2 p rfl
      obtain ⟨htenant, hreview⟩ := h.principal hp
      exact (heeds_serve htenant hreview hp.scopes).imp (fun _ _ => (Tenant.of_touched ht.1).trans)
        fun _ _ => (Tenant.of_touched ht.1).trans

end

/-! ## What a tenant learns -/

/-- Two requests that differ in one identifier, which belongs to somebody else in the first
and does not exist in the second. -/
inductive Unseen (K : String) (s : Api β) : Endpoint β → Endpoint β → Prop
  | createUpload (body : UploadBody) (missing : String) (hforeign : body.publisherKeyID ≠ K)
      (hmissing : s.world.publishers.find missing = none) :
      Unseen K s (.createUpload (some body))
        (.createUpload (some { body with publisherKeyID := missing }))
  | uploadContent (id missing : String) (content : β) {sess : UploadSession}
      (hrow : s.world.uploads.find id = some sess) (hforeign : sess.publisherKeyID ≠ K)
      (hmissing : s.world.uploads.find missing = none) :
      Unseen K s (.uploadContent id content) (.uploadContent missing content)
  | createRelease (body : ReleaseRequest) (missing : String) {sess : UploadSession}
      (hrow : s.world.uploads.find body.uploadSessionID = some sess)
      (hforeign : sess.publisherKeyID ≠ K) (hmissing : s.world.uploads.find missing = none) :
      Unseen K s (.createRelease (some body))
        (.createRelease (some { body with uploadSessionID := missing }))
  | getRelease (id missing : String) {art : Artifact}
      (hrow : s.world.artifacts.find id = some art) (hforeign : art.publisherKeyID ≠ K)
      (hmissing : s.world.artifacts.find missing = none) :
      Unseen K s (.getRelease id) (.getRelease missing)
  | review (id missing : String) (body : Option ReviewBody) :
      Unseen K s (.review id body) (.review missing body)
  | withdraw (id missing : String) (reason : Option String) {art : Artifact}
      (hrow : s.world.artifacts.find id = some art) (hforeign : art.publisherKeyID ≠ K)
      (hmissing : s.world.artifacts.find missing = none) :
      Unseen K s (.withdraw id reason) (.withdraw missing reason)
  | createAdvisory (body : AdvisoryBody) (missing : String) (hforeign : body.publisherKeyID ≠ K)
      (hmissing : s.world.publishers.find missing = none) :
      Unseen K s (.createAdvisory (some body))
        (.createAdvisory (some { body with publisherKeyID := missing }))
  | rotateKey (body : RotateBody) (missing : String) {key : PublisherKey}
      (hrow : s.keys.find body.oldKeyID = some key) (hforeign : body.oldKeyID ≠ K)
      (hmissing : s.keys.find missing = none) :
      Unseen K s (.rotateKey (some body)) (.rotateKey (some { body with oldKeyID := missing }))

section

variable {s t : Api β} {α γ : Type}

theorem alone_orProblem (work : Handling β α) (next : α → Handling β Response)
    (replies : Nat → Reply ServerError) (t : Api β) : (orProblem work next).alone replies t =
      match work.alone replies t with
      | (.ok a, rest, u) => (next a).alone rest u
      | (.error e, rest, u) => (.ok (domainProblem e), rest, u) := by
  unfold orProblem
  rw [Task.alone_bind, Task.alone_attempt]
  match work.alone replies t with
  | (.ok a, rest, u) => rfl
  | (.error e, rest, u) => rfl

theorem alone_onWorld (work : Work β α) (replies : Nat → Reply ServerError) (t : Api β) :
    (onWorld work).alone replies t = ((work.alone replies t.world).1,
      (work.alone replies t.world).2.1, { t with world := (work.alone replies t.world).2.2 }) := by
  unfold onWorld
  apply Task.alone_zoom
  · exact fun _ _ => rfl
  · exact fun _ _ _ => rfl
  · exact fun _ => rfl

/-- A look-up takes one reply and leaves the store as it is. -/
def Looks (task : Handling β α) (found : Except ServerError α) (t : Api β) : Prop :=
  ∀ replies, task.alone replies t =
    (match replies 0 with
      | .proceed => found
      | .refuse e | .lose e => .error e,
      fun k => replies (k + 1), t)

theorem looks_get {ρ κ : Type} {key : ρ → κ} [DecidableEq κ] (table : World β → Table ρ key)
    (k : κ) : Looks (onWorld (step (get table k)))
      (orFail (.notFound "") ((table t.world).find k)) t := by
  intro replies
  rw [alone_onWorld, step, Task.alone_call]
  cases replies 0 with
  | proceed => rfl
  | refuse e => rfl
  | lose e => rfl

theorem looks_ask (look : Api β → Except ServerError α) :
    Looks (ask (lookingAt look)) (look t) t := by
  intro replies
  unfold ask
  rw [Task.alone_call]
  cases replies 0 with
  | proceed => rfl
  | refuse e => rfl
  | lose e => rfl

theorem looks_getKey (keyID : String) :
    Looks (ask (getKey (β := β) keyID)) (orFail (.notFound "") (t.keys.find keyID)) t :=
  looks_ask fun api => orFail (.notFound "") (api.keys.find keyID)

theorem Looks.attempt {work : Handling β α} {found : Except ServerError α}
    {next : Except ServerError α → Handling β γ} (h : Looks work found t)
    {replies : Nat → Reply ServerError} (hproceeds : replies 0 = .proceed) :
    (Task.attempt work >>= next).alone replies t =
      (next found).alone (fun k => replies (k + 1)) t := by
  rw [Task.alone_bind, Task.alone_attempt, h replies, hproceeds]

/-- A row that is found and then concealed, and a row that is not found. -/
theorem concealed {work : Handling β α} {work' : Handling β γ} {next : α → Handling β Response}
    {next' : γ → Handling β Response} {a : α} (h : Looks work (.ok a) t)
    (h' : Looks work' (.error (.notFound "")) t)
    (hnext : next a = return .problem 404 "not found" "") (replies : Nat → Reply ServerError) :
    ((orProblem work next).alone replies t).1 = ((orProblem work' next').alone replies t).1 := by
  rw [alone_orProblem, alone_orProblem, h replies, h' replies]
  cases replies 0 with
  | proceed => simp only [hnext]; rfl
  | refuse e => rfl
  | lose e => rfl

theorem forOwner_stranger {publisherKeyID : String} {scope : Scope} {next : Handling β Response}
    (hp : p.Tenant K scope) (hforeign : publisherKeyID ≠ K) :
    forOwner p publisherKeyID scope next = return .problem 404 "not found" "" := by
  unfold forOwner
  rw [if_neg fun hmay => hforeign ((mayActFor_iff hp).mp hmay).2.symm]

/-- A publisher that is not registered has no tenant. -/
theorem forOwner_missing {publisherKeyID raw : String} {scope : Scope}
    {next : Handling β Response} (hp : p.Tenant K scope) (hauthenticated : Authenticated env raw s p)
    (hmissing : s.world.publishers.find publisherKeyID = none) :
    forOwner p publisherKeyID scope next = return .problem 404 "not found" "" := by
  unfold forOwner
  rw [if_neg]
  intro hmay
  obtain ⟨hrole, heq⟩ := (mayActFor_iff hp).mp hmay
  obtain ⟨publisher, hpublisher⟩ := hauthenticated.registered hrole
  rw [hp.key, heq, hmissing] at hpublisher
  cases hpublisher

theorem unseen_scope {endpoint endpoint' : Endpoint β} (h : Unseen K s endpoint endpoint') :
    endpoint'.scope = endpoint.scope := by
  cases h with
  | _ => rfl

/-- The two requests are answered alike. -/
theorem unseen_handler {raw : String} {endpoint endpoint' : Endpoint β}
    (hp : p.Tenant K endpoint.scope) (hauthenticated : Authenticated env raw s p)
    (hscope : endpoint.scope ∈ p.scopes) (hreview : .reviewWrite ∉ p.scopes) (ht : Touched s t)
    (h : Unseen K s endpoint endpoint') (replies : Nat → Reply ServerError) :
    ((handler env config p around endpoint).alone replies t).1 =
      ((handler env config p around endpoint').alone replies t).1 := by
  have hget : ∀ {ρ κ : Type} {key : ρ → κ} [DecidableEq κ] (table : World β → Table ρ key) {k : κ}
      {row : Option ρ}, (table s.world).find k = row →
        Looks (onWorld (step (get table k))) (orFail (.notFound "") row) t := by
    intro ρ κ key _ table k row hrow
    rw [← hrow, ← ht.world]
    exact looks_get table k
  have hkey : ∀ {keyID : String} {row : Option PublisherKey}, s.keys.find keyID = row →
      Looks (ask (getKey keyID)) (orFail (.notFound "") row) t := by
    intro keyID row hrow
    rw [← hrow, ← ht.keys]
    exact looks_getKey keyID
  cases h with
  | createUpload body missing hforeign hmissing =>
      have hp : p.Tenant K .publisherWrite := hp
      simp only [handler, handleCreateUpload]
      rw [forOwner_stranger hp hforeign, forOwner_missing hp hauthenticated hmissing]
  | uploadContent id missing content hrow hforeign hmissing =>
      exact concealed (hget _ hrow) (hget _ hmissing) (forOwner_stranger hp hforeign) replies
  | createRelease body missing hrow hforeign hmissing =>
      exact concealed (hget _ hrow) (hget _ hmissing) (forOwner_stranger hp hforeign) replies
  | getRelease id missing hrow hforeign hmissing =>
      exact concealed (hget _ hrow) (hget _ hmissing) (forOwner_stranger hp hforeign) replies
  | review id missing body => exact absurd hscope hreview
  | withdraw id missing reason hrow hforeign hmissing =>
      cases reason with
      | none => rfl
      | some reason =>
          simp only [handler, handleWithdraw]
          split
          · rfl
          · exact concealed (hget _ hrow) (hget _ hmissing) (forOwner_stranger hp hforeign) replies
  | createAdvisory body missing hforeign hmissing =>
      have hp : p.Tenant K .publisherAdvisory := hp
      simp only [handler, handleCreateAdvisory]
      rw [forOwner_stranger hp hforeign, forOwner_missing hp hauthenticated hmissing]
  | rotateKey body missing hrow hforeign hmissing =>
      have hforeign : _ ≠ K := (Table.find_eq_some.mp hrow).2 ▸ hforeign
      exact concealed (hkey hrow) (hkey hmissing) (forOwner_stranger hp hforeign) replies

/-- A tenant's request changes rows of the tenant only, and is answered as if the identifiers
of others did not exist. -/
theorem isolated_of_tenant {req : ApiRequest β} {raw : String} {token : APIToken}
    {identity : Identity} (h : TenantRequest env K s req raw token identity) :
    Tenant K s (req.answer env config s).2 ∧
      ∀ endpoint, Unseen K s req.endpoint endpoint → (req.answer env config s).1 =
        (({ req with endpoint := endpoint } : ApiRequest β).answer env config s).1 := by
  constructor
  · have hheeds : Heeds K s (respond env config req.credentials req.around req.endpoint) :=
      heeds_respond h
    have hserves := hheeds req.replies
    unfold ApiRequest.answer
    revert hserves
    match (respond env config req.credentials req.around req.endpoint).alone req.replies s with
    | (.ok response, _, t) => exact id
    | (.error e, _, t) => exact id
  · intro endpoint hunseen
    have hyields : (authenticateAdmin env config req.credentials req.around.now).Yields s _ _ :=
      h.yields_authenticate
    have hauthenticate := hyields req.replies
    unfold ApiRequest.answer respond
    simp only
    rw [Task.alone_bind, Task.alone_bind]
    revert hauthenticate
    match (authenticateAdmin env config req.credentials req.around.now).alone req.replies s with
    | (.error e, rest, t) => exact fun _ => rfl
    | (.ok none, rest, t) => exact fun _ => rfl
    | (.ok (some p), rest, t) =>
        intro hfound
        have hp := hfound.2 p rfl
        obtain ⟨htenant, hreview⟩ := h.principal hp
        simp only [serve, unseen_scope hunseen]
        split
        · rename_i hcontains
          exact unseen_handler htenant hp (List.contains_iff_mem.mp hcontains) hreview hfound.1
            hunseen rest
        · rfl

end

end Useful.Server

/-! ## A rotation to a registered key -/

namespace Useful.Server.TenantRequests.Sample

open Useful.Math

def ownerKey : String :=
  "ed25519:d04ab232742bb4ab3a1368bd4615e4e6d0224ab71a016baf8520a332c9778737"

def strangerKey : String :=
  "ed25519:a09aa5f47a6759802ff955f8dc2d2a14a5c99d23be97f864127ff9383455a4f0"

/-- A key that is not registered. -/
def freshKey : String :=
  "ed25519:17cb79fb2b4120f2b1ec65e4198d6e08b28e813feb01e4a400839b85e18080ce"

/-- The owner's signature for the stranger's key. -/
def strangerSignature : String :=
  "aa5dc6a38315422556cc8983df629eb97259a816d459fc42ae0e0eda4c357b92" ++
    "388842f3b5debfa818dbed85f36964038da798ae81d021b5ad7aa757ecab3608"

/-- The owner's signature for the fresh key. -/
def freshSignature : String :=
  "c14894c06f4bf4430d7540bc25e0a37b0cc8e29e63873cc6d33b33a8ed6d0a1c" ++
    "9f6a9eda03d7138ebf2116509b8bea2f4f2e070cefe731ce63e296cb34073b0f"

def text : String :=
  "usefuls_5e5e5e5e5e5e5e5e5e5e5e5e5e5e5e5e5e5e5e5e5e5e5e5e5e5e5e5e5e5e5e5e"

def digest : String := "3bae47d3c56bb58a294d5a2644c9f8afc946ec2bc366e5050abb0bbc3344c017"

def env : External String where
  length s := s.utf8ByteSize
  sha256Hex s := if s = text then digest else "?" ++ s
  sha256Text s := if s = text then digest else "?" ++ s
  identityDigest := String.join
  ed25519Verify _ message _ :=
    message = "useful-key-rotation-v1\n" ++ strangerKey ∨
      message = "useful-key-rotation-v1\n" ++ freshKey
  ed25519Sign _ _ := ""
  hexError _ := ""
  marshalIndent _ := ""
  marshalScanResult _ := ""
  formatTime _ := ""
  readArchive _ := .error "zip: not a valid zip file"

def config : HttpConfig where
  targetsKey := ⟨"targets", "", true⟩
  snapshotKey := ⟨"snapshot", "", true⟩
  timestampKey := ⟨"timestamp", "", true⟩
  targetsExpireDays := 90
  snapshotExpireDays := 7
  timestampExpireDays := 1
  maxUpload := 1048576
  autoApprove := false
  adminToken := ""
  development := false
  emergencyAdminMode := false
  emergencyAdminUntil := 0
  isHttpsURL _ := false

def owner : Identity := ⟨"owner-a", "Owner A", "user", [.publisherOwner], ownerKey, false, 0⟩

def row : APIToken where
  id := "tok_0c0c0c0c0c0c0c0c0c0c0c0c"
  identityID := "owner-a"
  tokenHash := digest
  scopes := [.publisherWrite, .publisherKeys]
  expiresAt := 7776000
  revoked := false
  lastUsedAt := none
  createdAt := 0

def api : Api String where
  world := {
    publishers := (Table.empty.put ⟨"publisher-a", "A", ownerKey, 0, "", "", ""⟩).put
      ⟨"publisher-b", "B", strangerKey, 0, "", "", ""⟩
    tools := .empty
    artifacts := .empty
    artIdentityIx := fun _ => none
    uploads := .empty
    jobs := .empty
    objects := fun _ => none
    lease := none
    tufVersion := 0
    inspections := []
    scans := [] }
  keys := (Table.empty.put ⟨ownerKey, "publisher-a",
      "d04ab232742bb4ab3a1368bd4615e4e6d0224ab71a016baf8520a332c9778737", "", 0, "", "", ""⟩).put
    ⟨strangerKey, "publisher-b",
      "a09aa5f47a6759802ff955f8dc2d2a14a5c99d23be97f864127ff9383455a4f0", "", 0, "", "", ""⟩
  advisories := []
  identities := Table.empty.put owner
  tokens := Tokens.empty.insert row nofun

/-- The owner asks for a rotation. -/
def request (newKeyID crossSignature : String) : ApiRequest String where
  credentials := ⟨"Bearer " ++ text, ""⟩
  around := {
    now := 1000
    task := 0
    uploadID := ""
    artifactUUID := ""
    jobID := ""
    advisoryUUID := ""
    tokenSuffix := ""
    tokenDigits := none }
  endpoint := .rotateKey (some ⟨ownerKey, newKeyID, crossSignature⟩)
  replies _ := .proceed

theorem bearer_text : bearer ("Bearer " ++ text) = some text := by
  have hchars : ("Bearer " ++ text).toList = "Bearer ".toList ++ text.toList := String.toList_append
  have htext : text.toList = _ := String.toList_ofList
  rw [bearer, hchars, htext]
  decide

theorem tenantRequest (newKeyID crossSignature : String) :
    TenantRequest env ownerKey api (request newKeyID crossSignature) text row owner where
  bearer := bearer_text
  stored := Table.mem_put.mpr (.inl rfl)
  hash := by decide
  owner := Table.find_put_self
  key := rfl
  noInstanceAdmin := by decide
  noSourceAdmin := by decide
  noSecurityReviewer := nofun
  noReview := by decide

/-! ### Verified rotations -/

theorem canonical_ownerKey : isEd25519PublisherKey ownerKey = true := by
  have hchars : ownerKey.toList = _ := String.toList_ofList
  rw [isEd25519PublisherKey, hchars]
  decide

theorem canonical_strangerKey : isEd25519PublisherKey strangerKey = true := by
  have hchars : strangerKey.toList = _ := String.toList_ofList
  rw [isEd25519PublisherKey, hchars]
  decide

theorem canonical_freshKey : isEd25519PublisherKey freshKey = true := by
  have hchars : freshKey.toList = _ := String.toList_ofList
  rw [isEd25519PublisherKey, hchars]
  decide

theorem verifies_of_digits {newKeyID signature : String}
    (hkey : isEd25519PublisherKey newKeyID = true)
    (hdigits : signature.toList.all isHexDigit = true) (hlength : signature.toList.length = 128)
    (hmessage : newKeyID = strangerKey ∨ newKeyID = freshKey) :
    verifyKeyRotation env ownerKey newKeyID signature = .ok () := by
  have hhex : isHexText signature.toList = true := isHexText_of_digits (by rw [hlength]) hdigits
  have hsigned : env.ed25519Verify (String.ofList (ownerKey.toList.drop 8))
      ("useful-key-rotation-v1\n" ++ newKeyID) signature.toLower = true :=
    decide_eq_true (hmessage.imp (congrArg _) (congrArg _))
  simp [verifyKeyRotation, failIf, canonical_ownerKey, hkey, hhex, hlength, hsigned, bind,
    Except.bind]

theorem verifies_strangerKey :
    verifyKeyRotation env ownerKey strangerKey strangerSignature = .ok () := by
  have hchars : strangerSignature.toList = _ := String.toList_append
  rw [String.toList_ofList, String.toList_ofList] at hchars
  apply verifies_of_digits canonical_strangerKey
  · rw [hchars]
    decide
  · rw [hchars]
    rfl
  · exact .inl rfl

theorem verifies_freshKey : verifyKeyRotation env ownerKey freshKey freshSignature = .ok () := by
  have hchars : freshSignature.toList = _ := String.toList_append
  rw [String.toList_ofList, String.toList_ofList] at hchars
  apply verifies_of_digits canonical_freshKey
  · rw [hchars]
    decide
  · rw [hchars]
    rfl
  · exact .inr rfl

theorem strangerKey_ne : strangerKey ≠ ownerKey :=
  fun heq => absurd (String.ofList_inj.mp heq) (by decide)

theorem found_row :
    api.tokens.table.rows.find? (fun token => token.tokenHash = env.sha256Text text) = some row := by
  have hrows : api.tokens.table.rows = [row] := rfl
  have hhash : row.tokenHash = env.sha256Text text := by
    show digest = if text = text then digest else "?" ++ text
    rw [if_pos rfl]
  rw [hrows]
  exact List.find?_cons_of_pos (decide_eq_true hhash)

theorem found_owner : api.identities.find "owner-a" = some owner := Table.find_put_self

theorem found_publisher : api.world.publishers.find ownerKey =
    some ⟨"publisher-a", "A", ownerKey, 0, "", "", ""⟩ :=
  (Table.find_put_of_ne strangerKey_ne).trans Table.find_put_self

theorem found_ownerKey : ∃ key, api.keys.find ownerKey = some key ∧ key.keyID = ownerKey ∧
    key.publisherID = "publisher-a" :=
  ⟨_, (Table.find_put_of_ne strangerKey_ne).trans Table.find_put_self, rfl, rfl⟩

theorem found_strangerKey : ∃ key, api.keys.find strangerKey = some key :=
  ⟨_, Table.find_put_self⟩

theorem freshKey_ne : ownerKey ≠ freshKey ∧ strangerKey ≠ freshKey :=
  ⟨fun heq => absurd (String.ofList_inj.mp heq) (by decide),
    fun heq => absurd (String.ofList_inj.mp heq) (by decide)⟩

theorem missing_freshKey : api.keys.find freshKey = none :=
  (Table.find_put_of_ne freshKey_ne.2).trans ((Table.find_put_of_ne freshKey_ne.1).trans rfl)

theorem owner_bound : (validIdentityPublisherBinding owner).alone (fun _ => .proceed) api =
    (.ok true, fun _ => .proceed, api) := by
  have hkey : isPublisherKey owner.publisherKeyID = true :=
    Bool.or_eq_true_iff.mpr (.inl canonical_ownerKey)
  have hlooks : Looks (onWorld (step (getByKeyID owner.publisherKeyID)))
      (orFail (.notFound "") (api.world.publishers.find ownerKey)) api :=
    looks_get World.publishers ownerKey
  rw [found_publisher] at hlooks
  rw [validIdentityPublisherBinding, if_neg (by decide), if_neg (by decide), if_neg (by rw [hkey]; decide),
    hlooks.attempt rfl]
  rfl

def principal : Principal := ⟨"owner-a", row.scopes, owner.roles, ownerKey⟩

/-- The state in which the token has been used. -/
def touched : Api String := (touchToken row.id 1000 api).2

theorem authenticates : (authenticateAdmin env config ⟨"Bearer " ++ text, ""⟩ 1000).alone
    (fun _ => .proceed) api =
      (.ok (some principal), fun _ => .proceed, touched) := by
  have htoken : Looks (ask (getTokenByHash (env.sha256Text text))) (.ok row) api := by
    have hlook : Looks (ask (getTokenByHash (env.sha256Text text)))
      (orFail (.notFound "") (api.tokens.table.rows.find? fun token => token.tokenHash = env.sha256Text text)) api :=
        looks_ask _
    rwa [found_row] at hlook
  have hidentity : Looks (ask (getIdentity row.identityID)) (.ok owner) api := by
    have hlook : Looks (ask (getIdentity row.identityID))
      (orFail (.notFound "") (api.identities.find "owner-a")) api := looks_ask _
    rwa [found_owner] at hlook
  rw [authenticateAdmin, bearer_text]
  show (authenticateToken env text 1000).alone _ _ = _
  rw [authenticateToken, htoken.attempt rfl]
  show Task.alone (if row.usable 1000 = false then _ else _) _ _ = _
  rw [if_neg (by decide), hidentity.attempt rfl]
  show Task.alone (if owner.disabled = true then _ else _) _ _ = _
  rw [if_neg (by decide), Task.alone_bind, owner_bound]
  show Task.alone (if (! true) = true then _ else _) _ _ = _
  rw [if_neg (by decide), if_neg (by decide), Task.alone_bind, Task.alone_attempt, ask, Task.alone_call]
  rfl


theorem touched_owner : Touched api touched := touched_touchToken row.id 1000 api

/-- The row of a rotated key. -/
def rotated (newKeyID : String) : PublisherKey where
  keyID := newKeyID
  publisherID := "publisher-a"
  publicKey := String.ofList (newKeyID.toList.drop 8)
  rotatedFrom := ownerKey
  createdAt := 1000
  identityIssuer := ""
  identitySANExact := ""
  identitySANPattern := ""

theorem answer_of_verifies {newKeyID signature : String}
    (h : verifyKeyRotation env ownerKey newKeyID signature = .ok ()) :
    ((request newKeyID signature).answer env config api).1 =
      match (addKey (rotated newKeyID) touched).1 with
      | .error e => .ok (domainProblem e)
      | .ok _ => .ok (.json 200 (.rotated newKeyID)) := by
  obtain ⟨key, hfound, hid, hpublisher⟩ := found_ownerKey
  have hkey : Looks (ask (getKey ownerKey)) (.ok key) touched := by
    have hlook : Looks _ _ touched := looks_getKey ownerKey
    rwa [touched_owner.keys, hfound] at hlook
  have hmay : principal.mayActFor ownerKey .publisherKeys = true := by
    rw [Principal.mayActFor]
    exact Bool.or_eq_true_iff.mpr (.inr (Bool.and_eq_true_iff.mpr ⟨rfl, beq_self_eq_true _⟩))
  have hrow : Scope.publisherKeys ∈ row.scopes := by decide
  have hscope : principal.scopes.contains (Endpoint.rotateKey (β := String)
      (some ⟨ownerKey, newKeyID, signature⟩)).scope = true := List.contains_iff_mem.mpr hrow
  have hrotate : (rotateKey env ownerKey newKeyID signature 1000).alone (fun _ => .proceed) touched =
      (ask (addKey (rotated newKeyID))).alone (fun _ => .proceed) touched := by
    rw [rotateKey, hkey.attempt rfl, h, rotated, ← hpublisher]
    rfl
  simp only [ApiRequest.answer, respond, Task.alone_bind, request, authenticates]
  rw [serve, if_pos hscope, handler, handleRotateKey, orProblem,
    hkey.attempt rfl]
  show (Task.alone (forOwner _ key.keyID _ _) _ _).1 = _
  rw [forOwner, hid, if_pos hmay, orProblem, Task.alone_bind, Task.alone_attempt, hrotate, ask,
    Task.alone_call]
  cases (addKey (rotated newKeyID) touched).1 with
  | ok _ => rfl
  | error e => rfl

theorem rotated_valid {newKeyID : String} (h : isEd25519PublisherKey newKeyID = true) :
    ¬ (isEd25519PublisherKey (rotated newKeyID).keyID = false ∨
      (rotated newKeyID).publicKey ≠ String.ofList ((rotated newKeyID).keyID.toList.drop 8) ∨
      isEd25519PublisherKey (rotated newKeyID).rotatedFrom = false) := by
  simp [rotated, h, canonical_ownerKey]

theorem addKey_strangerKey : (addKey (rotated strangerKey) touched).1 = .error (.conflict "") := by
  obtain ⟨key, hfound⟩ := found_strangerKey
  have hfound : touched.keys.find (rotated strangerKey).keyID = some key := by
    rw [touched_owner.keys]
    exact hfound
  rw [addKey, if_neg (rotated_valid canonical_strangerKey), hfound]

theorem addKey_freshKey : (addKey (rotated freshKey) touched).1 = .ok () := by
  obtain ⟨key, hfound, hid, hpublisher⟩ := found_ownerKey
  have hmissing : touched.keys.find (rotated freshKey).keyID = none := by
    rw [touched_owner.keys]
    exact missing_freshKey
  have hfound : touched.keys.find (rotated freshKey).rotatedFrom = some key := by
    rw [touched_owner.keys]
    exact hfound
  have howner : touched.world.publishers.find (rotated freshKey).rotatedFrom =
      some ⟨"publisher-a", "A", ownerKey, 0, "", "", ""⟩ := by
    rw [touched_owner.world]
    exact found_publisher
  have hsame : ¬ key.publisherID ≠ (rotated freshKey).publisherID := not_not.mpr hpublisher
  have hregistered : ¬ "publisher-a" ≠ (rotated freshKey).publisherID := not_not.mpr rfl
  simp only [addKey, if_neg (rotated_valid canonical_freshKey), hmissing, howner, hfound]
  rw [if_neg hregistered, if_neg hsame]

/-- Status, title and detail of an answer. -/
def outline : Except ServerError Response → Option (Nat × String × String)
  | .ok (.problem status title detail) => some (status, title, detail)
  | .ok (.json status _) => some (status, "", "")
  | .error _ => none

/-- A tenant who signs for a new key learns whether somebody else has registered it. -/
theorem rotation_reveals : ¬ ∀ (env : External String) (config : HttpConfig) (K : String)
    (s : Api String) (req : ApiRequest String) (raw : String) (token : APIToken)
    (identity : Identity) (body : RotateBody) (missing signature : String) (key : PublisherKey),
      TenantRequest env K s req raw token identity → req.endpoint = .rotateKey (some body) →
        s.keys.find body.newKeyID = some key → body.newKeyID ≠ K → s.keys.find missing = none →
          verifyKeyRotation env body.oldKeyID body.newKeyID body.crossSignature = .ok () →
            verifyKeyRotation env body.oldKeyID missing signature = .ok () →
              outline (req.answer env config s).1 =
                outline (({ req with endpoint := .rotateKey (some { body with
                  newKeyID := missing
                  crossSignature := signature }) } : ApiRequest String).answer env config s).1 := by
  intro h
  have hforeign : api.keys.find strangerKey = some _ := Table.find_put_self
  have hsame := h env config ownerKey api (request strangerKey strangerSignature) text row owner
    ⟨ownerKey, strangerKey, strangerSignature⟩ freshKey freshSignature _ (tenantRequest _ _) rfl
    hforeign strangerKey_ne missing_freshKey verifies_strangerKey verifies_freshKey
  have hanswers : outline ((request strangerKey strangerSignature).answer env config api).1 =
      outline ((request freshKey freshSignature).answer env config api).1 := hsame
  rw [answer_of_verifies verifies_strangerKey, answer_of_verifies verifies_freshKey,
    addKey_strangerKey, addKey_freshKey] at hanswers
  cases hanswers

/-- The owner's rotation to a fresh key. -/
theorem isolated_of_tenant_rotation :
    Tenant ownerKey api ((request freshKey freshSignature).answer env config api).2 :=
  (isolated_of_tenant (tenantRequest freshKey freshSignature)).1

end Useful.Server.TenantRequests.Sample
