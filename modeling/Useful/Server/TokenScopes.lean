/-
# Scopes of issued tokens

A caller who starts from one API token obtains others only through the endpoint that
issues them. What a request does to identities and tokens is said once (`AccountStep`);
what holds of every token obtained in a run follows from it. A new token has the scopes of
the identity it is issued to, which may be more than those of the caller.
-/

import Useful.Server.Handlers

namespace Useful.Server

open Useful.Math

variable {β : Type} {env : External β} {config : HttpConfig} {p : Principal} {around : Surroundings}

/-! ## Handlers and postconditions -/

section

variable {α : Type} {api : Api β}

/-- Work of the service leaves everything but its own part. -/
theorem yields_onWorld {work : Work β α} {Q : α → Api β → Prop} {E : ServerError → Api β → Prop}
    {Q' : α → World β → Prop} {E' : ServerError → World β → Prop}
    (h : work.Yields api.world Q' E') (hok : ∀ a w, Q' a w → Q a { api with world := w })
    (herror : ∀ e w, E' e w → E e { api with world := w }) : (onWorld work).Yields api Q E := by
  unfold onWorld
  apply Task.Yields.zoom
  · exact fun _ _ => rfl
  · exact fun _ _ _ => rfl
  · exact fun _ => rfl
  · exact h
  · exact hok
  · exact herror

theorem yields_orProblem {work : Handling β α} {next : α → Handling β Response}
    {Q : α → Api β → Prop} {E : ServerError → Api β → Prop} {Q' : Response → Api β → Prop}
    {E' : ServerError → Api β → Prop} (h : work.Yields api Q E)
    (hproblem : ∀ e t, E e t → Q' (domainProblem e) t)
    (hnext : ∀ a t, Q a t → (next a).Yields t Q' E') : (orProblem work next).Yields api Q' E' := by
  refine h.attempt_bind (fun a t ha => hnext a t ha) ?_
  intro e t he
  exact Task.yields_pure (hproblem e t he)

/-- Every task ends in some state. -/
theorem yields_true {σ ℓ ε : Type} (task : Task ℓ σ ε α) (s : σ) :
    task.Yields s (fun _ _ => True) fun _ _ => True := by
  intro replies
  match task.alone replies s with
  | (.ok _, _, _) => trivial
  | (.error _, _, _) => trivial

end

/-- The token a response hands out. -/
def Response.issued : Response → Option (String × List Scope)
  | .json _ (.issued _ token scopes _) => some (token, scopes)
  | _ => none

theorem issued_domainProblem (e : ServerError) : (domainProblem e).issued = none := by
  unfold domainProblem
  cases e.kind with
  | _ => rfl

/-! ## What a request does to accounts -/

/-- Rows of tokens keep their hash, their scopes and their identity. -/
def Tokens.Lasts (tokens later : Tokens) : Prop :=
  ∀ row ∈ tokens.table.rows, ∃ row' ∈ later.table.rows, row'.tokenHash = row.tokenHash ∧
    row'.scopes = row.scopes ∧ row'.identityID = row.identityID

theorem Tokens.Lasts.refl (tokens : Tokens) : tokens.Lasts tokens :=
  fun row hrow => ⟨row, hrow, rfl, rfl, rfl⟩

theorem Tokens.Lasts.trans {a b c : Tokens} (hab : a.Lasts b) (hbc : b.Lasts c) : a.Lasts c := by
  intro row hrow
  obtain ⟨mid, hmid, hhash, hscopes, hidentity⟩ := hab row hrow
  obtain ⟨last, hlast, hhash', hscopes', hidentity'⟩ := hbc mid hmid
  exact ⟨last, hlast, hhash'.trans hhash, hscopes'.trans hscopes, hidentity'.trans hidentity⟩

/-- Nobody gains anything. -/
structure Unprivileged (s t : Api β) : Prop where
  identities : t.identities = s.identities
  tokens : s.tokens.Lasts t.tokens

theorem Unprivileged.refl (s : Api β) : Unprivileged s s := ⟨rfl, .refl _⟩

theorem Unprivileged.trans {s t u : Api β} (hst : Unprivileged s t) (htu : Unprivileged t u) :
    Unprivileged s u :=
  ⟨htu.identities.trans hst.identities, hst.tokens.trans htu.tokens⟩

/-- Nothing but the rows of tokens is written. -/
structure Touched (s t : Api β) : Prop extends Unprivileged s t where
  world : t.world = s.world
  keys : t.keys = s.keys
  advisories : t.advisories = s.advisories

theorem Touched.refl (s : Api β) : Touched s s := ⟨.refl s, rfl, rfl, rfl⟩

/-- What a request of a caller can do to identities and tokens, and the token it gets. -/
inductive AccountStep (env : External β) (p : Principal) (s : Api β) :
    Option (String × List Scope) → Api β → Prop
  | unprivileged {t : Api β} (h : Unprivileged s t) : AccountStep env p s none t
  | identity {t : Api β} (identity : Identity) (hscope : .adminIdentities ∈ p.scopes)
      (hnew : s.identities.find identity.id = none)
      (hidentities : t.identities = s.identities.put identity)
      (htokens : s.tokens.Lasts t.tokens) : AccountStep env p s none t
  | issued {t : Api β} (token : String) (scopes : List Scope) (identity : Identity)
      (hscope : .adminTokens ∈ p.scopes) (hidentity : identity ∈ s.identities.rows)
      (henabled : identity.disabled = false)
      (hallowed : ∀ scope ∈ scopes, scope ∈ scopesForRoles identity.roles)
      (hidentities : t.identities = s.identities) (htokens : s.tokens.Lasts t.tokens)
      (hrow : ∃ row ∈ t.tokens.table.rows, row.tokenHash = env.sha256Text token ∧
        row.scopes = scopes ∧ row.identityID = identity.id) :
      AccountStep env p s (some (token, scopes)) t

theorem Unprivileged.accountStep {s t u : Api β} {issued : Option (String × List Scope)}
    (hst : Unprivileged s t) (h : AccountStep env p t issued u) : AccountStep env p s issued u := by
  obtain ⟨hidentities, htokens⟩ := hst
  cases h with
  | unprivileged h => exact .unprivileged (.trans ⟨hidentities, htokens⟩ h)
  | identity identity hscope hnew hput hlasts =>
      rw [hidentities] at hnew hput
      exact .identity identity hscope hnew hput (htokens.trans hlasts)
  | issued token scopes identity hscope hidentity henabled hallowed hsame hlasts hrow =>
      rw [hidentities] at hidentity
      exact .issued token scopes identity hscope hidentity henabled hallowed
        (hsame.trans hidentities) (htokens.trans hlasts) hrow

/-- Everything a handler may do whoever calls it. -/
def Harmless (s : Api β) (task : Handling β Response) : Prop :=
  task.Yields s (fun response t => Unprivileged s t ∧ response.issued = none)
    fun _ t => Unprivileged s t

section

variable {s t : Api β} {α : Type}

theorem harmless_pure {response : Response} (h : response.issued = none) :
    Harmless s (pure response) :=
  Task.yields_pure ⟨.refl s, h⟩

/-- A harmless beginning and a harmless end. -/
theorem harmless_orProblem {work : Handling β α} {next : α → Handling β Response}
    (h : work.Yields s (fun _ t => Unprivileged s t) fun _ t => Unprivileged s t)
    (hnext : ∀ a t, Harmless t (next a)) : Harmless s (orProblem work next) := by
  apply yields_orProblem h
  · exact fun e t ht => ⟨ht, issued_domainProblem e⟩
  · intro a t ht
    exact (hnext a t).imp (fun _ _ hu => ⟨ht.trans hu.1, hu.2⟩) fun _ _ hu => ht.trans hu

theorem unprivileged_onWorld (work : Work β α) :
    (onWorld work).Yields s (fun _ t => Unprivileged s t) fun _ t => Unprivileged s t :=
  yields_onWorld (yields_true work s.world) (fun _ _ _ => ⟨rfl, .refl _⟩) fun _ _ _ => ⟨rfl, .refl _⟩

theorem unprivileged_ask {f : ApiCall β α} (h : ∀ s, Unprivileged s (f s).2) :
    (ask f).Yields s (fun _ t => Unprivileged s t) fun _ t => Unprivileged s t :=
  Task.yields_call (fun _ _ => h s) (fun _ => h s) fun _ => .refl s

theorem unprivileged_lookingAt (f : Api β → Except ServerError α) :
    (ask (lookingAt f)).Yields s (fun _ t => Unprivileged s t) fun _ t => Unprivileged s t :=
  unprivileged_ask fun s => .refl s

theorem harmless_forOwner {publisherKeyID : String} {scope : Scope} {next : Handling β Response}
    (h : Harmless s next) : Harmless s (forOwner p publisherKeyID scope next) := by
  unfold forOwner
  split
  · exact h
  · exact harmless_pure rfl

end

/-! ### The handlers that hand out nothing -/

section

variable {s : Api β}

theorem harmless_createUpload (body : Option UploadBody) :
    Harmless s (handleCreateUpload config p around body) := by
  cases body with
  | none => exact harmless_pure rfl
  | some req =>
      apply harmless_forOwner
      apply harmless_orProblem (unprivileged_onWorld _)
      exact fun _ _ => harmless_pure rfl

theorem harmless_uploadContent (id : String) (content : β) :
    Harmless s (handleUploadContent env p id content) := by
  apply harmless_orProblem (unprivileged_onWorld _)
  intro sess t
  apply harmless_forOwner
  apply harmless_orProblem (unprivileged_onWorld _)
  exact fun _ _ => harmless_pure rfl

theorem harmless_createRelease (body : Option ReleaseRequest) :
    Harmless s (handleCreateRelease env config p around body) := by
  cases body with
  | none => exact harmless_pure rfl
  | some req =>
      apply harmless_orProblem (unprivileged_onWorld _)
      intro sess t
      apply harmless_forOwner
      apply harmless_orProblem (unprivileged_onWorld _)
      exact fun _ _ => harmless_pure rfl

theorem harmless_getRelease (releaseID : String) :
    Harmless s (handleGetRelease (β := β) p releaseID) := by
  apply harmless_orProblem (unprivileged_onWorld _)
  intro art t
  apply harmless_forOwner
  exact harmless_pure rfl

theorem harmless_review (releaseID : String) (body : Option ReviewBody) :
    Harmless s (handleReview env config around releaseID body) := by
  cases body with
  | none => exact harmless_pure rfl
  | some req =>
      rw [handleReview]
      split
      · apply harmless_orProblem (unprivileged_onWorld _)
        exact fun _ _ => harmless_pure rfl
      · split
        · apply harmless_orProblem (unprivileged_onWorld _)
          exact fun _ _ => harmless_pure rfl
        · exact harmless_pure rfl

theorem harmless_withdraw (releaseID : String) (reason : Option String) :
    Harmless s (handleWithdraw env config p around releaseID reason) := by
  cases reason with
  | none => exact harmless_pure rfl
  | some reason =>
      rw [handleWithdraw]
      split
      · exact harmless_pure rfl
      · apply harmless_orProblem (unprivileged_onWorld _)
        intro art t
        apply harmless_forOwner
        apply harmless_orProblem (unprivileged_onWorld _)
        exact fun _ _ => harmless_pure rfl

theorem unprivileged_createAdvisory (adv : SecurityAdvisory) :
    (createAdvisory adv).Yields s (fun _ t => Unprivileged s t) fun _ t => Unprivileged s t := by
  refine Task.yields_ofExcept_bind (fun _ _ => .refl s) fun _ _ => ?_
  refine Task.yields_ofExcept_bind (fun _ _ => .refl s) fun _ _ => ?_
  refine Task.yields_ofExcept_bind (fun _ _ => .refl s) fun _ _ => ?_
  apply (unprivileged_ask fun s => ⟨rfl, .refl _⟩).bind (fun _ _ => id)
  exact fun _ _ ht => Task.yields_pure ht

theorem harmless_createAdvisory (body : Option AdvisoryBody) :
    Harmless s (handleCreateAdvisory (β := β) p around body) := by
  cases body with
  | none => exact harmless_pure rfl
  | some req =>
      rw [handleCreateAdvisory]
      split
      · exact harmless_pure rfl
      · apply harmless_forOwner
        apply harmless_orProblem (unprivileged_lookingAt _)
        intro tool t
        apply harmless_orProblem (unprivileged_createAdvisory _)
        exact fun _ _ => harmless_pure rfl

theorem unprivileged_addKey (key : PublisherKey) (s : Api β) : Unprivileged s (addKey key s).2 := by
  unfold addKey
  split
  · exact .refl s
  · split
    · exact .refl s
    · split
      · exact .refl s
      · split
        · exact .refl s
        · split
          · exact .refl s
          · split
            · exact .refl s
            · exact ⟨rfl, .refl _⟩

theorem unprivileged_rotateKey (oldKeyID newKeyID crossSig : String) (now : Int) :
    (rotateKey env oldKeyID newKeyID crossSig now).Yields s (fun _ t => Unprivileged s t)
      fun _ t => Unprivileged s t := by
  have hlookup : (Task.attempt (ask (getKey (β := β) oldKeyID))).Yields s
      (fun _ t => Unprivileged s t) fun _ t => Unprivileged s t :=
    (unprivileged_lookingAt _).attempt (fun _ _ => id) fun _ _ => id
  apply hlookup.bind (fun _ _ => id)
  intro outcome t ht
  cases outcome with
  | error e => exact Task.yields_fail ht
  | ok old =>
      refine Task.yields_ofExcept_bind (fun _ _ => ht) fun _ _ => ?_
      exact (unprivileged_ask (unprivileged_addKey _)).imp (fun _ _ => ht.trans) fun _ _ => ht.trans

theorem harmless_rotateKey (body : Option RotateBody) :
    Harmless s (handleRotateKey env p around body) := by
  cases body with
  | none => exact harmless_pure rfl
  | some req =>
      apply harmless_orProblem (unprivileged_lookingAt _)
      intro oldKey t
      apply harmless_forOwner
      apply harmless_orProblem (unprivileged_rotateKey _ _ _ _)
      exact fun _ _ => harmless_pure rfl

/-- An edited row stays where it was. -/
theorem touched_editToken {id : String} {edit : APIToken → APIToken} (hid) (hhash)
    (hscopes : ∀ token, (edit token).scopes = token.scopes)
    (hidentity : ∀ token, (edit token).identityID = token.identityID) (s : Api β) :
    Touched s (editToken id edit hid hhash s).2 := by
  unfold editToken
  split
  · exact .refl s
  · rename_i token hfind
    refine ⟨⟨rfl, ?_⟩, rfl, rfl, rfl⟩
    intro row hrow
    obtain ⟨htoken, hkey⟩ := Table.find_eq_some.mp hfind
    by_cases hsame : row.id = token.id
    · have heq : row = token := Table.eq_of_key_eq hrow htoken hsame
      subst heq
      exact ⟨edit row, Table.mem_put.mpr (.inl rfl), hhash row, hscopes row, hidentity row⟩
    · have hne : row.id ≠ (edit token).id := by
        rw [hid]
        exact hsame
      exact ⟨row, Table.mem_put.mpr (.inr ⟨hrow, hne⟩), rfl, rfl, rfl⟩

theorem touched_touchToken (id : String) (now : Int) (s : Api β) :
    Touched s (touchToken id now s).2 := by
  unfold touchToken
  apply touched_editToken
  · exact fun _ => rfl
  · exact fun _ => rfl

theorem touched_revokeToken (id : String) (s : Api β) : Touched s (revokeToken id s).2 := by
  unfold revokeToken
  apply touched_editToken
  · exact fun _ => rfl
  · exact fun _ => rfl

theorem harmless_listAPITokens (identityID : String) :
    Harmless s (handleListAPITokens (β := β) identityID) := by
  unfold handleListAPITokens
  split
  · exact harmless_pure rfl
  · apply harmless_orProblem (unprivileged_lookingAt _)
    exact fun _ _ => harmless_pure rfl

theorem harmless_revokeAPIToken (tokenID : String) :
    Harmless s (handleRevokeAPIToken (β := β) tokenID) := by
  apply harmless_orProblem
  · exact unprivileged_ask fun s => (touched_revokeToken tokenID s).toUnprivileged
  · exact fun _ _ => harmless_pure rfl

theorem unprivileged_insertPublisher (publisher : Publisher) (s : Api β) :
    Unprivileged s (insertPublisher publisher s).2 := by
  unfold insertPublisher
  split
  · exact .refl s
  · split
    · exact .refl s
    · split
      · exact .refl s
      · split
        · exact .refl s
        · exact ⟨rfl, .refl _⟩

theorem harmless_registerPublisher (body : Option PublisherBody) :
    Harmless s (handleRegisterPublisher (β := β) config around body) := by
  cases body with
  | none => exact harmless_pure rfl
  | some req =>
      rw [handleRegisterPublisher]
      split
      · exact harmless_pure rfl
      · split
        · exact harmless_pure rfl
        · split
          · exact harmless_pure rfl
          · simp only
            split
            · exact harmless_pure rfl
            · apply harmless_orProblem (unprivileged_ask (unprivileged_insertPublisher _))
              exact fun _ _ => harmless_pure rfl

end

/-! ### The handlers of administration -/

/-- A handler whose effect on accounts the caller's scopes allow. -/
def Accountable (env : External β) (p : Principal) (s : Api β) (task : Handling β Response) : Prop :=
  task.Yields s (fun response t => AccountStep env p s response.issued t)
    fun _ t => AccountStep env p s none t

section

variable {s t : Api β}

theorem Harmless.accountable {task : Handling β Response} (h : Harmless s task) :
    Accountable env p s task :=
  h.imp (fun _ _ ht => ht.2.symm ▸ .unprivileged ht.1) fun _ _ ht => .unprivileged ht

/-- A harmless beginning. -/
theorem accountable_bind {α : Type} {work : Handling β α} {next : α → Handling β Response}
    (h : work.Yields s (fun _ t => Unprivileged s t) fun _ t => Unprivileged s t)
    (hnext : ∀ a t, Unprivileged s t → Accountable env p t (next a)) :
    Accountable env p s (work >>= next) := by
  apply h.bind (fun _ _ ht => .unprivileged ht)
  intro a t ht
  exact (hnext a t ht).imp (fun _ _ hu => ht.accountStep hu) fun _ _ hu => ht.accountStep hu

theorem accountable_insertIdentity (hscope : .adminIdentities ∈ p.scopes) (identity : Identity) :
    Accountable env p s (orProblem (ask (insertIdentity identity)) fun _ =>
      return .json 201 (.identity identity)) := by
  have hstep : AccountStep env p s none (insertIdentity identity s).2 := by
    unfold insertIdentity
    cases hnew : s.identities.find identity.id with
    | some existing => exact .unprivileged (.refl s)
    | none => exact .identity identity hscope hnew rfl (.refl _)
  have hcall : (ask (insertIdentity identity)).Yields s (fun _ t => AccountStep env p s none t)
      fun _ t => AccountStep env p s none t :=
    Task.yields_call (fun _ _ => hstep) (fun _ => hstep) fun _ => .unprivileged (.refl s)
  apply yields_orProblem hcall
  · exact fun e t ht => issued_domainProblem e ▸ ht
  · exact fun _ t ht => Task.yields_pure ht

theorem accountable_createIdentity (hscope : .adminIdentities ∈ p.scopes)
    (body : Option IdentityBody) : Accountable env p s (handleCreateIdentity around body) := by
  cases body with
  | none => exact (harmless_pure rfl).accountable
  | some req =>
      rw [handleCreateIdentity]
      simp only
      generalize (if req.kind = "" then "user" else req.kind) = kind
      split
      · exact (harmless_pure rfl).accountable
      · split
        · exact (harmless_pure rfl).accountable
        · split
          · exact (harmless_pure rfl).accountable
          · split
            · split
              · exact (harmless_pure rfl).accountable
              · have hlookup : (Task.attempt (onWorld (step (getByKeyID req.publisherKeyID)))).Yields
                    s (fun _ t => Unprivileged s t) fun _ t => Unprivileged s t :=
                  (unprivileged_onWorld _).attempt (fun _ _ => id) fun _ _ => id
                apply accountable_bind hlookup
                intro outcome t _
                cases outcome with
                | error e => exact (harmless_pure rfl).accountable
                | ok publisher => exact accountable_insertIdentity hscope _
            · split
              · exact (harmless_pure rfl).accountable
              · exact accountable_insertIdentity hscope _

/-- What the binding of an identity guarantees. -/
structure ValidBinding (s : Api β) (identity : Identity) : Prop where
  roles : rolesValid identity.roles = true
  unbound : hasPublisherRole identity.roles = false → identity.publisherKeyID = ""
  key : hasPublisherRole identity.roles = true → isPublisherKey identity.publisherKeyID = true
  registered : hasPublisherRole identity.roles = true →
    ∃ publisher, s.world.publishers.find identity.publisherKeyID = some publisher

/-- The check reads, and changes nothing. -/
theorem yields_validIdentityPublisherBinding (identity : Identity) :
    (validIdentityPublisherBinding identity).Yields s
      (fun valid t => t = s ∧ (valid = true → ValidBinding s identity)) fun _ t => t = s := by
  unfold validIdentityPublisherBinding
  split
  · exact Task.yields_pure ⟨rfl, nofun⟩
  · rename_i hroles
    have hroles : rolesValid identity.roles = true := Bool.not_eq_false _ ▸ hroles
    split
    · rename_i hnone
      have hunbound : hasPublisherRole identity.roles ≠ true := by simp [hnone]
      exact Task.yields_pure ⟨rfl, fun hempty => ⟨hroles, fun _ => beq_iff_eq.mp hempty,
        fun hsome => absurd hsome hunbound, fun hsome => absurd hsome hunbound⟩⟩
    · rename_i hsome
      split
      · exact Task.yields_pure ⟨rfl, nofun⟩
      · rename_i hkey
        have hcall : (onWorld (step (getByKeyID identity.publisherKeyID))).Yields s
            (fun publisher t => t = s ∧
              s.world.publishers.find identity.publisherKeyID = some publisher)
            fun _ t => t = s := by
          have hget : (step (getByKeyID identity.publisherKeyID)).Yields s.world
              (fun publisher w => w = s.world ∧
                s.world.publishers.find identity.publisherKeyID = some publisher)
              fun _ w => w = s.world :=
            Task.yields_call (fun publisher hfound => ⟨rfl, orFail_eq_ok.mp hfound⟩) (fun _ => rfl)
              fun _ => rfl
          apply yields_onWorld hget
          · intro publisher w hw
            obtain ⟨rfl, hfind⟩ := hw
            exact ⟨rfl, hfind⟩
          · exact fun _ w hw => hw ▸ rfl
        have hlookup : (Task.attempt (onWorld (step (getByKeyID identity.publisherKeyID)))).Yields
            s (fun outcome t => t = s ∧ ∀ publisher, outcome = .ok publisher →
              s.world.publishers.find identity.publisherKeyID = some publisher)
            fun _ t => t = s := by
          apply hcall.attempt
          · intro publisher t ht
            refine ⟨ht.1, fun publisher' heq => ?_⟩
            cases heq
            exact ht.2
          · exact fun e t ht => ⟨ht, nofun⟩
        apply hlookup.bind (fun _ _ => id)
        intro outcome t ht
        cases outcome with
        | ok publisher =>
            exact Task.yields_pure ⟨ht.1, fun _ => ⟨hroles, fun hnone => absurd hnone hsome,
              fun _ => Bool.not_eq_false _ ▸ hkey, fun _ => ⟨publisher, ht.2 publisher rfl⟩⟩⟩
        | error e => exact Task.yields_pure ⟨ht.1, nofun⟩

/-- A row that is inserted displaces none. -/
theorem insertToken_lasts (token : APIToken) (s : Api β) : Unprivileged s (insertToken token s).2 ∧
    ((insertToken token s).1 = .ok () →
      (insertToken token s).2.identities = s.identities ∧
        token ∈ (insertToken token s).2.tokens.table.rows) := by
  unfold insertToken
  cases hfree : s.tokens.table.find token.id with
  | some existing => exact ⟨.refl s, nofun⟩
  | none =>
      simp only
      split
      · refine ⟨⟨rfl, ?_⟩, fun _ => ⟨rfl, Table.mem_put.mpr (.inl rfl)⟩⟩
        intro row hrow
        have hne : row.id ≠ token.id := Table.find_eq_none.mp hfree row hrow
        exact ⟨row, Table.mem_put.mpr (.inr ⟨hrow, hne⟩), rfl, rfl, rfl⟩
      · exact ⟨.refl s, nofun⟩

theorem accountable_insertToken (hscope : .adminTokens ∈ p.scopes) {identity : Identity}
    (hidentity : identity ∈ s.identities.rows) (henabled : identity.disabled = false)
    {token : APIToken} (hallowed : ∀ scope ∈ token.scopes, scope ∈ scopesForRoles identity.roles)
    (howner : token.identityID = identity.id) {plaintext : String}
    (hhash : token.tokenHash = env.sha256Text plaintext) :
    Accountable env p s (orProblem (ask (insertToken token)) fun _ =>
      return .json 201 (.issued token.id plaintext token.scopes token.expiresAt)) := by
  obtain ⟨hunprivileged, hinserted⟩ := insertToken_lasts token s
  have hcall : (ask (insertToken token)).Yields s
      (fun _ t => AccountStep env p s (some (plaintext, token.scopes)) t)
      fun _ t => AccountStep env p s none t := by
    apply Task.yields_call
    · intro _ hok
      obtain ⟨hidentities, hmem⟩ := hinserted hok
      exact .issued plaintext token.scopes identity hscope hidentity henabled hallowed hidentities
        hunprivileged.tokens ⟨token, hmem, hhash, rfl, howner⟩
    · exact fun _ => .unprivileged hunprivileged
    · exact fun _ => .unprivileged (.refl s)
  apply yields_orProblem hcall
  · exact fun e t ht => issued_domainProblem e ▸ ht
  · exact fun _ t ht => Task.yields_pure ht

/-- The identity a token is issued to is one of the rows. -/
theorem accountable_createAPIToken (hscope : .adminTokens ∈ p.scopes) (body : Option TokenBody) :
    Accountable env p s (handleCreateAPIToken env around body) := by
  cases body with
  | none => exact (harmless_pure rfl).accountable
  | some req =>
      rw [handleCreateAPIToken]
      have hlookup : (ask (getIdentity (β := β) req.identityID)).Yields s
          (fun identity t => t = s ∧ identity ∈ s.identities.rows) fun _ t => t = s := by
        apply Task.yields_call
        · intro identity hfound
          exact ⟨rfl, (Table.find_eq_some.mp (orFail_eq_ok.mp hfound)).1⟩
        · exact fun _ => rfl
        · exact fun _ => rfl
      apply yields_orProblem hlookup
      · intro e t ht
        subst ht
        exact issued_domainProblem e ▸ .unprivileged (.refl t)
      · intro identity t ht
        obtain ⟨rfl, hidentity⟩ := ht
        split
        · exact (harmless_pure rfl).accountable
        · rename_i hdisabled
          have henabled : identity.disabled = false := Bool.not_eq_true _ ▸ hdisabled
          have hbinding : (validIdentityPublisherBinding identity).Yields t
              (fun _ u => Unprivileged t u) fun _ u => Unprivileged t u :=
            (yields_validIdentityPublisherBinding identity).imp (fun _ _ hu => hu.1 ▸ .refl t)
              fun _ _ hu => hu ▸ .refl t
          apply accountable_bind hbinding
          intro valid u hu
          rw [← hu.identities] at hidentity
          split
          · exact (harmless_pure rfl).accountable
          · simp only
            generalize hscopes : (if req.scopes = [] then scopesForRoles identity.roles
              else req.scopes) = scopes
            split
            · exact (harmless_pure rfl).accountable
            · rename_i hwithin
              have hallowed : ∀ scope ∈ scopes, scope ∈ scopesForRoles identity.roles := by
                intro scope hmem
                have hinside := List.find?_eq_none.mp hwithin scope hmem
                simpa using hinside
              split
              · exact (harmless_pure rfl).accountable
              · exact accountable_insertToken hscope hidentity henabled hallowed rfl rfl

/-- What a caller's request does to accounts, its scope checked. -/
theorem accountable_serve (endpoint : Endpoint β) :
    Accountable env p s (serve env config p around endpoint) := by
  unfold serve
  split
  · rename_i hcontains
    have hscope : endpoint.scope ∈ p.scopes := List.contains_iff_mem.mp hcontains
    cases endpoint with
    | createUpload body => exact (harmless_createUpload body).accountable
    | uploadContent id content => exact (harmless_uploadContent id content).accountable
    | createRelease body => exact (harmless_createRelease body).accountable
    | getRelease releaseID => exact (harmless_getRelease releaseID).accountable
    | review releaseID body => exact (harmless_review releaseID body).accountable
    | withdraw releaseID reason => exact (harmless_withdraw releaseID reason).accountable
    | createAdvisory body => exact (harmless_createAdvisory body).accountable
    | rotateKey body => exact (harmless_rotateKey body).accountable
    | createIdentity body => exact accountable_createIdentity hscope body
    | createAPIToken body => exact accountable_createAPIToken hscope body
    | listAPITokens identityID => exact (harmless_listAPITokens identityID).accountable
    | revokeAPIToken tokenID => exact (harmless_revokeAPIToken tokenID).accountable
    | registerPublisher body => exact (harmless_registerPublisher body).accountable
    | listIdentities | listAudit | listPublishers =>
        apply Harmless.accountable
        apply harmless_orProblem (unprivileged_lookingAt _)
        exact fun _ _ => harmless_pure rfl
  · exact (harmless_pure rfl).accountable

/-! ### Authentication -/

/-- Whose token it is, and what it says of the caller. -/
structure Authenticated (env : External β) (raw : String) (s : Api β) (p : Principal) : Prop where
  row : ∃ row ∈ s.tokens.table.rows, row.tokenHash = env.sha256Text raw ∧ row.scopes = p.scopes ∧
    ∃ identity, s.identities.find row.identityID = some identity ∧ identity.roles = p.roles ∧
      identity.publisherKeyID = p.publisherKeyID
  registered : hasPublisherRole p.roles = true →
    ∃ publisher, s.world.publishers.find p.publisherKeyID = some publisher
  roles : rolesValid p.roles = true
  unbound : hasPublisherRole p.roles = false → p.publisherKeyID = ""
  key : hasPublisherRole p.roles = true → isPublisherKey p.publisherKeyID = true
  scopes : ∀ scope ∈ p.scopes, scope ∈ scopesForRoles p.roles

theorem Authenticated.row_scopes {raw : String} (h : Authenticated env raw s p) :
    ∃ row ∈ s.tokens.table.rows, row.tokenHash = env.sha256Text raw ∧ row.scopes = p.scopes := by
  obtain ⟨row, hrow, hhash, hscopes, _⟩ := h.row
  exact ⟨row, hrow, hhash, hscopes⟩

theorem yields_authenticateToken (raw : String) (now : Int) :
    (authenticateToken env raw now).Yields s
      (fun found t => Touched s t ∧ ∀ p, found = some p → Authenticated env raw s p)
      fun _ t => Touched s t := by
  have hnone : ∀ t, Touched s t → Touched s t ∧ ∀ p, (none : Option Principal) = some p →
      Authenticated env raw s p := fun t ht => ⟨ht, nofun⟩
  have htoken : (Task.attempt (ask (getTokenByHash (env.sha256Text raw)))).Yields s
      (fun outcome t => t = s ∧ ∀ token, outcome = .ok token →
        token ∈ s.tokens.table.rows ∧ token.tokenHash = env.sha256Text raw)
      fun _ t => t = s := by
    have hcall : (ask (getTokenByHash (env.sha256Text raw))).Yields s
        (fun token t => t = s ∧ token ∈ s.tokens.table.rows ∧
          token.tokenHash = env.sha256Text raw) fun _ t => t = s := by
      apply Task.yields_call
      · intro token hfound
        have hfind := orFail_eq_ok.mp hfound
        have hhash := List.find?_some hfind
        exact ⟨rfl, List.mem_of_find?_eq_some hfind, of_decide_eq_true hhash⟩
      · exact fun _ => rfl
      · exact fun _ => rfl
    apply hcall.attempt
    · intro token t ht
      refine ⟨ht.1, fun token' heq => ?_⟩
      cases heq
      exact ht.2
    · exact fun e t ht => ⟨ht, nofun⟩
  unfold authenticateToken
  apply htoken.bind (fun _ t ht => ht ▸ .refl s)
  intro outcome t ht
  obtain ⟨rfl, hrow⟩ := ht
  cases outcome with
  | error e => exact Task.yields_pure (hnone t (.refl t))
  | ok token =>
      obtain ⟨hmem, hhash⟩ := hrow token rfl
      simp only
      split
      · exact Task.yields_pure (hnone t (.refl t))
      · have hlookup : (Task.attempt (ask (getIdentity (β := β) token.identityID))).Yields t
            (fun outcome u => u = t ∧ ∀ identity, outcome = .ok identity →
              t.identities.find token.identityID = some identity) fun _ u => u = t := by
          have hcall : (ask (getIdentity (β := β) token.identityID)).Yields t
              (fun identity u => u = t ∧ t.identities.find token.identityID = some identity)
              fun _ u => u = t :=
            Task.yields_call (fun _ hfound => ⟨rfl, orFail_eq_ok.mp hfound⟩) (fun _ => rfl)
              fun _ => rfl
          apply hcall.attempt
          · intro identity u hu
            refine ⟨hu.1, fun identity' heq => ?_⟩
            cases heq
            exact hu.2
          · exact fun e u hu => ⟨hu, nofun⟩
        apply hlookup.bind (fun _ u hu => hu ▸ .refl t)
        intro outcome u hu
        obtain ⟨rfl, hidentity⟩ := hu
        cases outcome with
        | error e => exact Task.yields_pure (hnone u (.refl u))
        | ok identity =>
            have hfind := hidentity identity rfl
            simp only
            split
            · exact Task.yields_pure (hnone u (.refl u))
            · apply (yields_validIdentityPublisherBinding identity).bind
                (fun _ v hv => hv ▸ .refl u)
              intro valid v hv
              obtain ⟨rfl, hvalid⟩ := hv
              split
              · exact Task.yields_pure (hnone v (.refl v))
              · rename_i hne
                have hbound : ValidBinding v identity := hvalid (by simpa using hne)
                split
                · exact Task.yields_pure (hnone v (.refl v))
                · rename_i hwithin
                  have hscopes := scopesWithin_iff.mp (Bool.not_eq_false _ ▸ hwithin)
                  have htouch : (Task.attempt (ask (touchToken (β := β) token.id now))).Yields v
                      (fun _ x => Touched v x) fun _ x => Touched v x := by
                    have hcall : (ask (touchToken (β := β) token.id now)).Yields v
                        (fun _ x => Touched v x) fun _ x => Touched v x :=
                      Task.yields_call (fun _ _ => touched_touchToken _ _ v)
                        (fun _ => touched_touchToken _ _ v) fun _ => .refl v
                    exact hcall.attempt (fun _ _ => id) fun _ _ => id
                  apply htouch.bind (fun _ _ => id)
                  intro _ x hx
                  refine Task.yields_pure ⟨hx, fun p hp => ?_⟩
                  cases hp
                  exact ⟨⟨token, hmem, hhash, rfl, identity, hfind, rfl, rfl⟩, hbound.registered,
                    hbound.roles, hbound.unbound, hbound.key, hscopes⟩

/-- A request with an API token in its header. -/
theorem yields_respond {credentials : Credentials} {raw : String}
    (hbearer : bearer credentials.authorization = some raw) (endpoint : Endpoint β) :
    (respond env config credentials around endpoint).Yields s
      (fun response t => Unprivileged s t ∧ response.issued = none ∨
        ∃ p, Authenticated env raw s p ∧ AccountStep env p s response.issued t)
      fun _ t => Unprivileged s t ∨ ∃ p, Authenticated env raw s p ∧ AccountStep env p s none t := by
  have hauthenticate : (authenticateAdmin env config credentials around.now).Yields s
      (fun found t => Touched s t ∧ ∀ p, found = some p → Authenticated env raw s p)
      fun _ t => Touched s t := by
    unfold authenticateAdmin
    rw [hbearer]
    exact yields_authenticateToken raw around.now
  apply hauthenticate.bind (fun _ _ ht => .inl ht.toUnprivileged)
  intro found t ht
  cases found with
  | none => exact Task.yields_pure (.inl ⟨ht.1.toUnprivileged, rfl⟩)
  | some p =>
      have hp := ht.2 p rfl
      exact (accountable_serve endpoint).imp
        (fun _ _ hu => .inr ⟨p, hp, ht.1.toUnprivileged.accountStep hu⟩)
        fun _ _ hu => .inr ⟨p, hp, ht.1.toUnprivileged.accountStep hu⟩

end

/-! ## Runs of one caller -/

/-- The store, and the tokens a caller has been handed. -/
structure Holder (β : Type) where
  api : Api β
  obtained : List (String × List Scope)

structure ApiRequest (β : Type) where
  credentials : Credentials
  around : Surroundings
  endpoint : Endpoint β
  replies : Nat → Reply ServerError

/-- The answer to a request, and the store after it. -/
def ApiRequest.answer (env : External β) (config : HttpConfig) (req : ApiRequest β) (api : Api β) :
    Except ServerError Response × Api β :=
  let run := (respond env config req.credentials req.around req.endpoint).alone req.replies api
  (run.1, run.2.2)

/-- The tokens in an answer. -/
def handedOut : Except ServerError Response → List (String × List Scope)
  | .ok response => response.issued.toList
  | .error _ => []

/-- The caller acts with the token they began with, or with one they were handed. -/
inductive Acts (env : External β) (config : HttpConfig) (token : String) :
    Holder β → ApiRequest β → Holder β → Prop
  | request {holder : Holder β} {req : ApiRequest β} (raw : String)
      (hbearer : bearer req.credentials.authorization = some raw)
      (hheld : raw = token ∨ ∃ scopes, (raw, scopes) ∈ holder.obtained) :
      Acts env config token holder req
        { api := (req.answer env config holder.api).2
          obtained := holder.obtained ++ handedOut (req.answer env config holder.api).1 }

section

variable {token : String} {S : List Scope} {start : Api β} {holder later : Holder β}

/-- The row of a token in the store. -/
def Row (env : External β) (api : Api β) (token : String) (scopes : List Scope) : Prop :=
  ∃ row ∈ api.tokens.table.rows, row.tokenHash = env.sha256Text token ∧ row.scopes = scopes

/-- A token issued within the roles of an identity that is not disabled. -/
def Granted (env : External β) (api : Api β) (issued : String × List Scope) : Prop :=
  ∃ row ∈ api.tokens.table.rows, row.tokenHash = env.sha256Text issued.1 ∧ row.scopes = issued.2 ∧
    ∃ identity ∈ api.identities.rows, row.identityID = identity.id ∧ identity.disabled = false ∧
      ∀ scope ∈ issued.2, scope ∈ scopesForRoles identity.roles

/-- What holds of the tokens of a caller who began with the scopes `S`. -/
structure Entitled (env : External β) (token : String) (S : List Scope) (start : Api β)
    (holder : Holder β) : Prop where
  initial : Row env holder.api token S
  obtained : ∀ issued ∈ holder.obtained, Granted env holder.api issued
  unable : .adminTokens ∉ S → holder.obtained = []
  confined : .adminIdentities ∉ S →
    (∀ identity ∈ start.identities.rows, identity.disabled = false →
      .adminIdentities ∉ scopesForRoles identity.roles) →
    holder.api.identities = start.identities

theorem Row.scopes_eq {api : Api β} {a b : List Scope} (ha : Row env api token a)
    (hb : Row env api token b) : a = b := by
  obtain ⟨row, hrow, hhash, hscopes⟩ := ha
  obtain ⟨row', hrow', hhash', hscopes'⟩ := hb
  have hsame := api.tokens.unique row hrow row' hrow' (hhash.trans hhash'.symm)
  rw [← hscopes, ← hscopes', hsame]

theorem Row.lasts {api api' : Api β} {a : List Scope} (h : Row env api token a)
    (hlasts : api.tokens.Lasts api'.tokens) : Row env api' token a := by
  obtain ⟨row, hrow, hhash, hscopes⟩ := h
  obtain ⟨row', hrow', hhash', hscopes', _⟩ := hlasts row hrow
  exact ⟨row', hrow', hhash'.trans hhash, hscopes'.trans hscopes⟩

theorem Granted.lasts {api api' : Api β} {issued : String × List Scope} (h : Granted env api issued)
    (hlasts : api.tokens.Lasts api'.tokens)
    (hidentities : ∀ identity ∈ api.identities.rows, identity ∈ api'.identities.rows) :
    Granted env api' issued := by
  obtain ⟨row, hrow, hhash, hscopes, identity, hidentity, howner, henabled, hallowed⟩ := h
  obtain ⟨row', hrow', hhash', hscopes', howner'⟩ := hlasts row hrow
  exact ⟨row', hrow', hhash'.trans hhash, hscopes'.trans hscopes, identity,
    hidentities identity hidentity, howner'.trans howner, henabled, hallowed⟩

/-- The caller acts with `S`, or with the scopes of a token they obtained. -/
theorem Entitled.scopes_of_authenticated {raw : String} (h : Entitled env token S start holder)
    (hheld : raw = token ∨ ∃ scopes, (raw, scopes) ∈ holder.obtained)
    (hp : Authenticated env raw holder.api p) :
    p.scopes = S ∨ ∃ issued ∈ holder.obtained, p.scopes = issued.2 := by
  cases hheld with
  | inl heq =>
      subst heq
      exact .inl (Row.scopes_eq hp.row_scopes h.initial)
  | inr hissued =>
      obtain ⟨scopes, hmem⟩ := hissued
      obtain ⟨row, hrow, hhash, hscopes, _⟩ := h.obtained _ hmem
      exact .inr ⟨_, hmem, Row.scopes_eq hp.row_scopes ⟨row, hrow, hhash, hscopes⟩⟩

/-- What one request keeps. -/
theorem entitled_accountStep {raw : String} {t : Api β} {issued : Option (String × List Scope)}
    (h : Entitled env token S start holder)
    (hheld : raw = token ∨ ∃ scopes, (raw, scopes) ∈ holder.obtained)
    (hp : Authenticated env raw holder.api p) (hstep : AccountStep env p holder.api issued t) :
    Entitled env token S start ⟨t, holder.obtained ++ issued.toList⟩ := by
  have hscopes := h.scopes_of_authenticated hheld hp
  cases hstep with
  | unprivileged hu =>
      have hsame : ∀ identity ∈ holder.api.identities.rows, identity ∈ t.identities.rows := by
        rw [hu.identities]
        exact fun _ hmem => hmem
      refine ⟨h.initial.lasts hu.tokens, ?_, by simpa using h.unable, ?_⟩
      · intro other hother
        exact (h.obtained other (by simpa using hother)).lasts hu.tokens hsame
      · exact fun hS hstart => hu.identities.trans (h.confined hS hstart)
  | identity identity hscope hnew hidentities htokens =>
      have hgrows : ∀ other ∈ holder.api.identities.rows, other ∈ t.identities.rows := by
        intro other hother
        rw [hidentities]
        exact Table.mem_put.mpr (.inr ⟨hother, Table.find_eq_none.mp hnew other hother⟩)
      refine ⟨h.initial.lasts htokens, ?_, by simpa using h.unable, ?_⟩
      · intro other hother
        exact (h.obtained other (by simpa using hother)).lasts htokens hgrows
      · intro hS hstart
        exfalso
        cases hscopes with
        | inl heq => exact hS (heq ▸ hscope)
        | inr hissued =>
            obtain ⟨other, hother, heq⟩ := hissued
            obtain ⟨_, _, _, _, owner, howner, _, henabled, hallowed⟩ := h.obtained other hother
            rw [h.confined hS hstart] at howner
            exact hstart owner howner henabled (hallowed _ (heq ▸ hscope))
  | issued text scopes identity hscope hidentity henabled hallowed hidentities htokens hrow =>
      have hsame : ∀ other ∈ holder.api.identities.rows, other ∈ t.identities.rows := by
        rw [hidentities]
        exact fun _ hmem => hmem
      refine ⟨h.initial.lasts htokens, ?_, ?_, ?_⟩
      · intro other hother
        cases List.mem_append.mp hother with
        | inl hold => exact (h.obtained other hold).lasts htokens hsame
        | inr hlast =>
            simp only [Option.toList_some, List.mem_singleton] at hlast
            subst hlast
            obtain ⟨row, hmem, hhash, hrowScopes, howner⟩ := hrow
            exact ⟨row, hmem, hhash, hrowScopes, identity, hsame identity hidentity, howner,
              henabled, hallowed⟩
      · intro hS
        exfalso
        cases hscopes with
        | inl heq => exact hS (heq ▸ hscope)
        | inr hissued =>
            obtain ⟨other, hother, _⟩ := hissued
            rw [h.unable hS] at hother
            cases hother
      · exact fun hS hstart => hidentities.trans (h.confined hS hstart)

theorem entitled_acts {req : ApiRequest β} (h : Entitled env token S start holder)
    (hstep : Acts env config token holder req later) : Entitled env token S start later := by
  have hquiet : ∀ t, Unprivileged holder.api t → Entitled env token S start ⟨t, holder.obtained⟩ := by
    intro t ht
    have hsame : ∀ identity ∈ holder.api.identities.rows, identity ∈ t.identities.rows := by
      rw [ht.identities]
      exact fun _ hmem => hmem
    exact ⟨h.initial.lasts ht.tokens, fun other hother => (h.obtained other hother).lasts ht.tokens hsame,
      h.unable, fun hS hstart => ht.identities.trans (h.confined hS hstart)⟩
  cases hstep with
  | request raw hbearer hheld =>
      have hyields : (respond env config req.credentials req.around req.endpoint).Yields holder.api
          _ _ := yields_respond hbearer req.endpoint
      have hanswer := hyields req.replies
      unfold ApiRequest.answer
      match hrun : (respond env config req.credentials req.around req.endpoint).alone req.replies
          holder.api with
      | (.ok response, _, t) =>
          rw [hrun] at hanswer
          cases hanswer with
          | inl hu =>
              simpa only [handedOut, hu.2, Option.toList_none, List.append_nil] using hquiet t hu.1
          | inr hp =>
              obtain ⟨p, hp, hstep⟩ := hp
              exact entitled_accountStep h hheld hp hstep
      | (.error e, _, t) =>
          rw [hrun] at hanswer
          cases hanswer with
          | inl hu => simpa only [handedOut, List.append_nil] using hquiet t hu
          | inr hp =>
              obtain ⟨p, hp, hstep⟩ := hp
              exact entitled_accountStep h hheld hp hstep

theorem roleScopes_subset (role : Role) : roleScopes role ⊆ allScopes := by
  cases role with
  | unknown name => exact nofun
  | _ => decide

theorem mem_allScopes {roles : List Role} {scope : Scope} (h : scope ∈ scopesForRoles roles) :
    scope ∈ allScopes := by
  obtain ⟨role, _, hscope⟩ := mem_scopesForRoles.mp h
  exact roleScopes_subset role hscope

/-- The tokens of a caller who began with the scopes `S`. Each is within the roles of the
identity it was issued to; without the scope that issues tokens there are none; and they
stay within `S` when it covers the roles of every identity the caller can reach. -/
theorem granted_of_run {requests : List (ApiRequest β)}
    (hrow : Row env start token S)
    (hrun : Run (Acts env config token) ⟨start, []⟩ requests later) :
    (∀ issued ∈ later.obtained, Granted env later.api issued) ∧
      (.adminTokens ∉ S → later.obtained = []) ∧
      ((∀ identity ∈ start.identities.rows, identity.disabled = false →
          ∀ scope ∈ scopesForRoles identity.roles, scope ∈ S) →
        (.adminIdentities ∈ S → ∀ scope ∈ allScopes, scope ∈ S) →
        ∀ issued ∈ later.obtained, ∀ scope ∈ issued.2, scope ∈ S) := by
  have hstart : Entitled env token S start ⟨start, []⟩ := ⟨hrow, nofun, fun _ => rfl, fun _ _ => rfl⟩
  have hlater : Entitled env token S start later :=
    hrun.invariant (fun _ _ _ => entitled_acts) hstart
  refine ⟨hlater.obtained, hlater.unable, fun hcovers hall issued hissued scope hscope => ?_⟩
  obtain ⟨_, _, _, _, identity, hidentity, _, henabled, hallowed⟩ := hlater.obtained issued hissued
  by_cases hS : .adminIdentities ∈ S
  · exact hall hS scope (mem_allScopes (hallowed scope hscope))
  · have hconfined := hlater.confined hS fun other hother hother' hmem =>
      hS (hcovers other hother hother' _ hmem)
    rw [hconfined] at hidentity
    exact hcovers identity hidentity henabled scope (hallowed scope hscope)

end

end Useful.Server

/-! ## A source administrator and a narrowed token -/

namespace Useful.Server.TokenScopes.Sample

open Useful.Math

def text : String :=
  "usefuls_3c3c3c3c3c3c3c3c3c3c3c3c3c3c3c3c3c3c3c3c3c3c3c3c3c3c3c3c3c3c3c3c"

def digits : String := "9f9f9f9f9f9f9f9f9f9f9f9f9f9f9f9f9f9f9f9f9f9f9f9f9f9f9f9f9f9f9f9f"

/-- The digests of the two tokens, and other texts for other texts. -/
def sha256Text (s : String) : String :=
  if s = text then "ef3ccac173f0714ffd092f46d9bcad45bb7a14195b6452ecf5c12122e12b40f4"
  else if s = "usefuls_" ++ digits then
    "5a0d124146415c9784e4064e1dd9f11b2e01c663d5f31ebc2253aeaabe953524"
  else "?" ++ s

def env : External String where
  length s := s.utf8ByteSize
  sha256Hex := sha256Text
  sha256Text := sha256Text
  identityDigest := String.join
  ed25519Verify _ _ _ := false
  ed25519Sign _ _ := ""
  hexError _ := ""
  marshalIndent _ := ""
  marshalScanResult _ := ""
  formatTime _ := ""
  readArchive _ := .error "zip: not a valid zip file"

def config : HttpConfig where
  targetsKey := ⟨"targets", "", true⟩
  snapshotKey := ⟨"snapshot", "", true⟩
  timestampKey := ⟨"timestamp", "", true⟩
  targetsExpireDays := 90
  snapshotExpireDays := 7
  timestampExpireDays := 1
  maxUpload := 1048576
  autoApprove := false
  adminToken := ""
  development := false
  emergencyAdminMode := false
  emergencyAdminUntil := 0
  isHttpsURL _ := false

def root : Identity := ⟨"root", "Root", "user", [.instanceAdmin], "", false, 0⟩

def operator : Identity := ⟨"operator", "Operator", "user", [.sourceAdmin], "", false, 0⟩

/-- The operator's token may issue tokens and nothing else. -/
def row : APIToken where
  id := "tok_0a0a0a0a0a0a0a0a0a0a0a0a"
  identityID := "operator"
  tokenHash := "ef3ccac173f0714ffd092f46d9bcad45bb7a14195b6452ecf5c12122e12b40f4"
  scopes := [.adminTokens]
  expiresAt := 7776000
  revoked := false
  lastUsedAt := none
  createdAt := 0

def api : Api String where
  world := {
    publishers := .empty
    tools := .empty
    artifacts := .empty
    artIdentityIx := fun _ => none
    uploads := .empty
    jobs := .empty
    objects := fun _ => none
    lease := none
    tufVersion := 0
    inspections := []
    scans := [] }
  keys := .empty
  advisories := []
  identities := (Table.empty.put operator).put root
  tokens := Tokens.empty.insert row nofun

/-- A token of the instance administrator is asked for. -/
def request : ApiRequest String where
  credentials := ⟨"Bearer " ++ text, ""⟩
  around := {
    now := 1000
    task := 0
    uploadID := ""
    artifactUUID := ""
    jobID := ""
    advisoryUUID := ""
    tokenSuffix := "0b0b0b0b0b0b0b0b0b0b0b0b"
    tokenDigits := some digits }
  endpoint := .createAPIToken (some ⟨"root", [], 0⟩)
  replies _ := .proceed

def later : Holder String where
  api := (request.answer env config api).2
  obtained := handedOut (request.answer env config api).1

theorem run_request : Run (Acts env config text) ⟨api, []⟩ [request] later :=
  .single (.request text (by decide) (.inl rfl))

theorem row_api : Row env api text [.adminTokens] := by
  refine ⟨row, ?_, by decide, rfl⟩
  exact Table.mem_put.mpr (.inl rfl)

theorem obtained_later : later.obtained = [("usefuls_" ++ digits, allScopes)] := by
  decide

/-- A caller whose token can only issue tokens obtains every scope. -/
theorem exceeds_of_run : ¬ ∀ (env : External String) (config : HttpConfig) (token : String)
    (S : List Scope) (start : Api String) (requests : List (ApiRequest String))
    (later : Holder String), Row env start token S →
      Run (Acts env config token) ⟨start, []⟩ requests later →
        ∀ issued ∈ later.obtained, ∀ scope ∈ issued.2, scope ∈ S := by
  intro h
  have hscopes := h env config text [.adminTokens] api [request] later row_api run_request
    ("usefuls_" ++ digits, allScopes) (by rw [obtained_later]; exact List.mem_singleton_self _)
    .adminIdentities (by decide)
  exact absurd hscopes (by decide)

/-- The token obtained is one of the instance administrator. -/
theorem granted_of_run_request : later.obtained = [("usefuls_" ++ digits, allScopes)] ∧
    ∀ issued ∈ later.obtained, Granted env later.api issued :=
  ⟨obtained_later, (granted_of_run row_api run_request).1⟩

end Useful.Server.TokenScopes.Sample
