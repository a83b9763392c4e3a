/-
# Identities, roles and API tokens

The rows of `services/internal/domain/identity.go` with their repository, and the store of
the API: what the publisher service works on, and the tables that only handlers reach. A
token is found by the hash of its text, and no two rows have one hash.
-/

import Useful.Math.Tasks
import Useful.Server.Repository

namespace Useful.Server

open Useful.Math

/-! ## Roles and scopes -/

inductive Role
  | instanceAdmin
  | sourceAdmin
  | publisherOwner
  | publisherMaintainer
  | publisherViewer
  | reviewer
  | securityReviewer
  | unknown (name : String)
  deriving DecidableEq

def Role.name : Role → String
  | .instanceAdmin => "instance-admin"
  | .sourceAdmin => "source-admin"
  | .publisherOwner => "publisher-owner"
  | .publisherMaintainer => "publisher-maintainer"
  | .publisherViewer => "publisher-viewer"
  | .reviewer => "reviewer"
  | .securityReviewer => "security-reviewer"
  | .unknown name => name

inductive Scope
  | publisherWrite
  | publisherWithdraw
  | publisherAdvisory
  | publisherKeys
  | reviewWrite
  | adminIdentities
  | adminTokens
  | unknown (name : String)
  deriving DecidableEq

def Scope.name : Scope → String
  | .publisherWrite => "publisher:write"
  | .publisherWithdraw => "publisher:withdraw"
  | .publisherAdvisory => "publisher:advisory"
  | .publisherKeys => "publisher:keys"
  | .reviewWrite => "review:write"
  | .adminIdentities => "admin:identities"
  | .adminTokens => "admin:tokens"
  | .unknown name => name

/-- `AllScopes`. -/
def allScopes : List Scope :=
  [.publisherWrite, .publisherWithdraw, .publisherAdvisory, .publisherKeys, .reviewWrite,
    .adminIdentities, .adminTokens]

/-- `roleScopes`. -/
def roleScopes : Role → List Scope
  | .instanceAdmin => allScopes
  | .sourceAdmin => [.publisherWrite, .publisherWithdraw, .publisherAdvisory, .publisherKeys,
      .reviewWrite, .adminTokens]
  | .publisherOwner => [.publisherWrite, .publisherWithdraw, .publisherAdvisory, .publisherKeys]
  | .publisherMaintainer => [.publisherWrite]
  | .publisherViewer => []
  | .reviewer => [.reviewWrite]
  | .securityReviewer => [.publisherAdvisory, .reviewWrite]
  | .unknown _ => []

/-- `IsValidRole`. -/
def isValidRole : Role → Bool
  | .unknown _ => false
  | _ => true

/-- `RolesValid`. -/
def rolesValid (roles : List Role) : Bool := roles.all isValidRole

/-- `HasPublisherRole`. -/
def hasPublisherRole (roles : List Role) : Bool :=
  roles.contains .publisherOwner || roles.contains .publisherMaintainer ||
    roles.contains .publisherViewer

/-- The scopes of one role after those already seen. -/
def addScopes (seen : List Scope) : List Scope → List Scope
  | [] => seen
  | scope :: rest => addScopes (if scope ∈ seen then seen else seen ++ [scope]) rest

/-- `ScopesForRoles`. -/
def scopesForRoles (roles : List Role) : List Scope :=
  roles.foldl (fun seen role => addScopes seen (roleScopes role)) []

/-- `scopesWithin`. -/
def scopesWithin (scopes allowed : List Scope) : Bool := scopes.all fun scope => allowed.contains scope

theorem mem_addScopes {scopes seen : List Scope} {scope : Scope} :
    scope ∈ addScopes seen scopes ↔ scope ∈ seen ∨ scope ∈ scopes := by
  induction scopes generalizing seen with
  | nil => simp [addScopes]
  | cons head rest ih =>
      rw [addScopes, ih, List.mem_cons]
      by_cases hseen : head ∈ seen
      · rw [if_pos hseen]
        constructor
        · exact fun h => h.imp_right .inr
        · intro h
          cases h with
          | inl hmem => exact .inl hmem
          | inr h => exact h.elim (fun heq => .inl (heq ▸ hseen)) .inr
      · rw [if_neg hseen, List.mem_append, List.mem_singleton, or_assoc]

/-- A scope of some role. -/
theorem mem_scopesForRoles {roles : List Role} {scope : Scope} :
    scope ∈ scopesForRoles roles ↔ ∃ role ∈ roles, scope ∈ roleScopes role := by
  have hfold : ∀ seen, scope ∈ roles.foldl (fun seen role => addScopes seen (roleScopes role)) seen ↔
      scope ∈ seen ∨ ∃ role ∈ roles, scope ∈ roleScopes role := by
    induction roles with
    | nil => simp
    | cons role rest ih =>
        intro seen
        rw [List.foldl_cons, ih, mem_addScopes, or_assoc, List.exists_mem_cons_iff]
  rw [scopesForRoles, hfold]
  simp

theorem scopesWithin_iff {scopes allowed : List Scope} :
    scopesWithin scopes allowed = true ↔ ∀ scope ∈ scopes, scope ∈ allowed := by
  simp [scopesWithin]

/-! ## Rows -/

structure Identity where
  id : String
  displayName : String
  kind : String
  roles : List Role
  publisherKeyID : String
  disabled : Bool
  createdAt : Int
  deriving DecidableEq

structure APIToken where
  id : String
  identityID : String
  tokenHash : String
  scopes : List Scope
  expiresAt : Int
  revoked : Bool
  lastUsedAt : Option Int
  createdAt : Int
  deriving DecidableEq

/-- `Usable`. -/
def APIToken.usable (token : APIToken) (now : Int) : Bool := ! token.revoked && now < token.expiresAt

structure PublisherKey where
  keyID : String
  publisherID : String
  publicKey : String
  rotatedFrom : String
  createdAt : Int
  identityIssuer : String
  identitySANExact : String
  identitySANPattern : String
  deriving DecidableEq

structure SecurityAdvisory where
  id : String
  publisherKeyID : String
  toolID : String
  severity : String
  summary : String
  affectedVersions : List String
  createdAt : Int
  deriving DecidableEq

/-- The rows of tokens. -/
structure Tokens where
  table : Table APIToken APIToken.id
  unique : ∀ a ∈ table.rows, ∀ b ∈ table.rows, a.tokenHash = b.tokenHash → a = b

namespace Tokens

def empty : Tokens := ⟨.empty, nofun⟩

theorem mem_insert_unique {tokens : Tokens} {token : APIToken}
    (hhash : ∀ row ∈ tokens.table.rows, row.tokenHash ≠ token.tokenHash) :
    ∀ a ∈ (tokens.table.put token).rows, ∀ b ∈ (tokens.table.put token).rows,
      a.tokenHash = b.tokenHash → a = b := by
  intro a ha b hb heq
  cases Table.mem_put.mp ha with
  | inl hnew =>
      cases Table.mem_put.mp hb with
      | inl hnew' => exact hnew.trans hnew'.symm
      | inr hold => exact absurd (heq.symm.trans (congrArg APIToken.tokenHash hnew)) (hhash b hold.1)
  | inr hold =>
      cases Table.mem_put.mp hb with
      | inl hnew => exact absurd (heq.trans (congrArg APIToken.tokenHash hnew)) (hhash a hold.1)
      | inr hold' => exact tokens.unique a hold.1 b hold'.1 heq

/-- A row under a new hash. -/
def insert (tokens : Tokens) (token : APIToken)
    (hhash : ∀ row ∈ tokens.table.rows, row.tokenHash ≠ token.tokenHash) : Tokens :=
  ⟨tokens.table.put token, mem_insert_unique hhash⟩

theorem mem_replace_unique {tokens : Tokens} {current token : APIToken}
    (hcurrent : tokens.table.find token.id = some current)
    (hhash : token.tokenHash = current.tokenHash) :
    ∀ a ∈ (tokens.table.put token).rows, ∀ b ∈ (tokens.table.put token).rows,
      a.tokenHash = b.tokenHash → a = b := by
  obtain ⟨hmem, hid⟩ := Table.find_eq_some.mp hcurrent
  have hother : ∀ row ∈ tokens.table.rows, row.id ≠ token.id → row.tokenHash ≠ token.tokenHash := by
    intro row hrow hne heq
    have hsame := tokens.unique row hrow current hmem (heq.trans hhash)
    exact hne (hsame ▸ hid)
  intro a ha b hb heq
  cases Table.mem_put.mp ha with
  | inl hnew =>
      cases Table.mem_put.mp hb with
      | inl hnew' => exact hnew.trans hnew'.symm
      | inr hold =>
          exact absurd (heq.symm.trans (congrArg APIToken.tokenHash hnew)) (hother b hold.1 hold.2)
  | inr hold =>
      cases Table.mem_put.mp hb with
      | inl hnew =>
          exact absurd (heq.trans (congrArg APIToken.tokenHash hnew)) (hother a hold.1 hold.2)
      | inr hold' => exact tokens.unique a hold.1 b hold'.1 heq

/-- A row in the place of one with its hash. -/
def replace (tokens : Tokens) (token : APIToken) {current : APIToken}
    (hcurrent : tokens.table.find token.id = some current)
    (hhash : token.tokenHash = current.tokenHash) : Tokens :=
  ⟨tokens.table.put token, mem_replace_unique hcurrent hhash⟩

end Tokens

/-! ## The store of the API -/

structure Api (β : Type) where
  world : World β
  keys : Table PublisherKey PublisherKey.keyID
  advisories : List SecurityAdvisory
  identities : Table Identity Identity.id
  tokens : Tokens

/-- The body of a call. -/
abbrev ApiCall (β α : Type) := Api β → Except ServerError α × Api β

section

variable {β : Type}

/-- A call that only reads. -/
def lookingAt {α : Type} (f : Api β → Except ServerError α) : ApiCall β α := fun api => (f api, api)

/-! ### Identities and tokens -/

/-- `identityRepo.CreateIdentity`. -/
def insertIdentity (identity : Identity) : ApiCall β Unit := fun api =>
  match api.identities.find identity.id with
  | some _ => (.error (.conflict ""), api)
  | none => (.ok (), { api with identities := api.identities.put identity })

/-- `identityRepo.GetIdentity`. -/
def getIdentity (id : String) : ApiCall β Identity :=
  lookingAt fun api => orFail (.notFound "") (api.identities.find id)

/-- `identityRepo.CreateToken`. -/
def insertToken (token : APIToken) : ApiCall β Unit := fun api =>
  match api.tokens.table.find token.id with
  | some _ => (.error (.conflict ""), api)
  | none =>
      if hhash : ∀ row ∈ api.tokens.table.rows, row.tokenHash ≠ token.tokenHash then
        (.ok (), { api with tokens := api.tokens.insert token hhash })
      else (.error (.conflict ""), api)

/-- `identityRepo.GetTokenByHash`. -/
def getTokenByHash (hash : String) : ApiCall β APIToken :=
  lookingAt fun api => orFail (.notFound "")
    (api.tokens.table.rows.find? fun token => token.tokenHash = hash)

/-- A row with new values in the place of the row with an identifier. -/
def editToken (id : String) (edit : APIToken → APIToken) (hid : ∀ token, (edit token).id = token.id)
    (hhash : ∀ token, (edit token).tokenHash = token.tokenHash) : ApiCall β Unit := fun api =>
  match hfind : api.tokens.table.find id with
  | none => (.error (.notFound ""), api)
  | some token =>
      have hcurrent : api.tokens.table.find (edit token).id = some token := by
        rw [hid, (Table.find_eq_some.mp hfind).2, hfind]
      (.ok (), { api with tokens := api.tokens.replace (edit token) hcurrent (hhash token) })

/-- `identityRepo.RevokeToken`. -/
def revokeToken (id : String) : ApiCall β Unit :=
  editToken id (fun token => { token with revoked := true }) (fun _ => rfl) fun _ => rfl

/-- `identityRepo.TouchToken`. -/
def touchToken (id : String) (now : Int) : ApiCall β Unit :=
  editToken id (fun token => { token with lastUsedAt := some now }) (fun _ => rfl) fun _ => rfl

/-! ### Publishers and keys -/

/-- `publisherRepo.Create`: the initial key is registered with the publisher. -/
def insertPublisher (publisher : Publisher) : ApiCall β Unit := fun api =>
  if isPublisherKey publisher.keyID = false then (.error (.invalidInput ""), api)
  else if isEd25519PublisherKey publisher.keyID = true ∧ (publisher.identityIssuer ≠ "" ∨
      publisher.identitySANExact ≠ "" ∨ publisher.identitySANPattern ≠ "") then
    (.error (.invalidInput ""), api)
  else if isEd25519PublisherKey publisher.keyID = false ∧ (publisher.identityIssuer = "" ∨
      (publisher.identitySANExact = "" ↔ publisher.identitySANPattern = "")) then
    (.error (.invalidInput ""), api)
  else
    match api.world.publishers.find publisher.keyID with
    | some _ => (.error (.conflict ""), api)
    | none =>
        (.ok (), { api with
          world := { api.world with publishers := api.world.publishers.put publisher }
          keys := api.keys.put {
            keyID := publisher.keyID
            publisherID := publisher.id
            publicKey := if isEd25519PublisherKey publisher.keyID then
                String.ofList (publisher.keyID.toList.drop 8)
              else ""
            rotatedFrom := ""
            createdAt := publisher.createdAt
            identityIssuer := publisher.identityIssuer
            identitySANExact := publisher.identitySANExact
            identitySANPattern := publisher.identitySANPattern } })

/-- `publisherRepo.AddKey`: the publisher gets a row under the new key. -/
def addKey (key : PublisherKey) : ApiCall β Unit := fun api =>
  if isEd25519PublisherKey key.keyID = false ∨
      key.publicKey ≠ String.ofList (key.keyID.toList.drop 8) ∨
      isEd25519PublisherKey key.rotatedFrom = false then
    (.error (.invalidInput ""), api)
  else
    match api.keys.find key.keyID with
    | some _ => (.error (.conflict ""), api)
    | none =>
        match api.world.publishers.find key.rotatedFrom with
        | none => (.error (.notFound ""), api)
        | some publisher =>
            if publisher.id ≠ key.publisherID then (.error (.notFound ""), api)
            else
              match api.keys.find key.rotatedFrom with
              | none => (.error (.forbidden ""), api)
              | some old =>
                  if old.publisherID ≠ key.publisherID then (.error (.forbidden ""), api)
                  else
                    (.ok (), { api with
                      keys := api.keys.put key
                      world := { api.world with
                        publishers := api.world.publishers.put { publisher with keyID := key.keyID } } })

/-- `publisherRepo.GetKey`. -/
def getKey (keyID : String) : ApiCall β PublisherKey :=
  lookingAt fun api => orFail (.notFound "") (api.keys.find keyID)

/-! ### Tools and advisories -/

/-- `toolRepo.Get`. -/
def getTool (publisherKeyID toolID : String) : ApiCall β Tool :=
  lookingAt fun api => orFail (.notFound "") (api.world.tools.find (publisherKeyID, toolID))

/-- `advisoryRepo.Create`. -/
def insertAdvisory (adv : SecurityAdvisory) : ApiCall β Unit := fun api =>
  (.ok (), { api with advisories := api.advisories ++ [adv] })

end

end Useful.Server
