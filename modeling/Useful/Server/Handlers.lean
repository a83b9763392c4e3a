/-
# The authenticated API

The handlers of `services/internal/httpapi/server.go` and `admin.go` that ask for an API
token, each behind the scope its route requires. A body is what its decoder returned, if
anything; the values of the random generator and the clock come with the request. Audit
events are left out, since no handler but their listing reads them.
-/

import Useful.Server.Accounts
import Useful.Server.Publishers

namespace Useful.Server

open Useful.Math

/-- A task on the store of the API. -/
abbrev Handling (β α : Type) := Task (Label β) (Api β) ServerError α

structure HttpConfig extends Config where
  adminToken : String
  development : Bool
  emergencyAdminMode : Bool
  emergencyAdminUntil : Int
  /-- `url.Parse` finds an absolute HTTPS URL with a host and without a user. -/
  isHttpsURL : String → Bool

/-- `EmergencyAdminActive`. -/
def HttpConfig.emergencyAdminActive (config : HttpConfig) (now : Int) : Bool :=
  config.emergencyAdminMode && config.adminToken != "" && now < config.emergencyAdminUntil

/-! ## Requests -/

structure UploadBody where
  publisherKeyID : String
  sha256 : String
  size : Int

structure ReviewBody where
  decision : String
  note : String

structure AdvisoryBody where
  publisherKeyID : String
  toolID : String
  severity : String
  summary : String
  affectedVersions : List String

structure RotateBody where
  oldKeyID : String
  newKeyID : String
  crossSignature : String

structure IdentityBody where
  id : String
  displayName : String
  kind : String
  roles : List Role
  publisherKeyID : String

structure TokenBody where
  identityID : String
  scopes : List Scope
  ttlSeconds : Int

structure PublisherBody where
  id : String
  displayName : String
  keyID : String
  identityIssuer : String
  identitySANExact : String
  identitySANPattern : String

/-- The routes behind `requireScope`. -/
inductive Endpoint (β : Type)
  | createUpload (body : Option UploadBody)
  | uploadContent (id : String) (content : β)
  | createRelease (body : Option ReleaseRequest)
  | getRelease (releaseID : String)
  | review (releaseID : String) (body : Option ReviewBody)
  | withdraw (releaseID : String) (reason : Option String)
  | createAdvisory (body : Option AdvisoryBody)
  | rotateKey (body : Option RotateBody)
  | createIdentity (body : Option IdentityBody)
  | listIdentities
  | createAPIToken (body : Option TokenBody)
  | listAPITokens (identityID : String)
  | revokeAPIToken (tokenID : String)
  | listAudit
  | registerPublisher (body : Option PublisherBody)
  | listPublishers

def Endpoint.scope {β : Type} : Endpoint β → Scope
  | .createUpload _ | .uploadContent _ _ | .createRelease _ | .getRelease _ => .publisherWrite
  | .review _ _ => .reviewWrite
  | .withdraw _ _ => .publisherWithdraw
  | .createAdvisory _ => .publisherAdvisory
  | .rotateKey _ => .publisherKeys
  | .createIdentity _ | .listIdentities | .listAudit | .registerPublisher _ | .listPublishers =>
      .adminIdentities
  | .createAPIToken _ | .listAPITokens _ | .revokeAPIToken _ => .adminTokens

/-- The headers that identify the caller. -/
structure Credentials where
  authorization : String
  adminToken : String

/-- What a request takes from the clock and the random generator. -/
structure Surroundings where
  now : Int
  /-- The task that asks for the publish lease. -/
  task : Nat
  uploadID : String
  artifactUUID : String
  jobID : String
  advisoryUUID : String
  tokenSuffix : String
  /-- The digits of 32 random bytes, unless reading them fails. -/
  tokenDigits : Option String

/-! ## Responses -/

inductive Payload
  | uploadSession (id : String)
  | status (text : String)
  | artifact (art : Artifact)
  | advisory (adv : SecurityAdvisory)
  | rotated (newKeyID : String)
  | identity (identity : Identity)
  | identities (rows : List Identity)
  | issued (tokenID token : String) (scopes : List Scope) (expiresAt : Int)
  | tokens (rows : List APIToken)
  | auditEvents
  | publisher (publisher : Publisher)
  | publishers (rows : List Publisher)

inductive Response
  | problem (status : Nat) (title detail : String)
  | json (status : Nat) (payload : Payload)

/-- `writeDomainErr`. -/
def domainProblem (e : ServerError) : Response :=
  match e.kind with
  | .notFound => .problem 404 "not found" ""
  | .conflict => .problem 409 "conflict" e.text
  | .invalidInput => .problem 400 "invalid input" e.text
  | .forbidden => .problem 403 "forbidden" e.text
  | .objectConflict | .failure => .problem 500 "internal error" ""

def invalid (detail : String) : Response := .problem 400 "invalid input" detail

def forbiddenProblem (detail : String) : Response := .problem 403 "forbidden" detail

def badBody : Response := invalid "JSON 解析失败"

section

variable {β : Type}

/-- A call on the store of the API. -/
def ask {α : Type} (f : ApiCall β α) : Handling β α := Task.call .other f

/-- Work of the publisher service. -/
def onWorld {α : Type} (work : Work β α) : Handling β α :=
  work.zoom Api.world fun api world => { api with world := world }

/-- A domain error ends the request with a problem. -/
def orProblem {α : Type} (work : Handling β α) (next : α → Handling β Response) :
    Handling β Response := do
  match ← Task.attempt work with
  | .error e => return domainProblem e
  | .ok a => next a

variable (env : External β) (config : HttpConfig)

/-! ## Authentication -/

structure Principal where
  actor : String
  scopes : List Scope
  roles : List Role
  publisherKeyID : String

/-- `validIdentityPublisherBinding`. -/
def validIdentityPublisherBinding (identity : Identity) : Handling β Bool := do
  if rolesValid identity.roles = false then return false
  else if hasPublisherRole identity.roles = false then return identity.publisherKeyID == ""
  else if isPublisherKey identity.publisherKeyID = false then return false
  else
    match ← Task.attempt (onWorld (step (getByKeyID identity.publisherKeyID))) with
    | .ok _ => return true
    | .error _ => return false

/-- The API token in the header. -/
def bearer (authorization : String) : Option String :=
  if "Bearer ".toList.isPrefixOf authorization.toList then
    let raw := trim (authorization.toList.drop 7)
    if "usefuls_".toList.isPrefixOf raw then some (String.ofList raw) else none
  else none

/-- The part of `authenticateAdmin` for API tokens. -/
def authenticateToken (raw : String) (now : Int) : Handling β (Option Principal) := do
  match ← Task.attempt (ask (getTokenByHash (env.sha256Text raw))) with
  | .error _ => return none
  | .ok token =>
      if token.usable now = false then return none
      else
        match ← Task.attempt (ask (getIdentity token.identityID)) with
        | .error _ => return none
        | .ok identity =>
            if identity.disabled then return none
            else if ! (← validIdentityPublisherBinding identity) then return none
            else if scopesWithin token.scopes (scopesForRoles identity.roles) = false then return none
            else do
              let _ ← Task.attempt (ask (touchToken token.id now))
              return some ⟨identity.id, token.scopes, identity.roles, identity.publisherKeyID⟩

/-- The part of `authenticateAdmin` for the static token. -/
def staticPrincipal (adminToken : String) (now : Int) : Option Principal :=
  if adminToken ≠ "" ∧ config.adminToken ≠ "" ∧ adminToken = config.adminToken then
    if config.development then some ⟨"dev-admin", allScopes, [.instanceAdmin], ""⟩
    else if config.emergencyAdminActive now then
      some ⟨"emergency-admin", [.adminIdentities, .adminTokens], [], ""⟩
    else none
  else none

/-- `authenticateAdmin`. -/
def authenticateAdmin (credentials : Credentials) (now : Int) : Handling β (Option Principal) :=
  match bearer credentials.authorization with
  | some raw => authenticateToken env raw now
  | none => return staticPrincipal config credentials.adminToken now

/-- `principalHasGlobalPublisherScope`. -/
def Principal.hasGlobalPublisherScope (p : Principal) (scope : Scope) : Bool :=
  p.roles.contains .instanceAdmin || p.roles.contains .sourceAdmin ||
    (scope == .publisherAdvisory && p.roles.contains .securityReviewer)

/-- `authorizePublisher`. -/
def Principal.mayActFor (p : Principal) (publisherKeyID : String) (scope : Scope) : Bool :=
  p.hasGlobalPublisherScope scope || (hasPublisherRole p.roles && p.publisherKeyID == publisherKeyID)

/-- Continue for the owner; a stranger learns nothing. -/
def forOwner (p : Principal) (publisherKeyID : String) (scope : Scope)
    (next : Handling β Response) : Handling β Response :=
  if p.mayActFor publisherKeyID scope then next else return .problem 404 "not found" ""

/-! ## Publisher handlers -/

/-- `handleCreateUpload`. -/
def handleCreateUpload (p : Principal) (around : Surroundings) :
    Option UploadBody → Handling β Response
  | none => return badBody
  | some req =>
      forOwner p req.publisherKeyID .publisherWrite
        (orProblem (onWorld (createUploadSession config.toConfig around.uploadID req.publisherKeyID
          req.sha256 req.size around.now)) fun sess => return .json 201 (.uploadSession sess.id))

/-- `handleUploadContent`. -/
def handleUploadContent (p : Principal) (id : String) (content : β) : Handling β Response :=
  orProblem (onWorld (step (getUpload id))) fun sess =>
    forOwner p sess.publisherKeyID .publisherWrite
      (orProblem (onWorld (receiveContent env id content)) fun _ =>
        return .json 200 (.status "completed"))

/-- `handleCreateRelease`. -/
def handleCreateRelease (p : Principal) (around : Surroundings) :
    Option ReleaseRequest → Handling β Response
  | none => return badBody
  | some req =>
      orProblem (onWorld (step (getUpload req.uploadSessionID))) fun sess =>
        forOwner p sess.publisherKeyID .publisherWrite
          (orProblem (onWorld (createRelease env config.toConfig req ("art_" ++ around.artifactUUID)
            around.jobID around.now)) fun art => return .json 201 (.artifact art))

/-- `handleGetRelease`. -/
def handleGetRelease (p : Principal) (releaseID : String) : Handling β Response :=
  orProblem (onWorld (step (getArtifact releaseID))) fun art =>
    forOwner p art.publisherKeyID .publisherWrite (return .json 200 (.artifact art))

/-- `handleReview`. -/
def handleReview (around : Surroundings) (releaseID : String) :
    Option ReviewBody → Handling β Response
  | none => return badBody
  | some req =>
      if req.decision = "approved" then
        orProblem (onWorld (approve env config.toConfig around.task releaseID around.now)) fun _ =>
          return .json 200 (.status req.decision)
      else if req.decision = "rejected" then
        orProblem (onWorld (reject releaseID)) fun _ => return .json 200 (.status req.decision)
      else return invalid "decision 必须为 approved|rejected"

/-- `handleWithdraw`. -/
def handleWithdraw (p : Principal) (around : Surroundings) (releaseID : String) :
    Option String → Handling β Response
  | none => return badBody
  | some reason =>
      if (utf8 reason.toList).length > 2000 then return invalid "reason 过长"
      else
        orProblem (onWorld (step (getArtifact releaseID))) fun art =>
          forOwner p art.publisherKeyID .publisherWithdraw
            (orProblem (onWorld (withdraw env config.toConfig around.task releaseID around.now))
              fun _ => return .json 200 (.status "withdrawn"))

/-- `CreateAdvisory`. -/
def createAdvisory (adv : SecurityAdvisory) : Handling β SecurityAdvisory := do
  Task.ofExcept (failIf (isPublisherKey adv.publisherKeyID = false ∨
    isLowercaseID adv.toolID = false) (.invalidInput "公告身份非法"))
  Task.ofExcept (failIf (adv.severity ∉ ["low", "medium", "high", "critical"])
    (.invalidInput "非法严重级别"))
  Task.ofExcept (failIf (adv.summary = "" ∨ (utf8 adv.summary.toList).length > 2000)
    (.invalidInput "summary 长度非法"))
  ask (insertAdvisory adv)
  return adv

/-- `handleCreateAdvisory`. -/
def handleCreateAdvisory (p : Principal) (around : Surroundings) :
    Option AdvisoryBody → Handling β Response
  | none => return badBody
  | some req =>
      if req.affectedVersions.length > 256 then return invalid "affectedVersions 数量超限"
      else
        forOwner p req.publisherKeyID .publisherAdvisory
          (orProblem (ask (getTool req.publisherKeyID req.toolID)) fun _ =>
            orProblem (createAdvisory {
              id := "adv_" ++ around.advisoryUUID
              publisherKeyID := req.publisherKeyID
              toolID := req.toolID
              severity := req.severity
              summary := req.summary
              affectedVersions := req.affectedVersions
              createdAt := around.now }) fun adv => return .json 201 (.advisory adv))

/-- `VerifyKeyRotation`. -/
def verifyKeyRotation (oldKeyID newKeyID crossSigHex : String) : Except String Unit := do
  failIf (isEd25519PublisherKey oldKeyID = false ∨ isEd25519PublisherKey newKeyID = false)
    "发布者密钥必须是 canonical ed25519:[a-f0-9]\x7b64\x7d"
  let detail := env.hexError crossSigHex
  failIf (isHexText crossSigHex.toList = false) s!"交叉签名不是合法 hex: {detail}"
  failIf (crossSigHex.toList.length ≠ 128) "交叉签名长度非法"
  failIf (env.ed25519Verify (String.ofList (oldKeyID.toList.drop 8))
    ("useful-key-rotation-v1\n" ++ newKeyID) crossSigHex.toLower = false)
    "密钥轮换交叉签名验证失败（无法证明连续性）"

/-- `RotateKey`. -/
def rotateKey (oldKeyID newKeyID crossSig : String) (now : Int) : Handling β Unit := do
  match ← Task.attempt (ask (getKey oldKeyID)) with
  | .error _ => Task.fail (.forbidden "旧密钥未登记")
  | .ok old => do
      Task.ofExcept ((verifyKeyRotation env oldKeyID newKeyID crossSig).mapError .forbidden)
      ask (addKey {
        keyID := newKeyID
        publisherID := old.publisherID
        publicKey := String.ofList (newKeyID.toList.drop 8)
        rotatedFrom := oldKeyID
        createdAt := now
        identityIssuer := ""
        identitySANExact := ""
        identitySANPattern := "" })

/-- `handleRotateKey`. -/
def handleRotateKey (p : Principal) (around : Surroundings) :
    Option RotateBody → Handling β Response
  | none => return badBody
  | some req =>
      orProblem (ask (getKey req.oldKeyID)) fun oldKey =>
        forOwner p oldKey.keyID .publisherKeys
          (orProblem (rotateKey env req.oldKeyID req.newKeyID req.crossSignature around.now) fun _ =>
            return .json 200 (.rotated req.newKeyID))

/-! ## Administration -/

/-- `handleCreateIdentity`. -/
def handleCreateIdentity (around : Surroundings) : Option IdentityBody → Handling β Response
  | none => return badBody
  | some req => do
      let kind := if req.kind = "" then "user" else req.kind
      if isLowercaseID req.id = false then return invalid "非法身份 ID"
      else if kind ≠ "user" ∧ kind ≠ "service-account" then
        return invalid "kind 必须为 user|service-account"
      else
        match req.roles.find? fun role => ! isValidRole role with
        | some role => return invalid ("非法角色: " ++ role.name)
        | none =>
            let create : Handling β Response :=
              let identity : Identity := {
                id := req.id
                displayName := req.displayName
                kind := kind
                roles := req.roles
                publisherKeyID := req.publisherKeyID
                disabled := false
                createdAt := around.now }
              orProblem (ask (insertIdentity identity)) fun _ => return .json 201 (.identity identity)
            if hasPublisherRole req.roles then
              if isPublisherKey req.publisherKeyID = false then
                return invalid "publisher 角色必须绑定合法 publisherKeyId"
              else
                match ← Task.attempt (onWorld (step (getByKeyID req.publisherKeyID))) with
                | .error _ => return forbiddenProblem "publisherKeyId 未登记"
                | .ok _ => create
            else if req.publisherKeyID ≠ "" then
              return invalid "非 publisher 角色不得设置 publisherKeyId"
            else create

/-- A lifetime of up to 366 days, by default 90. -/
def tokenLifetime (ttlSeconds : Int) : Int :=
  if ttlSeconds ≤ 0 ∨ ttlSeconds > 366 * 24 * 3600 then 90 * 24 * 3600 else ttlSeconds

/-- `handleCreateAPIToken`. -/
def handleCreateAPIToken (around : Surroundings) : Option TokenBody → Handling β Response
  | none => return badBody
  | some req =>
      orProblem (ask (getIdentity req.identityID)) fun identity => do
        if identity.disabled then return forbiddenProblem "身份已禁用"
        else if ! (← validIdentityPublisherBinding identity) then
          return forbiddenProblem "身份的 publisher 绑定无效"
        else
          let allowed := scopesForRoles identity.roles
          let scopes := if req.scopes = [] then allowed else req.scopes
          match scopes.find? fun scope => ! allowed.contains scope with
          | some scope => return forbiddenProblem ("scope 超出身份角色允许范围: " ++ scope.name)
          | none =>
              match around.tokenDigits with
              | none => return .problem 500 "internal error" ""
              | some digits =>
                  let plaintext := "usefuls_" ++ digits
                  let token : APIToken := {
                    id := "tok_" ++ around.tokenSuffix
                    identityID := identity.id
                    tokenHash := env.sha256Text plaintext
                    scopes := scopes
                    expiresAt := around.now + tokenLifetime req.ttlSeconds
                    revoked := false
                    lastUsedAt := none
                    createdAt := around.now }
                  orProblem (ask (insertToken token)) fun _ =>
                    return .json 201 (.issued token.id plaintext token.scopes token.expiresAt)

/-- `handleListAPITokens`. -/
def handleListAPITokens (identityID : String) : Handling β Response :=
  if identityID = "" then return invalid "需要 identityId"
  else
    orProblem (ask (lookingAt fun api =>
        .ok (api.tokens.table.rows.filter fun token => token.identityID = identityID))) fun rows =>
      return .json 200 (.tokens rows)

/-- `handleRevokeAPIToken`. -/
def handleRevokeAPIToken (tokenID : String) : Handling β Response :=
  orProblem (ask (revokeToken tokenID)) fun _ => return .json 200 (.status "revoked")

/-- A pattern with one wildcard inside. -/
def hasBoundedWildcard (pattern : String) : Bool :=
  match cut '*' pattern.toList with
  | (before, some after) => ! before.isEmpty && ! after.isEmpty && ! after.contains '*'
  | (_, none) => false

/-- `ValidateIdentityPolicy`. -/
def validateIdentityPolicy (req : PublisherBody) : Except String Unit := do
  failIf (isSigstorePublisherKey req.keyID = false) "publisherKeyId is not a canonical Sigstore label"
  failIf (req.identityIssuer = "" ∨ (utf8 req.identityIssuer.toList).length > 2048)
    "Sigstore issuer is required"
  failIf (config.isHttpsURL req.identityIssuer = false) "Sigstore issuer must be an absolute HTTPS URL"
  failIf (req.identitySANExact = "" ↔ req.identitySANPattern = "")
    "exactly one Sigstore SAN selector is required"
  failIf ((utf8 req.identitySANExact.toList).length > 2048 ∨
    (utf8 req.identitySANPattern.toList).length > 2048) "Sigstore SAN selector is too long"
  if req.identitySANExact ≠ "" then
    failIf (req.identitySANExact.toList.contains '*' = true)
      "Sigstore exact SAN cannot contain a wildcard"
  else
    failIf (hasBoundedWildcard req.identitySANPattern = false)
      "Sigstore SAN pattern must contain one bounded wildcard"

/-- `handleRegisterPublisher`. -/
def handleRegisterPublisher (around : Surroundings) : Option PublisherBody → Handling β Response
  | none => return badBody
  | some req =>
      if isLowercaseID req.id = false then return invalid "非法发布者 ID"
      else if isPublisherKey req.keyID = false then
        return invalid "keyId 必须是 canonical ed25519 公钥或受控 Sigstore label"
      else if req.displayName = "" ∨ (utf8 req.displayName.toList).length > 200 then
        return invalid "displayName 长度非法"
      else
        let policy : Except String Unit :=
          if isEd25519PublisherKey req.keyID then
            failIf (req.identityIssuer ≠ "" ∨ req.identitySANExact ≠ "" ∨
              req.identitySANPattern ≠ "") "Ed25519 publisher 不得携带 Sigstore identity policy"
          else validateIdentityPolicy config req
        match policy with
        | .error detail => return invalid detail
        | .ok _ =>
            let publisher : Publisher := {
              id := req.id
              displayName := req.displayName
              keyID := req.keyID
              createdAt := around.now
              identityIssuer := req.identityIssuer
              identitySANExact := req.identitySANExact
              identitySANPattern := req.identitySANPattern }
            orProblem (ask (insertPublisher publisher)) fun _ =>
              return .json 201 (.publisher publisher)

/-! ## Routing -/

/-- The handler of a route. -/
def handler (p : Principal) (around : Surroundings) : Endpoint β → Handling β Response
  | .createUpload body => handleCreateUpload config p around body
  | .uploadContent id content => handleUploadContent env p id content
  | .createRelease body => handleCreateRelease env config p around body
  | .getRelease releaseID => handleGetRelease p releaseID
  | .review releaseID body => handleReview env config around releaseID body
  | .withdraw releaseID reason => handleWithdraw env config p around releaseID reason
  | .createAdvisory body => handleCreateAdvisory p around body
  | .rotateKey body => handleRotateKey env p around body
  | .createIdentity body => handleCreateIdentity around body
  | .listIdentities => orProblem (ask (lookingAt fun api => .ok api.identities.rows)) fun rows =>
      return .json 200 (.identities rows)
  | .createAPIToken body => handleCreateAPIToken env around body
  | .listAPITokens identityID => handleListAPITokens identityID
  | .revokeAPIToken tokenID => handleRevokeAPIToken tokenID
  | .listAudit => orProblem (ask (lookingAt fun _ => .ok ())) fun _ => return .json 200 .auditEvents
  | .registerPublisher body => handleRegisterPublisher config around body
  | .listPublishers => orProblem (ask (lookingAt fun api => .ok api.world.publishers.rows))
      fun rows => return .json 200 (.publishers rows)

/-- `requireScope`, for an authenticated caller. -/
def serve (p : Principal) (around : Surroundings) (endpoint : Endpoint β) : Handling β Response :=
  if p.scopes.contains endpoint.scope then handler env config p around endpoint
  else return forbiddenProblem ("缺少 scope: " ++ endpoint.scope.name)

/-- `requireScope` around the handler of a route. -/
def respond (credentials : Credentials) (around : Surroundings) (endpoint : Endpoint β) :
    Handling β Response := do
  match ← authenticateAdmin env config credentials around.now with
  | none => return .problem 401 "unauthorized" "需要有效的 API Token"
  | some p => serve env config p around endpoint

end

end Useful.Server
