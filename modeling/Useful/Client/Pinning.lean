/-
# Pinned sources and publishers

`evaluate_update` of `useful-repository-client/src/pinning.rs`, and the command of
`commands/trp_sources.rs` that installs, updates and rolls back a tool from its source. An
update keeps source, publisher and channel. Its version is greater in the order of the
`semver` crate, where builds count, and so of higher precedence unless the two versions
differ in their builds alone.
-/

import Useful.Client.Search
import Useful.Math.Semver
import Useful.Math.Transition
import Useful.Plugins.Install
import Useful.Plugins.ToolTables

namespace Useful.Client.Pinning

open Useful.Math Useful.Client Useful.Client.Search
open Useful.Plugins (Parsers PluginManifest Tables ToolEntry eqIgnoreAsciiCase)

/-! ## The decision -/

structure InstalledOrigin extends Plugins.InstalledOrigin where
  toolId : String
  deriving DecidableEq, Repr

structure UpdateCandidate where
  sourceId : String
  publisherKeyId : String
  toolId : String
  version : String
  artifactSha256 : String
  channel : String
  permissions : List String
  deriving DecidableEq, Repr

inductive RejectReason
  | sourceMismatch
  | publisherKeyMismatch
  | toolIdMismatch
  | invalidVersion
  | notAnUpgrade
  | channelChanged
  | sameVersionDifferentDigest
  deriving DecidableEq, Repr

/-- The `Debug` text. -/
def RejectReason.debug : RejectReason → String
  | sourceMismatch => "SourceMismatch"
  | publisherKeyMismatch => "PublisherKeyMismatch"
  | toolIdMismatch => "ToolIdMismatch"
  | invalidVersion => "InvalidVersion"
  | notAnUpgrade => "NotAnUpgrade"
  | channelChanged => "ChannelChanged"
  | sameVersionDifferentDigest => "SameVersionDifferentDigest"

inductive UpdateDecision
  | allow (addedPermissions : List String)
  | reject (reason : RejectReason)
  deriving DecidableEq, Repr

section

variable {V : Type} [LinearOrder V] (parsers : Parsers V)

/-- The permissions of a candidate that are not granted yet. -/
def addedPermissions (candidate : UpdateCandidate) (granted : Finset String) : List String :=
  candidate.permissions.filter (· ∉ granted)

/-- `evaluate_update`. -/
def evaluateUpdate (origin : InstalledOrigin) (candidate : UpdateCandidate)
    (granted : Finset String) : UpdateDecision :=
  if candidate.toolId ≠ origin.toolId then .reject .toolIdMismatch
  else if candidate.sourceId ≠ origin.sourceId then .reject .sourceMismatch
  else if candidate.publisherKeyId ≠ origin.publisherKeyId then .reject .publisherKeyMismatch
  else if candidate.channel ≠ origin.channel then .reject .channelChanged
  else
    match parsers.version origin.installedVersion, parsers.version candidate.version with
    | .ok cur, .ok cand =>
        if cand = cur then
          if eqIgnoreAsciiCase candidate.artifactSha256 origin.artifactSha256 = false then
            .reject .sameVersionDifferentDigest
          else .reject .notAnUpgrade
        else if cand < cur then .reject .notAnUpgrade
        else .allow (addedPermissions candidate granted)
    | _, _ => .reject .invalidVersion

end

/-! ## The command -/

structure InstallRequest where
  sourceId : String
  publisherKeyId : String
  toolId : String
  targetVersion : Option String
  permissionsConfirmed : Bool
  allowDowngrade : Bool
  deriving DecidableEq, Repr

/-- The database, as far as installing from a source reads and writes it. -/
structure InstallDb extends Db where
  tools : Tables

/-- `install_useful` is asked for this. -/
structure InstallOptions where
  installedVersion : Option String
  allowDowngrade : Bool
  expectedSha256 : String

/-- The package that was delivered: the digest of its manifest, and what that is read as. -/
structure Delivery where
  manifestDigest : String
  manifest : Except CmdError PluginManifest

/-- What is outside of the decision: the URL parser, reads of the database that fail, the
verified download of a package, its unpacking, the transaction, and the time. -/
structure Outside where
  validateUrl : String → Bool → Except String String
  originFails : Bool
  grantsFail : Bool
  deliver : SourceRow → ArtifactInfo → Except CmdError Delivery
  installUseful : InstallOptions → PluginManifest → Except CmdError (String × String)
  persist : Except CmdError PUnit
  now : Int

/-- A lower-case text of 64 hexadecimal digits. -/
def isFingerprint (text : String) : Bool := isSha256Hex text

variable {V : Type} [LinearOrder V] (parsers : Parsers V) (out : Outside)

/-- `load_source_row`. -/
def loadSourceRow (db : InstallDb) (sourceId : String) : Except CmdError SourceRow := do
  let row ← orFail (.of "Query returned no rows") (db.sources.find sourceId)
  let canonical ← (out.validateUrl row.discoveryUrl row.isLocal).mapError fun e =>
    CmdError.of s!"已保存源 URL 无效: {e}"
  failIf (canonical ≠ row.discoveryUrl)
    (.of "已保存源 URL 不是 canonical 形式，请删除后重新确认来源身份")
  failIf (isFingerprint row.rootKeyFingerprint = false)
    (.of "已保存源根指纹不是 canonical SHA-256")
  return row

/-- `load_installed_origin`: a read that fails finds nothing. -/
def loadInstalledOrigin (db : InstallDb) (toolId : String) : Option InstalledOrigin :=
  if out.originFails then none
  else (db.tools toolId).origin.map fun origin => { origin with toolId := toolId }

/-- `granted_permissions`. -/
def grantedPermissions (db : InstallDb) (toolId : String) : Finset String :=
  if out.grantsFail then ∅ else (db.tools toolId).granted

/-- The artifact that is asked for. -/
def pickArtifact (entry : CatalogEntry) (targetVersion : Option String) :
    Except CmdError (Option ArtifactInfo) :=
  match targetVersion with
  | some version => pickStableArtifactVersion entry version
  | none => pickStableArtifact entry

def candidateOf (req : InstallRequest) (artifact : ArtifactInfo) : UpdateCandidate where
  sourceId := req.sourceId
  publisherKeyId := req.publisherKeyId
  toolId := req.toolId
  version := artifact.version
  artifactSha256 := artifact.artifactSha256
  channel := artifact.channel
  permissions := artifact.permissions

/-- The checks of a rollback. -/
def checkRollback (origin : InstalledOrigin) (candidate : UpdateCandidate)
    (granted : Finset String) : Except CmdError (List String) := do
  failIf (candidate.sourceId ≠ origin.sourceId ∨ candidate.publisherKeyId ≠ origin.publisherKeyId ∨
    candidate.toolId ≠ origin.toolId ∨ candidate.channel ≠ origin.channel)
    (.of "回滚被来源/发布者/频道固定策略拒绝")
  let current ← (parsers.version origin.installedVersion).mapError fun _ =>
    CmdError.of "已安装版本不是合法 SemVer"
  let target ← (parsers.version candidate.version).mapError fun _ =>
    CmdError.of "回滚目标不是合法 SemVer"
  failIf (current ≤ target) (.of "回滚目标必须低于当前版本")
  return addedPermissions candidate granted

/-- The permissions to confirm, if the pinned origin admits the artifact. -/
def checkOrigin (req : InstallRequest) (artifact : ArtifactInfo) (granted : Finset String) :
    Option InstalledOrigin → Except CmdError (List String)
  | none => .ok artifact.permissions
  | some origin =>
      if req.allowDowngrade then checkRollback parsers origin (candidateOf req artifact) granted
      else
        match evaluateUpdate parsers origin (candidateOf req artifact) granted with
        | .allow added => .ok added
        | .reject reason =>
            let reason := reason.debug
            .error (.of s!"更新被来源/发布者固定策略拒绝: {reason}（如需更换来源请使用显式的“迁移工具来源”操作）")

/-- The row that pins the tool. -/
def pinnedOrigin (req : InstallRequest) (artifact : ArtifactInfo) : Plugins.InstalledOrigin where
  sourceId := req.sourceId
  publisherKeyId := req.publisherKeyId
  installedVersion := artifact.version
  artifactSha256 := artifact.artifactSha256.toLower
  channel := artifact.channel
  manifestDigest := artifact.manifestDigest.toLower

/-- `signature_invalid`. -/
def signatureInvalid (message : String) : CmdError := ⟨message, some "signature_invalid"⟩

/-- The checks on the manifest of the package. -/
def checkManifest (req : InstallRequest) (artifact : ArtifactInfo) (delivery : Delivery) :
    Except CmdError PluginManifest := do
  failIf (eqIgnoreAsciiCase delivery.manifestDigest artifact.manifestDigest = false)
    (signatureInvalid "包内 manifest 与目录声明的摘要不一致——拒绝安装")
  let manifest ← delivery.manifest
  failIf (manifest.id ≠ req.toolId ∨ manifest.version ≠ artifact.version ∨
    manifest.permissions.insertionSort Tuf.byteLe ≠ artifact.permissions.insertionSort Tuf.byteLe)
    (signatureInvalid "包内 manifest 与目录工具身份或权限不一致——拒绝安装")
  return manifest

/-- `install_from_trp_source_version`. -/
def installFromTrpSourceVersion (db : InstallDb) (req : InstallRequest) :
    Except CmdError InstallDb := do
  let src ← loadSourceRow out db req.sourceId
  failIf (src.enabled = false) (.of "源已禁用")
  let entry ← loadEntry db.toDb req.sourceId req.publisherKeyId req.toolId
  failIf (entry.offer.accessMode ≠ "free") (.of "非免费制品需要下载授权（DownloadGrant，Phase 8）")
  failIf entry.isNativeWorker (.of "公开源禁止安装原生 worker 工具")
  let picked ← pickArtifact entry req.targetVersion
  let artifact ← orFail (.of "该工具没有可用的 stable 制品（windows/x86_64）") picked
  let origin := loadInstalledOrigin out db req.toolId
  let added ← checkOrigin parsers req artifact (grantedPermissions out db req.toolId) origin
  let names := String.intercalate ", " added
  failIf (added ≠ [] ∧ req.permissionsConfirmed = false) (.of s!"需要确认权限: {names}")
  let delivery ← out.deliver src artifact
  let manifest ← checkManifest req artifact delivery
  let (installDir, sha256) ← out.installUseful
    ⟨origin.map (·.installedVersion), req.allowDowngrade, artifact.artifactSha256⟩ manifest
  out.persist
  let tool ← ((db.tools manifest.id).persistInstalled manifest installDir sha256
    (some (pinnedOrigin req artifact)) out.now).mapError .of
  return { db with tools := Function.update db.tools manifest.id tool }

/-! ## Runs -/

/-- What happens to the database of a client. Everything but the tools may change at any time. -/
inductive Event
  | install (out : Outside) (req : InstallRequest)
  | locally (op : Plugins.Operation)
  | sync (db : Db)

/-- An operation on a local package, which pins nothing. -/
def isLocal : Plugins.Operation → Prop
  | .persistInstalled _ _ _ trp _ => trp = none
  | _ => True

/-- One event. A command that fails has no effect. -/
inductive Step : InstallDb → Event → InstallDb → Prop
  | installed {out : Outside} {req : InstallRequest} {db db' : InstallDb}
      (h : installFromTrpSourceVersion parsers out db req = .ok db') :
      Step db (.install out req) db'
  | refused {out : Outside} {req : InstallRequest} {db : InstallDb} {e : CmdError}
      (h : installFromTrpSourceVersion parsers out db req = .error e) :
      Step db (.install out req) db
  | locally {op : Plugins.Operation} {db : InstallDb} {tools : Tables} (hlocal : isLocal op)
      (h : Plugins.ToolStep db.tools op tools) : Step db (.locally op) { db with tools := tools }
  | sync (db : InstallDb) (db' : Db) : Step db (.sync db') { db with toDb := db' }

/-! ## What is admitted -/

variable {parsers out}
variable {db db' : InstallDb} {req : InstallRequest} {origin : InstalledOrigin}
  {candidate : UpdateCandidate} {granted : Finset String} {added : List String}
  {artifact : ArtifactInfo} {toolId : String}

/-- Source, publisher and channel are the same. -/
structure SamePins (pinned origin : Plugins.InstalledOrigin) : Prop where
  sourceId : origin.sourceId = pinned.sourceId
  publisherKeyId : origin.publisherKeyId = pinned.publisherKeyId
  channel : origin.channel = pinned.channel

theorem SamePins.refl (pinned : Plugins.InstalledOrigin) : SamePins pinned pinned := ⟨rfl, rfl, rfl⟩

theorem SamePins.trans {a b c : Plugins.InstalledOrigin} (hab : SamePins a b) (hbc : SamePins b c) :
    SamePins a c :=
  ⟨hbc.sourceId.trans hab.sourceId, hbc.publisherKeyId.trans hab.publisherKeyId,
    hbc.channel.trans hab.channel⟩

/-- The candidate is greater than the installed version, but only in its build. -/
def BuildOnly (parsers : Parsers V) (installed candidate : String) : Prop :=
  (∃ cur cand, parsers.version installed = .ok cur ∧ parsers.version candidate = .ok cand ∧
    cur < cand) ∧ versionPrecedence installed = versionPrecedence candidate

/-- The origin of the tool can be read, and an update is not one of the build alone. -/
structure Readable (parsers : Parsers V) (out : Outside) (req : InstallRequest) (db : InstallDb) :
    Prop where
  origin : out.originFails = false
  version : req.allowDowngrade = false → ∀ origin entry artifact,
    (db.tools req.toolId).origin = some origin →
    loadEntry db.toDb req.sourceId req.publisherKeyId req.toolId = .ok entry →
    pickArtifact entry req.targetVersion = .ok (some artifact) →
    ¬ BuildOnly parsers origin.installedVersion artifact.version

end Useful.Client.Pinning

/-! ## Two builds of one version -/

namespace Useful.Client.Pinning.Sample

open Useful.Math Useful.Client Useful.Client.Search
open Useful.Plugins (Parsers Tables webManifest)

/-- Versions by precedence, and those of one precedence by their builds. -/
abbrev Ordered := Version.Precedence ×ₗ List Version.Identifier

def ordered (v : Version) : Ordered := toLex (v.precedence, v.build.map Version.identifier)

def parsers : Parsers Ordered where
  version text := orFail "unexpected character" ((Version.read text.toList).map ordered)
  manifest _ := .error (.json "")

def artifact (version : String) : ArtifactInfo := { Search.Sample.build 'a' with version := version }

def entry (version : String) : CatalogEntry :=
  { Search.Sample.entry "tool-a" [artifact version] with latest := ⟨some version, none, none⟩ }

/-- One source, which offers one version. -/
def catalog (version : String) : Db where
  sources := ⟨[Search.Sample.source "a" 10], by simp⟩
  cache := ⟨[cacheRow "a" (entry version)], by simp⟩

/-- Everything outside works. -/
def outside : Outside where
  validateUrl url _ := .ok url
  originFails := false
  grantsFail := false
  deliver _ artifact := .ok ⟨artifact.manifestDigest, .ok (webManifest "tool-a" artifact.version)⟩
  installUseful _ manifest := .ok (manifest.id, "00")
  persist := .ok ⟨⟩
  now := 0

def request : InstallRequest where
  sourceId := "a"
  publisherKeyId := "ed25519:a"
  toolId := "tool-a"
  targetVersion := none
  permissionsConfirmed := false
  allowDowngrade := false

def pinned (version : String) : Plugins.InstalledOrigin := pinnedOrigin request (artifact version)

end Useful.Client.Pinning.Sample
