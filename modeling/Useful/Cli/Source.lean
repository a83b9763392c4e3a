/-
# The workspace of a static source

The files of a source directory and `useful source publish`, which turns the registered
packages into signed metadata, a catalog and a discovery document. The command is a script of
file operations: it reads before it starts what it reads at all, since nothing it writes is
among the files it reads.
-/

import Mathlib.Algebra.Group.Int.Defs
import Useful.Math.Groups
import Useful.Math.Script

namespace Useful.Cli

open Useful.Math

namespace Source

/-! ## Files -/

/-- `tufVersion` of `source-state.json`. -/
structure TufVersion where
  targets : Int
  snapshot : Int
  timestamp : Int
  deriving DecidableEq

/-- An entry of `packages` of `source-state.json`. -/
structure PackageRow where
  toolId : String
  name : String
  summary : String
  license : String
  version : String
  channel : String
  platform : String
  arch : String
  permissions : List String
  fileName : String
  sha256 : String
  size : Nat
  manifestDigest : String
  publisherKeyId : String
  addedAt : String
  publisherSignatureVerified : Bool
  signatureMethod : Option String
  signatureIdentity : Option String
  deriving DecidableEq

structure SourceState where
  tufVersion : TufVersion
  packages : List PackageRow

/-- Days until metadata expires. -/
structure Expires where
  root : Nat
  targets : Nat
  snapshot : Nat
  timestamp : Nat

structure SourceConfig where
  sourceId : String
  name : String
  operator : String
  description : String
  baseUrl : String
  publisherKeyId : String
  expires : Expires

structure Key where
  keyid : String
  publicHex : String
  privatePem : String
  deriving DecidableEq

/-- A signed document, with its signatures by key id. -/
structure Signed (α : Type) where
  signatures : List (String × String)
  signed : α

structure TargetCustom where
  publisherKeyId : String
  toolId : String
  version : String
  channel : String
  platform : String
  arch : String
  artifactSha256 : String
  publisherSignatureVerified : Bool
  publisherSignatureMethod : String
  publisherSignaturePayloadVersion : String
  publisherSignature : String
  signatureIdentity : String

structure TargetEntry where
  length : Nat
  sha256 : String
  custom : TargetCustom

structure TargetsSigned where
  version : Nat
  expires : String
  targets : List (String × TargetEntry)

/-- How a document names the one below it. -/
structure MetaEntry where
  version : Nat
  length : Nat
  sha256 : String
  deriving DecidableEq

structure SnapshotSigned where
  version : Nat
  expires : String
  targetsMeta : MetaEntry

structure TimestampSigned where
  version : Nat
  expires : String
  snapshotMeta : MetaEntry

/-- A public key of a root document, by key id. -/
structure RoleKeys where
  keyids : List String
  threshold : Nat

structure RootSigned where
  version : Nat
  expires : String
  keys : List (String × String)
  root : RoleKeys
  targets : RoleKeys
  snapshot : RoleKeys
  timestamp : RoleKeys

structure CatalogArtifact where
  version : String
  channel : String
  platform : String
  arch : String
  artifactSha256 : String
  manifestDigest : String
  size : Nat
  permissions : List String
  publishedAt : String
  publisherSignatureVerified : Bool
  signatureMethod : Option String
  signatureIdentity : Option String

structure CatalogEntry where
  publisherKeyId : String
  toolId : String
  name : String
  summary : String
  license : String
  artifacts : List CatalogArtifact
  updatedAt : String

structure Catalog where
  sourceId : String
  generatedAt : String
  entries : List CatalogEntry

structure Discovery where
  source : SourceConfig
  rootSha256 : String

/-- The files of a source directory. -/
inductive Path
  | config
  | state
  | key (role : String)
  | keyBackup (version : Nat)
  | package (fileName : String)
  | target (sha256 name : String)
  | rootDoc (version : Nat)
  | targetsDoc (version : Nat)
  | snapshotDoc (version : Nat)
  | timestampDoc
  | catalog
  | discovery
  deriving DecidableEq

inductive Content
  | raw (bytes : List Nat)
  | pem (text : String)
  | config (c : SourceConfig)
  | state (s : SourceState)
  | root (doc : Signed RootSigned)
  | targets (doc : Signed TargetsSigned)
  | snapshot (doc : Signed SnapshotSigned)
  | timestamp (doc : Signed TimestampSigned)
  | catalog (c : Catalog)
  | discovery (d : Discovery)

abbrev Files := Path → Option Content

/-- What the commands take from elsewhere: `node:crypto`, the encoding of documents, and the
order of `localeCompare`. -/
structure Outside where
  sha256Hex : List Nat → String
  /-- The bytes a file holds. -/
  encode : Content → List Nat
  keyFromPrivatePem : String → Key
  signTargets : String → TargetsSigned → String
  signSnapshot : String → SnapshotSigned → String
  signTimestamp : String → TimestampSigned → String
  signRoot : String → RootSigned → String
  signBytes : String → String → String
  localeLe : String → String → Bool
  toLower : String → String

/-- The clock of one run. -/
structure Clock where
  now : String
  expiresIn : Nat → String

/-! ## Publishing -/

/-- The three documents of one publish. -/
structure Graph where
  targets : Signed TargetsSigned
  snapshot : Signed SnapshotSigned
  timestamp : Signed TimestampSigned

/-- Operations on the files. `commit` is the rename of the new `timestamp.json`, with the
documents it publishes. -/
inductive FileOp
  | lock
  | unlock
  | makeDirs (path : Path)
  | writeTemp (path : Path) (c : Content)
  | rename (path : Path) (c : Content)
  | commit (g : Graph)

abbrev SourceScript := Script FileOp String

variable (env : Outside)

def PUBLISHER_PAYLOAD_VERSION : String := "useful-artifact-v1"

def publisherPayload (toolId version sha256 : String) : String :=
  s!"{PUBLISHER_PAYLOAD_VERSION}\n{toolId}\n{version}\n{env.toLower sha256}"

/-- `[a-zA-Z0-9._-]` -/
def isTargetChar (c : Char) : Bool := c.isAlphanum || c = '.' || c = '_' || c = '-'

def targetNameOf (p : PackageRow) : String :=
  String.ofList (s!"{p.toolId}-{p.version}-{p.channel}-{p.platform}-{p.arch}.useful".toList.map
    fun c => if isTargetChar c then c else '_')

/-- `writeFileAtomicEnsured` -/
def writeFileAtomicEnsured (path : Path) (c : Content) : SourceScript PUnit := do
  .perform (.makeDirs path)
  .perform (.writeTemp path c)
  .perform (.rename path c)

def saveState (s : SourceState) : SourceScript PUnit := writeFileAtomicEnsured .state (.state s)

def loadConfig (files : Files) : Except String SourceConfig :=
  match files .config with
  | some (.config c) => .ok c
  | _ => .error "不是源目录（缺少 source-config.yaml）"

def loadState (files : Files) : SourceState :=
  match files .state with
  | some (.state s) => s
  | _ => ⟨⟨0, 0, 0⟩, []⟩

def loadRoleKey (files : Files) (role : String) : Except String Key :=
  match files (.key role) with
  | some (.pem text) => .ok (env.keyFromPrivatePem text)
  | _ => .error s!"缺少私钥 keys/{role}.pem（开发文件密钥）"

def maxSafeInteger : Int := 2 ^ 53 - 1

/-- One version of the reservation loop. -/
def reserve (role : String) (current : Int) : Except String Int :=
  if current < 0 ∨ maxSafeInteger ≤ current then
    .error s!"source-state.json 的 {role} 版本非法或已溢出"
  else
    .ok (current + 1)

def metaEntryOf (c : Content) (version : Nat) : MetaEntry :=
  ⟨version, (env.encode c).length, env.sha256Hex (env.encode c)⟩

/-- One turn of the loop over the packages, with the targets so far. -/
def publishPackage (files : Files) (publisher : Key) (publisherKeyId : String)
    (targets : List (String × TargetEntry)) (p : PackageRow) :
    SourceScript (List (String × TargetEntry) × PackageRow) := do
  match files (.package p.fileName) with
  | some (.raw bytes) =>
      let hash := env.sha256Hex bytes
      let targetName := targetNameOf p
      if hash ≠ p.sha256 then
        .die s!"包文件被改动，摘要不符: {p.fileName}"
      else if p.publisherKeyId ≠ publisherKeyId then
        .die s!"包发布者密钥与 keys/publisher.pem 不匹配: {p.fileName}"
      else if targets.any (·.1 = targetName) then
        .die s!"target 路径冲突，制品身份必须唯一: {targetName}"
      else
        let signature := env.signBytes publisher.privatePem
          (publisherPayload env p.toolId p.version hash)
        writeFileAtomicEnsured (.target hash targetName) (.raw bytes)
        let entry : TargetEntry := {
          length := bytes.length
          sha256 := hash
          custom := {
            publisherKeyId := publisherKeyId
            toolId := p.toolId
            version := p.version
            channel := p.channel
            platform := p.platform
            arch := p.arch
            artifactSha256 := hash
            publisherSignatureVerified := true
            publisherSignatureMethod := "ed25519"
            publisherSignaturePayloadVersion := PUBLISHER_PAYLOAD_VERSION
            publisherSignature := signature
            signatureIdentity := publisherKeyId } }
        return (targets ++ [(targetName, entry)],
          { p with
            publisherSignatureVerified := true
            signatureMethod := some "ed25519"
            signatureIdentity := some publisherKeyId })
  | _ => .die s!"包文件缺失: {p.fileName}（先 add-package）"

def publishPackages (files : Files) (publisher : Key) (publisherKeyId : String) :
    List PackageRow → List (String × TargetEntry) →
      SourceScript (List (String × TargetEntry) × List PackageRow)
  | [], targets => return (targets, [])
  | p :: rows, targets => do
      let (targets, p) ← publishPackage env files publisher publisherKeyId targets p
      let (targets, rows) ← publishPackages files publisher publisherKeyId rows targets
      return (targets, p :: rows)

def catalogArtifact (r : PackageRow) : CatalogArtifact :=
  ⟨r.version, r.channel, r.platform, r.arch, r.sha256, r.manifestDigest, r.size, r.permissions,
    r.addedAt, r.publisherSignatureVerified, r.signatureMethod, r.signatureIdentity⟩

/-- The keys of the rows in the order of their first occurrence. -/
def firstKeys (rows : List PackageRow) : List (String × String) :=
  rows.foldl (fun keys r =>
    if (r.publisherKeyId, r.toolId) ∈ keys then keys else keys ++ [(r.publisherKeyId, r.toolId)]) []

/-- `buildCatalog`: the rows by publisher and tool, sorted by tool. -/
def buildCatalog (clock : Clock) (config : SourceConfig) (rows : List PackageRow) : Catalog :=
  let entries := (firstKeys rows).filterMap fun key =>
    let group := groupOf (fun r : PackageRow => (r.publisherKeyId, r.toolId)) rows key
    group.head?.map fun first => {
      publisherKeyId := first.publisherKeyId
      toolId := first.toolId
      name := first.name
      summary := first.summary
      license := first.license
      artifacts := group.map catalogArtifact
      updatedAt := clock.now : CatalogEntry }
  ⟨config.sourceId, clock.now, entries.insertionSort fun a b => env.localeLe a.toolId b.toolId⟩

/-- The documents of a publish, from its table of targets up. -/
def signGraph (clock : Clock) (config : SourceConfig) (targetsKey snapshotKey timestampKey : Key)
    (reserved : TufVersion) (targets : List (String × TargetEntry)) : Graph :=
  let targetsSigned : TargetsSigned :=
    ⟨reserved.targets.toNat, clock.expiresIn config.expires.targets, targets⟩
  let targetsDoc : Signed TargetsSigned :=
    ⟨[(targetsKey.keyid, env.signTargets targetsKey.privatePem targetsSigned)], targetsSigned⟩
  let snapshotSigned : SnapshotSigned :=
    ⟨reserved.snapshot.toNat, clock.expiresIn config.expires.snapshot,
      metaEntryOf env (.targets targetsDoc) reserved.targets.toNat⟩
  let snapshotDoc : Signed SnapshotSigned :=
    ⟨[(snapshotKey.keyid, env.signSnapshot snapshotKey.privatePem snapshotSigned)],
      snapshotSigned⟩
  let timestampSigned : TimestampSigned :=
    ⟨reserved.timestamp.toNat, clock.expiresIn config.expires.timestamp,
      metaEntryOf env (.snapshot snapshotDoc) reserved.snapshot.toNat⟩
  let timestampDoc : Signed TimestampSigned :=
    ⟨[(timestampKey.keyid, env.signTimestamp timestampKey.privatePem timestampSigned)],
      timestampSigned⟩
  ⟨targetsDoc, snapshotDoc, timestampDoc⟩

/-- `publishLocked`, once the packages are written: the timestamp comes last. -/
def writeGraph (clock : Clock) (files : Files) (config : SourceConfig) (reserved : TufVersion)
    (rows : List PackageRow) (g : Graph) : SourceScript PUnit := do
  writeFileAtomicEnsured (.targetsDoc reserved.targets.toNat) (.targets g.targets)
  writeFileAtomicEnsured (.snapshotDoc reserved.snapshot.toNat) (.snapshot g.snapshot)
  writeFileAtomicEnsured .catalog (.catalog (buildCatalog env clock config rows))
  match files (.rootDoc 1) with
  | none => .die "ENOENT: no such file or directory, open 'metadata/1.root.json'"
  | some rootDoc =>
      writeFileAtomicEnsured .discovery (.discovery ⟨config, env.sha256Hex (env.encode rootDoc)⟩)
      saveState ⟨reserved, rows⟩
      .perform (.makeDirs .timestampDoc)
      .perform (.writeTemp .timestampDoc (.timestamp g.timestamp))
      .perform (.commit g)

/-- `publishLocked` -/
def publishLocked (clock : Clock) (files : Files) : SourceScript PUnit := do
  let config ← .ofExcept (loadConfig files)
  let state := loadState files
  let targetsKey ← .ofExcept (loadRoleKey env files "targets")
  let snapshotKey ← .ofExcept (loadRoleKey env files "snapshot")
  let timestampKey ← .ofExcept (loadRoleKey env files "timestamp")
  let publisher ← .ofExcept (loadRoleKey env files "publisher")
  let publisherKeyId := s!"ed25519:{publisher.publicHex}"
  if publisherKeyId ≠ config.publisherKeyId then
    .die "keys/publisher.pem 与 source-config.yaml publisherKeyId 不匹配"
  else
    let targetsVersion ← .ofExcept (reserve "targets" state.tufVersion.targets)
    let snapshotVersion ← .ofExcept (reserve "snapshot" state.tufVersion.snapshot)
    let timestampVersion ← .ofExcept (reserve "timestamp" state.tufVersion.timestamp)
    let reserved : TufVersion := ⟨targetsVersion, snapshotVersion, timestampVersion⟩
    saveState ⟨reserved, state.packages⟩
    let (targets, rows) ← publishPackages env files publisher publisherKeyId state.packages []
    writeGraph env clock files config reserved rows
      (signGraph env clock config targetsKey snapshotKey timestampKey reserved targets)

/-- `cmdPublish`, once it holds the lock. The lock is given back in any case. -/
def cmdPublish (clock : Clock) (files : Files) : SourceScript PUnit := do
  .perform .lock
  (publishLocked env clock files).thenDo [.unlock]

end Source

end Useful.Cli
