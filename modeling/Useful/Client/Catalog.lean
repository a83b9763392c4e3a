/-
# Catalogs of the client

What `useful-repository-client/src/catalog.rs` makes of a snapshot once its JSON is parsed,
and the artifact the client picks from an entry. Times are texts that nothing compares, and
they are left out.
-/

import Mathlib.Data.List.Basic
import Useful.Math.Checks
import Useful.Math.Unicode

namespace Useful.Client

open Useful.Math

/-- `RepoError`. -/
inductive RepoError
  | invalidCatalog (detail : String)
  | limitExceeded (detail : String)
  deriving DecidableEq, Repr

/-- The texts shown. -/
def RepoError.display : RepoError → String
  | invalidCatalog detail => s!"目录快照无效: {detail}"
  | limitExceeded detail => s!"超出限制: {detail}"

structure CmdError where
  message : String
  code : Option String
  deriving DecidableEq, Repr

/-- `CmdError::from`. -/
def CmdError.of (message : String) : CmdError := ⟨message, none⟩

/-! ## Snapshots -/

structure ToolIdentity where
  publisherKeyId : String
  toolId : String
  deriving DecidableEq, Repr

structure LatestVersions where
  stable : Option String
  beta : Option String
  nightly : Option String
  deriving DecidableEq, Repr

structure ArtifactInfo where
  version : String
  channel : String
  platform : String
  arch : String
  artifactSha256 : String
  manifestDigest : String
  size : Nat
  permissions : List String
  withdrawn : Bool
  publisherSignatureVerified : Bool
  signatureMethod : Option String
  signatureIdentity : Option String
  deriving DecidableEq, Repr

structure AdvisoryView where
  severity : String
  summary : String
  affectedVersions : List String
  deriving DecidableEq, Repr

structure CatalogOffer where
  accessMode : String
  productId : Option String
  planIds : List String
  purchaseUrl : Option String
  deriving DecidableEq, Repr

structure AvailabilityView where
  status : String
  source : String
  deriving DecidableEq, Repr

structure CatalogEntry where
  identity : ToolIdentity
  name : String
  summary : String
  license : String
  channels : List String
  latest : LatestVersions
  artifacts : List ArtifactInfo
  offer : CatalogOffer
  isNativeWorker : Bool
  availability : Option AvailabilityView
  advisories : List AdvisoryView
  deriving DecidableEq, Repr

structure CatalogSnapshot where
  schemaVersion : String
  sourceId : String
  entries : List CatalogEntry
  deriving DecidableEq, Repr

/-- `MAX_CATALOG_ENTRIES`. -/
def maxCatalogEntries : Nat := 100000

/-- `MAX_ARTIFACTS_PER_ENTRY`. -/
def maxArtifactsPerEntry : Nat := 4096

/-- `MAX_ADVISORIES_PER_ENTRY`. -/
def maxAdvisoriesPerEntry : Nat := 128

/-- `ACCESS_MODES`. -/
def accessModes : List String :=
  ["free", "entitlement", "external-purchase", "private", "unavailable"]

/-- `is_sha256_hex`. -/
def isSha256Hex (s : String) : Bool :=
  s.toList.length == 64 && s.toList.all fun c => c.isDigit || ('a' ≤ c && c ≤ 'f')

/-- The checks of `parse_catalog` on an artifact. -/
def checkArtifact (parses : String → Bool) (entry : CatalogEntry) (artifact : ArtifactInfo) :
    Except RepoError Unit := do
  let tool := entry.identity.toolId
  let version := artifact.version
  failIf (isSha256Hex artifact.artifactSha256 = false ∨ isSha256Hex artifact.manifestDigest = false)
    (.invalidCatalog s!"条目 {tool} 摘要格式非法")
  failIf (parses version = false) (.invalidCatalog s!"条目 {tool} 版本非法: {version}")

/-- The checks of `parse_catalog` on an entry. -/
def checkEntry (parses : String → Bool) (entry : CatalogEntry) : Except RepoError Unit := do
  let tool := entry.identity.toolId
  let accessMode := entry.offer.accessMode
  failIf (entry.name = "" ∨ (utf8 entry.name.toList).length > 200)
    (.invalidCatalog s!"条目 {tool} 名称长度非法")
  failIf (entry.artifacts.length > maxArtifactsPerEntry) (.limitExceeded s!"条目 {tool} 制品数超限")
  failIf (entry.advisories.length > maxAdvisoriesPerEntry) (.limitExceeded s!"条目 {tool} 公告数超限")
  failIf (accessMode ∉ accessModes) (.invalidCatalog s!"条目 {tool} accessMode 非法: {accessMode}")
  forM entry.artifacts (checkArtifact parses entry)

/-- `parse_catalog`, from the snapshot its bytes are parsed to. `parses` is
`semver::Version::parse`. -/
def checkCatalog (parses : String → Bool) (expectedSourceId : String) (snap : CatalogSnapshot) :
    Except RepoError Unit := do
  let schemaVersion := snap.schemaVersion
  let sourceId := snap.sourceId
  failIf (schemaVersion ≠ "1.0") (.invalidCatalog s!"不支持的 schemaVersion: {schemaVersion}")
  failIf (sourceId ≠ expectedSourceId)
    (.invalidCatalog s!"快照 sourceId ({sourceId}) 与所属源 ({expectedSourceId}) 不一致")
  failIf (snap.entries.length > maxCatalogEntries) (.limitExceeded "目录条目数超限")
  forM snap.entries (checkEntry parses)

/-! ## Stable artifacts -/

/-- `latest_stable_digest`. -/
def latestStableDigest (entry : CatalogEntry) : Option String :=
  entry.latest.stable.bind fun stable =>
    (entry.artifacts.find? fun a => a.channel = "stable" ∧ a.version = stable ∧ ¬ a.withdrawn).map
      ArtifactInfo.artifactSha256

/-- What `max_advisory_severity` orders by. -/
def severityRank (severity : String) : Nat :=
  if severity = "critical" then 4
  else if severity = "high" then 3
  else if severity = "medium" then 2
  else if severity = "low" then 1
  else 0

/-- `max_advisory_severity`: the last one of the highest rank. -/
def maxAdvisorySeverity (advisories : List AdvisoryView) : Option String :=
  (advisories.foldl (fun best advisory =>
    match best with
    | some b => if severityRank b ≤ severityRank advisory.severity then some advisory.severity else best
    | none => some advisory.severity) none)

/-- What the client can install of a version. -/
def installable (version : String) (a : ArtifactInfo) : Bool :=
  a.channel == "stable" && a.version == version && a.platform == "windows" && a.arch == "x86_64" &&
    !a.withdrawn

/-- The only artifact that can be installed, if there is one. -/
def soleInstallable (text : String) (entry : CatalogEntry) (version : String) :
    Except CmdError (Option ArtifactInfo) :=
  match entry.artifacts.filter (installable version) with
  | [] => .ok none
  | [selected] => .ok (some selected)
  | _ :: _ :: _ => .error (.of text)

/-- `pick_stable_artifact_version`. -/
def pickStableArtifactVersion (entry : CatalogEntry) (version : String) :
    Except CmdError (Option ArtifactInfo) :=
  soleInstallable "目录对请求的 stable/windows/x86_64 版本声明了多个制品" entry version

/-- `pick_stable_artifact`. -/
def pickStableArtifact (entry : CatalogEntry) : Except CmdError (Option ArtifactInfo) :=
  match entry.latest.stable with
  | none => .ok none
  | some stable =>
      soleInstallable "目录对 stable/windows/x86_64 声明了多个相同版本制品" entry stable

theorem soleInstallable_eq_ok_some {text version : String} {e : CatalogEntry} {a : ArtifactInfo} :
    soleInstallable text e version = .ok (some a) ↔ e.artifacts.filter (installable version) = [a] := by
  unfold soleInstallable
  split
  · next h => simp [h]
  · next selected h => simp [h]
  · next h => simp [h]

theorem pickStableArtifact_eq_ok_some {e : CatalogEntry} {a : ArtifactInfo} :
    pickStableArtifact e = .ok (some a) ↔ ∃ version, e.latest.stable = some version ∧
      e.artifacts.filter (installable version) = [a] := by
  unfold pickStableArtifact
  cases e.latest.stable with
  | none => simp
  | some stable => simp [soleInstallable_eq_ok_some]

end Useful.Client
