/-
# The catalog snapshot

What `services/internal/catalog/catalog.go` builds from the rows of the repository. An entry
stands for a tool of a publisher. Its name, license, offer and native flag come from the row
of the tool, everything else from the artifacts that are published or withdrawn.
-/

import Mathlib.Data.List.MinMax
import Useful.Server.Metadata
import Useful.Server.Repository

namespace Useful.Server.Catalog

open Useful.Math

/-! ## Rows -/

inductive AvailabilityStatus
  | unknown
  | healthy
  | degraded
  | unavailable
  deriving DecidableEq, Repr

structure AvailabilityCheck where
  artifactSHA256 : String
  status : AvailabilityStatus
  checkedAt : Int
  expiresAt : Int
  deriving DecidableEq

/-- `Effective`. -/
def effective (check : Option AvailabilityCheck) (now : Int) : AvailabilityStatus :=
  match check with
  | some c => if now < c.expiresAt then c.status else .unknown
  | none => .unknown

inductive AdvisorySeverity
  | low
  | medium
  | high
  | critical
  deriving DecidableEq, Repr

structure SecurityAdvisory where
  id : String
  publisherKeyID : String
  toolID : String
  severity : AdvisorySeverity
  summary : String
  affectedVersions : List String
  createdAt : Int
  deriving DecidableEq

/-- What `BuildSnapshot` loads. -/
structure CatalogRows where
  published : List Artifact
  withdrawn : List Artifact
  checks : List AvailabilityCheck
  tools : List Tool
  advisories : List SecurityAdvisory

/-! ## Versions -/

/-- `strings.SplitN`. -/
def splitN (sep : Char) : Nat → List Char → List (List Char)
  | 0, _ => []
  | 1, text => [text]
  | n + 2, text =>
      match cut sep text with
      | (part, some rest) => part :: splitN sep (n + 1) rest
      | (part, none) => [part]

/-- The digits of a part, whatever else it holds, in 64-bit arithmetic. -/
def digitsValue (part : List Char) : Int64 :=
  part.foldl (fun n c => if c.isDigit then n * 10 + Int64.ofNat (c.toNat - 48) else n) 0

def partsLess : List (List Char) → List (List Char) → Bool
  | a :: as, b :: bs =>
      if digitsValue a = digitsValue b then partsLess as bs else digitsValue a < digitsValue b
  | _, _ => false

/-- What `semverLess` looks at. -/
def versionParts (version : String) : List (List Char) := splitN '.' 3 (cut '-' version.toList).1

/-- `semverLess`. -/
def semverLess (a b : String) : Bool := partsLess (versionParts a) (versionParts b)

/-! ## Entries -/

structure EntryArtifact where
  version : String
  channel : String
  platform : String
  arch : String
  artifactSHA256 : String
  manifestDigest : String
  size : Nat
  permissions : List String
  publishedAt : Option Int
  withdrawn : Bool
  publisherSignatureVerified : Bool
  signatureMethod : String
  signatureIdentity : String
  deriving DecidableEq

structure AdvisoryView where
  severity : AdvisorySeverity
  summary : String
  affectedVersions : List String
  createdAt : Int
  deriving DecidableEq

structure AvailabilityView where
  status : AvailabilityStatus
  checkedAt : Option Int
  source : String
  deriving DecidableEq

structure ReproducibleBuildView where
  status : String
  strategy : String
  deriving DecidableEq

structure Review where
  repositorySignatureVerified : Bool
  publisherSignatureVerified : Bool
  officialReviewPassed : Bool
  securityScanPassed : Bool
  sourceAvailable : Bool
  reproducibleBuildVerified : Bool
  deriving DecidableEq

structure Entry where
  publisherKeyID : String
  toolID : String
  name : String
  summary : String
  license : String
  channels : List String
  /-- The version each channel points at. -/
  latest : String → Option String
  artifacts : List EntryArtifact
  accessMode : String
  productID : Option String
  review : Review
  isNativeWorker : Bool
  availability : Option AvailabilityView
  reproducibleBuild : Option ReproducibleBuildView
  advisories : List AdvisoryView
  updatedAt : Int

structure Snapshot where
  schemaVersion : String
  sourceID : String
  generatedAt : Int
  entries : List Entry

def entryArtifact (art : Artifact) : EntryArtifact where
  version := art.version
  channel := art.channel
  platform := art.platform
  arch := art.arch
  artifactSHA256 := art.sha256
  manifestDigest := art.manifestDigest
  size := art.size
  permissions := art.permissions
  publishedAt := art.publishedAt
  withdrawn := art.status == .withdrawn
  publisherSignatureVerified := art.publisherSignatureVerified
  signatureMethod := art.signatureMethod
  signatureIdentity := art.signatureIdentity

/-- One row against the versions found so far: a published one replaces a lower one of its
channel. -/
def raiseLatest (latest : String → Option String) (art : Artifact) : String → Option String :=
  if art.status = .published ∧ (latest art.channel).all (semverLess · art.version) then
    Function.update latest art.channel (some art.version)
  else latest

/-- The latest version of each channel, over the artifacts of all platforms. -/
def latestVersions (rows : List Artifact) : String → Option String :=
  rows.foldl raiseLatest fun _ => none

/-- The last check of an artifact. -/
def checkOf (checks : List AvailabilityCheck) (sha256 : String) : Option AvailabilityCheck :=
  checks.reverse.find? fun check => check.artifactSHA256 = sha256

/-- `aggregateStatus`. -/
def aggregateStatus (statuses : List AvailabilityStatus) : AvailabilityStatus :=
  if statuses = [] then .unknown
  else if .unknown ∈ statuses then .unknown
  else if ∀ status ∈ statuses, status = .healthy then .healthy
  else if ∀ status ∈ statuses, status = .unavailable then .unavailable
  else .degraded

/-- The status of the entry and the time of the last check. -/
def availabilityOf (checks : List AvailabilityCheck) (published : List Artifact) (now : Int) :
    AvailabilityStatus × Option Int :=
  let found := published.map fun art => checkOf checks art.sha256
  (aggregateStatus (found.map (effective · now)),
    (found.reduceOption.map AvailabilityCheck.checkedAt).max?)

/-- `verified` when every published artifact is; no operation claims a reproducible build. -/
def reproducibleBuildOf (published : List Artifact) : ReproducibleBuildView :=
  if ∀ art ∈ published, art.reproStatus = "verified" then
    ⟨"verified", ((published.map Artifact.reproStrategy).filter (· ≠ "")).getLastD ""⟩
  else ⟨"unknown", ""⟩

def reviewOf (published : List Artifact) (status : AvailabilityStatus) : Review where
  repositorySignatureVerified := true
  publisherSignatureVerified :=
    !published.isEmpty && published.all Artifact.publisherSignatureVerified
  officialReviewPassed := !published.isEmpty && published.all Artifact.officialReviewPassed
  securityScanPassed := !published.isEmpty && published.all Artifact.securityScanPassed
  sourceAvailable := status == .healthy
  reproducibleBuildVerified := !published.isEmpty && published.all (·.reproStatus == "verified")

def advisoryView (advisory : SecurityAdvisory) : AdvisoryView where
  severity := advisory.severity
  summary := advisory.summary
  affectedVersions := advisory.affectedVersions
  createdAt := advisory.createdAt

/-- The artifacts of a tool, the published ones first. -/
def CatalogRows.group (rows : CatalogRows) (publisherKeyID toolID : String) : List Artifact :=
  (rows.published ++ rows.withdrawn).filter fun art =>
    art.publisherKeyID = publisherKeyID ∧ art.toolID = toolID

/-- The entry of a tool, unless nothing is published and there is nothing to announce. -/
def buildEntry (rows : CatalogRows) (now : Int) (tool : Tool) : Option Entry :=
  let arts := rows.group tool.publisherKeyID tool.toolID
  let published := arts.filter fun art => art.status = .published
  let latest := latestVersions arts
  let channels := (arts.map Artifact.channel).dedup.insertionSort Tuf.byteLe
  let availability := availabilityOf rows.checks published now
  let advisories := (rows.advisories.filter fun advisory =>
    advisory.publisherKeyID = tool.publisherKeyID ∧ advisory.toolID = tool.toolID).map advisoryView
  if (∀ channel ∈ channels, latest channel = none) ∧ advisories = [] then none
  else some {
    publisherKeyID := tool.publisherKeyID
    toolID := tool.toolID
    name := tool.name
    summary := tool.summary
    license := tool.license
    channels := channels
    latest := latest
    artifacts := (arts.map entryArtifact).insertionSort fun a b => Tuf.byteLe a.version b.version
    accessMode := tool.accessMode
    productID := if tool.productID = "" then none else some tool.productID
    review := reviewOf published availability.1
    isNativeWorker := tool.isNativeWorker
    availability :=
      if published = [] then none else some ⟨availability.1, availability.2, "background-check"⟩
    reproducibleBuild := if published = [] then none else some (reproducibleBuildOf published)
    advisories := advisories
    updatedAt := now }

/-- The tools of which there is an artifact, in the order of the entries. -/
def CatalogRows.listed (rows : CatalogRows) : List Tool :=
  (rows.tools.filter fun tool => rows.group tool.publisherKeyID tool.toolID ≠ []).insertionSort
    fun a b => if a.toolID = b.toolID then Tuf.byteLe a.publisherKeyID b.publisherKeyID
      else Tuf.byteLe a.toolID b.toolID

/-- `BuildSnapshot`, from the rows it has loaded. An artifact without a row of its tool is
left out. -/
def snapshotOf (sourceID : String) (rows : CatalogRows) (now : Int) : Snapshot where
  schemaVersion := "1.0"
  sourceID := sourceID
  generatedAt := now
  entries := rows.listed.filterMap (buildEntry rows now)

variable {β : Type}

/-- `ListPublished` and `ListByStatus`, in the order of the identifiers. -/
def artifactsByStatus (w : World β) (status : ArtifactStatus) : List Artifact :=
  (w.artifacts.rows.filter fun art => art.status = status).insertionSort
    fun a b => Tuf.byteLe a.id b.id

def catalogRows (w : World β) (checks : List AvailabilityCheck)
    (advisories : List SecurityAdvisory) : CatalogRows where
  published := artifactsByStatus w .published
  withdrawn := artifactsByStatus w .withdrawn
  checks := checks
  tools := w.tools.rows
  advisories := advisories

/-- `BuildSnapshot`. -/
def buildSnapshot (sourceID : String) (w : World β) (checks : List AvailabilityCheck)
    (advisories : List SecurityAdvisory) (now : Int) : Snapshot :=
  snapshotOf sourceID (catalogRows w checks advisories) now

/-! ## Versions in the order of the server -/

section

variable {c : Char} {text rest : List Char} {v a b : String}

theorem cut_append_of_some (more : List Char) (h : (cut c text).2 = some rest) :
    cut c (text ++ more) = ((cut c text).1, some (rest ++ more)) := by
  induction text with
  | nil => cases h
  | cons d text ih =>
      unfold cut at h ⊢
      by_cases hd : d = c
      · rw [if_pos hd] at h
        cases h
        simp [hd]
      · rw [if_neg hd] at h
        simp [hd, ih h]

theorem cut_append_of_none (more : List Char) (h : (cut c text).2 = none) :
    cut c (text ++ more) = (text ++ (cut c more).1, (cut c more).2) := by
  induction text with
  | nil => rfl
  | cons d text ih =>
      unfold cut at h
      by_cases hd : d = c
      · rw [if_pos hd] at h
        cases h
      · rw [if_neg hd] at h
        simp [cut, hd, ih h]

/-- What is cut off goes back. -/
theorem cut_join (c : Char) (text : List Char) : text = (cut c text).1 ++
    (match (cut c text).2 with
      | some rest => c :: rest
      | none => []) := by
  induction text with
  | nil => rfl
  | cons d text ih =>
      unfold cut
      by_cases hd : d = c
      · simp [hd]
      · rw [if_neg hd]
        exact congrArg (d :: ·) ih

/-- The three numerals are cut apart, and what follows them stays with the last. -/
theorem splitN_core (more : List Char) (h : isSemverCore text = true) :
    (splitN '.' 3 (text ++ more)).length = 3 := by
  unfold isSemverCore at h
  split at h
  · next major rest hmajor =>
    split at h
    · next minor patch hminor =>
      have hsecond : cut '.' (rest ++ more) = (minor, some (patch ++ more)) := by
        have happend := cut_append_of_some more (congrArg Prod.snd hminor)
        rwa [hminor] at happend
      have hfirst : cut '.' (text ++ more) = (major, some (rest ++ more)) := by
        have happend := cut_append_of_some more (congrArg Prod.snd hmajor)
        rwa [hmajor] at happend
      simp [splitN, hfirst, hsecond]
    · cases h
  · cases h

theorem versionParts_length (h : isSemver v = true) : (versionParts v).length = 3 := by
  unfold isSemver isSemverText at h
  simp only [Bool.and_eq_true] at h
  have hcore := h.2.1.1
  have hversion := cut_join '-' (cut '+' v.toList).1
  have htext := cut_join '+' v.toList
  unfold versionParts
  cases hpre : (cut '-' (cut '+' v.toList).1).2 with
  | some pre =>
      have hparts := splitN_core [] hcore
      rw [List.append_nil] at hparts
      rw [htext, cut_append_of_some _ hpre]
      exact hparts
  | none =>
      rw [hpre, List.append_nil] at hversion
      rw [htext, cut_append_of_none _ hpre]
      rw [← hversion] at hcore
      exact splitN_core _ hcore

/-- What `semverLess` compares. -/
def versionKey (version : String) : List Int :=
  (versionParts version).map fun part => (digitsValue part).toInt

theorem partsLess_eq_true {as bs : List (List Char)} (h : as.length = bs.length) :
    partsLess as bs = true ↔ as.map (fun part => (digitsValue part).toInt) <
      bs.map (fun part => (digitsValue part).toInt) := by
  induction as generalizing bs with
  | nil =>
      cases bs with
      | nil => simp [partsLess]
      | cons b bs => cases h
  | cons a as ih =>
      cases bs with
      | nil => cases h
      | cons b bs =>
          have hrest := ih (Nat.succ.inj h)
          simp only [List.map_cons, List.cons_lt_cons_iff, partsLess]
          by_cases hvalue : digitsValue a = digitsValue b
          · simp [hvalue, hrest]
          · have hint : (digitsValue a).toInt ≠ (digitsValue b).toInt := by
              intro heq
              exact hvalue (Int64.toInt_inj.mp heq)
            simp [hvalue, hint, Int64.lt_iff_toInt_lt]

theorem semverLess_eq_true (ha : isSemver a = true) (hb : isSemver b = true) :
    semverLess a b = true ↔ versionKey a < versionKey b :=
  partsLess_eq_true ((versionParts_length ha).trans (versionParts_length hb).symm)

end

/-! ## The latest version -/

/-- A published artifact of a channel. -/
def inChannel (channel : String) (art : Artifact) : Bool :=
  art.status == .published && art.channel == channel

theorem foldl_raiseLatest {channel : String} {rows : List Artifact}
    {latest : String → Option String} {best : Option Artifact}
    (hversions : ∀ art ∈ rows, isSemver art.version = true)
    (hbest : ∀ art, best = some art → isSemver art.version = true)
    (h : latest channel = best.map Artifact.version) :
    rows.foldl raiseLatest latest channel =
      ((rows.filter (inChannel channel)).foldl
        (List.argAux fun a b => versionKey b.version < versionKey a.version) best).map
          Artifact.version := by
  induction rows generalizing latest best with
  | nil => exact h
  | cons art rows ih =>
      have hart := hversions art List.mem_cons_self
      have hrows : ∀ other ∈ rows, isSemver other.version = true :=
        fun other hmem => hversions other (List.mem_cons_of_mem _ hmem)
      rw [List.foldl_cons, List.filter_cons]
      by_cases hin : inChannel channel art = true
      · rw [if_pos hin, List.foldl_cons]
        simp only [inChannel, Bool.and_eq_true, beq_iff_eq] at hin
        have hbest' : ∀ b, List.argAux (fun a b => versionKey b.version < versionKey a.version) best
            art = some b → isSemver b.version = true := by
          intro b hb
          cases hcase : best with
          | none =>
              rw [hcase] at hb
              cases hb
              exact hart
          | some c =>
              rw [hcase] at hb
              simp only [List.argAux] at hb
              split at hb
              · cases hb
                exact hart
              · cases hb
                exact hbest _ hcase
        refine ih hrows hbest' ?_
        unfold raiseLatest
        rw [hin.2, h]
        cases hcase : best with
        | none => simp [hin.1, List.argAux]
        | some c =>
            have hless := semverLess_eq_true (hbest c hcase) hart
            by_cases hkey : versionKey c.version < versionKey art.version
            · simp [hin.1, List.argAux, hkey, hless.mpr hkey]
            · have hfalse : semverLess c.version art.version = false :=
                Bool.eq_false_of_not_eq_true fun heq => hkey (hless.mp heq)
              simp [List.argAux, hkey, hfalse, h, hcase]
      · rw [if_neg hin]
        refine ih hrows hbest ?_
        rw [← h]
        unfold raiseLatest
        split_ifs with hraise
        · apply Function.update_of_ne
          intro heq
          exact hin (by simp [inChannel, hraise.1, heq])
        · rfl

/-- The latest version of a channel is the first of the greatest ones. -/
theorem latestVersions_eq {rows : List Artifact} (channel : String)
    (hversions : ∀ art ∈ rows, isSemver art.version = true) :
    latestVersions rows channel =
      ((rows.filter (inChannel channel)).argmax fun art => versionKey art.version).map
        Artifact.version :=
  foldl_raiseLatest hversions (fun _ h => by cases h) rfl

/-- A published artifact gives its channel a latest version. -/
theorem isSome_foldl_raiseLatest {channel : String} {rows : List Artifact}
    {latest : String → Option String}
    (h : (latest channel).isSome = true ∨ ∃ art ∈ rows, inChannel channel art = true) :
    (rows.foldl raiseLatest latest channel).isSome = true := by
  induction rows generalizing latest with
  | nil =>
      obtain h | ⟨art, hmem, -⟩ := h
      · exact h
      · cases hmem
  | cons first rest ih =>
      apply ih
      have hkept : (latest channel).isSome = true →
          (raiseLatest latest first channel).isSome = true := by
        intro hsome
        unfold raiseLatest
        split
        · by_cases hchannel : channel = first.channel
          · rw [hchannel, Function.update_self]
            rfl
          · rw [Function.update_of_ne hchannel]
            exact hsome
        · exact hsome
      obtain h | ⟨art, hmem, hin⟩ := h
      · exact .inl (hkept h)
      · cases List.mem_cons.mp hmem with
        | inr hrest => exact .inr ⟨art, hrest, hin⟩
        | inl heq =>
            subst heq
            simp only [inChannel, Bool.and_eq_true, beq_iff_eq] at hin
            cases hlatest : latest channel with
            | some version => exact .inl (hkept (by rw [hlatest]; rfl))
            | none =>
                left
                have hraise : art.status = .published ∧
                    (latest art.channel).all (semverLess · art.version) = true := by
                  rw [hin.2, hlatest]
                  exact ⟨hin.1, rfl⟩
                unfold raiseLatest
                rw [if_pos hraise, hin.2, Function.update_self]
                rfl

/-! ## The entries -/

section

variable {β : Type} {rows : CatalogRows} {now : Int} {tool : Tool} {entry : Entry}
  {sourceID : String} {w : World β} {checks : List AvailabilityCheck}
  {advisories : List SecurityAdvisory} {art : Artifact} {publisherKeyID toolID : String}

theorem mem_entries : entry ∈ (snapshotOf sourceID rows now).entries ↔ ∃ tool ∈ rows.tools,
    rows.group tool.publisherKeyID tool.toolID ≠ [] ∧ buildEntry rows now tool = some entry := by
  simp only [snapshotOf, CatalogRows.listed, List.mem_filterMap, List.mem_insertionSort,
    List.mem_filter, decide_eq_true_eq, and_assoc]

/-- Where the parts of an entry come from. -/
theorem buildEntry_eq_some (h : buildEntry rows now tool = some entry) :
    entry.publisherKeyID = tool.publisherKeyID ∧ entry.toolID = tool.toolID ∧
      entry.isNativeWorker = tool.isNativeWorker ∧
      entry.latest = latestVersions (rows.group tool.publisherKeyID tool.toolID) ∧
      entry.artifacts.Perm ((rows.group tool.publisherKeyID tool.toolID).map entryArtifact) := by
  obtain ⟨-, hentry⟩ := Option.ite_none_left_eq_some.mp h
  obtain rfl := Option.some.inj hentry
  exact ⟨rfl, rfl, rfl, rfl, List.perm_insertionSort _ _⟩

/-- A tool of which something is published has an entry. -/
theorem exists_buildEntry (hart : art ∈ rows.group tool.publisherKeyID tool.toolID)
    (hpublished : art.status = .published) : ∃ entry, buildEntry rows now tool = some entry := by
  refine ⟨_, Option.ite_none_left_eq_some.mpr ⟨?_, rfl⟩⟩
  intro hnone
  have hchannel := hnone.1 art.channel (by
    rw [List.mem_insertionSort, List.mem_dedup]
    exact List.mem_map_of_mem hart)
  have hin : inChannel art.channel art = true := by simp [inChannel, hpublished]
  have hsome : (latestVersions (rows.group tool.publisherKeyID tool.toolID) art.channel).isSome =
      true := isSome_foldl_raiseLatest (.inr ⟨art, hart, hin⟩)
  rw [hchannel] at hsome
  cases hsome

theorem mem_artifactsByStatus {status : ArtifactStatus} :
    art ∈ artifactsByStatus w status ↔ art ∈ w.artifacts.rows ∧ art.status = status := by
  simp only [artifactsByStatus, List.mem_insertionSort, List.mem_filter, decide_eq_true_eq]

theorem nodup_artifactsByStatus {status : ArtifactStatus} : (artifactsByStatus w status).Nodup :=
  (List.perm_insertionSort _ _).nodup_iff.mpr (w.artifacts.nodup.of_map _ |>.filter _)

theorem mem_group : art ∈ (catalogRows w checks advisories).group publisherKeyID toolID ↔
    art ∈ w.artifacts.rows ∧ (art.status = .published ∨ art.status = .withdrawn) ∧
      art.publisherKeyID = publisherKeyID ∧ art.toolID = toolID := by
  simp only [CatalogRows.group, catalogRows, List.mem_filter, List.mem_append,
    mem_artifactsByStatus, decide_eq_true_eq, ← and_or_left, and_assoc]

theorem nodup_group : ((catalogRows w checks advisories).group publisherKeyID toolID).Nodup := by
  apply List.Nodup.filter
  apply List.Nodup.append nodup_artifactsByStatus nodup_artifactsByStatus
  intro other hpublished hwithdrawn
  have h := (mem_artifactsByStatus.mp hpublished).2.symm.trans
    (mem_artifactsByStatus.mp hwithdrawn).2
  cases h

end

end Useful.Server.Catalog
