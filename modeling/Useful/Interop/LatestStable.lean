/-
# The stable version a client installs

The server points each channel of a tool at one version, over the builds for all platforms.
The client looks among its own builds for that version. It finds the greatest one when the
version the server points at is the greatest of its own builds, and only then.
-/

import Useful.Client.Catalog
import Useful.Math.Semver
import Useful.Server.Catalog

namespace Useful.Interop

open Useful.Math Useful.Server Useful.Server.Catalog Useful.Client

/-! ## What the JSON carries -/

def severityText : AdvisorySeverity → String
  | .low => "low"
  | .medium => "medium"
  | .high => "high"
  | .critical => "critical"

def statusText : AvailabilityStatus → String
  | .unknown => "unknown"
  | .healthy => "healthy"
  | .degraded => "degraded"
  | .unavailable => "unavailable"

/-- A text that is left out when it is empty. -/
def omitEmpty (text : String) : Option String := if text = "" then none else some text

def artifactInfo (a : EntryArtifact) : ArtifactInfo where
  version := a.version
  channel := a.channel
  platform := a.platform
  arch := a.arch
  artifactSha256 := a.artifactSHA256
  manifestDigest := a.manifestDigest
  size := a.size
  permissions := a.permissions
  withdrawn := a.withdrawn
  publisherSignatureVerified := a.publisherSignatureVerified
  signatureMethod := omitEmpty a.signatureMethod
  signatureIdentity := omitEmpty a.signatureIdentity

/-- An entry of the server, as the client reads it. -/
def catalogEntry (entry : Entry) : CatalogEntry where
  identity := ⟨entry.publisherKeyID, entry.toolID⟩
  name := entry.name
  summary := entry.summary
  license := entry.license
  channels := entry.channels
  latest := ⟨entry.latest "stable", entry.latest "beta", entry.latest "nightly"⟩
  artifacts := entry.artifacts.map artifactInfo
  offer := ⟨entry.accessMode, entry.productID, [], none⟩
  isNativeWorker := entry.isNativeWorker
  availability := entry.availability.map fun view => ⟨statusText view.status, view.source⟩
  advisories := entry.advisories.map fun view =>
    ⟨severityText view.severity, view.summary, view.affectedVersions⟩

/-! ## The builds of a tool -/

section

variable {β : Type} (w : World β) (entry : Entry)

/-- A published artifact of the tool, in the stable channel. -/
structure Stable (art : Artifact) : Prop where
  row : art ∈ w.artifacts.rows
  status : art.status = .published
  publisher : art.publisherKeyID = entry.publisherKeyID
  tool : art.toolID = entry.toolID
  channel : art.channel = "stable"

/-- A stable artifact for 64-bit Windows. -/
structure WindowsBuild (art : Artifact) : Prop extends Stable w entry art where
  platform : art.platform = "windows"
  arch : art.arch = "x86_64"

/-- No Windows build has a version of higher precedence. -/
def Greatest (art : Artifact) : Prop :=
  WindowsBuild w entry art ∧ ∀ other, WindowsBuild w entry other →
    versionPrecedence other.version ≤ versionPrecedence art.version

/-- No other Windows build has the same version. -/
def Sole (art : Artifact) : Prop :=
  ∀ other, WindowsBuild w entry other → other.version = art.version → other = art

/-- A version is that of the first stable artifact, by its identifier, below no other one as
the server compares them. -/
def Leads (version : String) : Prop :=
  ∃ lead, Stable w entry lead ∧ lead.version = version ∧ ∀ other, Stable w entry other →
    semverLess lead.version other.version = false ∧
      (semverLess other.version lead.version = false → Tuf.byteLe lead.id other.id)

end

section

variable {β : Type} {w : World β} {entry : Entry} {tool : Tool} {sourceID : String}
  {checks : List AvailabilityCheck} {advisories : List Catalog.SecurityAdvisory} {now : Int}

/-- The stable artifacts of the tool, in the order the server goes through them. -/
def stableRows (w : World β) (publisherKeyID toolID : String) : List Artifact :=
  (artifactsByStatus w .published).filter fun art =>
    art.publisherKeyID = publisherKeyID ∧ art.toolID = toolID ∧ art.channel = "stable"

theorem filter_group (publisherKeyID toolID : String) :
    ((catalogRows w checks advisories).group publisherKeyID toolID).filter (inChannel "stable") =
      stableRows w publisherKeyID toolID := by
  have hwithdrawn : (artifactsByStatus w .withdrawn).filter (fun art => inChannel "stable" art &&
      decide (art.publisherKeyID = publisherKeyID ∧ art.toolID = toolID)) = [] := by
    apply List.filter_eq_nil_iff.mpr
    intro art hart
    simp [inChannel, (mem_artifactsByStatus.mp hart).2]
  have hpublished : (artifactsByStatus w .published).filter (fun art => inChannel "stable" art &&
      decide (art.publisherKeyID = publisherKeyID ∧ art.toolID = toolID)) =
        stableRows w publisherKeyID toolID := by
    apply List.filter_congr
    intro art hart
    have hstatus := (mem_artifactsByStatus.mp hart).2
    rw [Bool.eq_iff_iff]
    simp only [inChannel, hstatus, Bool.and_eq_true, beq_iff_eq, true_and, decide_eq_true_eq]
    tauto
  rw [CatalogRows.group, List.filter_filter, catalogRows, List.filter_append, hpublished,
    hwithdrawn, List.append_nil]

theorem mem_stableRows {art : Artifact} :
    art ∈ stableRows w entry.publisherKeyID entry.toolID ↔ Stable w entry art := by
  simp only [stableRows, List.mem_filter, mem_artifactsByStatus, decide_eq_true_eq]
  constructor
  · intro h
    exact ⟨h.1.1, h.1.2, h.2.1, h.2.2.1, h.2.2.2⟩
  · intro h
    exact ⟨⟨h.row, h.status⟩, h.publisher, h.tool, h.channel⟩

/-- The stable artifacts come in the order of their identifiers. -/
theorem pairwise_stableRows (publisherKeyID toolID : String) :
    (stableRows w publisherKeyID toolID).Pairwise fun a b => Tuf.byteLe a.id b.id := by
  have htotal : Std.Total fun a b : Artifact => Tuf.byteLe a.id b.id :=
    ⟨fun a b => Std.Total.total a.id b.id⟩
  have htrans : IsTrans Artifact fun a b => Tuf.byteLe a.id b.id :=
    ⟨fun a b c hab hbc => IsTrans.trans a.id b.id c.id hab hbc⟩
  exact List.Pairwise.filter _ (List.pairwise_insertionSort _ _)

theorem inj_of_id {a b : Artifact} (ha : a ∈ w.artifacts.rows) (hb : b ∈ w.artifacts.rows)
    (h : a.id = b.id) : a = b :=
  Table.eq_of_key_eq ha hb h

/-- In rows in the order of their identifiers, the first of the greatest ones is the greatest
one with the least identifier. -/
theorem argmax_eq_some {κ : Type} [LinearOrder κ] [decidable : DecidableLT κ]
    {rows : List Artifact} {key : Artifact → κ} {lead : Artifact}
    (hsorted : rows.Pairwise fun a b => Tuf.byteLe a.id b.id)
    (hid : ∀ a ∈ rows, ∀ b ∈ rows, a.id = b.id → a = b) :
    rows.argmax key = some lead ↔ lead ∈ rows ∧ ∀ other ∈ rows,
      ¬ key lead < key other ∧ (¬ key other < key lead → Tuf.byteLe lead.id other.id) := by
  obtain rfl := Subsingleton.elim decidable LinearOrder.toDecidableLT
  have hfirst : ∀ {first : Artifact}, rows.argmax key = some first → first ∈ rows ∧
      ∀ other ∈ rows, ¬ key first < key other ∧
        (¬ key other < key first → Tuf.byteLe first.id other.id) := by
    intro first hargmax
    obtain ⟨hmem, hgreatest, hindex⟩ := List.argmax_eq_some_iff.mp hargmax
    refine ⟨hmem, fun other hother => ⟨not_lt.mpr (hgreatest other hother), fun hnot => ?_⟩⟩
    have hle := hindex other hother (not_lt.mp hnot)
    have hfirst := List.idxOf_lt_length_of_mem hmem
    have hlast := List.idxOf_lt_length_of_mem hother
    rw [← List.getElem_idxOf hfirst, ← List.getElem_idxOf hlast]
    cases hle.eq_or_lt with
    | inl heq =>
        simp only [heq]
        exact le_refl _
    | inr hlt => exact List.pairwise_iff_getElem.mp hsorted _ _ hfirst hlast hlt
  constructor
  · exact hfirst
  · intro h
    cases hargmax : rows.argmax key with
    | none =>
        rw [List.argmax_eq_none] at hargmax
        rw [hargmax] at h
        cases h.1
    | some first =>
        have hother := hfirst hargmax
        have heq : key first = key lead := by
          apply le_antisymm
          · exact not_lt.mp (h.2 first hother.1).1
          · exact not_lt.mp (hother.2 lead h.1).1
        have hle := (hother.2 lead h.1).2 (not_lt.mpr heq.le)
        have hge := (h.2 first hother.1).2 (not_lt.mpr heq.ge)
        rw [hid first hother.1 lead h.1 (Std.Antisymm.antisymm _ _ hle hge)]

/-- The server points its stable channel at the leading version. -/
theorem latest_stable_iff {version : String}
    (hversions : ∀ art ∈ w.artifacts.rows, isSemver art.version = true)
    (hlatest : entry.latest = latestVersions
      ((catalogRows w checks advisories).group entry.publisherKeyID entry.toolID)) :
    entry.latest "stable" = some version ↔ Leads w entry version := by
  have hgroup : ∀ art ∈ (catalogRows w checks advisories).group entry.publisherKeyID entry.toolID,
      isSemver art.version = true := fun art hart => hversions art (mem_group.mp hart).1
  have hid : ∀ a ∈ stableRows w entry.publisherKeyID entry.toolID,
      ∀ b ∈ stableRows w entry.publisherKeyID entry.toolID, a.id = b.id → a = b :=
    fun a ha b hb => inj_of_id (mem_stableRows.mp ha).row (mem_stableRows.mp hb).row
  have hless : ∀ {a b : Artifact}, Stable w entry a → Stable w entry b →
      (semverLess a.version b.version = false ↔ ¬ versionKey a.version < versionKey b.version) := by
    intro a b ha hb
    rw [← semverLess_eq_true (hversions a ha.row) (hversions b hb.row), Bool.not_eq_true]
  rw [hlatest, latestVersions_eq "stable" hgroup, filter_group, Option.map_eq_some_iff]
  apply exists_congr
  intro lead
  rw [argmax_eq_some (pairwise_stableRows _ _) hid]
  simp only [mem_stableRows]
  constructor
  · rintro ⟨⟨hlead, hothers⟩, rfl⟩
    refine ⟨hlead, rfl, fun other hother => ?_⟩
    rw [hless hlead hother, hless hother hlead]
    exact hothers other hother
  · rintro ⟨hlead, rfl, hothers⟩
    refine ⟨⟨hlead, fun other hother => ?_⟩, rfl⟩
    have h := hothers other hother
    rwa [hless hlead hother, hless hother hlead] at h

/-! ## What the client picks -/

/-- An artifact of the server is one the client can install. -/
theorem installable_iff {version : String} {art : Artifact}
    (hmem : art ∈ (catalogRows w checks advisories).group entry.publisherKeyID entry.toolID) :
    installable version (artifactInfo (entryArtifact art)) = true ↔
      WindowsBuild w entry art ∧ art.version = version := by
  obtain ⟨hrow, hstatus, hpublisher, htool⟩ := mem_group.mp hmem
  simp only [installable, artifactInfo, entryArtifact, Bool.and_eq_true, beq_iff_eq,
    Bool.not_eq_true', beq_eq_false_iff_ne]
  constructor
  · rintro ⟨⟨⟨⟨hchannel, hversion⟩, hplatform⟩, harch⟩, hnot⟩
    exact ⟨⟨⟨hrow, hstatus.resolve_right hnot, hpublisher, htool, hchannel⟩, hplatform, harch⟩,
      hversion⟩
  · rintro ⟨hbuild, hversion⟩
    refine ⟨⟨⟨⟨hbuild.channel, hversion⟩, hbuild.platform⟩, hbuild.arch⟩, ?_⟩
    rw [hbuild.status]
    decide

theorem eq_singleton_iff {l : List Artifact} {a : Artifact} (hnodup : l.Nodup) :
    l = [a] ↔ ∀ b, b ∈ l ↔ b = a := by
  constructor
  · intro h b
    rw [h, List.mem_singleton]
  · intro h
    have hperm : l.Perm [a] := (List.perm_ext_iff_of_nodup hnodup (List.nodup_singleton a)).mpr
      fun b => (h b).trans List.mem_singleton.symm
    exact List.perm_singleton.mp hperm

/-- The client picks from an entry what the server has put there once. -/
theorem filter_installable {version : String} {a : ArtifactInfo}
    (hartifacts : entry.artifacts.Perm (((catalogRows w checks advisories).group
      entry.publisherKeyID entry.toolID).map entryArtifact)) :
    (catalogEntry entry).artifacts.filter (installable version) = [a] ↔
      ∃ art, (∀ other, WindowsBuild w entry other ∧ other.version = version ↔ other = art) ∧
        artifactInfo (entryArtifact art) = a := by
  let group := (catalogRows w checks advisories).group entry.publisherKeyID entry.toolID
  have hperm : ((catalogEntry entry).artifacts.filter (installable version)).Perm
      ((group.filter fun art => installable version (artifactInfo (entryArtifact art))).map
        fun art => artifactInfo (entryArtifact art)) := by
    have hmap := (hartifacts.map artifactInfo).filter (installable version)
    rw [List.map_map] at hmap
    refine hmap.trans (List.Perm.of_eq ?_)
    exact List.filter_map
  have hmem : ∀ art, (∀ other, other ∈ group.filter (fun art =>
      installable version (artifactInfo (entryArtifact art))) ↔ other = art) ↔
      ∀ other, WindowsBuild w entry other ∧ other.version = version ↔ other = art := by
    intro art
    apply forall_congr'
    intro other
    have hother : other ∈ group.filter (fun art =>
        installable version (artifactInfo (entryArtifact art))) ↔
          WindowsBuild w entry other ∧ other.version = version := by
      rw [List.mem_filter]
      constructor
      · intro h
        exact (installable_iff h.1).mp h.2
      · intro h
        have hgroup : other ∈ group :=
          mem_group.mpr ⟨h.1.row, .inl h.1.status, h.1.publisher, h.1.tool⟩
        exact ⟨hgroup, (installable_iff hgroup).mpr h⟩
    rw [hother]
  have hnodup : (group.filter fun art =>
      installable version (artifactInfo (entryArtifact art))).Nodup := nodup_group.filter _
  constructor
  · intro h
    rw [h] at hperm
    obtain ⟨art, hart, hinfo⟩ := List.map_eq_singleton_iff.mp (List.perm_singleton.mp hperm.symm)
    exact ⟨art, (hmem art).mp ((eq_singleton_iff hnodup).mp hart), hinfo⟩
  · rintro ⟨art, hart, rfl⟩
    rw [(eq_singleton_iff hnodup).mpr ((hmem art).mpr hart)] at hperm
    exact List.perm_singleton.mp hperm

/-- The client installs the greatest Windows build of an entry exactly when that is the only
build of the version the server points at. -/
theorem picks_greatest_iff (hversions : ∀ art ∈ w.artifacts.rows, isSemver art.version = true)
    (hentry : entry ∈ (buildSnapshot sourceID w checks advisories now).entries) :
    (∃ art, Greatest w entry art ∧ pickStableArtifact (catalogEntry entry) =
        .ok (some (artifactInfo (entryArtifact art)))) ↔
      ∃ art, Greatest w entry art ∧ Sole w entry art ∧ Leads w entry art.version := by
  obtain ⟨tool, _, _, hbuild⟩ := mem_entries.mp hentry
  obtain ⟨hpublisher, htool, _, hlatest, hartifacts⟩ := buildEntry_eq_some hbuild
  rw [← hpublisher, ← htool] at hlatest hartifacts
  constructor
  · rintro ⟨art, hgreatest, hpick⟩
    obtain ⟨version, hstable, hfilter⟩ := pickStableArtifact_eq_ok_some.mp hpick
    obtain ⟨other, hother, hinfo⟩ := (filter_installable hartifacts).mp hfilter
    have hsame : other.version = art.version := congrArg ArtifactInfo.version hinfo
    have hversion : other.version = version := ((hother other).mpr rfl).2
    have hself : art = other := (hother art).mp ⟨hgreatest.1, hsame.symm.trans hversion⟩
    refine ⟨art, hgreatest, fun b hb heq => ?_, ?_⟩
    · exact ((hother b).mp ⟨hb, (heq.trans hsame.symm).trans hversion⟩).trans hself.symm
    · rw [← hsame, hversion]
      exact (latest_stable_iff hversions hlatest).mp hstable
  · rintro ⟨art, hgreatest, hsole, hleads⟩
    refine ⟨art, hgreatest, pickStableArtifact_eq_ok_some.mpr ⟨art.version, ?_, ?_⟩⟩
    · exact (latest_stable_iff hversions hlatest).mpr hleads
    · refine (filter_installable hartifacts).mpr ⟨art, fun other => ?_, rfl⟩
      constructor
      · intro h
        exact hsole other h.1 h.2
      · rintro rfl
        exact ⟨hgreatest.1, rfl⟩

end

end Useful.Interop

/-! ## A release for another platform -/

namespace Useful.Interop.Sample

open Useful.Math Useful.Server Useful.Server.Catalog Useful.Client

def tool : Tool where
  publisherKeyID := "ed25519:p"
  toolID := "tool-a"
  name := "Tool A"
  summary := ""
  license := "MIT"
  accessMode := "free"
  productID := ""
  isNativeWorker := false
  createdAt := 0

/-- A published stable build. -/
def build (id version platform : String) : Artifact where
  id := id
  publisherKeyID := "ed25519:p"
  toolID := "tool-a"
  version := version
  channel := "stable"
  platform := platform
  arch := "x86_64"
  sha256 := "00"
  manifestDigest := "11"
  size := 1
  fileName := "tool-a.useful"
  permissions := []
  status := .published
  createdAt := 0
  publishedAt := some 0
  publisherSignatureVerified := true
  signatureMethod := "ed25519"
  publisherSignature := ""
  signatureIdentity := "ed25519:p"
  securityScanPassed := true
  officialReviewPassed := true
  isNativeWorker := false
  sbomDigest := ""
  scanResultJSON := ""
  reproStatus := ""
  reproStrategy := ""

/-- The first release for Windows. -/
def first : Artifact := build "art_1" "1.0.0" "windows"

/-- The second release, for some platform. -/
def second (version platform : String) : Artifact := build "art_2" version platform

/-- A server with both releases. -/
def world (version platform : String) : World Unit where
  publishers := .empty
  tools := ⟨[tool], by simp⟩
  artifacts := ⟨[first, second version platform], by simp [first, second, build]⟩
  artIdentityIx _ := none
  uploads := .empty
  jobs := .empty
  objects _ := none
  lease := none
  tufVersion := 0
  inspections := []
  scans := []

def rows (version platform : String) : CatalogRows := catalogRows (world version platform) [] []

theorem mem_rows {version platform : String} {art : Artifact}
    (h : art ∈ (world version platform).artifacts.rows) : art = first ∨ art = second version platform := by
  simpa [world] using h

theorem isSome_windows : (buildEntry (rows "1.1.0" "windows") 0 tool).isSome = true := by
  decide

theorem isSome_linux : (buildEntry (rows "2.0.0" "linux") 0 tool).isSome = true := by
  decide

def windowsEntry : Entry := (buildEntry (rows "1.1.0" "windows") 0 tool).get isSome_windows

def linuxEntry : Entry := (buildEntry (rows "2.0.0" "linux") 0 tool).get isSome_linux

theorem windowsEntry_mem :
    windowsEntry ∈ (buildSnapshot "com.example.a" (world "1.1.0" "windows") [] [] 0).entries :=
  mem_entries.mpr ⟨tool, List.mem_singleton_self tool, by decide, (Option.some_get _).symm⟩

theorem linuxEntry_mem :
    linuxEntry ∈ (buildSnapshot "com.example.a" (world "2.0.0" "linux") [] [] 0).entries :=
  mem_entries.mpr ⟨tool, List.mem_singleton_self tool, by decide, (Option.some_get _).symm⟩

theorem isSemver_rows {version platform : String} (h : isSemver version = true) :
    ∀ art ∈ (world version platform).artifacts.rows, isSemver art.version = true := by
  intro art hart
  cases mem_rows hart with
  | inl heq => rw [heq]; decide
  | inr heq => rw [heq]; exact h

/-- Two releases for Windows: the client installs the second one. -/
theorem picks_greatest_iff_second : ∃ art, Greatest (world "1.1.0" "windows") windowsEntry art ∧
    pickStableArtifact (catalogEntry windowsEntry) =
      .ok (some (artifactInfo (entryArtifact art))) := by
  have hfields := buildEntry_eq_some (Option.some_get isSome_windows).symm
  have hstable : ∀ art ∈ (world "1.1.0" "windows").artifacts.rows,
      WindowsBuild (world "1.1.0" "windows") windowsEntry art := by
    intro art hart
    rcases mem_rows hart with rfl | rfl
    · exact ⟨⟨hart, rfl, hfields.1.symm, hfields.2.1.symm, rfl⟩, rfl, rfl⟩
    · exact ⟨⟨hart, rfl, hfields.1.symm, hfields.2.1.symm, rfl⟩, rfl, rfl⟩
  have hsecond : second "1.1.0" "windows" ∈ (world "1.1.0" "windows").artifacts.rows := by
    simp [world]
  apply (picks_greatest_iff (isSemver_rows (by decide)) windowsEntry_mem).mpr
  refine ⟨second "1.1.0" "windows", ⟨hstable _ hsecond, ?_⟩, ?_, second "1.1.0" "windows",
    (hstable _ hsecond).toStable, rfl, ?_⟩
  · intro other hother
    rcases mem_rows hother.row with rfl | rfl
    · decide
    · exact le_refl _
  · intro other hother hversion
    rcases mem_rows hother.row with rfl | rfl
    · exact absurd hversion (by decide)
    · rfl
  · intro other hother
    rcases mem_rows hother.row with rfl | rfl
    · exact ⟨by decide, fun h => by cases h⟩
    · exact ⟨by decide, fun _ => le_refl _⟩

/-- A release for Linux only: the server points at it, and the client finds nothing. -/
theorem linux_release_hides : (∃ art, WindowsBuild (world "2.0.0" "linux") linuxEntry art) ∧
    linuxEntry ∈ (buildSnapshot "com.example.a" (world "2.0.0" "linux") [] [] 0).entries ∧
    pickStableArtifact (catalogEntry linuxEntry) = .ok none := by
  have hfields := buildEntry_eq_some (Option.some_get isSome_linux).symm
  refine ⟨⟨first, ⟨by simp [world], rfl, hfields.1.symm, hfields.2.1.symm, rfl⟩, rfl, rfl⟩,
    linuxEntry_mem, ?_⟩
  decide

end Useful.Interop.Sample
