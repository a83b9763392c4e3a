/-
# The manifest that is installed

`install_useful` reads the manifest of an archive by its name and validates it, and then
unpacks every entry. After unpacking it validates `manifest.json` again and compares the
id and the version, and no other field. So what lies in the version directory is the
manifest that was validated exactly when the last entry that leads to `manifest.json`
says the same.
-/

import Useful.Plugins.InstallRollback
import Useful.Plugins.ToolTables
import Useful.Plugins.ZipSafety

namespace Useful.Plugins

open Useful.Math Useful.Math.Program

/-- `parse_and_validate` with everything it returns, and the fields that an install reads. -/
structure ManifestParser (M : Type) where
  parse : List Nat → Except PluginError M
  fields : M → PluginManifest

/-- What the crates report about an archive: its size and digest, and its entries. -/
structure ArchiveFile where
  size : Except PluginError Nat
  sha256 : Except PluginError String
  entries : Except PluginError ZipArchive

section Install

variable {M V : Type} (parser : ManifestParser M) (version : String → Except String V)
  (rule : PathRule) (out : UnpackOutside) (maxUncompressed : Nat) (file : ArchiveFile)

/-- The parsers an install relies on. -/
def ManifestParser.parsers : Parsers V where
  version := version
  manifest := fun bytes => (parser.parse bytes).map parser.fields

/-- The manifest that is validated before anything is written. -/
def validatedManifest : Except PluginError M := do
  let zip ← file.entries
  let bytes ← readManifestBytes zip
  parser.parse bytes

/-- An empty staging directory, and what unpacking leaves in it. -/
def unpacked : Except PluginError PUnit × Unpacking :=
  match file.entries with
  | .error e => (.error e, ⟨fun _ => none, 0, 0⟩)
  | .ok zip => extractZipSafely rule out maxUncompressed zip ⟨fun _ => none, 0, 0⟩

/-- The archive as an install sees it. -/
def ArchiveFile.archive : Archive where
  size := file.size
  sha256 := file.sha256
  manifest := (validatedManifest parser file).map parser.fields
  extract := (unpacked rule out maxUncompressed file).1
  extracted := fun name => (unpacked rule out maxUncompressed file).2.tree (entryPath rule name)

/-- The entry whose contents end up in `manifest.json`. -/
def manifestEntry : Option ZipEntry :=
  match file.entries with
  | .error _ => none
  | .ok zip => lastLanding rule (entryPath rule "manifest.json") zip.rows

/-- The manifest in a version directory parses to the one that was validated. -/
def ShowsValidated (m : PluginManifest) (content : Option Directory) : Prop :=
  ∃ bytes, content.bind (· "manifest.json") = some (.file bytes) ∧
    ∃ full, parser.parse bytes = .ok full ∧ validatedManifest parser file = .ok full ∧
      parser.fields full = m

/-- The last entry that leads to `manifest.json` parses like the entry of that name. -/
def LastEntryAgrees : Prop :=
  ∀ e, manifestEntry rule file = some e → parser.parse e.bytes = validatedManifest parser file

end Install

/-! ## What a successful install leaves -/

section Content

variable {V : Type} {parsers : Parsers V} {disk : Disk} {archive : Archive}
  {dirs : Dirs} {uuids : Uuids} {opts : InstallOptions} {roots : Roots} {m : PluginManifest}
  {staging destination copyDir : Path} {backup : Option Path} {content : Directory}

theorem stage_content :
    Ensures (stage parsers archive m staging) dirs
      (fun _ t => archive.extract = .ok () ∧ checkStaged parsers m archive.extracted = .ok () ∧
        t staging = some archive.extracted) fun _ _ => True := by
  unfold stage
  apply ensures_bind.mpr
  apply ensures_modify.mpr
  apply ensures_bind.mpr
  apply ensures_ofExcept.mpr
  refine ⟨fun _ hextract => ?_, fun _ _ => trivial⟩
  apply ensures_ofExcept.mpr
  refine ⟨fun _ hcheck => ⟨hextract, hcheck, Function.update_self _ _ _⟩, fun _ _ => trivial⟩

/-- Backing up leaves the staged contents, or nothing, in their place. -/
theorem backUp_content {path : Path} (hstaging : dirs staging = some content) :
    Ensures (backUp disk destination path) dirs
      (fun _ t => ∀ other, t staging = some other → other = content) fun _ _ => True := by
  unfold backUp
  apply ensures_bind.mpr
  apply ensures_read.mpr
  apply ensures_ite.mpr
  constructor
  · intro _
    apply Ensures.bind (ensures_mapError.mpr (Disk.rename_spec.imp (fun _ _ => id)
      fun _ _ _ => trivial)) fun _ _ => id
    intro _ t ht
    apply ensures_pure.mpr
    obtain ⟨old, hold, hfree, rfl⟩ := ht
    intro other hother
    have hpath : staging ≠ path := by
      rintro rfl
      rw [hfree] at hstaging
      cases hstaging
    by_cases hdestination : staging = destination
    · rw [hdestination, Function.update_self] at hother
      cases hother
    · rw [Function.update_of_ne hdestination, Function.update_of_ne hpath, hstaging] at hother
      exact (Option.some.inj hother).symm
  · intro _
    apply ensures_pure.mpr
    intro other hother
    rw [hstaging] at hother
    exact (Option.some.inj hother).symm

/-- A swap that succeeds has the staged contents in their destination. -/
theorem swap_content (hstaging : ∀ other, dirs staging = some other → other = content) :
    Ensures (swap disk uuids staging destination copyDir backup) dirs
      (fun r t => r.1 = destination ∧ t destination = some content) fun _ _ => True := by
  unfold swap
  apply ensures_bind.mpr
  apply ensures_attempt.mpr
  apply Disk.rename_spec.imp
  · intro _ t ht
    obtain ⟨moved, hmoved, hfree, rfl⟩ := ht
    obtain rfl := hstaging moved hmoved
    have hne : destination ≠ staging := by
      rintro rfl
      rw [hfree] at hmoved
      cases hmoved
    apply ensures_pure.mpr
    refine ⟨rfl, ?_⟩
    rw [Function.update_of_ne hne, Function.update_self]
  intro renameError t ht
  rw [ht]
  apply ensures_bind.mpr
  apply ensures_attempt.mpr
  have hcopy : Ensures (switchCopy disk staging destination copyDir) dirs
      (fun _ u => destination ≠ staging ∧ u destination = some content) fun _ _ => True := by
    unfold switchCopy
    apply Ensures.bind (Disk.copyDirAll_spec.imp (fun _ _ => id) fun _ _ _ => trivial)
      fun _ _ => id
    intro _ u hu
    obtain ⟨copied, hcopied, rfl⟩ := hu
    obtain rfl := hstaging copied hcopied
    apply Disk.rename_spec.imp _ fun _ _ _ => trivial
    intro _ v hv
    obtain ⟨moved, hmoved, hfree, rfl⟩ := hv
    rw [Function.update_self] at hmoved
    cases hmoved
    have hcopyDir : destination ≠ copyDir := by
      rintro rfl
      rw [Function.update_self] at hfree
      cases hfree
    refine ⟨?_, by rw [Function.update_of_ne hcopyDir, Function.update_self]⟩
    rintro rfl
    rw [Function.update_of_ne hcopyDir, hcopied] at hfree
    cases hfree
  apply hcopy.imp
  · intro _ u hu
    obtain ⟨hne, hu⟩ := hu
    apply ensures_bind.mpr
    apply ensures_attempt.mpr
    apply Disk.removeDirAll_spec.imp
    · intro _ v hv
      apply ensures_pure.mpr
      refine ⟨rfl, ?_⟩
      rw [hv, Function.update_of_ne hne, hu]
    · intro _ v _
      unfold undoSwitch
      apply Ensures.bind (.any_end _ _) fun _ _ => id
      intro rolled _ _
      split <;> trivial
  · intro _ u _
    unfold undoBackup
    apply Ensures.bind (.any_end _ _) fun _ _ => id
    intro _ _ _
    apply Ensures.bind (.any_end _ _) fun _ _ => id
    intro _ _ _
    trivial

variable [LT V] [DecidableLT V]

/-- A successful install has checked the unpacked contents, and they are in its directory. -/
theorem installUseful_content :
    Ensures (installUseful parsers disk archive opts roots uuids) dirs
      (fun outcome t => archive.manifest = .ok outcome.manifest ∧ archive.extract = .ok () ∧
        checkStaged parsers outcome.manifest archive.extracted = .ok () ∧
        t outcome.installDir = some archive.extracted) fun _ _ => True := by
  unfold installUseful
  apply ensures_bind.mpr
  apply ensures_ofExcept.mpr
  refine ⟨?_, fun _ _ => trivial⟩
  intro checked hpreflight
  obtain ⟨m, sha256⟩ := checked
  have hmanifest : archive.manifest = .ok m := by
    have hchecked : ∀ sha, (do
        let m ← archive.manifest
        failIf ("windows-x64" ∉ m.platforms) (.versionIncompatible "插件不支持 windows-x64")
        checkHostVersion parsers m opts.hostVersion
        checkDowngrade parsers m opts
        return (m, sha)) = Except.ok (m, sha256) → archive.manifest = .ok m := by
      intro sha h
      simp only [bind_eq_ok, pure_eq_ok] at h
      obtain ⟨read, hread, _, -, _, -, _, -, heq⟩ := h
      rw [hread, (Prod.mk.inj heq).1]
    unfold preflight at hpreflight
    obtain ⟨_, -, hpreflight⟩ := bind_eq_ok.mp hpreflight
    obtain ⟨_, -, hpreflight⟩ := bind_eq_ok.mp hpreflight
    obtain ⟨sha, -, hpreflight⟩ := bind_eq_ok.mp hpreflight
    cases hexpected : opts.expectedSha256 with
    | none =>
        rw [hexpected] at hpreflight
        exact hchecked sha hpreflight
    | some expected =>
        rw [hexpected] at hpreflight
        obtain ⟨_, -, hpreflight⟩ := bind_eq_ok.mp hpreflight
        exact hchecked sha hpreflight
  apply Ensures.bind (.any_end _ _) fun _ _ => id
  intro _ t _
  apply Ensures.bind (.any_end _ _) fun _ _ => id
  intro _ t _
  apply ensures_bind.mpr
  apply ensures_attempt.mpr
  have hstaged : Ensures (stageAndSwap parsers disk archive roots uuids m) t
      (fun r u => archive.extract = .ok () ∧ checkStaged parsers m archive.extracted = .ok () ∧
        u r.1 = some archive.extracted) fun _ _ => True := by
    unfold stageAndSwap
    apply Ensures.bind stage_content fun _ _ => id
    intro _ u hu
    obtain ⟨hextract, hcheck, hu⟩ := hu
    apply Ensures.bind (ensures_mapError.mpr (Disk.createDirAll_spec.imp (fun _ _ => id)
      fun _ _ _ => trivial)) fun _ _ => id
    intro _ v hv
    rw [hv]
    apply Ensures.bind (backUp_content hu) fun _ _ => id
    intro backup w hw
    apply (swap_content hw).imp _ fun _ _ => id
    intro r x hx
    obtain ⟨hdestination, hx⟩ := hx
    exact ⟨hextract, hcheck, hdestination ▸ hx⟩
  apply hstaged.imp
  · intro r u hu
    exact ensures_pure.mpr ⟨hmanifest, hu⟩
  · intro e u _
    apply Ensures.bind (.any_end _ _) fun _ _ => id
    intro _ _ _
    trivial

end Content

/-! ## The manifest that is left -/

section Left

variable {M V : Type} {parser : ManifestParser M} {version : String → Except String V}
  {rule : PathRule} {out : UnpackOutside} {maxUncompressed : Nat} {file : ArchiveFile}

/-- After unpacking, `manifest.json` holds the contents of its last entry. -/
theorem extracted_manifest
    (hextract : (file.archive parser rule out maxUncompressed).extract = .ok ()) (bytes : List Nat) :
    (file.archive parser rule out maxUncompressed).extracted "manifest.json" =
        some (.file bytes) ↔
      ∃ e, manifestEntry rule file = some e ∧ bytes = e.bytes := by
  unfold ArchiveFile.archive unpacked at hextract ⊢
  unfold manifestEntry
  cases hentries : file.entries with
  | error e =>
      rw [hentries] at hextract
      cases hextract
  | ok zip =>
      rw [hentries] at hextract
      simp only at hextract ⊢
      have hrun : extractZipSafely rule out maxUncompressed zip ⟨fun _ => none, 0, 0⟩ =
          (.ok ⟨⟩, (extractZipSafely rule out maxUncompressed zip ⟨fun _ => none, 0, 0⟩).2) :=
        Prod.ext hextract rfl
      rw [(extractEntries_spec zip.rows).of_eq_ok hrun _ bytes]
      cases lastLanding rule (entryPath rule "manifest.json") zip.rows with
      | none => simp
      | some e => simp

theorem exists_manifest_of_checkStaged {parsers : Parsers V} {m : PluginManifest}
    {content : Directory} (h : checkStaged parsers m content = .ok ()) :
    ∃ bytes, content "manifest.json" = some (.file bytes) := by
  unfold checkStaged at h
  cases hcontent : content "manifest.json" with
  | none =>
      rw [hcontent] at h
      cases h
  | some node =>
      rw [hcontent] at h
      cases node with
      | file bytes => exact ⟨bytes, rfl⟩
      | directory => cases h
      | symlink => cases h

variable [LT V] [DecidableLT V] {disk : Disk} {dirs : Dirs} {uuids : Uuids}
  {opts : InstallOptions} {roots : Roots}

/-- What an install leaves says whether the last entry agrees with the validated one. -/
theorem installed_manifest_spec :
    Ensures (installUseful (parser.parsers version) disk
        (file.archive parser rule out maxUncompressed) opts roots uuids) dirs
      (fun outcome t => ShowsValidated parser file outcome.manifest (t outcome.installDir) ↔
        LastEntryAgrees parser rule file)
      fun _ _ => True := by
  apply installUseful_content.imp _ fun _ _ => id
  intro outcome t ht
  obtain ⟨hmanifest, hextract, hcheck, hcontent⟩ := ht
  have hleft := extracted_manifest hextract
  have hvalidated : ∃ full, validatedManifest parser file = .ok full ∧
      parser.fields full = outcome.manifest := by
    have hmap : (validatedManifest parser file).map parser.fields = .ok outcome.manifest := hmanifest
    cases hfull : validatedManifest parser file with
    | error e =>
        rw [hfull] at hmap
        cases hmap
    | ok full =>
        rw [hfull] at hmap
        exact ⟨full, rfl, Except.ok.inj hmap⟩
  obtain ⟨full, hfull, hfields⟩ := hvalidated
  unfold ShowsValidated LastEntryAgrees
  rw [hcontent, Option.bind_some]
  constructor
  · intro hshows e he
    obtain ⟨bytes, hbytes, full', hparse, hfull', -⟩ := hshows
    obtain ⟨e', he', rfl⟩ := (hleft bytes).mp hbytes
    cases he.symm.trans he'
    rw [hparse, hfull']
  · intro hagrees
    obtain ⟨bytes, hbytes⟩ := exists_manifest_of_checkStaged hcheck
    obtain ⟨e, he, rfl⟩ := (hleft bytes).mp hbytes
    exact ⟨e.bytes, hbytes, full, (hagrees e he).trans hfull, hfull, hfields⟩

/-- When an install succeeds, the manifest it leaves parses to the one it validated and returns
exactly when the last entry that leads to `manifest.json` parses like the entry of that name. -/
theorem installed_manifest_iff (parser : ManifestParser M) (version : String → Except String V)
    (rule : PathRule) (out : UnpackOutside) (maxUncompressed : Nat) (file : ArchiveFile)
    (disk : Disk) (opts : InstallOptions) (roots : Roots) (uuids : Uuids) (dirs : Dirs) :
    ∀ outcome t, installUseful (parser.parsers version) disk
        (file.archive parser rule out maxUncompressed) opts roots uuids dirs = (.ok outcome, t) →
      (ShowsValidated parser file outcome.manifest (t outcome.installDir) ↔
        LastEntryAgrees parser rule file) := by
  intro outcome t hrun
  exact installed_manifest_spec.of_eq_ok hrun

end Left

/-! ## A second spelling -/

/-- The text of a web plugin's manifest. -/
def webText : List Nat :=
  utf8 (["\x7b\"schemaVersion\":1,", "\"id\":\"com.example.tool\",", "\"name\":\"Converter\",",
    "\"version\":\"1.0.0\",", "\"entry\":\x7b\"type\":\"web\",",
    "\"path\":\"index.html\"\x7d\x7d"].flatMap String.toList)

/-- The text of a launcher's manifest with the same id and version. -/
def launcherText : List Nat :=
  utf8 (["\x7b\"schemaVersion\":1,", "\"id\":\"com.example.tool\",", "\"name\":\"Converter\",",
    "\"version\":\"1.0.0\",", "\"entry\":\x7b\"type\":\"launcher\",",
    "\"path\":\"converter.exe\"\x7d,", "\"permissions\":[",
    "\"process.launch.declared\"]\x7d"].flatMap String.toList)

/-- What the parser says about the two texts. -/
def twoManifests : ManifestParser PluginManifest where
  parse := fun bytes =>
    if bytes = webText then .ok (webManifest "com.example.tool" "1.0.0")
    else if bytes = launcherText then .ok (launcherRelease "com.example.tool" "1.0.0")
    else .error (.manifestInvalid "非法 JSON")
  fields := id

theorem launcherText_ne_webText : launcherText ≠ webText := by
  decide

attribute [irreducible] webText launcherText

theorem parse_webText :
    twoManifests.parse webText = .ok (webManifest "com.example.tool" "1.0.0") := by
  simp only [twoManifests, if_true]

theorem parse_launcherText :
    twoManifests.parse launcherText = .ok (launcherRelease "com.example.tool" "1.0.0") := by
  simp only [twoManifests, if_neg launcherText_ne_webText, if_true]

/-- The manifest under its name, an entry point, and a text under `./manifest.json`. -/
def respelled (second : List Nat) : ArchiveFile where
  size := .ok 1024
  sha256 := .ok "00"
  entries := .ok (.ofDirectory [
    ⟨"manifest.json", none, false, 107, webText, none⟩,
    ⟨"index.html", none, false, 0, [], none⟩,
    ⟨"./manifest.json", none, false, 158, second, none⟩])

/-- A file system on which nothing fails. -/
def quietUnpack : UnpackOutside := ⟨fun _ => none, "not a directory", "is a directory"⟩

def quietDisk : Disk := ⟨fun _ => none, "not found", "already exists", id, none⟩

/-- An install of such an archive. -/
def installRespelled (second : List Nat) : Except PluginError InstallOutcome × Dirs :=
  installUseful (twoManifests.parsers fun _ => Except.ok 1) quietDisk
    ((respelled second).archive twoManifests .plain quietUnpack 4096)
    ⟨4096, none, "0.1.0", none, false⟩ ⟨["staging"], ["plugins"]⟩ ⟨"a", "b", "c", "d"⟩
    fun _ => none

/-- The install of two texts that the parser tells apart leaves the second. -/
theorem installRespelled_left {second : List Nat} {outcome : InstallOutcome} {t : Dirs}
    (hrun : installRespelled second = (.ok outcome, t)) :
    ShowsValidated twoManifests (respelled second) outcome.manifest (t outcome.installDir) ↔
      LastEntryAgrees twoManifests .plain (respelled second) :=
  installed_manifest_spec.of_eq_ok hrun

/-- An archive with a second manifest under another spelling installs, and what is left is not
the manifest that was validated. -/
theorem manifest_replaced_by_spelling :
    ∃ outcome t, installRespelled launcherText = (.ok outcome, t) ∧
      ¬ ShowsValidated twoManifests (respelled launcherText) outcome.manifest
        (t outcome.installDir) := by
  have hok : (installRespelled launcherText).1.isOk = true := by
    decide +kernel
  rcases hrun : installRespelled launcherText with ⟨e | outcome, t⟩
  · rw [hrun] at hok
    cases hok
  refine ⟨outcome, t, rfl, fun hshows => ?_⟩
  have hagrees := (installRespelled_left hrun).mp hshows
  have hlast : ∃ e, manifestEntry .plain (respelled launcherText) = some e ∧
      e.bytes = launcherText := ⟨_, rfl, rfl⟩
  obtain ⟨e, he, hbytes⟩ := hlast
  have hlauncher : twoManifests.parse e.bytes = .ok (launcherRelease "com.example.tool" "1.0.0") := by
    rw [hbytes]
    exact parse_launcherText
  have hweb : validatedManifest twoManifests (respelled launcherText) =
      .ok (webManifest "com.example.tool" "1.0.0") := by
    rw [← parse_webText]
    rfl
  have heq := hlauncher.symm.trans ((hagrees e he).trans hweb)
  exact absurd (congrArg (fun m => m.toOption.map PluginManifest.entryType) heq) (by decide)

/-- With one text under both spellings the install leaves what it validated. -/
theorem installed_manifest_iff_webText :
    ∃ outcome t, installRespelled webText = (.ok outcome, t) ∧
      (ShowsValidated twoManifests (respelled webText) outcome.manifest (t outcome.installDir) ↔
        LastEntryAgrees twoManifests .plain (respelled webText)) := by
  have hok : (installRespelled webText).1.isOk = true := by
    decide +kernel
  rcases hrun : installRespelled webText with ⟨e | outcome, t⟩
  · rw [hrun] at hok
    cases hok
  exact ⟨outcome, t, rfl, installed_manifest_iff _ _ _ _ _ _ _ _ _ _ _ outcome t hrun⟩

end Useful.Plugins
