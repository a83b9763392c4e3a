/-
# Native workers in the catalog

An entry of the catalog takes its native flag from the row of the tool, and the result of a
scan is written to the row of the artifact. No operation writes the flag of a tool, so an
entry never says that it is one of a native worker.
-/

import Useful.Server.Approval
import Useful.Server.Catalog
import Useful.Server.FailedRelease
import Useful.Server.ServiceSteps

namespace Useful.Server.NativeFlag

open Useful.Math Useful.Server.Catalog

variable {β : Type} {env : External β} {config : Config}

/-- Every entry of a catalog built now says whether it lists a published artifact that was
scanned as a native worker. -/
def Flagged (w : World β) : Prop :=
  ∀ sourceID checks advisories now,
    ∀ entry ∈ (Catalog.buildSnapshot sourceID w checks advisories now).entries,
    ∀ art ∈ w.artifacts.rows, art.publisherKeyID = entry.publisherKeyID →
      art.toolID = entry.toolID → art.status = .published → art.isNativeWorker = true →
      entry.isNativeWorker = true

/-- A published artifact that was scanned as a native worker, and whose tool has a row. -/
def NativePublished (w : World β) : Prop :=
  ∃ art ∈ w.artifacts.rows, art.status = .published ∧ art.isNativeWorker = true ∧
    ∃ tool ∈ w.tools.rows, tool.publisherKeyID = art.publisherKeyID ∧ tool.toolID = art.toolID

/-- The row of a tool is never flagged. -/
def Unflagged (w : World β) : Prop := ∀ tool ∈ w.tools.rows, tool.isNativeWorker = false

/-! ## The flag of a tool -/

theorem Unflagged.congr {w w' : World β} (h : Unflagged w) (htools : w'.tools = w.tools) :
    Unflagged w' := by
  unfold Unflagged
  rw [htools]
  exact h

theorem Unflagged.upsertTool {w : World β} (h : Unflagged w) (req : ReleaseRequest)
    (sess : UploadSession) (now : Int) :
    Unflagged (upsertTool (newTool req sess now) w).2 := by
  intro tool hmem
  cases Table.mem_put.mp hmem with
  | inl heq => rw [heq]; rfl
  | inr hold => exact h tool hold.1

/-- No call of the service flags a tool. -/
theorem Unflagged.effect {own : Option (String × ReproResult)}
    {effect : Reply ServerError → World β → World β} (hcall : Calls own effect)
    (reply : Reply ServerError) {w : World β} (h : Unflagged w) : Unflagged (effect reply w) := by
  have hrow : ∀ {f : Call β Unit}, Unflagged (f w).2 → Unflagged (Task.effect f reply w) := by
    intro f hf
    cases reply with
    | refuse e => exact h
    | proceed => exact hf
    | lose e => exact hf
  obtain hlisting | ⟨req, sess, now, -, rfl⟩ | ⟨req, sess, id, digest, sig, permissions, now, -, rfl⟩ |
    ⟨art, -, rfl⟩ | ⟨id, status, publishedAt, rfl⟩ := cases_of_calls hcall
  · exact h.congr (hlisting reply w).tools
  · exact hrow (h.upsertTool req sess now)
  · apply hrow
    unfold createArtifact
    split
    · exact h
    · split
      · exact h
      · exact h.congr rfl
  · apply hrow
    unfold updateArtifact
    split
    · exact h
    · split
      · exact h.congr rfl
      · exact h
  · apply hrow
    unfold updateStatus
    split
    · exact h
    · split
      · exact h.congr rfl
      · exact h

/-- No run of the service flags a tool. -/
theorem unflagged_of_run {sys sys' : System (Label β) (World β) ServerError}
    {events : List (SystemEvent ServerError (Operation β))} (hidle : sys.tasks = [])
    (hrun : Run (service env config).Step sys events sys') (h : Unflagged sys.shared) :
    Unflagged sys'.shared := by
  have hkind : ∀ effect : Reply ServerError → World β → World β, (∃ own, Calls own effect) →
      ∀ reply w, Unflagged w → Unflagged (effect reply w) := by
    intro effect hcall reply w hw
    obtain ⟨own, hcall⟩ := hcall
    exact hw.effect hcall reply
  have hstart : ∀ i op, ((service env config).start i op).Takes
      (fun effect => ∃ own, Calls own effect) fun _ => True :=
    fun i op => (performs_startOperation i op).takes.widen fun _ hcall => ⟨_, hcall⟩
  have habandon : ∀ i w, Unflagged w → Unflagged ((service env config).abandon i w) := by
    intro i w hw
    show Unflagged (if w.lease = some i then { w with lease := none } else w)
    split
    · exact hw.congr rfl
    · exact hw
  exact Machine.keeps_of_run hstart hkind habandon hidle hrun h

/-! ## The flag of an entry -/

/-- A tool with a published artifact has an entry. -/
theorem exists_entry {w : World β} {art : Artifact} {tool : Tool} (sourceID : String)
    (checks : List AvailabilityCheck) (advisories : List Catalog.SecurityAdvisory) (now : Int)
    (hart : art ∈ w.artifacts.rows) (hpublished : art.status = .published)
    (htool : tool ∈ w.tools.rows) (hkey : tool.publisherKeyID = art.publisherKeyID)
    (hid : tool.toolID = art.toolID) :
    ∃ entry ∈ (Catalog.buildSnapshot sourceID w checks advisories now).entries,
      entry.publisherKeyID = art.publisherKeyID ∧ entry.toolID = art.toolID ∧
        entry.isNativeWorker = tool.isNativeWorker := by
  have hgroup : art ∈ (catalogRows w checks advisories).group tool.publisherKeyID tool.toolID :=
    mem_group.mpr ⟨hart, .inl hpublished, hkey.symm, hid.symm⟩
  obtain ⟨entry, hbuilt⟩ : ∃ entry, buildEntry (catalogRows w checks advisories) now tool =
      some entry := exists_buildEntry hgroup hpublished
  obtain ⟨hentryKey, hentryID, hflag, -, -⟩ := buildEntry_eq_some hbuilt
  refine ⟨entry, mem_entries.mpr ⟨tool, htool, List.ne_nil_of_mem hgroup, hbuilt⟩, ?_, ?_, hflag⟩
  · exact hentryKey.trans hkey
  · exact hentryID.trans hid

theorem not_flagged_of_nativePublished {w : World β} (hunflagged : Unflagged w)
    (hnative : NativePublished w) : ¬ Flagged w := by
  intro hflagged
  obtain ⟨art, hart, hpublished, hscanned, tool, htool, hkey, hid⟩ := hnative
  obtain ⟨entry, hentry, hentryKey, hentryID, hflag⟩ :=
    exists_entry "" [] [] 0 hart hpublished htool hkey hid
  have htrue := hflagged "" [] [] 0 entry hentry art hart hentryKey.symm hentryID.symm hpublished
    hscanned
  rw [hflag, hunflagged tool htool] at htrue
  cases htrue

/-- In every state that the service reaches, the entries are right about native workers
exactly when none is published. -/
theorem flagged_iff_of_run {sys sys' : System (Label β) (World β) ServerError}
    {events : List (SystemEvent ServerError (Operation β))} (hidle : sys.tasks = [])
    (hempty : sys.shared.tools = .empty)
    (hrun : Run (service env config).Step sys events sys') :
    Flagged sys'.shared ↔ ¬ NativePublished sys'.shared := by
  have hunflagged : Unflagged sys'.shared := by
    apply unflagged_of_run hidle hrun
    unfold Unflagged
    rw [hempty]
    exact fun _ h => absurd h List.not_mem_nil
  constructor
  · intro hflagged hnative
    exact not_flagged_of_nativePublished hunflagged hnative hflagged
  · intro hnone sourceID checks advisories now entry hentry art hart hkey hid hpublished hscanned
    obtain ⟨tool, htool, -, hbuilt⟩ := mem_entries.mp hentry
    obtain ⟨hentryKey, hentryID, -, -, -⟩ := buildEntry_eq_some hbuilt
    exact absurd ⟨art, hart, hpublished, hscanned, tool, htool, hentryKey.symm.trans hkey.symm,
      hentryID.symm.trans hid.symm⟩ hnone

end Useful.Server.NativeFlag

/-! ## A native worker is published -/

namespace Useful.Server.NativeFlag.Sample

open Useful.Math Useful.Server.Sample

/-- The package of a native worker. -/
def nativeContents : ArchiveContents :=
  { contents with
    entryType := "worker"
    isNativeWorker := true }

/-- The packages are those of a native worker. -/
def nativeEnv : External Content :=
  { Sample.env with
    readArchive
      | .package | .tampered => .ok nativeContents
      | .text _ => .error "zip: not a valid zip file" }

def nativeRow : Artifact := scannedArtifact nativeEnv artifact (scanResult nativeContents [])

def nativeScanned : World Content :=
  { released with
    scans := [(artifactID, .package)]
    artifacts := released.artifacts.put nativeRow }

theorem prepares_request : FailedRelease.Prepares nativeEnv config request uploaded completed
    .package ⟨claimed, signature, [], contents.manifestDigest⟩ where
  validate := validate_request
  found := rfl
  checked := checkRelease_request
  identity := rfl
  completed := rfl
  stored := staged_self
  inspected := by decide
  claimed := rfl

theorem releases_request : FailedRelease.Releases nativeEnv config request artifactID "job-1" 0
    uploaded completed .package ⟨claimed, signature, [], contents.manifestDigest⟩ where
  prepares := prepares_request
  fresh := rfl
  free := rfl
  unbound := .inl rfl
  freshJob := rfl

theorem release_advances (task : Nat) : Advance (fun _ _ => True)
    (startOperation nativeEnv config task
      (.createRelease request "00000000-0000-4000-8000-000000000000" "job-1" 0)) uploaded
    (.done (.ok ())) released := by
  have halone : Advance (fun _ _ => True)
      (createRelease nativeEnv config request artifactID "job-1" 0) uploaded
      (.done ((createRelease nativeEnv config request artifactID "job-1" 0).alone (fun _ => .proceed)
        uploaded).1) _ :=
    Advance.of_alone fun _ => rfl
  rw [FailedRelease.alone_of_releases releases_request] at halone
  exact Advance.seq halone (.refl _ _)

theorem scan_advances (task : Nat) : Advance (fun _ _ => True)
    (startOperation nativeEnv config task (.runScan artifactID 0)) released (.done (.ok ()))
    nativeScanned := by
  have hget : getArtifact artifactID released = (.ok artifact, released) := rfl
  have hsession : getByArtifact artifactID released = (.ok bound, released) := rfl
  have hopen : (openArchive nativeEnv config 338 .package).mapError
      (fun e => ServerError.failure e) = .ok nativeContents := by
    rw [show openArchive nativeEnv config 338 .package = .ok nativeContents from rfl]
    rfl
  have hscan : Advance (fun _ _ => True) (scanPackage nativeEnv config artifact bound) released
      (.done (.ok (scanResult nativeContents [])))
      { released with scans := [(artifactID, .package)] } := by
    refine Advance.seq (Approval.advance_step (f := reading fun _ => .ok ()) rfl) ?_
    refine (Approval.advance_step read_released).seq ?_
    exact Advance.check hopen (.refl _ _)
  have hupdate : updateArtifact nativeRow { released with scans := [(artifactID, .package)] } =
      (.ok (), nativeScanned) := rfl
  refine (Approval.advance_step hget).seq ?_
  refine (Approval.advance_step hsession).seq ?_
  refine hscan.seq ?_
  exact (Approval.advance_step hupdate).seq (.refl _ _)

/-- Its target has a name, and the metadata that lists it can be signed. -/
theorem exists_release : ∃ name release,
    artifactTargetName nativeEnv (Approval.pendingRow nativeRow 0) = .ok name ∧
      signRelease nativeEnv config.toMetadataKeys 1 0
        [(name, targetEntry (Approval.pendingRow nativeRow 0))] = .ok release := by
  have hname : (artifactTargetName nativeEnv (Approval.pendingRow nativeRow 0)).isOk = true := by
    decide
  cases h : artifactTargetName nativeEnv (Approval.pendingRow nativeRow 0) with
  | error e =>
      rw [h] at hname
      cases hname
  | ok name =>
      have htargets : ∀ target ∈ [(name, targetEntry (Approval.pendingRow nativeRow 0))],
          Readable (targetJson target.2) := by
        intro target hmem
        rw [List.mem_singleton.mp hmem]
        exact readable_targetJson _ (readable_custom _)
      have hkeys : Approval.Signing config.toMetadataKeys := ⟨rfl, rfl, rfl⟩
      obtain ⟨release, hrelease⟩ := Approval.exists_signRelease hkeys 1 0
        (by simp) htargets
      exact ⟨name, release, rfl, hrelease⟩

theorem approvable_nativeRow : ∃ targets release,
    Approval.Approvable nativeEnv config 0 nativeScanned nativeRow bound .package targets 1 release := by
  obtain ⟨name, release, hname, hrelease⟩ := exists_release
  have htrust : validateArtifactPublisherTrust nativeEnv (Approval.pendingRow nativeRow 0) = .ok () :=
    trust_scannedRow
  have hfree : ∀ name, nativeScanned.objects (metadataKey name) = none := fun name =>
    Function.update_of_ne (stagingKey_ne_metadataKey "u1" name).symm (some Content.package) _
  have htargetsFree : nativeScanned.objects (targetsKey 1) = none := hfree _
  have hsnapshotFree : nativeScanned.objects (snapshotKey 1) = none := hfree _
  refine ⟨_, release, {
    leaseFree := rfl
    found := Table.find_put_self
    scanned := rfl
    trusted := trust_scannedRow
    session := rfl
    staging := by decide
    stored := staged_self
    unpublished := staged_publishedKey
    settled := ?_
    collected := ?_
    writable := ⟨rfl, by decide, hrelease, htargetsFree, hsnapshotFree⟩ }⟩
  · intro other hmem
    rw [List.mem_singleton.mp hmem]
    decide
  · refine bind_eq_ok.mpr ⟨⟨⟩, htrust, bind_eq_ok.mpr ⟨name, hname, ?_⟩⟩
    exact bind_eq_ok.mpr ⟨⟨⟩, failIf_eq_ok.mpr List.not_mem_nil, rfl⟩

/-- An upload, its release, the scan and the approval. -/
theorem published_run : ∃ events tasks release, Run (service nativeEnv config).Step ⟨world, []⟩ events
    ⟨Approval.approvedWorld nativeScanned nativeRow bound Content.package 0 1 release, tasks⟩ := by
  obtain ⟨targets, release, happrovable⟩ := approvable_nativeRow
  have hopen : ∀ task, Advance (StoresDeclared Sample.env) (startOperation nativeEnv config task
      (.createUploadSession "u1" ("ed25519:" ++ publisherHex) packageDigest 338 0)) world
      (.done (.ok ())) opened := open_advances
  have hreceive : ∀ task, Advance (StoresDeclared Sample.env) (startOperation nativeEnv config task
      (.receiveContent "u1" .package)) opened (.done (.ok ())) uploaded := fun _ => receive_advances
  have happrove : ∀ task, Advance (fun _ _ => True) (startOperation nativeEnv config task
      (.approve artifactID 0)) nativeScanned (.done (.ok ()))
      (Approval.approvedWorld nativeScanned nativeRow bound .package 0 1 release) := by
    intro task
    have hadvance := Approval.advance_approve task happrovable
    exact hadvance
  obtain ⟨opening, h₁⟩ := Approval.run_of_advance fun task => (hopen task).mono fun _ _ _ => trivial
  obtain ⟨upload, h₂⟩ := Approval.run_of_advance fun task => (hreceive task).mono fun _ _ _ => trivial
  obtain ⟨creation, h₃⟩ := Approval.run_of_advance release_advances
  obtain ⟨scan, h₄⟩ := Approval.run_of_advance scan_advances
  obtain ⟨approval, h₅⟩ := Approval.run_of_advance happrove
  exact ⟨_, _, release, (((h₁.append h₂).append h₃).append h₄).append h₅⟩

/-- The tool and the artifact after the approval. -/
theorem nativePublished_approved (release : Release Content) : NativePublished
    (Approval.approvedWorld nativeScanned nativeRow bound .package 0 1 release) := by
  have htool : newTool request claimed 0 ∈ nativeScanned.tools.rows := Table.mem_put.mpr (.inl rfl)
  rw [← Approval.tools_approvedWorld] at htool
  exact ⟨_, Approval.mem_approvedWorld, rfl, rfl, _, htool, rfl, rfl⟩

/-- The entry of a native worker that is published does not say so. -/
theorem native_unflagged : ∃ events sys, Run (service nativeEnv config).Step ⟨world, []⟩ events sys ∧
    NativePublished sys.shared ∧ ¬ Flagged sys.shared := by
  obtain ⟨events, tasks, release, hrun⟩ := published_run
  have hempty : Unflagged world := fun _ h => absurd h List.not_mem_nil
  have hunflagged := unflagged_of_run rfl hrun hempty
  have hnative := nativePublished_approved release
  exact ⟨events, _, hrun, hnative, not_flagged_of_nativePublished hunflagged hnative⟩

/-- Where a native worker is published, the entries are wrong. -/
theorem flagged_iff_of_run_native : ∃ events sys,
    Run (service nativeEnv config).Step ⟨world, []⟩ events sys ∧ NativePublished sys.shared ∧
      (Flagged sys.shared ↔ ¬ NativePublished sys.shared) := by
  obtain ⟨events, tasks, release, hrun⟩ := published_run
  have hiff := flagged_iff_of_run rfl rfl hrun
  exact ⟨events, _, hrun, nativePublished_approved release, hiff⟩

end Useful.Server.NativeFlag.Sample
