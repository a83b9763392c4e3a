/-
# Undoing an install on disk

`Swapped` says what a successful `install_useful` has done to the directories. If
the operations that undo things succeed, a failed install leaves every directory
as it was, and rolling back a successful one brings back the directories it began
with.
-/

import Useful.Plugins.Install

namespace Useful.Plugins

open Useful.Math Useful.Math.Program

/-- The operations that undo an install succeed. -/
def Disk.Restores (disk : Disk) : Prop :=
  ∀ site : FileSite, site.Compensates → disk.fault site = none

/-- A path where an installed version may be kept: the path was free, and there is
such a version. -/
def Backed (dirs : Dirs) (destination : Path) : Option Path → Prop
  | none => dirs destination = none
  | some backup => backup ≠ destination ∧ dirs backup = none ∧ dirs destination ≠ none

/-- The directories with the installed version moved to its backup. -/
def backedUp (dirs : Dirs) (destination : Path) : Option Path → Dirs
  | none => dirs
  | some backup => Function.update (Function.update dirs backup (dirs destination)) destination none

/-- The directories after an install with the given contents. -/
structure Swapped (before : Dirs) (t : InstallTransaction) (content : Directory) (after : Dirs) :
    Prop where
  open_ : t.finalized = false
  backed : Backed before t.destination t.replaced
  after_eq : after =
    Function.update (backedUp before t.destination t.replaced) t.destination (some content)

namespace Disk

variable {disk : Disk} {site : FileSite} {dirs : Dirs}

theorem createDirAll_spec :
    Ensures (disk.createDirAll site) dirs (fun _ t => t = dirs) (fun _ t => t = dirs) := by
  unfold createDirAll
  split
  · exact ensures_fail.mpr rfl
  · exact ensures_pure.mpr rfl

theorem createDir_spec {path : Path} :
    Ensures (disk.createDir site path) dirs
      (fun _ t => dirs path = none ∧ t = Function.update dirs path (some fun _ => none))
      (fun _ t => t = dirs) := by
  unfold Ensures createDir
  cases disk.fault site with
  | some text => rfl
  | none => cases hpath : dirs path with
    | some content => rfl
    | none => exact ⟨rfl, rfl⟩

/-- A rename moves a directory to a free path, or does nothing. -/
theorem rename_spec {source target : Path} :
    Ensures (disk.rename site source target) dirs
      (fun _ t => ∃ content, dirs source = some content ∧ dirs target = none ∧
        t = Function.update (Function.update dirs target (some content)) source none)
      (fun _ t => t = dirs) := by
  unfold Ensures rename
  cases disk.fault site with
  | some text => rfl
  | none => cases hsource : dirs source with
    | none => rfl
    | some content => cases htarget : dirs target with
      | some other => rfl
      | none => exact ⟨content, rfl, rfl, rfl⟩

/-- A rename without fault from an existing directory to a free path succeeds. -/
theorem rename_ok {source target : Path} {content : Directory} (hsite : disk.fault site = none)
    (hsource : dirs source = some content) (htarget : dirs target = none) :
    disk.rename site source target dirs = (.ok (),
      Function.update (Function.update dirs target (some content)) source none) := by
  simp only [rename, hsite, hsource, htarget]

theorem removeDirAll_ok {path : Path} (hsite : disk.fault site = none)
    (hpath : dirs path ≠ none) :
    disk.removeDirAll site path dirs = (.ok (), Function.update dirs path none) := by
  obtain ⟨content, hcontent⟩ := Option.ne_none_iff_exists'.mp hpath
  simp only [removeDirAll, hsite, hcontent]

/-- A removal changes one path, and frees it when it succeeds. -/
theorem removeDirAll_spec {path : Path} :
    Ensures (disk.removeDirAll site path) dirs
      (fun _ t => t = Function.update dirs path none)
      (fun _ t => ∃ rest, t = Function.update dirs path rest) := by
  unfold Ensures removeDirAll
  cases disk.fault site with
  | some text => exact ⟨_, rfl⟩
  | none => cases hpath : dirs path with
    | none => exact ⟨none, by rw [← hpath, Function.update_eq_self]⟩
    | some content => rfl

theorem copyDirAll_spec {source target : Path} :
    Ensures (disk.copyDirAll site source target) dirs
      (fun _ t => ∃ content, dirs source = some content ∧
        t = Function.update dirs target (some content))
      (fun _ t => ∃ rest, t = Function.update dirs target rest) := by
  unfold Ensures copyDirAll
  cases disk.fault site with
  | some text => exact ⟨_, rfl⟩
  | none => cases hsource : dirs source with
    | none => exact ⟨dirs target, by rw [Function.update_eq_self]⟩
    | some content => exact ⟨content, rfl, rfl⟩

end Disk

/-- Without fault, whatever was at the path is gone. -/
theorem removeExisting_spec {ε : Type} {disk : Disk} {site : FileSite} {dirs : Dirs} {path : Path}
    (hsite : disk.fault site = none) :
    Ensures (removeExisting (ε := ε) disk site path) dirs
      (fun r t => r = none ∧ t = Function.update dirs path none) (fun _ _ => False) := by
  unfold removeExisting
  apply ensures_bind.mpr
  apply ensures_read.mpr
  cases hpath : dirs path with
  | none => exact ensures_pure.mpr ⟨rfl, by rw [← hpath, Function.update_eq_self]⟩
  | some content =>
      have hremove := Disk.removeDirAll_ok hsite (hpath ▸ Option.some_ne_none content)
      apply ensures_bind.mpr
      apply ensures_attempt.mpr
      apply (ensures_of_eq_ok hremove).mpr
      exact ensures_pure.mpr ⟨rfl, rfl⟩

/-! ## Moving a version to its backup and back -/

section Backup

variable {disk : Disk} {dirs : Dirs} {destination : Path} {replaced : Option Path}

theorem backedUp_destination (h : Backed dirs destination replaced) :
    backedUp dirs destination replaced destination = none := by
  cases replaced with
  | none => exact h
  | some backup => exact Function.update_self _ _ _

/-- Paths other than the destination and the backup are not touched. -/
theorem backedUp_of_ne {path : Path} (hdestination : path ≠ destination)
    (hreplaced : replaced ≠ some path) : backedUp dirs destination replaced path = dirs path := by
  cases replaced with
  | none => rfl
  | some backup =>
      have hbackup : path ≠ backup := fun h => hreplaced (h ▸ rfl)
      simp only [backedUp, Function.update_of_ne hdestination, Function.update_of_ne hbackup]

/-- A change at another path commutes with the move. -/
theorem backedUp_update {path : Path} {content : Option Directory}
    (hdestination : path ≠ destination) (hreplaced : replaced ≠ some path) :
    backedUp (Function.update dirs path content) destination replaced =
      Function.update (backedUp dirs destination replaced) path content := by
  cases replaced with
  | none => rfl
  | some backup =>
      have hbackup : path ≠ backup := fun h => hreplaced (h ▸ rfl)
      simp only [backedUp, Function.update_of_ne hdestination.symm]
      rw [Function.update_comm hbackup, Function.update_comm hdestination]

theorem Backed.update {path : Path} {content : Option Directory}
    (h : Backed dirs destination replaced) (hdestination : path ≠ destination)
    (hreplaced : replaced ≠ some path) :
    Backed (Function.update dirs path content) destination replaced := by
  cases replaced with
  | none => exact (Function.update_of_ne hdestination.symm _ _).trans h
  | some backup =>
      have hbackup : backup ≠ path := fun h => hreplaced (h ▸ rfl)
      simpa only [Backed, Function.update_of_ne hdestination.symm,
        Function.update_of_ne hbackup] using h

/-- A rename without fault moves the version back. -/
theorem rename_back {site : FileSite} {backup : Path} (hsite : disk.fault site = none)
    (h : Backed dirs destination (some backup)) :
    disk.rename site backup destination (backedUp dirs destination (some backup)) =
      (.ok (), dirs) := by
  obtain ⟨hne, hfree, hinstalled⟩ := h
  obtain ⟨old, hold⟩ := Option.ne_none_iff_exists'.mp hinstalled
  have hsource : backedUp dirs destination (some backup) backup = some old := by
    simp only [backedUp, Function.update_of_ne hne, Function.update_self, hold]
  have htarget : backedUp dirs destination (some backup) destination = none :=
    Function.update_self _ _ _
  rw [Disk.rename_ok hsite hsource htarget, backedUp, Function.update_idem,
    Function.update_comm hne.symm, Function.update_idem, ← hfree, Function.update_eq_self,
    ← hold, Function.update_eq_self]

/-- Moving the installed version to a free backup. -/
theorem backUp_spec {backup : Path} (hne : backup ≠ destination) :
    Ensures (backUp disk destination backup) dirs
      (fun replaced t => (replaced = none ∨ replaced = some backup) ∧
        Backed dirs destination replaced ∧ t = backedUp dirs destination replaced)
      (fun _ t => t = dirs) := by
  unfold backUp
  rw [ensures_bind]
  apply ensures_read.mpr
  rw [ensures_ite]
  constructor
  · intro hexists
    apply Ensures.bind Disk.rename_spec.mapError fun _ _ => id
    intro _ t ht
    obtain ⟨content, hsource, htarget, rfl⟩ := ht
    apply ensures_pure.mpr
    refine ⟨.inr rfl, ⟨hne, htarget, by simp [hsource]⟩, ?_⟩
    rw [backedUp, hsource]
  · intro hexists
    apply ensures_pure.mpr
    exact ⟨.inl rfl, by simpa [Backed] using hexists, rfl⟩

theorem restoreBackup_spec (hdisk : disk.Restores) (h : Backed dirs destination replaced) :
    Ensures (restoreBackup disk destination replaced) (backedUp dirs destination replaced)
      (fun failures t => failures = [] ∧ t = dirs) (fun _ _ => False) := by
  cases replaced with
  | none => exact ensures_pure.mpr ⟨rfl, rfl⟩
  | some backup =>
      have hrename := rename_back (hdisk .restoreBackup (by decide)) h
      apply ensures_bind.mpr
      apply ensures_attempt.mpr
      apply (ensures_of_eq_ok hrename).mpr
      exact ensures_pure.mpr ⟨rfl, rfl⟩

end Backup

/-! ## Rolling back -/

namespace InstallTransaction

variable {disk : Disk} {uuids : Uuids} {before after : Dirs} {content : Directory}
  {t : InstallTransaction}

theorem restoreReplaced_spec {ε : Type} (hdisk : disk.Restores)
    (h : Backed before t.destination t.replaced) :
    Ensures (t.restoreReplaced (ε := ε) disk) (backedUp before t.destination t.replaced)
      (fun failures u => failures = [] ∧ u = before) (fun _ _ => False) := by
  unfold restoreReplaced
  cases hreplaced : t.replaced with
  | none => exact ensures_pure.mpr ⟨rfl, rfl⟩
  | some backup =>
      rw [hreplaced] at h
      have hrename := rename_back (hdisk .restoreReplaced (by decide)) h
      apply ensures_bind.mpr
      apply ensures_attempt.mpr
      apply (ensures_of_eq_ok hrename).mpr
      exact ensures_pure.mpr ⟨rfl, rfl⟩

theorem removeDestination_spec {ε : Type} (hdisk : disk.Restores)
    (h : after t.destination ≠ none) :
    Ensures (t.removeDestination (ε := ε) disk uuids) after
      (fun failures u => failures = [] ∧ u = Function.update after t.destination none)
      (fun _ _ => False) := by
  have hremove := Disk.removeDirAll_ok (hdisk .removeDestination (by decide)) h
  unfold removeDestination
  apply ensures_bind.mpr
  apply ensures_read.mpr
  rw [if_pos (Option.isSome_iff_ne_none.mpr h)]
  apply ensures_bind.mpr
  apply ensures_attempt.mpr
  apply (ensures_of_eq_ok hremove).mpr
  exact ensures_pure.mpr ⟨rfl, rfl⟩

/-- Rolling back a swap brings back the directories from before it. -/
theorem rollback_spec (hdisk : disk.Restores) (h : Swapped before t content after) :
    Ensures (t.rollback disk uuids) after (fun _ u => u = before) (fun _ _ => False) := by
  obtain ⟨hopen, hbacked, rfl⟩ := h
  unfold rollback
  rw [hopen]
  apply Ensures.bind (removeDestination_spec hdisk (by simp)) nofun
  intro removing u hu
  obtain ⟨rfl, rfl⟩ := hu
  rw [Function.update_idem, ← backedUp_destination hbacked, Function.update_eq_self]
  apply Ensures.bind (restoreReplaced_spec hdisk hbacked) nofun
  intro restoring u hu
  obtain ⟨rfl, rfl⟩ := hu
  exact ensures_pure.mpr rfl

/-- Committing leaves the new version alone. -/
theorem commit_spec {ε : Type} (h : t.replaced ≠ some t.destination) :
    Ensures (t.commit (ε := ε) disk) after (fun _ u => u t.destination = after t.destination)
      (fun _ _ => False) := by
  unfold commit
  cases hreplaced : t.replaced with
  | none => exact ensures_pure.mpr rfl
  | some replaced =>
      have hne : t.destination ≠ replaced := fun heq => h (heq ▸ hreplaced)
      apply ensures_bind.mpr
      apply ensures_attempt.mpr
      apply Disk.removeDirAll_spec.imp
      · intro _ u hu
        apply ensures_pure.mpr
        rw [hu, Function.update_of_ne hne]
      · intro _ u hu
        obtain ⟨rest, rfl⟩ := hu
        apply ensures_pure.mpr
        rw [Function.update_of_ne hne]

end InstallTransaction

theorem Backed.ne {dirs : Dirs} {destination : Path} {replaced : Option Path}
    (h : Backed dirs destination replaced) : replaced ≠ some destination := by
  cases replaced with
  | none => exact (Option.some_ne_none _).symm
  | some backup => exact fun heq => h.1 (Option.some.inj heq)

/-! ## Installing -/

section Install

variable {V : Type} {parsers : Parsers V} {disk : Disk} {archive : Archive} {uuids : Uuids}
  {dirs : Dirs}

/-- The staged directory is checked and left in its place. -/
theorem stage_spec {m : PluginManifest} {staging : Path} :
    Ensures (stage parsers archive m staging) dirs
      (fun _ t => archive.extract = .ok () ∧ checkStaged parsers m archive.extracted = .ok () ∧
        t = Function.update dirs staging (some archive.extracted))
      (fun _ t => t = Function.update dirs staging (some archive.extracted)) := by
  unfold stage
  apply ensures_bind.mpr
  apply ensures_modify.mpr
  apply ensures_bind.mpr
  apply ensures_ofExcept.mpr
  constructor
  · intro _ hextract
    apply ensures_ofExcept.mpr
    exact ⟨fun _ hcheck => ⟨hextract, hcheck, rfl⟩, fun _ _ => rfl⟩
  · intro _ _
    rfl

/-- Undoing a switch always fails, with the directories from before the backup. -/
theorem undoSwitch_spec {t : InstallTransaction} {content : Directory} {after : Dirs}
    {cleanupError : String} {Q : Path × Option Path → Dirs → Prop} (hdisk : disk.Restores)
    (h : Swapped dirs t content after) :
    Ensures (undoSwitch disk uuids t cleanupError) after Q (fun _ u => u = dirs) := by
  unfold undoSwitch
  apply ensures_bind.mpr
  apply ensures_attempt.mpr
  apply (InstallTransaction.rollback_spec hdisk h).imp
  · intro _ u hu
    exact ensures_fail.mpr hu
  · intro _ _ hfalse
    exact hfalse.elim

/-- Undoing a backup after a failed copy always fails, and removes what was copied. -/
theorem undoBackup_spec {destination copyDir : Path} {backup : Option Path}
    {renameError copyError : String} {rest : Option Directory}
    {Q : Path × Option Path → Dirs → Prop} (hdisk : disk.Restores)
    (hbacked : Backed dirs destination backup) (hcopy : copyDir ≠ destination)
    (hbackup : backup ≠ some copyDir) (hfree : dirs copyDir = none) :
    Ensures (undoBackup disk destination copyDir backup renameError copyError)
      (Function.update (backedUp dirs destination backup) copyDir rest) Q
      (fun _ u => u = dirs) := by
  have hgone : Function.update (Function.update (backedUp dirs destination backup) copyDir rest)
      copyDir none = backedUp dirs destination backup := by
    have hold : backedUp dirs destination backup copyDir = none :=
      (backedUp_of_ne hcopy hbackup).trans hfree
    rw [Function.update_idem, ← hold, Function.update_eq_self]
  unfold undoBackup
  apply Ensures.bind (removeExisting_spec (hdisk .removeCopy (by decide))) nofun
  intro removing u hu
  obtain ⟨rfl, rfl⟩ := hu
  rw [hgone]
  apply Ensures.bind (restoreBackup_spec hdisk hbacked) nofun
  intro restoring u hu
  exact ensures_fail.mpr hu.2

/-- The copy ends in the place of the version, or at most under its own name. -/
theorem switchCopy_spec {staging destination copyDir : Path} {content : Directory}
    (hcontent : dirs staging = some content) (hcopy : copyDir ≠ destination)
    (hfree : dirs copyDir = none) :
    Ensures (switchCopy disk staging destination copyDir) dirs
      (fun _ t => t = Function.update dirs destination (some content))
      (fun _ t => ∃ rest, t = Function.update dirs copyDir rest) := by
  unfold switchCopy
  apply Ensures.bind Disk.copyDirAll_spec fun _ _ => id
  intro _ t ht
  obtain ⟨copied, hcopied, rfl⟩ := ht
  rw [hcontent] at hcopied
  cases hcopied
  apply Disk.rename_spec.imp
  · intro _ t ht
    obtain ⟨moved, hmoved, -, rfl⟩ := ht
    rw [Function.update_self] at hmoved
    cases hmoved
    rw [Function.update_comm hcopy, Function.update_idem, ← hfree,
      Function.update_comm hcopy.symm, Function.update_eq_self]
  · intro _ t ht
    exact ⟨_, ht⟩

/-- The swap puts the staged version into its place. If it fails, the directories
are those before the backup, but for the staging directory. -/
theorem swap_spec {staging destination copyDir : Path} {content : Directory}
    {backup : Option Path} (hdisk : disk.Restores) (hbacked : Backed dirs destination backup)
    (hstaging : staging ≠ destination) (hcopy : copyDir ≠ destination)
    (hbackup : backup ≠ some staging) (hbackup' : backup ≠ some copyDir)
    (hcontent : dirs staging = some content) (hfree : dirs copyDir = none) :
    Ensures (swap disk uuids staging destination copyDir backup)
      (backedUp dirs destination backup)
      (fun r t => r = (destination, backup) ∧
        t = Function.update (Function.update (backedUp dirs destination backup) destination
          (some content)) staging none)
      (fun _ t => ∃ rest, t = Function.update dirs staging rest) := by
  have hstaged : backedUp dirs destination backup staging = some content :=
    (backedUp_of_ne hstaging hbackup).trans hcontent
  unfold swap
  apply ensures_bind.mpr
  apply ensures_attempt.mpr
  apply Disk.rename_spec.imp
  · intro _ t ht
    obtain ⟨moved, hmoved, -, rfl⟩ := ht
    rw [hstaged] at hmoved
    cases hmoved
    exact ensures_pure.mpr ⟨rfl, rfl⟩
  · intro renameError t ht
    obtain rfl := ht
    have hnew : backedUp dirs destination backup copyDir = none :=
      (backedUp_of_ne hcopy hbackup').trans hfree
    apply ensures_bind.mpr
    apply ensures_attempt.mpr
    apply (switchCopy_spec hstaged hcopy hnew).imp
    · intro _ t ht
      obtain rfl := ht
      apply ensures_bind.mpr
      apply ensures_attempt.mpr
      apply Disk.removeDirAll_spec.imp
      · intro _ t ht
        exact ensures_pure.mpr ⟨rfl, ht⟩
      · intro cleanupError t ht
        obtain ⟨rest, rfl⟩ := ht
        have hswapped : Swapped (Function.update dirs staging rest) ⟨destination, backup, false⟩
            content (Function.update (Function.update (backedUp dirs destination backup)
              destination (some content)) staging rest) := by
          refine ⟨rfl, hbacked.update hstaging hbackup, ?_⟩
          rw [backedUp_update hstaging hbackup, Function.update_comm hstaging]
        apply (undoSwitch_spec hdisk hswapped).imp (fun _ _ => id)
        intro _ _ ht
        exact ⟨rest, ht⟩
    · intro copyError t ht
      obtain ⟨rest, rfl⟩ := ht
      apply (undoBackup_spec hdisk hbacked hcopy hbackup' hfree).imp (fun _ _ => id)
      intro _ _ ht
      exact ⟨dirs staging, by rw [ht, Function.update_eq_self]⟩

/-- From a fresh staging directory: the version is swapped, or nothing but the
staging directory has changed. -/
theorem stageAndSwap_spec {roots : Roots} {m : PluginManifest} {empty : Directory}
    (hdisk : disk.Restores) (hfresh : roots.Fresh uuids m dirs)
    (hstaging : dirs (roots.stagingDir uuids m) = none) :
    Ensures (stageAndSwap parsers disk archive roots uuids m)
      (Function.update dirs (roots.stagingDir uuids m) (some empty))
      (fun r t => archive.extract = .ok () ∧ checkStaged parsers m archive.extracted = .ok () ∧
        r.1 = roots.destination m ∧ Swapped dirs ⟨r.1, r.2, false⟩ archive.extracted t)
      (fun _ t => ∃ rest, t = Function.update dirs (roots.stagingDir uuids m) rest) := by
  obtain ⟨hnodup, hfree⟩ := hfresh
  simp only [List.nodup_cons, List.mem_cons, List.not_mem_nil, or_false, not_or] at hnodup
  obtain ⟨⟨hstagingNe, hbackupNe, hcopyNe⟩, ⟨hstagingBackup, hstagingCopy⟩, hbackupCopy, -, -⟩ :=
    hnodup
  unfold stageAndSwap
  apply Ensures.bind stage_spec
  · intro _ t ht
    exact ⟨_, ht.trans (Function.update_idem _ _ _)⟩
  intro _ t ht
  obtain ⟨hextract, hcheck, rfl⟩ := ht
  rw [Function.update_idem]
  apply Ensures.bind Disk.createDirAll_spec.mapError
  · intro _ t ht
    exact ⟨_, ht⟩
  intro _ t ht
  obtain rfl := ht
  apply Ensures.bind (backUp_spec (Ne.symm hbackupNe))
  · intro _ t ht
    exact ⟨_, ht⟩
  intro replaced t ht
  obtain ⟨hreplaced, hbacked, rfl⟩ := ht
  have hreplacedStaging : replaced ≠ some (roots.stagingDir uuids m) := by
    rcases hreplaced with rfl | rfl
    · exact (Option.some_ne_none _).symm
    · exact fun h => hstagingBackup (Option.some.inj h).symm
  have hreplacedCopy : replaced ≠ some (roots.copyDir uuids m) := by
    rcases hreplaced with rfl | rfl
    · exact (Option.some_ne_none _).symm
    · exact fun h => hbackupCopy (Option.some.inj h)
  have hbefore : Backed dirs (roots.destination m) replaced := by
    rw [← Function.update_eq_self (roots.stagingDir uuids m) dirs, ← Function.update_idem]
    exact hbacked.update (Ne.symm hstagingNe) hreplacedStaging
  apply (swap_spec hdisk hbacked (Ne.symm hstagingNe) (Ne.symm hcopyNe) hreplacedStaging
    hreplacedCopy (Function.update_self _ _ _)
    ((Function.update_of_ne (Ne.symm hstagingCopy) _ _).trans hfree)).imp
  · intro r t ht
    obtain ⟨rfl, rfl⟩ := ht
    refine ⟨hextract, hcheck, rfl, rfl, hbefore, ?_⟩
    have hgone : backedUp dirs (roots.destination m) replaced (roots.stagingDir uuids m) = none :=
      (backedUp_of_ne (Ne.symm hstagingNe) hreplacedStaging).trans hstaging
    rw [backedUp_update (Ne.symm hstagingNe) hreplacedStaging, Function.update_comm hstagingNe,
      Function.update_idem, ← hgone, Function.update_eq_self]
  · intro _ t ht
    obtain ⟨rest, rfl⟩ := ht
    exact ⟨rest, Function.update_idem _ _ _⟩

variable [LT V] [DecidableLT V]

/-- An install that succeeds has swapped in the checked contents of the archive. One
that fails leaves every directory as it was. -/
theorem installUseful_spec {opts : InstallOptions} {roots : Roots} (hdisk : disk.Restores)
    (hfresh : ∀ m sha256, preflight parsers archive opts = .ok (m, sha256) →
      roots.Fresh uuids m dirs) :
    Ensures (installUseful parsers disk archive opts roots uuids) dirs
      (fun outcome t =>
        preflight parsers archive opts = .ok (outcome.manifest, outcome.sha256) ∧
        checkStaged parsers outcome.manifest archive.extracted = .ok () ∧
        outcome.installDir = roots.destination outcome.manifest ∧
        outcome.installDir = outcome.transaction.destination ∧
        Swapped dirs outcome.transaction archive.extracted t)
      (fun _ t => t = dirs) := by
  unfold installUseful
  apply ensures_bind.mpr
  apply ensures_ofExcept.mpr
  refine ⟨?_, fun _ _ => rfl⟩
  intro checked hpreflight
  obtain ⟨m, sha256⟩ := checked
  apply Ensures.bind Disk.createDirAll_spec.mapError fun _ _ => id
  intro _ t ht
  obtain rfl := ht
  apply Ensures.bind Disk.createDir_spec.mapError fun _ _ => id
  intro _ t ht
  obtain ⟨hstaging, rfl⟩ := ht
  apply ensures_bind.mpr
  apply ensures_attempt.mpr
  apply (stageAndSwap_spec hdisk (hfresh m sha256 hpreflight) hstaging).imp
  · intro r t ht
    obtain ⟨-, hcheck, hdestination, hswapped⟩ := ht
    exact ensures_pure.mpr ⟨hpreflight, hcheck, hdestination, rfl, hswapped⟩
  · intro e t ht
    obtain ⟨rest, rfl⟩ := ht
    apply Ensures.bind (removeExisting_spec (hdisk .rollbackStaging (by decide))) nofun
    intro _ t ht
    obtain ⟨-, rfl⟩ := ht
    apply ensures_fail.mpr
    rw [Function.update_idem, ← hstaging, Function.update_eq_self]

end Install

end Useful.Plugins
