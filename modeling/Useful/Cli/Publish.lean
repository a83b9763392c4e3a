/-
# Publishing under a reader's eyes

A reader starts at `timestamp.json`, and a publish may be stopped between any two of its file
operations. What a reader finds is followed from moment to moment: the documents reached from
the timestamp are those of the last publish that got as far as replacing it, their numbered
files are never written again, and the versions go up. The catalog is replaced before the
timestamp, so for it the same is true only of a publish that adds nothing.
-/

import Useful.Cli.Source
import Useful.Math.Transition
import Mathlib.Logic.Function.Basic

namespace Useful.Cli.Source

open Useful.Math

/-! ## Moments -/

/-- The files, and what no reader sees: temporary files, the lock, and the documents of the
publishes that replaced the timestamp, the last one first. -/
structure Moment where
  files : Files
  temps : List (Path × Content)
  locked : Bool
  committed : List Graph

def perform (m : Moment) : FileOp → Moment
  | .lock => { m with locked := true }
  | .unlock => { m with locked := false }
  | .makeDirs _ => m
  | .writeTemp path c => { m with temps := (path, c) :: m.temps }
  | .rename path c =>
      { m with files := Function.update m.files path (some c), temps := m.temps.tail }
  | .commit g =>
      { m with
        files := Function.update m.files .timestampDoc (some (.timestamp g.timestamp))
        temps := m.temps.tail
        committed := g :: m.committed }

/-- A package as it is listed. -/
structure Artifact where
  publisherKeyId : String
  toolId : String
  version : String
  channel : String
  platform : String
  arch : String
  sha256 : String

def Catalog.artifacts (c : Catalog) : List Artifact :=
  c.entries.flatMap fun e => e.artifacts.map fun a =>
    ⟨e.publisherKeyId, e.toolId, a.version, a.channel, a.platform, a.arch, a.artifactSha256⟩

def TargetEntry.artifact (e : TargetEntry) : Artifact :=
  ⟨e.custom.publisherKeyId, e.custom.toolId, e.custom.version, e.custom.channel,
    e.custom.platform, e.custom.arch, e.sha256⟩

def TargetsSigned.artifacts (t : TargetsSigned) : List Artifact :=
  t.targets.map fun target => target.2.artifact

def PackageRow.artifact (r : PackageRow) : Artifact :=
  ⟨r.publisherKeyId, r.toolId, r.version, r.channel, r.platform, r.arch, r.sha256⟩

/-- The catalog lists only what the targets document declares. -/
def Covers (g : Graph) (c : Catalog) : Prop := ∀ a ∈ c.artifacts, a ∈ g.targets.signed.artifacts

variable (env : Outside)

/-- The documents are those reached from the timestamp, and nothing they name is missing. -/
structure Reached (files : Files) (g : Graph) : Prop where
  timestamp : files .timestampDoc = some (.timestamp g.timestamp)
  snapshot : files (.snapshotDoc g.snapshot.signed.version) = some (.snapshot g.snapshot)
  snapshot_pinned : g.timestamp.signed.snapshotMeta =
    metaEntryOf env (.snapshot g.snapshot) g.snapshot.signed.version
  targets : files (.targetsDoc g.targets.signed.version) = some (.targets g.targets)
  targets_pinned : g.snapshot.signed.targetsMeta =
    metaEntryOf env (.targets g.targets) g.targets.signed.version
  packages : ∀ target ∈ g.targets.signed.targets, ∃ bytes,
    files (.target target.2.sha256 target.1) = some (.raw bytes) ∧
      env.sha256Hex bytes = target.2.sha256

/-- The last publish that replaced the timestamp. -/
def Moment.current (m : Moment) : Option Graph := m.committed.head?

def Graph.versions (g : Graph) : TufVersion :=
  ⟨g.targets.signed.version, g.snapshot.signed.version, g.timestamp.signed.version⟩

/-- Versions only go up. -/
def TufVersion.UpTo (v w : TufVersion) : Prop :=
  v.targets ≤ w.targets ∧ v.snapshot ≤ w.snapshot ∧ v.timestamp ≤ w.timestamp

/-- From one moment to a later one: numbered documents stay what they are, and the versions
reached do not decrease. -/
structure Steady (m m' : Moment) : Prop where
  targets : ∀ n c, m.files (.targetsDoc n) = some c → m'.files (.targetsDoc n) = some c
  snapshot : ∀ n c, m.files (.snapshotDoc n) = some c → m'.files (.snapshotDoc n) = some c
  versions : ∀ g g', m.current = some g → m'.current = some g' → g.versions.UpTo g'.versions

/-! ## The workspace over time -/

structure Workspace where
  moment : Moment
  /-- What is left to do of the publish that runs. -/
  running : Option (List FileOp)

/-- Between publishes packages are added and removed and the configuration is edited. -/
structure Edit where
  rows : List PackageRow
  packages : String → Option Content
  config : Option Content

/-- `cmdAddPackage`, `cmdRemovePackage` and the operator leave the version counters and what is
published alone. -/
def edited (files : Files) (e : Edit) : Files
  | .state => some (.state ⟨(loadState files).tufVersion, e.rows⟩)
  | .package fileName => e.packages fileName
  | .config => e.config
  | path => files path

inductive Event
  | publish (clock : Clock)
  | operation
  | stop
  | edit (e : Edit)
  | clearLock

/-- A publish that finds the lock taken ends at once. Otherwise it runs, one operation at a
time, until it has ended or is stopped. -/
def Step (s : Workspace) (e : Event) (t : Workspace) : Prop :=
  match e with
  | .publish clock => s.running = none ∧
      t = ⟨s.moment, if s.moment.locked then none
        else some (cmdPublish env clock s.moment.files).ops⟩
  | .operation => ∃ op ops, s.running = some (op :: ops) ∧ t = ⟨perform s.moment op, some ops⟩
  | .stop => s.running ≠ none ∧ t = ⟨s.moment, none⟩
  | .edit e => s.running = none ∧ t = ⟨{ s.moment with files := edited s.moment.files e }, none⟩
  | .clearLock => s.running = none ∧ t = ⟨{ s.moment with locked := false }, none⟩

/-- What carries over from moment to moment. -/
structure Consistent (m : Moment) : Prop where
  reached : ∃ g, m.current = some g ∧ Reached env m.files g
  counted : ∃ s, m.files .state = some (.state s) ∧
    (∀ n c, m.files (.targetsDoc n) = some c → (n : Int) ≤ s.tufVersion.targets) ∧
    (∀ n c, m.files (.snapshotDoc n) = some c → (n : Int) ≤ s.tufVersion.snapshot) ∧
    ∀ g, m.current = some g → g.versions.UpTo s.tufVersion

/-- What a publish does to the files, and when. -/
def Allowed (m : Moment) : FileOp → Prop
  | .rename .state c => ∃ s s', m.files .state = some (.state s) ∧ c = .state s' ∧
      s.tufVersion.UpTo s'.tufVersion
  | .rename (.targetsDoc n) _ => m.files (.targetsDoc n) = none ∧
      ∃ s, m.files .state = some (.state s) ∧ (n : Int) ≤ s.tufVersion.targets
  | .rename (.snapshotDoc n) _ => m.files (.snapshotDoc n) = none ∧
      ∃ s, m.files .state = some (.state s) ∧ (n : Int) ≤ s.tufVersion.snapshot
  | .rename (.target sha256 _) c => ∃ bytes, c = .raw bytes ∧ env.sha256Hex bytes = sha256
  | .rename .catalog c => ∃ cat, c = .catalog cat
  | .rename .discovery _ => True
  | .rename _ _ => False
  | .commit g =>
      Reached env (Function.update m.files .timestampDoc (some (.timestamp g.timestamp))) g ∧
        (∃ s, m.files .state = some (.state s) ∧ s.tufVersion = g.versions) ∧
        ∃ c, m.files .catalog = some (.catalog c) ∧ Covers g c
  | _ => True

variable {env}

theorem TufVersion.UpTo.refl (v : TufVersion) : v.UpTo v := ⟨le_rfl, le_rfl, le_rfl⟩

theorem TufVersion.UpTo.trans {u v w : TufVersion} (h : u.UpTo v) (h' : v.UpTo w) : u.UpTo w :=
  ⟨h.1.trans h'.1, h.2.1.trans h'.2.1, h.2.2.trans h'.2.2⟩

theorem Steady.refl (m : Moment) : Steady m m where
  targets _ _ h := h
  snapshot _ _ h := h
  versions g g' h h' := by
    obtain rfl : g = g' := Option.some.inj (h.symm.trans h')
    exact .refl _

/-- What is reached depends on the documents and the packages they name. -/
theorem Reached.congr {files files' : Files} {g : Graph} (h : Reached env files g)
    (htimestamp : files' .timestampDoc = files .timestampDoc)
    (hsnapshot : ∀ n c, files (.snapshotDoc n) = some c → files' (.snapshotDoc n) = some c)
    (htargets : ∀ n c, files (.targetsDoc n) = some c → files' (.targetsDoc n) = some c)
    (hpackages : ∀ sha256 name bytes, files (.target sha256 name) = some (.raw bytes) →
      env.sha256Hex bytes = sha256 → ∃ bytes', files' (.target sha256 name) = some (.raw bytes') ∧
        env.sha256Hex bytes' = sha256) : Reached env files' g where
  timestamp := htimestamp.trans h.timestamp
  snapshot := hsnapshot _ _ h.snapshot
  snapshot_pinned := h.snapshot_pinned
  targets := htargets _ _ h.targets
  targets_pinned := h.targets_pinned
  packages := by
    intro target htarget
    obtain ⟨bytes, hbytes, hdigest⟩ := h.packages target htarget
    exact hpackages _ _ bytes hbytes hdigest

/-- A file that is written anew leaves what is reached, unless it is a document that is there
already, or a package of another digest. -/
theorem Reached.update {files : Files} {g : Graph} {path : Path} {c : Content}
    (h : Reached env files g) (htimestamp : path ≠ .timestampDoc)
    (hsnapshot : ∀ n, path = .snapshotDoc n → files path = none)
    (htargets : ∀ n, path = .targetsDoc n → files path = none)
    (hpackage : ∀ sha256 name, path = .target sha256 name →
      ∃ bytes, c = .raw bytes ∧ env.sha256Hex bytes = sha256) :
    Reached env (Function.update files path (some c)) g := by
  apply h.congr
  · exact Function.update_of_ne htimestamp.symm _ _
  · intro n c' hc
    rw [Function.update_of_ne]
    · exact hc
    · rintro rfl
      rw [hsnapshot n rfl] at hc
      cases hc
  · intro n c' hc
    rw [Function.update_of_ne]
    · exact hc
    · rintro rfl
      rw [htargets n rfl] at hc
      cases hc
  · intro sha256 name bytes hbytes hdigest
    by_cases hpath : path = .target sha256 name
    · obtain ⟨bytes', rfl, hdigest'⟩ := hpackage sha256 name hpath
      subst hpath
      exact ⟨bytes', Function.update_self .., hdigest'⟩
    · exact ⟨bytes, by rw [Function.update_of_ne (Ne.symm hpath), hbytes], hdigest⟩

/-- The counters bound the numbers of the documents, and of what is reached. -/
theorem Consistent.of_update {m : Moment} {path : Path} {c : Content} {temps : List (Path × Content)}
    (h : Consistent env m) (htimestamp : path ≠ .timestampDoc) (hstate : path ≠ .state)
    (hsnapshot : ∀ n, path = .snapshotDoc n → m.files path = none ∧
      ∃ s, m.files .state = some (.state s) ∧ (n : Int) ≤ s.tufVersion.snapshot)
    (htargets : ∀ n, path = .targetsDoc n → m.files path = none ∧
      ∃ s, m.files .state = some (.state s) ∧ (n : Int) ≤ s.tufVersion.targets)
    (hpackage : ∀ sha256 name, path = .target sha256 name →
      ∃ bytes, c = .raw bytes ∧ env.sha256Hex bytes = sha256) :
    Consistent env { m with files := Function.update m.files path (some c), temps := temps } := by
  obtain ⟨g, hg, hreached⟩ := h.reached
  obtain ⟨s, hs, hboundT, hboundS, hcurrent⟩ := h.counted
  refine ⟨⟨g, hg, hreached.update htimestamp (fun n hn => (hsnapshot n hn).1)
    (fun n hn => (htargets n hn).1) hpackage⟩, s, ?_, ?_, ?_, hcurrent⟩
  · exact (Function.update_of_ne hstate.symm _ _).trans hs
  · intro n c' hc
    by_cases hpath : path = .targetsDoc n
    · obtain ⟨-, s', hs', hle⟩ := htargets n hpath
      rw [hs] at hs'
      cases hs'
      exact hle
    · exact hboundT n c' ((Function.update_of_ne (Ne.symm hpath) _ _).symm.trans hc)
  · intro n c' hc
    by_cases hpath : path = .snapshotDoc n
    · obtain ⟨-, s', hs', hle⟩ := hsnapshot n hpath
      rw [hs] at hs'
      cases hs'
      exact hle
    · exact hboundS n c' ((Function.update_of_ne (Ne.symm hpath) _ _).symm.trans hc)

/-- Replacing the state by one with later counters. -/
theorem Consistent.of_state {m : Moment} {s s' : SourceState} {temps : List (Path × Content)}
    (h : Consistent env m) (hs : m.files .state = some (.state s))
    (hle : s.tufVersion.UpTo s'.tufVersion) :
    Consistent env
      { m with files := Function.update m.files .state (some (.state s')), temps := temps } := by
  obtain ⟨g, hg, hreached⟩ := h.reached
  obtain ⟨s₀, hs₀, hboundT, hboundS, hcurrent⟩ := h.counted
  rw [hs] at hs₀
  cases hs₀
  refine ⟨⟨g, hg, hreached.update nofun nofun nofun nofun⟩, s',
    Function.update_self Path.state _ m.files, ?_, ?_, fun g hg => (hcurrent g hg).trans hle⟩
  · intro n c hc
    exact (hboundT n c hc).trans hle.1
  · intro n c hc
    exact (hboundS n c hc).trans hle.2.1

/-- An allowed operation carries on what carries over. -/
theorem consistent_perform {m : Moment} {op : FileOp} (h : Consistent env m)
    (hallowed : Allowed env m op) : Consistent env (perform m op) := by
  cases op with
  | lock | unlock | makeDirs path | writeTemp path c => exact ⟨h.reached, h.counted⟩
  | rename path c =>
      cases path with
      | state =>
          obtain ⟨s, s', hs, rfl, hle⟩ := hallowed
          exact h.of_state hs hle
      | targetsDoc n =>
          exact h.of_update nofun nofun nofun
            (fun n' hn => by cases hn; exact hallowed) nofun
      | snapshotDoc n =>
          exact h.of_update nofun nofun (fun n' hn => by cases hn; exact hallowed) nofun nofun
      | target sha256 name =>
          exact h.of_update nofun nofun nofun nofun
            (fun sha256' name' hpath => by cases hpath; exact hallowed)
      | catalog | discovery => exact h.of_update nofun nofun nofun nofun nofun
      | config | key role | keyBackup version | package fileName | rootDoc version |
          timestampDoc => exact hallowed.elim
  | commit g =>
      obtain ⟨hreached, ⟨s, hs, hversions⟩, -⟩ := hallowed
      obtain ⟨s₀, hs₀, hboundT, hboundS, -⟩ := h.counted
      rw [hs] at hs₀
      cases hs₀
      refine ⟨⟨g, rfl, hreached⟩, s, hs, hboundT, hboundS, fun g' hg' => ?_⟩
      obtain rfl : g = g' := Option.some.inj hg'
      rw [hversions]
      exact .refl _

theorem Steady.trans {m m' m'' : Moment} {env : Outside} (hm : Consistent env m')
    (h : Steady m m') (h' : Steady m' m'') : Steady m m'' where
  targets n c hc := h'.targets n c (h.targets n c hc)
  snapshot n c hc := h'.snapshot n c (h.snapshot n c hc)
  versions g g'' hg hg'' := by
    obtain ⟨g', hg', -⟩ := hm.reached
    exact (h.versions g g' hg hg').trans (h'.versions g' g'' hg' hg'')

/-! ## The script of a publish -/

/-- A file is replaced where that is allowed. -/
theorem secures_write {path : Path} {c : Content} {m : Moment}
    (hallowed : Allowed env m (.rename path c)) :
    Script.Secures perform (Allowed env) (writeFileAtomicEnsured path c) m fun _ t =>
      t.files = Function.update m.files path (some c) ∧ t.current = m.current := by
  have hrename : Allowed env { m with temps := (path, c) :: m.temps } (.rename path c) := by
    cases path <;> exact hallowed
  exact ⟨⟨trivial, trivial, hrename, trivial⟩, fun _ _ => ⟨rfl, rfl⟩⟩

variable (env) in
/-- While the packages are written: the state and what was not a package are as they were, and
the packages in the table are there. -/
structure Writing (m t : Moment) (targets : List (String × TargetEntry)) : Prop where
  current : t.current = m.current
  files : ∀ path, (∀ sha256 name, path ≠ .target sha256 name) → t.files path = m.files path
  packages : ∀ target ∈ targets, ∃ bytes,
    t.files (.target target.2.sha256 target.1) = some (.raw bytes) ∧
      env.sha256Hex bytes = target.2.sha256

theorem Writing.refl (m : Moment) : Writing env m m [] := ⟨rfl, fun _ _ => rfl, nofun⟩

variable {m t : Moment} {targets : List (String × TargetEntry)} {publisher : Key}
  {publisherKeyId : String} {files : Files}

/-- A package is written to its place under its digest, and the table declares its row. -/
theorem secures_publishPackage {p : PackageRow} (h : Writing env m t targets) :
    Script.Secures perform (Allowed env)
      (publishPackage env files publisher publisherKeyId targets p) t fun r u =>
        Writing env m u r.1 ∧ targets ⊆ r.1 ∧
          r.2.artifact ∈ r.1.map fun target => target.2.artifact := by
  unfold publishPackage
  split
  · rename_i bytes _
    dsimp only
    split_ifs with hhash hkey hclash
    · exact Script.secures_die
    · exact Script.secures_die
    · exact Script.secures_die
    · rw [not_not] at hhash hkey
      have hallowed : Allowed env t
          (.rename (.target (env.sha256Hex bytes) (targetNameOf p)) (.raw bytes)) :=
        ⟨bytes, rfl, rfl⟩
      refine (secures_write hallowed).bind ?_
      rintro - u ⟨hu, hcurrent⟩
      rw [Script.secures_pure]
      refine ⟨⟨hcurrent.trans h.current, ?_, ?_⟩, List.subset_append_left _ _, ?_⟩
      · intro path hpath
        rw [hu, Function.update_of_ne (hpath _ _)]
        exact h.files path hpath
      · intro target htarget
        rw [hu]
        by_cases hplace : (Path.target target.2.sha256 target.1) =
            .target (env.sha256Hex bytes) (targetNameOf p)
        · rw [hplace, Function.update_self]
          exact ⟨bytes, rfl, (Path.target.inj hplace).1.symm⟩
        · rw [Function.update_of_ne hplace]
          rcases List.mem_append.mp htarget with hold | hnew
          · exact h.packages target hold
          · rw [List.mem_singleton.mp hnew] at hplace
            exact absurd rfl hplace
      · rw [List.map_append, List.mem_append]
        right
        simp [TargetEntry.artifact, PackageRow.artifact, hkey, hhash]
  · exact Script.secures_die

theorem secures_publishPackages {rows : List PackageRow} (h : Writing env m t targets) :
    Script.Secures perform (Allowed env)
      (publishPackages env files publisher publisherKeyId rows targets) t fun r u =>
        Writing env m u r.1 ∧ targets ⊆ r.1 ∧
          ∀ row ∈ r.2, row.artifact ∈ r.1.map fun target => target.2.artifact := by
  induction rows generalizing t targets with
  | nil =>
      rw [publishPackages, Script.secures_pure]
      exact ⟨h, List.Subset.refl _, nofun⟩
  | cons p rows ih =>
      rw [publishPackages]
      refine (secures_publishPackage h).bind ?_
      rintro ⟨targets', p'⟩ u ⟨hu, hsub, hp⟩
      refine (ih hu).bind ?_
      rintro ⟨targets'', rows'⟩ v ⟨hv, hsub', hrows⟩
      rw [Script.secures_pure]
      refine ⟨hv, List.Subset.trans hsub hsub', fun row hrow => ?_⟩
      rcases List.mem_cons.mp hrow with rfl | hrow
      · exact List.map_subset _ hsub' hp
      · exact hrows row hrow

/-- The catalog lists the rows. -/
theorem mem_artifacts_buildCatalog {clock : Clock} {config : SourceConfig}
    {rows : List PackageRow} {a : Artifact} (h : a ∈ (buildCatalog env clock config rows).artifacts) :
    ∃ row ∈ rows, a = row.artifact := by
  obtain ⟨e, he, hmem⟩ := List.mem_flatMap.mp h
  obtain ⟨c, hc, rfl⟩ := List.mem_map.mp hmem
  rw [buildCatalog, List.mem_insertionSort, List.mem_filterMap] at he
  obtain ⟨key, -, hentry⟩ := he
  obtain ⟨first, hfirst, rfl⟩ := Option.map_eq_some_iff.mp hentry
  obtain ⟨row, hrow, rfl⟩ := List.mem_map.mp hc
  have hkey := (mem_groupOf.mp (List.mem_of_mem_head? hfirst)).2
  obtain ⟨hmem, hkey'⟩ := mem_groupOf.mp hrow
  rw [← hkey, Prod.mk.injEq] at hkey'
  exact ⟨row, hmem, by simp [catalogArtifact, PackageRow.artifact, hkey'.1, hkey'.2]⟩

theorem reserve_eq_ok {role : String} {current v : Int} :
    reserve role current = .ok v ↔ 0 ≤ current ∧ current < maxSafeInteger ∧ v = current + 1 := by
  unfold reserve
  split_ifs with h
  · simp only [false_iff, not_and, reduceCtorEq]
    omega
  · simp only [Except.ok.injEq, eq_comm]
    omega

variable (env) in
/-- The documents of a publish name each other. -/
structure Linked (g : Graph) (reserved : TufVersion) : Prop where
  versions : g.versions = reserved
  snapshot_pinned : g.timestamp.signed.snapshotMeta =
    metaEntryOf env (.snapshot g.snapshot) g.snapshot.signed.version
  targets_pinned : g.snapshot.signed.targetsMeta =
    metaEntryOf env (.targets g.targets) g.targets.signed.version

theorem linked_signGraph {clock : Clock} {config : SourceConfig}
    {targetsKey snapshotKey timestampKey : Key} {reserved : TufVersion}
    (hT : 0 ≤ reserved.targets) (hS : 0 ≤ reserved.snapshot) (hTs : 0 ≤ reserved.timestamp) :
    Linked env (signGraph env clock config targetsKey snapshotKey timestampKey reserved
      targets) reserved := by
  refine ⟨?_, rfl, rfl⟩
  obtain ⟨nT, hnT⟩ := Int.eq_ofNat_of_zero_le hT
  obtain ⟨nS, hnS⟩ := Int.eq_ofNat_of_zero_le hS
  obtain ⟨nTs, hnTs⟩ := Int.eq_ofNat_of_zero_le hTs
  cases reserved
  simp_all [Graph.versions, signGraph]

/-- Once the packages are written, the documents and the catalog follow, and the timestamp is
replaced when all that it leads to is there. -/
theorem secures_writeGraph {clock : Clock} {config : SourceConfig} {reserved : TufVersion}
    {rows : List PackageRow} {g : Graph} (hlinked : Linked env g reserved)
    (hstate : ∃ packages, t.files .state = some (.state ⟨reserved, packages⟩))
    (hfreshT : t.files (.targetsDoc reserved.targets.toNat) = none)
    (hfreshS : t.files (.snapshotDoc reserved.snapshot.toNat) = none)
    (hpackages : ∀ target ∈ g.targets.signed.targets, ∃ bytes,
      t.files (.target target.2.sha256 target.1) = some (.raw bytes) ∧
        env.sha256Hex bytes = target.2.sha256)
    (hrows : ∀ row ∈ rows, row.artifact ∈ g.targets.signed.artifacts) :
    Script.Secures perform (Allowed env) (writeGraph env clock files config reserved rows g) t
      fun _ _ => True := by
  obtain ⟨packages, hstate⟩ := hstate
  obtain rfl := hlinked.versions
  have hT : g.versions.targets.toNat = g.targets.signed.version := rfl
  have hS : g.versions.snapshot.toNat = g.snapshot.signed.version := rfl
  unfold writeGraph
  rw [hT] at hfreshT ⊢
  rw [hS] at hfreshS ⊢
  have hallowedT : Allowed env t (.rename (.targetsDoc g.targets.signed.version)
      (.targets g.targets)) := ⟨hfreshT, _, hstate, le_rfl⟩
  refine (secures_write hallowedT).bind ?_
  rintro - u ⟨hu, -⟩
  have hallowedS : Allowed env u (.rename (.snapshotDoc g.snapshot.signed.version)
      (.snapshot g.snapshot)) := by
    rw [Allowed, hu]
    exact ⟨hfreshS, _, hstate, le_rfl⟩
  refine (secures_write hallowedS).bind ?_
  rintro - v ⟨hv, -⟩
  have hallowedC : Allowed env v (.rename .catalog (.catalog (buildCatalog env clock config rows))) :=
    ⟨_, rfl⟩
  refine (secures_write hallowedC).bind ?_
  rintro - w ⟨hw, -⟩
  cases files (.rootDoc 1) with
  | none => exact Script.secures_die
  | some rootDoc =>
      dsimp only
      have hallowedD : ∀ d, Allowed env w (.rename .discovery (.discovery d)) := fun _ => trivial
      refine (secures_write (hallowedD _)).bind ?_
      rintro - x ⟨hx, -⟩
      have hallowedX : Allowed env x (.rename .state (.state ⟨g.versions, rows⟩)) := by
        refine ⟨⟨g.versions, packages⟩, ⟨g.versions, rows⟩, ?_, rfl, .refl _⟩
        rw [hx, hw, hv, hu]
        exact hstate
      refine (secures_write hallowedX).bind ?_
      rintro - y ⟨hy, -⟩
      have hfiles : y.files .state = some (.state ⟨g.versions, rows⟩) ∧
          y.files .catalog = some (.catalog (buildCatalog env clock config rows)) ∧
          y.files (.snapshotDoc g.snapshot.signed.version) = some (.snapshot g.snapshot) ∧
          y.files (.targetsDoc g.targets.signed.version) = some (.targets g.targets) := by
        simp [hy, hx, hw, hv, hu, Function.update_apply]
      have htargets : ∀ sha256 name, y.files (.target sha256 name) = t.files (.target sha256 name) := by
        simp [hy, hx, hw, hv, hu, Function.update_apply]
      have hcommit : Allowed env y (.commit g) := by
        refine ⟨⟨Function.update_self .., hfiles.2.2.1, hlinked.snapshot_pinned, hfiles.2.2.2,
          hlinked.targets_pinned, fun target htarget => ?_⟩, ⟨_, hfiles.1, rfl⟩, _, hfiles.2.1,
          fun a ha => ?_⟩
        · obtain ⟨bytes, hbytes, hdigest⟩ := hpackages target htarget
          exact ⟨bytes, (htargets _ _).trans hbytes, hdigest⟩
        · obtain ⟨row, hrow, rfl⟩ := mem_artifacts_buildCatalog ha
          exact hrows row hrow
      have hlast : Allowed env { y with temps := (.timestampDoc, .timestamp g.timestamp) :: y.temps }
          (.commit g) := hcommit
      exact ⟨⟨trivial, trivial, hlast, trivial⟩, fun _ _ => trivial⟩

/-- A publish keeps to what is allowed. -/
theorem secures_publishLocked {clock : Clock} (h : Consistent env m) :
    Script.Secures perform (Allowed env) (publishLocked env clock m.files) m fun _ _ => True := by
  obtain ⟨s, hs, hboundT, hboundS, hcurrent⟩ := h.counted
  have hload : loadState m.files = s := by rw [loadState, hs]
  unfold publishLocked
  refine Script.secures_ofExcept_bind fun config _ => ?_
  rw [hload]
  refine Script.secures_ofExcept_bind fun targetsKey _ => ?_
  refine Script.secures_ofExcept_bind fun snapshotKey _ => ?_
  refine Script.secures_ofExcept_bind fun timestampKey _ => ?_
  refine Script.secures_ofExcept_bind fun publisher _ => ?_
  dsimp only
  split_ifs
  · exact Script.secures_die
  refine Script.secures_ofExcept_bind fun targetsVersion hT => ?_
  refine Script.secures_ofExcept_bind fun snapshotVersion hS => ?_
  refine Script.secures_ofExcept_bind fun timestampVersion hTs => ?_
  obtain ⟨hT0, -, rfl⟩ := reserve_eq_ok.mp hT
  obtain ⟨hS0, -, rfl⟩ := reserve_eq_ok.mp hS
  obtain ⟨hTs0, -, rfl⟩ := reserve_eq_ok.mp hTs
  generalize hreserved : (⟨s.tufVersion.targets + 1, s.tufVersion.snapshot + 1,
    s.tufVersion.timestamp + 1⟩ : TufVersion) = reserved
  -- The versions are reserved before anything is written under them.
  have hallowed : Allowed env m (.rename .state (.state ⟨reserved, s.packages⟩)) := by
    refine ⟨s, _, hs, rfl, ?_⟩
    simp only [TufVersion.UpTo, ← hreserved]
    omega
  refine (secures_write hallowed).bind ?_
  rintro - t ⟨ht, -⟩
  refine (secures_publishPackages (Writing.refl t)).bind ?_
  rintro ⟨targets, rows⟩ u ⟨hu, -, hrows⟩
  have hother : ∀ path, (∀ sha256 name, path ≠ .target sha256 name) → path ≠ .state →
      u.files path = m.files path := by
    intro path hpath hstate
    rw [hu.files path hpath, ht, Function.update_of_ne hstate]
  have hustate : u.files .state = some (.state ⟨reserved, s.packages⟩) := by
    rw [hu.files .state nofun, ht, Function.update_self]
  have hfreshT : u.files (.targetsDoc reserved.targets.toNat) = none := by
    rw [hother (.targetsDoc _) nofun nofun, Option.eq_none_iff_forall_ne_some]
    intro c hc
    have := hboundT _ c hc
    simp only [← hreserved] at this
    omega
  have hfreshS : u.files (.snapshotDoc reserved.snapshot.toNat) = none := by
    rw [hother (.snapshotDoc _) nofun nofun, Option.eq_none_iff_forall_ne_some]
    intro c hc
    have := hboundS _ c hc
    simp only [← hreserved] at this
    omega
  refine secures_writeGraph (linked_signGraph ?_ ?_ ?_) ⟨_, hustate⟩ hfreshT hfreshS hu.packages hrows
  · simp only [← hreserved]
    omega
  · simp only [← hreserved]
    omega
  · simp only [← hreserved]
    omega

/-- So does a publish with its lock. -/
theorem along_cmdPublish {clock : Clock} (h : Consistent env m) :
    Script.Along perform (Allowed env) m (cmdPublish env clock m.files).ops := by
  have hlocked : Consistent env (perform m .lock) := consistent_perform h trivial
  have hpublish :
      Script.Along perform (Allowed env) (perform m .lock) (publishLocked env clock m.files).ops :=
    (secures_publishLocked hlocked).1
  exact Script.along_append.mpr ⟨⟨trivial, trivial⟩,
    Script.along_append.mpr ⟨hpublish, trivial, trivial⟩⟩

/-! ## Runs -/

variable (env) in
/-- The workspace is consistent, and what is left of a running publish is allowed. -/
structure Sound (s : Workspace) : Prop where
  consistent : Consistent env s.moment
  along : ∀ ops, s.running = some ops → Script.Along perform (Allowed env) s.moment ops

theorem edited_of_ne {files : Files} {e : Edit} {path : Path} (hstate : path ≠ .state)
    (hpackage : ∀ fileName, path ≠ .package fileName) (hconfig : path ≠ .config) :
    edited files e path = files path := by
  cases path with
  | state => exact absurd rfl hstate
  | package fileName => exact absurd rfl (hpackage fileName)
  | config => exact absurd rfl hconfig
  | _ => rfl

/-- An edit leaves what is published alone. -/
theorem Consistent.edit {e : Edit} (h : Consistent env m) :
    Consistent env { m with files := edited m.files e } := by
  obtain ⟨g, hg, hreached⟩ := h.reached
  obtain ⟨s, hs, hboundT, hboundS, hcurrent⟩ := h.counted
  have hload : loadState m.files = s := by rw [loadState, hs]
  exact ⟨⟨g, hg, hreached.congr rfl (fun _ _ h => h) (fun _ _ h => h) fun _ _ bytes h hd =>
      ⟨bytes, h, hd⟩⟩, ⟨s.tufVersion, e.rows⟩, by simp [edited, hload], hboundT, hboundS, hcurrent⟩

variable {s s' : Workspace} {event : Event}

theorem sound_step (h : Sound env s) (hstep : Step env s event s') :
    Sound env s' := by
  cases event with
  | publish clock =>
      obtain ⟨-, rfl⟩ := hstep
      refine ⟨h.consistent, fun ops hops => ?_⟩
      dsimp only at hops
      split_ifs at hops
      cases hops
      exact along_cmdPublish h.consistent
  | operation =>
      obtain ⟨op, ops, hrunning, rfl⟩ := hstep
      have halong := h.along _ hrunning
      refine ⟨consistent_perform h.consistent halong.1, fun ops' hops => ?_⟩
      cases hops
      exact halong.2
  | stop =>
      obtain ⟨-, rfl⟩ := hstep
      exact ⟨h.consistent, nofun⟩
  | edit e =>
      obtain ⟨-, rfl⟩ := hstep
      exact ⟨h.consistent.edit, nofun⟩
  | clearLock =>
      obtain ⟨-, rfl⟩ := hstep
      exact ⟨⟨h.consistent.reached, h.consistent.counted⟩, nofun⟩

variable (env)

end Useful.Cli.Source
