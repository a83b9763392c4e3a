/-
# Unpacking an archive

`zip_safety.rs` checks the names of entries, unpacks them below a directory in the order
of the archive and reads the manifest by its name. A name is taken apart into its
components, and empty components and single dots go: several names can lead to one file,
and then the last of them writes it.
-/

import Useful.Math.FileTree
import Useful.Math.Table
import Useful.Plugins.Install

namespace Useful.Plugins

open Useful.Math Useful.Math.Program

/-! ## Paths -/

/-- How the platform reads paths: whether a letter and a colon are a drive, and which
names are one entry. -/
structure PathRule where
  drives : Bool
  key : String → String

/-- Paths without drives, names compared as they are. -/
def PathRule.plain : PathRule := ⟨false, id⟩

/-- A letter and a colon at the start. -/
def startsWithDrive (name : String) : Bool :=
  match name.toList with
  | letter :: ':' :: _ => letter.isAlpha
  | _ => false

namespace PathRule

variable (rule : PathRule)

def hasDrive (name : String) : Bool := rule.drives && startsWithDrive name

/-- `Path::is_absolute`. -/
def isAbsolute (name : String) : Bool :=
  if rule.drives then
    "//".toList.isPrefixOf name.toList ||
      (startsWithDrive name && "/".toList.isPrefixOf (name.toList.drop 2))
  else "/".toList.isPrefixOf name.toList

end PathRule

/-- The parts of a name between slashes. -/
def pathSegments (name : String) : List String :=
  (name.toList.splitOn '/').map String.ofList

/-- The segments that name an entry. -/
def normalSegments (name : String) : List String :=
  (pathSegments name).filter fun segment => segment ≠ "" ∧ segment ≠ "."

/-- `ensure_safe_relative`; the path it returns, by its segments. -/
def ensureSafeRelative (rule : PathRule) (name : String) : Except PluginError (List String) := do
  failIf (name = "") (.unsafeArchive "空路径")
  failIf ('\\' ∈ name.toList) (.unsafeArchive s!"包含反斜杠的路径: {name}")
  failIf (rule.isAbsolute name) (.unsafeArchive s!"绝对路径: {name}")
  failIf (rule.hasDrive name ∨ "/".toList.isPrefixOf name.toList)
    (.unsafeArchive s!"包含根/盘符: {name}")
  failIf (".." ∈ pathSegments name) (.unsafeArchive s!"包含 .. 穿越: {name}")
  failIf (normalSegments name = []) (.unsafeArchive s!"非法路径: {name}")
  return normalSegments name

/-- The entry that a relative path leads to. -/
def entryPath (rule : PathRule) (name : String) : List String :=
  (normalSegments name).map rule.key

/-- Joining a path whose inner segment is a drive leaves the directory. -/
def escapes (rule : PathRule) (segments : List String) : Bool := segments.any rule.hasDrive

/-! ## Archives -/

/-- What the archive reader says about an entry: its name, whether it refuses to open it,
its mode, its size as declared, its contents, and the error that ends reading them. -/
structure ZipEntry where
  name : String
  refused : Option PluginError := none
  isSymlink : Bool := false
  size : Nat
  bytes : List Nat
  broken : Option String := none

/-- The entries by name: of two with one name the reader keeps the later, in the place of
the earlier. -/
abbrev ZipArchive := Table ZipEntry ZipEntry.name

/-- The entries that the reader keeps of a directory. -/
def ZipArchive.ofDirectory (entries : List ZipEntry) : ZipArchive :=
  entries.foldl Table.put Table.empty

/-- `is_dir`. -/
def ZipEntry.isDir (e : ZipEntry) : Bool :=
  match e.name.toList.getLast? with
  | some c => c == '/' || c == '\\'
  | none => false

/-- `trim_end_matches('/')`. -/
def trimSlashes (name : String) : String :=
  String.ofList (name.toList.reverse.dropWhile (· == '/')).reverse

/-- `MAX_MANIFEST_SIZE`. -/
def maxManifestSize : Nat := 256 * 1024

/-- `read_manifest_bytes`. -/
def readManifestBytes (zip : ZipArchive) : Except PluginError (List Nat) := do
  let entry ← orFail (.manifestInvalid "缺少 manifest.json") (zip.find "manifest.json")
  failIf entry.refused.isSome (.manifestInvalid "缺少 manifest.json")
  failIf (entry.size > maxManifestSize) (.sizeExceeded entry.size maxManifestSize)
  match entry.broken with
  | some error => .error (.io error)
  | none => .ok entry.bytes

/-! ## Unpacking -/

/-- The files written so far, the sum of the declared sizes, and the number of bytes written. -/
structure Unpacking where
  tree : FileTree Node
  total : Nat
  written : Nat

/-- What the file system decides: which names it fails on, and with which texts. -/
structure UnpackOutside where
  fault : String → Option String
  notDirectory : String
  isDirectory : String

/-- There is something that is no directory. -/
def blocksDirectory : Option Node → Bool
  | none | some .directory => false
  | some _ => true

section Unpack

variable (rule : PathRule) (out : UnpackOutside)

/-- `create_dir_all` below the root. -/
def makeDirs (path : List String) : Program PluginError Unpacking PUnit := do
  if ← read fun s => path.inits.any fun dir => blocksDirectory (s.tree dir) then
    fail (.io out.notDirectory)
  else
    modify fun s => { s with
      tree := fun dir => if dir ≠ [] ∧ dir <+: path then some .directory else s.tree dir }

/-- `File::create`, and the copy into the file. -/
def writeEntry (path : List String) (e : ZipEntry) : Program PluginError Unpacking PUnit := do
  if ← read fun s => decide (s.tree path = some .directory) then
    fail (.io out.isDirectory)
  else
    modify fun s => { s with
      tree := Function.update s.tree path (some (.file e.bytes))
      written := s.written + e.bytes.length }
    match e.broken with
    | some error => fail (.io error)
    | none => pure ⟨⟩

/-- The operations that may fail for a reason outside the archive do so before they write. -/
def orUnpackFault (name : String) : Program PluginError Unpacking PUnit :=
  match out.fault name with
  | some error => fail (.io error)
  | none => pure ⟨⟩

/-- The sum of sizes, which stops at the largest 64-bit number. -/
def saturatingAdd (a b : Nat) : Nat := min (a + b) (2 ^ 64 - 1)

/-- The entry of a directory. -/
def extractDir (e : ZipEntry) : Program PluginError Unpacking PUnit := do
  let rel ← ofExcept (ensureSafeRelative rule (trimSlashes e.name))
  orUnpackFault out e.name
  if escapes rule rel then pure ⟨⟩ else makeDirs out (rel.map rule.key)

/-- The entry of a file. -/
def extractFile (maxUncompressed : Nat) (e : ZipEntry) : Program PluginError Unpacking PUnit := do
  let rel ← ofExcept (ensureSafeRelative rule e.name)
  modify fun s => { s with total := saturatingAdd s.total e.size }
  let total ← read Unpacking.total
  ofExcept (failIf (total > maxUncompressed) (.sizeExceeded total maxUncompressed))
  let name := e.name
  ofExcept (failIf (escapes rule rel) (.unsafeArchive s!"解压路径逃逸: {name}"))
  orUnpackFault out e.name
  makeDirs out (rel.map rule.key).dropLast
  writeEntry out (rel.map rule.key) e

/-- One turn of the loop. -/
def extractEntry (maxUncompressed : Nat) (e : ZipEntry) : Program PluginError Unpacking PUnit := do
  match e.refused with
  | some error => fail error
  | none =>
      let name := e.name
      ofExcept (failIf e.isSymlink (.unsafeArchive s!"包含符号链接: {name}"))
      if e.isDir then extractDir rule out e
      else extractFile rule out maxUncompressed e

/-- `extract_zip_safely` into an empty directory. -/
def extractZipSafely (maxUncompressed : Nat) (zip : ZipArchive) :
    Program PluginError Unpacking PUnit :=
  zip.rows.forM (extractEntry rule out maxUncompressed)

end Unpack

/-! ## The last of the entries that lead to a path -/

/-- The entry is written to a path. -/
def ZipEntry.LandsOn (rule : PathRule) (path : List String) (e : ZipEntry) : Prop :=
  e.isDir = false ∧ entryPath rule e.name = path

instance (rule : PathRule) (path : List String) (e : ZipEntry) :
    Decidable (e.LandsOn rule path) :=
  inferInstanceAs (Decidable (_ ∧ _))

/-- The last entry that is written to a path. -/
def lastLanding (rule : PathRule) (path : List String) : List ZipEntry → Option ZipEntry
  | [] => none
  | e :: rest =>
      match lastLanding rule path rest with
      | some last => some last
      | none => if e.LandsOn rule path then some e else none

/-- The file at a path is the one that was there, or the one the entry brings. -/
def FilesAfter (last : Option ZipEntry) (before after : Option Node) : Prop :=
  ∀ bytes, after = some (.file bytes) ↔
    match last with
    | some e => bytes = e.bytes
    | none => before = some (.file bytes)

section Results

variable {rule : PathRule} {out : UnpackOutside} {maxUncompressed : Nat} {s : Unpacking}
  {path : List String} {e : ZipEntry}

theorem ensureSafeRelative_eq_ok {name : String} {rel : List String}
    (h : ensureSafeRelative rule name = .ok rel) : rel = normalSegments name := by
  simp only [ensureSafeRelative, bind_eq_ok, pure_eq_ok] at h
  obtain ⟨_, -, _, -, _, -, _, -, _, -, _, -, h⟩ := h
  exact h.symm

/-- A directory is made only where there is no file. -/
theorem makeDirs_spec {dirs : List String} :
    Ensures (makeDirs out dirs) s
      (fun _ t => ∀ p, FilesAfter none (s.tree p) (t.tree p)) fun _ _ => True := by
  unfold makeDirs
  apply ensures_bind.mpr
  apply ensures_read.mpr
  apply ensures_ite.mpr
  refine ⟨fun _ => trivial, fun hclear => ?_⟩
  apply ensures_modify.mpr
  intro p bytes
  simp only
  split_ifs with hp
  · have hfree : blocksDirectory (s.tree p) = false := by
      by_contra hnot
      exact hclear (List.any_eq_true.mpr
        ⟨p, (List.mem_inits p dirs).mpr hp.2, by simpa using hnot⟩)
    refine ⟨nofun, fun hfile => ?_⟩
    rw [hfile] at hfree
    cases hfree
  · rfl

theorem writeEntry_spec :
    Ensures (writeEntry out path e) s
      (fun _ t => ∀ p, FilesAfter (if path = p then some e else none) (s.tree p) (t.tree p))
      fun _ _ => True := by
  unfold writeEntry
  apply ensures_bind.mpr
  apply ensures_read.mpr
  apply ensures_ite.mpr
  refine ⟨fun _ => trivial, fun _ => ?_⟩
  apply ensures_bind.mpr
  apply ensures_modify.mpr
  split
  · trivial
  apply ensures_pure.mpr
  intro p bytes
  by_cases hp : path = p
  · subst hp
    rw [if_pos rfl]
    simp only [Function.update_self, Option.some.injEq, Node.file.injEq]
    exact eq_comm
  · rw [if_neg hp]
    simp only [Function.update_of_ne (Ne.symm hp)]

theorem FilesAfter.trans {before between after : Option Node} {last last' : Option ZipEntry}
    (h : FilesAfter last before between) (h' : FilesAfter last' between after) :
    FilesAfter (last'.or last) before after := by
  intro bytes
  rw [h' bytes]
  cases last' with
  | some e => rfl
  | none => exact h bytes

/-- What is done before the file is written changes no file. -/
theorem orUnpackFault_spec {name : String} :
    Ensures (orUnpackFault out name) s (fun _ t => t = s) fun _ _ => True := by
  unfold orUnpackFault
  split
  · trivial
  · exact ensures_pure.mpr rfl

theorem extractDir_spec :
    Ensures (extractDir rule out e) s
      (fun _ t => ∀ p, FilesAfter none (s.tree p) (t.tree p)) fun _ _ => True := by
  unfold extractDir
  apply ensures_bind.mpr
  apply ensures_ofExcept.mpr
  refine ⟨fun rel _ => ?_, fun _ _ => trivial⟩
  apply Ensures.bind orUnpackFault_spec fun _ _ => id
  intro _ t ht
  rw [ht]
  apply ensures_ite.mpr
  constructor
  · intro _ p bytes
    rfl
  · intro _
    exact makeDirs_spec

theorem extractFile_spec :
    Ensures (extractFile rule out maxUncompressed e) s
      (fun _ t => ∀ p, FilesAfter (if entryPath rule e.name = p then some e else none)
        (s.tree p) (t.tree p)) fun _ _ => True := by
  unfold extractFile
  apply ensures_bind.mpr
  apply ensures_ofExcept.mpr
  refine ⟨fun rel hrel => ?_, fun _ _ => trivial⟩
  apply ensures_bind.mpr
  apply ensures_modify.mpr
  apply ensures_bind.mpr
  apply ensures_read.mpr
  apply ensures_bind.mpr
  apply ensures_ofExcept.mpr
  refine ⟨fun _ _ => ?_, fun _ _ => trivial⟩
  apply ensures_bind.mpr
  apply ensures_ofExcept.mpr
  refine ⟨fun _ _ => ?_, fun _ _ => trivial⟩
  apply Ensures.bind orUnpackFault_spec fun _ _ => id
  intro _ t ht
  rw [ht]
  apply Ensures.bind makeDirs_spec fun _ _ => id
  intro _ u hdirs
  apply writeEntry_spec.imp _ fun _ _ => id
  intro _ v hwritten p
  rw [ensureSafeRelative_eq_ok hrel] at hwritten
  have htrans := (hdirs p).trans (hwritten p)
  rwa [Option.or_none] at htrans

/-- One turn writes the file its entry leads to, and no other. -/
theorem extractEntry_spec :
    Ensures (extractEntry rule out maxUncompressed e) s
      (fun _ t => ∀ p, FilesAfter (if e.LandsOn rule p then some e else none) (s.tree p) (t.tree p))
      fun _ _ => True := by
  unfold extractEntry
  split
  · trivial
  apply ensures_bind.mpr
  apply ensures_ofExcept.mpr
  refine ⟨fun _ _ => ?_, fun _ _ => trivial⟩
  apply ensures_ite.mpr
  constructor
  · intro hdir
    apply extractDir_spec.imp _ fun _ _ => id
    intro _ t ht p
    rw [if_neg (by simp [ZipEntry.LandsOn, hdir])]
    exact ht p
  · intro hfile
    apply extractFile_spec.imp _ fun _ _ => id
    intro _ t ht p
    have hlands : e.LandsOn rule p ↔ entryPath rule e.name = p := by
      simp [ZipEntry.LandsOn, hfile]
    simp only [hlands]
    exact ht p

/-- After unpacking, a path holds the file of the last entry that leads to it. -/
theorem extractEntries_spec (entries : List ZipEntry) :
    Ensures (entries.forM (extractEntry rule out maxUncompressed)) s
      (fun _ t => ∀ p, FilesAfter (lastLanding rule p entries) (s.tree p) (t.tree p))
      fun _ _ => True := by
  induction entries generalizing s with
  | nil => exact fun _ _ => Iff.rfl
  | cons e rest ih =>
      apply Ensures.bind extractEntry_spec fun _ _ => id
      intro _ t ht
      apply ih.imp _ fun _ _ => id
      intro _ u hu p
      have htrans := (ht p).trans (hu p)
      unfold lastLanding
      cases hlast : lastLanding rule p rest with
      | none =>
          rw [hlast, Option.none_or] at htrans
          exact htrans
      | some last =>
          rw [hlast, Option.some_or] at htrans
          exact htrans

end Results

end Useful.Plugins
