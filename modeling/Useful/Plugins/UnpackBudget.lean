/-
# What unpacking writes

`extract_zip_safely` adds up the sizes that the entries declare, and copies the contents of
an entry to their end. The size an entry declares and the length of its contents are two
different things in an archive: what is written stays within the limit exactly when the
contents of the entries that are opened do. `read_manifest_bytes` compares a declared size
in the same way.
-/

import Useful.Plugins.ZipSafety

namespace Useful.Plugins

open Useful.Math Useful.Math.Program

/-! ## What is there before an entry -/

section Admission

variable (rule : PathRule) (out : UnpackOutside) (maxUncompressed : Nat) (tree : FileTree Node)

namespace ZipEntry

variable (e : ZipEntry)

/-- The directory that is made for an entry. -/
def directory : List String :=
  if e.isDir then entryPath rule (trimSlashes e.name) else (entryPath rule e.name).dropLast

/-- The entry is a directory elsewhere. -/
def Leaves : Prop := e.isDir = true ∧ escapes rule (normalSegments (trimSlashes e.name)) = true

instance : Decidable (e.Leaves rule) := inferInstanceAs (Decidable (_ ∧ _))

/-- A directory is made for the entry at a path. -/
def Makes (path : List String) : Prop :=
  ¬ e.Leaves rule ∧ path ≠ [] ∧ path <+: e.directory rule

instance (path : List String) : Decidable (e.Makes rule path) :=
  inferInstanceAs (Decidable (_ ∧ _))

end ZipEntry

/-- After some entries, there is something other than a directory at a path. -/
def HoldsFile (front : List ZipEntry) (path : List String) : Prop :=
  blocksDirectory (tree path) = true ∨ ∃ e ∈ front, e.LandsOn rule path

instance (front : List ZipEntry) (path : List String) :
    Decidable (HoldsFile rule tree front path) :=
  inferInstanceAs (Decidable (_ ∨ _))

/-- After some entries, there is a directory at a path. -/
def HoldsDirectory (front : List ZipEntry) (path : List String) : Prop :=
  tree path = some .directory ∨ ∃ e ∈ front, e.Makes rule path

instance (front : List ZipEntry) (path : List String) :
    Decidable (HoldsDirectory rule tree front path) :=
  inferInstanceAs (Decidable (_ ∨ _))

/-- The sizes that the files among some entries declare, as far as 64 bits count them. -/
def declaredTotal (front : List ZipEntry) : Nat :=
  min ((front.filter fun e => !e.isDir).map ZipEntry.size).sum (2 ^ 64 - 1)

/-- The directory of an entry can be made. -/
def HasRoom (front : List ZipEntry) (e : ZipEntry) : Prop :=
  ∀ path ∈ (e.directory rule).inits, ¬ HoldsFile rule tree front path

instance (front : List ZipEntry) (e : ZipEntry) : Decidable (HasRoom rule tree front e) :=
  inferInstanceAs (Decidable (∀ path ∈ _, _))

/-- The entry of a directory passes. -/
def AdmitsDir (front : List ZipEntry) (e : ZipEntry) : Prop :=
  (ensureSafeRelative rule (trimSlashes e.name)).isOk = true ∧ out.fault e.name = none ∧
    (e.Leaves rule ∨ HasRoom rule tree front e)

instance (front : List ZipEntry) (e : ZipEntry) : Decidable (AdmitsDir rule out tree front e) :=
  inferInstanceAs (Decidable (_ ∧ _))

/-- The entry of a file is opened for writing. -/
def AdmitsFile (front : List ZipEntry) (e : ZipEntry) : Prop :=
  (ensureSafeRelative rule e.name).isOk = true ∧
    declaredTotal (front ++ [e]) ≤ maxUncompressed ∧
    escapes rule (normalSegments e.name) = false ∧ out.fault e.name = none ∧
    HasRoom rule tree front e ∧ ¬ HoldsDirectory rule tree front (entryPath rule e.name)

instance (front : List ZipEntry) (e : ZipEntry) :
    Decidable (AdmitsFile rule out maxUncompressed tree front e) :=
  inferInstanceAs (Decidable (_ ∧ _))

/-- Every check before the contents of an entry lets it through. -/
def Admits (front : List ZipEntry) (e : ZipEntry) : Prop :=
  e.refused = none ∧ e.isSymlink = false ∧
    (e.isDir = true → AdmitsDir rule out tree front e) ∧
    (e.isDir = false → AdmitsFile rule out maxUncompressed tree front e)

instance (front : List ZipEntry) (e : ZipEntry) :
    Decidable (Admits rule out maxUncompressed tree front e) :=
  inferInstanceAs (Decidable (_ ∧ _))

/-- The files that are opened for writing, up to the first entry that ends the loop. -/
def opened (front : List ZipEntry) : List ZipEntry → List ZipEntry
  | [] => []
  | e :: rest =>
      if Admits rule out maxUncompressed tree front e then
        if e.isDir then opened (front ++ [e]) rest
        else if e.broken = none then e :: opened (front ++ [e]) rest
        else [e]
      else []

/-- The contents of these files fit in the limit. -/
def ContentsFit (entries : List ZipEntry) : Prop :=
  ((opened rule out maxUncompressed tree [] entries).map fun e => e.bytes.length).sum ≤
    maxUncompressed

/-- A manifest that is read is as short as its declared size has to be. -/
def ManifestFits (zip : ZipArchive) : Prop :=
  ∀ e, zip.find "manifest.json" = some e → e.refused = none → e.broken = none →
    e.size ≤ maxManifestSize → e.bytes.length ≤ maxManifestSize

end Admission

/-! ## One turn of the loop -/

section Turn

variable {rule : PathRule} {out : UnpackOutside} {maxUncompressed : Nat} {tree : FileTree Node}
  {front : List ZipEntry} {e : ZipEntry} {s : Unpacking} {path : List String}

/-- The state after some entries. -/
structure Follows (rule : PathRule) (tree : FileTree Node) (front : List ZipEntry)
    (s : Unpacking) : Prop where
  file : ∀ path, blocksDirectory (s.tree path) = true ↔ HoldsFile rule tree front path
  directory : ∀ path, s.tree path = some .directory ↔ HoldsDirectory rule tree front path
  total : s.total = declaredTotal front

theorem follows_nil (tree : FileTree Node) (written : Nat) :
    Follows rule tree [] ⟨tree, 0, written⟩ := by
  refine ⟨fun path => ?_, fun path => ?_, rfl⟩
  · simp [HoldsFile]
  · simp [HoldsDirectory]

theorem holdsFile_concat : HoldsFile rule tree (front ++ [e]) path ↔
    HoldsFile rule tree front path ∨ e.LandsOn rule path := by
  simp only [HoldsFile, List.mem_append, List.mem_singleton, or_and_right, exists_or,
    exists_eq_left, or_assoc]

theorem holdsDirectory_concat : HoldsDirectory rule tree (front ++ [e]) path ↔
    HoldsDirectory rule tree front path ∨ e.Makes rule path := by
  simp only [HoldsDirectory, List.mem_append, List.mem_singleton, or_and_right, exists_or,
    exists_eq_left, or_assoc]

theorem declaredTotal_concat_dir (hdir : e.isDir = true) :
    declaredTotal (front ++ [e]) = declaredTotal front := by
  simp [declaredTotal, hdir]

theorem declaredTotal_concat_file (hfile : e.isDir = false) :
    declaredTotal (front ++ [e]) = saturatingAdd (declaredTotal front) e.size := by
  simp only [declaredTotal, saturatingAdd, List.filter_append, List.map_append, List.sum_append,
    List.filter_singleton, hfile, Bool.not_false, cond_true, List.map_singleton,
    List.sum_singleton]
  omega

theorem isOk_ensureSafeRelative {name : String} {rel : List String}
    (h : ensureSafeRelative rule name = .ok rel) : (ensureSafeRelative rule name).isOk = true := by
  rw [h]
  rfl

theorem not_isOk_of_eq_error {name : String} {error : PluginError}
    (h : ensureSafeRelative rule name = .error error) :
    ¬ (ensureSafeRelative rule name).isOk = true := by
  rw [h]
  exact Bool.false_ne_true

theorem orUnpackFault_ensures {name : String} :
    Ensures (orUnpackFault out name) s (fun _ t => out.fault name = none ∧ t = s)
      (fun _ t => out.fault name ≠ none ∧ t = s) := by
  unfold orUnpackFault
  cases hfault : out.fault name with
  | none => exact ensures_pure.mpr ⟨rfl, rfl⟩
  | some error => exact ensures_fail.mpr ⟨Option.some_ne_none _, rfl⟩

/-- A tree with a directory at every path on the way to one. -/
def withDirectory (dirs : List String) (tree : FileTree Node) : FileTree Node := fun p =>
  if p ≠ [] ∧ p <+: dirs then some .directory else tree p

/-- Directories are made where no path on the way holds anything else. -/
theorem makeDirs_ensures {dirs : List String} :
    Ensures (makeDirs out dirs) s
      (fun _ t => (∀ p ∈ dirs.inits, blocksDirectory (s.tree p) = false) ∧
        t = { s with tree := withDirectory dirs s.tree })
      (fun _ t => (¬ ∀ p ∈ dirs.inits, blocksDirectory (s.tree p) = false) ∧ t = s) := by
  unfold makeDirs
  apply ensures_bind.mpr
  apply ensures_read.mpr
  apply ensures_ite.mpr
  have hclear : (dirs.inits.any fun dir => blocksDirectory (s.tree dir)) = true ↔
      ¬ ∀ p ∈ dirs.inits, blocksDirectory (s.tree p) = false := by
    simp only [List.any_eq_true, not_forall, Bool.not_eq_false, exists_prop]
  rw [hclear]
  refine ⟨fun hblocked => ensures_fail.mpr ⟨hblocked, rfl⟩, fun hfree => ?_⟩
  exact ensures_modify.mpr ⟨not_not.mp hfree, rfl⟩

theorem writeEntry_ensures :
    Ensures (writeEntry out path e) s
      (fun _ t => s.tree path ≠ some .directory ∧ e.broken = none ∧
        t = { s with
          tree := Function.update s.tree path (some (.file e.bytes))
          written := s.written + e.bytes.length })
      (fun _ t => s.tree path = some .directory ∧ t.written = s.written ∨
        s.tree path ≠ some .directory ∧ e.broken ≠ none ∧
          t.written = s.written + e.bytes.length) := by
  unfold writeEntry
  apply ensures_bind.mpr
  apply ensures_read.mpr
  apply ensures_ite.mpr
  rw [decide_eq_true_eq]
  refine ⟨fun hdir => ensures_fail.mpr (.inl ⟨hdir, rfl⟩), fun hdir => ?_⟩
  apply ensures_bind.mpr
  apply ensures_modify.mpr
  cases hbroken : e.broken with
  | none => exact ensures_pure.mpr ⟨hdir, rfl, rfl⟩
  | some error => exact ensures_fail.mpr (.inr ⟨hdir, Option.some_ne_none _, rfl⟩)

theorem Follows.hasRoom_iff (h : Follows rule tree front s) :
    (∀ p ∈ (e.directory rule).inits, blocksDirectory (s.tree p) = false) ↔
      HasRoom rule tree front e := by
  refine forall₂_congr fun p _ => ?_
  rw [← h.file p, Bool.not_eq_true]

/-- What there is after the directory of an entry is made. -/
theorem Follows.makes (h : Follows rule tree front s) (hleaves : ¬ e.Leaves rule)
    (hroom : HasRoom rule tree front e) (p : List String) :
    (blocksDirectory (withDirectory (e.directory rule) s.tree p) = true ↔
        HoldsFile rule tree front p) ∧
      (withDirectory (e.directory rule) s.tree p = some .directory ↔
        HoldsDirectory rule tree front p ∨ e.Makes rule p) := by
  rw [← h.directory p, ZipEntry.Makes, withDirectory]
  constructor
  · by_cases hp : p ≠ [] ∧ p <+: e.directory rule
    · rw [if_pos hp]
      exact iff_of_false Bool.false_ne_true (hroom p ((List.mem_inits p _).mpr hp.2))
    · rw [if_neg hp]
      exact h.file p
  · by_cases hp : p ≠ [] ∧ p <+: e.directory rule
    · rw [if_pos hp]
      exact iff_of_true rfl (.inr ⟨hleaves, hp⟩)
    · rw [if_neg hp, or_iff_left fun hmakes => hp hmakes.2]

theorem extractDir_ensures (h : Follows rule tree front s) (hdir : e.isDir = true) :
    Ensures (extractDir rule out e) s
      (fun _ t => AdmitsDir rule out tree front e ∧ t.written = s.written ∧
        Follows rule tree (front ++ [e]) t)
      (fun _ t => ¬ AdmitsDir rule out tree front e ∧ t.written = s.written) := by
  have hlands : ∀ p, ¬ e.LandsOn rule p := by
    intro p hp
    rw [ZipEntry.LandsOn, hdir] at hp
    cases hp.1
  have htarget : e.directory rule = entryPath rule (trimSlashes e.name) := if_pos hdir
  unfold extractDir
  apply ensures_bind.mpr
  apply ensures_ofExcept.mpr
  refine ⟨fun rel hrel => ?_, fun error herror => ⟨fun hadmits => ?_, rfl⟩⟩
  swap
  · exact not_isOk_of_eq_error herror hadmits.1
  apply Ensures.bind orUnpackFault_ensures
  · rintro error t ⟨hfault, rfl⟩
    exact ⟨fun hadmits => hfault hadmits.2.1, rfl⟩
  rintro _ t ⟨hfault, rfl⟩
  have hsegments := ensureSafeRelative_eq_ok hrel
  apply ensures_ite.mpr
  constructor
  · intro hescapes
    rw [hsegments] at hescapes
    have hleaves : e.Leaves rule := ⟨hdir, hescapes⟩
    have hmakes : ∀ p, ¬ e.Makes rule p := fun p hp => hp.1 hleaves
    apply ensures_pure.mpr
    refine ⟨⟨isOk_ensureSafeRelative hrel, hfault, .inl hleaves⟩, rfl, fun p => ?_, fun p => ?_, ?_⟩
    · rw [holdsFile_concat, or_iff_left (hlands p), h.file p]
    · rw [holdsDirectory_concat, or_iff_left (hmakes p), h.directory p]
    · rw [declaredTotal_concat_dir hdir, h.total]
  · intro hescapes
    rw [hsegments] at hescapes
    have hleaves : ¬ e.Leaves rule := fun hleaves => hescapes hleaves.2
    have hpath : rel.map rule.key = e.directory rule := by
      rw [hsegments, htarget, entryPath]
    rw [hpath]
    apply makeDirs_ensures.imp
    · rintro _ u ⟨hclear, rfl⟩
      have hroom := h.hasRoom_iff.mp hclear
      have hmakes := h.makes hleaves hroom
      refine ⟨⟨isOk_ensureSafeRelative hrel, hfault, .inr hroom⟩, rfl, fun p => ?_, fun p => ?_, ?_⟩
      · rw [holdsFile_concat, or_iff_left (hlands p)]
        exact (hmakes p).1
      · rw [holdsDirectory_concat]
        exact (hmakes p).2
      · rw [declaredTotal_concat_dir hdir]
        exact h.total
    · rintro error u ⟨hblocked, rfl⟩
      rw [h.hasRoom_iff] at hblocked
      exact ⟨fun hadmits => hadmits.2.2.elim hleaves hblocked, rfl⟩

/-- No directory is made for a file at its own path. -/
theorem not_makes_entryPath (hfile : e.isDir = false) (hsafe : normalSegments e.name ≠ []) :
    ¬ e.Makes rule (entryPath rule e.name) := by
  rintro ⟨-, -, hpre⟩
  rw [ZipEntry.directory, if_neg (by simp [hfile])] at hpre
  have hlength := hpre.length_le
  have hpos : 0 < (normalSegments e.name).length := List.length_pos_iff.mpr hsafe
  rw [List.length_dropLast, entryPath, List.length_map] at hlength
  omega

theorem normalSegments_ne_nil {name : String} {rel : List String}
    (h : ensureSafeRelative rule name = .ok rel) : normalSegments name ≠ [] := by
  simp only [ensureSafeRelative, bind_eq_ok, failIf_eq_ok, pure_eq_ok] at h
  obtain ⟨_, -, _, -, _, -, _, -, _, -, _, hsegments, -⟩ := h
  exact hsegments

theorem extractFile_ensures (h : Follows rule tree front s) (hfile : e.isDir = false) :
    Ensures (extractFile rule out maxUncompressed e) s
      (fun _ t => AdmitsFile rule out maxUncompressed tree front e ∧ e.broken = none ∧
        t.written = s.written + e.bytes.length ∧ Follows rule tree (front ++ [e]) t)
      (fun _ t => ¬ AdmitsFile rule out maxUncompressed tree front e ∧ t.written = s.written ∨
        AdmitsFile rule out maxUncompressed tree front e ∧ e.broken ≠ none ∧
          t.written = s.written + e.bytes.length) := by
  have hleaves : ¬ e.Leaves rule := by
    intro hleaves
    rw [ZipEntry.Leaves, hfile] at hleaves
    cases hleaves.1
  have hdirectory : e.directory rule = (entryPath rule e.name).dropLast :=
    if_neg (by simp [hfile])
  have hlands : ∀ p, e.LandsOn rule p ↔ entryPath rule e.name = p := by
    simp [ZipEntry.LandsOn, hfile]
  unfold extractFile
  apply ensures_bind.mpr
  apply ensures_ofExcept.mpr
  refine ⟨fun rel hrel => ?_, fun error herror => .inl ⟨fun hadmits => ?_, rfl⟩⟩
  swap
  · exact not_isOk_of_eq_error herror hadmits.1
  have hsegments := normalSegments_ne_nil hrel
  obtain rfl := ensureSafeRelative_eq_ok hrel
  have hsafe := isOk_ensureSafeRelative hrel
  have htotal : saturatingAdd s.total e.size = declaredTotal (front ++ [e]) := by
    rw [declaredTotal_concat_file hfile, h.total]
  apply ensures_bind.mpr
  apply ensures_modify.mpr
  apply ensures_bind.mpr
  apply ensures_read.mpr
  simp only [htotal]
  apply ensures_bind.mpr
  apply ensures_ofExcept.mpr
  refine ⟨fun _ hbudget => ?_, fun error hover => .inl ⟨fun hadmits => ?_, rfl⟩⟩
  swap
  · exact absurd hadmits.2.1 (not_le.mpr (failIf_eq_error.mp hover).1)
  have hbudget := not_lt.mp (failIf_eq_ok.mp hbudget)
  apply ensures_bind.mpr
  apply ensures_ofExcept.mpr
  refine ⟨fun _ hinside => ?_, fun error hescapes => .inl ⟨fun hadmits => ?_, rfl⟩⟩
  swap
  · have hescapes := (failIf_eq_error.mp hescapes).1
    rw [hadmits.2.2.1] at hescapes
    cases hescapes
  have hinside := Bool.eq_false_iff.mpr (failIf_eq_ok.mp hinside)
  apply Ensures.bind orUnpackFault_ensures
  · rintro error t ⟨hfault, rfl⟩
    exact .inl ⟨fun hadmits => hfault hadmits.2.2.2.1, rfl⟩
  rintro _ t ⟨hfault, rfl⟩
  have hparents : ((normalSegments e.name).map rule.key).dropLast = e.directory rule :=
    hdirectory.symm
  rw [hparents]
  apply Ensures.bind makeDirs_ensures
  · rintro error u ⟨hblocked, rfl⟩
    rw [h.hasRoom_iff] at hblocked
    exact .inl ⟨fun hadmits => hblocked hadmits.2.2.2.2.1, rfl⟩
  rintro _ u ⟨hclear, rfl⟩
  have hroom := h.hasRoom_iff.mp hclear
  have hmakes := h.makes hleaves hroom
  have hown : ¬ e.Makes rule (entryPath rule e.name) := not_makes_entryPath hfile hsegments
  have htarget := (hmakes (entryPath rule e.name)).2
  rw [or_iff_left hown] at htarget
  have hadmits : ¬ HoldsDirectory rule tree front (entryPath rule e.name) →
      AdmitsFile rule out maxUncompressed tree front e := fun hnot =>
    ⟨hsafe, hbudget, hinside, hfault, hroom, hnot⟩
  apply writeEntry_ensures.imp
  · rintro _ v ⟨hplace, hbroken, rfl⟩
    refine ⟨hadmits (htarget.not.mp hplace), hbroken, rfl, fun p => ?_, fun p => ?_, rfl⟩
    · rw [holdsFile_concat, hlands p]
      by_cases hp : entryPath rule e.name = p
      · subst hp
        exact iff_of_true (by simp [entryPath, blocksDirectory]) (.inr rfl)
      · rw [or_iff_left hp, ← (hmakes p).1]
        exact iff_of_eq (congrArg (blocksDirectory · = true)
          (Function.update_of_ne (Ne.symm hp) _ _))
    · rw [holdsDirectory_concat]
      by_cases hp : entryPath rule e.name = p
      · subst hp
        refine iff_of_false (by simp [entryPath]) (not_or.mpr ⟨htarget.not.mp hplace, hown⟩)
      · rw [← (hmakes p).2]
        exact iff_of_eq (congrArg (· = some Node.directory)
          (Function.update_of_ne (Ne.symm hp) _ _))
  · rintro error v (⟨hplace, hwritten⟩ | ⟨hplace, hbroken, hwritten⟩)
    · exact .inl ⟨fun hadmits => hadmits.2.2.2.2.2 (htarget.mp hplace), hwritten⟩
    · exact .inr ⟨hadmits (htarget.not.mp hplace), hbroken, hwritten⟩

/-- The loop goes on after the entry. -/
def Passes (rule : PathRule) (out : UnpackOutside) (maxUncompressed : Nat) (tree : FileTree Node)
    (front : List ZipEntry) (e : ZipEntry) : Prop :=
  Admits rule out maxUncompressed tree front e ∧ (e.isDir = true ∨ e.broken = none)

theorem admits_dir (hrefused : e.refused = none) (hlink : e.isSymlink = false)
    (hdir : e.isDir = true) :
    Admits rule out maxUncompressed tree front e ↔ AdmitsDir rule out tree front e := by
  simp [Admits, hrefused, hlink, hdir]

theorem admits_file (hrefused : e.refused = none) (hlink : e.isSymlink = false)
    (hfile : e.isDir = false) :
    Admits rule out maxUncompressed tree front e ↔
      AdmitsFile rule out maxUncompressed tree front e := by
  simp [Admits, hrefused, hlink, hfile]

/-- One turn writes the contents of the entry when it is a file that is let through. -/
theorem extractEntry_ensures (h : Follows rule tree front s) :
    Ensures (extractEntry rule out maxUncompressed e) s
      (fun _ t => Passes rule out maxUncompressed tree front e ∧
        t.written = s.written + (if e.isDir then 0 else e.bytes.length) ∧
        Follows rule tree (front ++ [e]) t)
      (fun _ t => ¬ Passes rule out maxUncompressed tree front e ∧
        t.written = s.written +
          if Admits rule out maxUncompressed tree front e then e.bytes.length else 0) := by
  unfold extractEntry
  cases hrefused : e.refused with
  | some error =>
      have hnot : ¬ Admits rule out maxUncompressed tree front e := by
        intro hadmits
        rw [hadmits.1] at hrefused
        cases hrefused
      exact ensures_fail.mpr ⟨fun hpasses => hnot hpasses.1, by rw [if_neg hnot, Nat.add_zero]⟩
  | none =>
      apply ensures_bind.mpr
      apply ensures_ofExcept.mpr
      refine ⟨fun _ hlink => ?_, fun error hlink => ?_⟩
      swap
      · have hlink := (failIf_eq_error.mp hlink).1
        have hnot : ¬ Admits rule out maxUncompressed tree front e := by
          intro hadmits
          rw [hadmits.2.1] at hlink
          cases hlink
        exact ⟨fun hpasses => hnot hpasses.1, by rw [if_neg hnot, Nat.add_zero]⟩
      have hlink := Bool.eq_false_iff.mpr (failIf_eq_ok.mp hlink)
      apply ensures_ite.mpr
      constructor
      · intro hdir
        have hadmits := @admits_dir rule out maxUncompressed tree front e hrefused hlink hdir
        apply (extractDir_ensures h hdir).imp
        · rintro _ t ⟨hgiven, hwritten, hfollows⟩
          refine ⟨⟨hadmits.mpr hgiven, .inl hdir⟩, ?_, hfollows⟩
          rw [if_pos hdir, hwritten, Nat.add_zero]
        · rintro error t ⟨hnot, hwritten⟩
          rw [← hadmits] at hnot
          exact ⟨fun hpasses => hnot hpasses.1, by rw [if_neg hnot, hwritten, Nat.add_zero]⟩
      · intro hfile
        rw [Bool.not_eq_true] at hfile
        have hadmits := @admits_file rule out maxUncompressed tree front e hrefused hlink hfile
        apply (extractFile_ensures h hfile).imp
        · rintro _ t ⟨hgiven, hbroken, hwritten, hfollows⟩
          refine ⟨⟨hadmits.mpr hgiven, .inr hbroken⟩, ?_, hfollows⟩
          rw [if_neg (by simp [hfile]), hwritten]
        · rintro error t (⟨hnot, hwritten⟩ | ⟨hgiven, hbroken, hwritten⟩)
          · rw [← hadmits] at hnot
            exact ⟨fun hpasses => hnot hpasses.1, by rw [if_neg hnot, hwritten, Nat.add_zero]⟩
          · refine ⟨fun hpasses => ?_, by rw [if_pos (hadmits.mpr hgiven), hwritten]⟩
            rcases hpasses.2 with hdir | hnone
            · rw [hfile] at hdir
              cases hdir
            · exact hbroken hnone

end Turn

/-! ## The whole loop -/

section Run

variable {rule : PathRule} {out : UnpackOutside} {maxUncompressed : Nat} {tree : FileTree Node}

/-- What is written is the contents of the files that are opened. -/
theorem written_extractEntries (entries : List ZipEntry) {front : List ZipEntry} {s : Unpacking}
    (h : Follows rule tree front s) :
    (entries.forM (extractEntry rule out maxUncompressed) s).2.written = s.written +
      ((opened rule out maxUncompressed tree front entries).map fun e => e.bytes.length).sum := by
  induction entries generalizing front s with
  | nil => rfl
  | cons e rest ih =>
      have hturn := @extractEntry_ensures rule out maxUncompressed tree front e s h
      have hcons : (e :: rest).forM (extractEntry rule out maxUncompressed) =
          (extractEntry rule out maxUncompressed e >>= fun _ =>
            rest.forM (extractEntry rule out maxUncompressed)) := rfl
      rw [hcons]
      unfold opened
      rcases hrun : extractEntry rule out maxUncompressed e s with ⟨error | _, t⟩
      · rw [bind_of_eq_error hrun]
        obtain ⟨hstops, hwritten⟩ := hturn.of_eq_error hrun
        simp only [hwritten]
        by_cases hadmits : Admits rule out maxUncompressed tree front e
        · have hfile : ¬ e.isDir = true := fun hdir => hstops ⟨hadmits, .inl hdir⟩
          have hbroken : ¬ e.broken = none := fun hnone => hstops ⟨hadmits, .inr hnone⟩
          rw [if_pos hadmits, if_pos hadmits, if_neg hfile, if_neg hbroken]
          simp
        · rw [if_neg hadmits, if_neg hadmits]
          rfl
      · rw [bind_of_eq_ok hrun]
        obtain ⟨⟨hadmits, hgoes⟩, hwritten, hfollows⟩ := hturn.of_eq_ok hrun
        rw [ih hfollows, hwritten, if_pos hadmits]
        by_cases hdir : e.isDir = true
        · rw [if_pos hdir, if_pos hdir, Nat.add_zero]
        · rw [if_neg hdir, if_neg hdir, if_pos (hgoes.resolve_left hdir), List.map_cons,
            List.sum_cons, Nat.add_assoc]

theorem readManifestBytes_eq_ok {zip : ZipArchive} {bytes : List Nat} :
    readManifestBytes zip = .ok bytes ↔
      ∃ e, zip.find "manifest.json" = some e ∧ e.refused = none ∧ e.size ≤ maxManifestSize ∧
        e.broken = none ∧ e.bytes = bytes := by
  unfold readManifestBytes
  simp only [bind_eq_ok, orFail_eq_ok, failIf_eq_ok, exists_const, Bool.not_eq_true,
    Option.isSome_eq_false_iff, Option.isNone_iff_eq_none, not_lt, gt_iff_lt]
  refine exists_congr fun e => and_congr_right fun _ => and_congr_right fun _ =>
    and_congr_right fun _ => ?_
  cases e.broken <;> simp

theorem manifestFits_iff {zip : ZipArchive} :
    (∀ bytes, readManifestBytes zip = .ok bytes → bytes.length ≤ maxManifestSize) ↔
      ManifestFits zip := by
  simp only [readManifestBytes_eq_ok, ManifestFits]
  constructor
  · intro h e hfind hrefused hbroken hsize
    exact h e.bytes ⟨e, hfind, hrefused, hsize, hbroken, rfl⟩
  · rintro h bytes ⟨e, hfind, hrefused, hsize, hbroken, rfl⟩
    exact h e hfind hrefused hbroken hsize

/-- Unpacking writes no more than its limit, and a manifest is read up to its limit, exactly when
the contents of the files that are opened fit, whatever sizes the archive declares. -/
theorem unpack_budget_iff (rule : PathRule) (out : UnpackOutside) (maxUncompressed : Nat)
    (tree : FileTree Node) (zip : ZipArchive) :
    ((extractZipSafely rule out maxUncompressed zip ⟨tree, 0, 0⟩).2.written ≤ maxUncompressed ∧
      ∀ bytes, readManifestBytes zip = .ok bytes → bytes.length ≤ maxManifestSize) ↔
      ContentsFit rule out maxUncompressed tree zip.rows ∧ ManifestFits zip := by
  rw [manifestFits_iff, extractZipSafely, written_extractEntries zip.rows (follows_nil tree 0),
    Nat.zero_add]
  rfl

/-- An entry that declares no bytes and holds two is written whole under a limit of one. -/
theorem undeclared_bytes_written :
    (extractZipSafely .plain ⟨fun _ => none, "not a directory", "is a directory"⟩ 1
      (.ofDirectory [⟨"a", none, false, 0, [1, 2], none⟩]) ⟨fun _ => none, 0, 0⟩).2.written = 2 := by
  decide

end Run

end Useful.Plugins
