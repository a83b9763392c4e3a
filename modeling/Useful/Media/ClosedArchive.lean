/-
# Extracting a closed archive

The archive of a media pack is read entry by entry into an empty directory. Each entry must be one
of the files that the manifest expects and may come once; its bytes are counted and hashed while
they are written, and nothing beyond the limit of the file is written. What is accepted in the end
is the closed archive and nothing else, in any order.
-/

import Useful.Math.Json
import Useful.Math.Program
import Useful.Math.Utf8
import Useful.Media.PackHistory
import Mathlib.Algebra.Order.BigOperators.Group.List
import Mathlib.Algebra.Order.Group.Nat

namespace Useful.Media.ClosedArchive

open Useful.Math Program

abbrev Bytes := List UInt8

/-- An entry, with the bytes that the decompressor hands out read by read. -/
structure ArchiveEntry where
  name : String
  isDir : Bool
  unixMode : Option Nat
  size : Nat
  reads : List Bytes

/-- The bytes of reads, up to the first that gives none. -/
def delivered (reads : List Bytes) : Bytes :=
  (reads.takeWhile fun buffer => !buffer.isEmpty).flatten

/-- The bytes of an entry. -/
def ArchiveEntry.content (entry : ArchiveEntry) : Bytes := delivered entry.reads

/-- The file type in a mode is that of a symbolic link. -/
def isSymlink (mode : Nat) : Bool := mode &&& 0o170000 == 0o120000

/-- The directory that is extracted to, with the number of bytes that have been written. -/
structure Destination where
  files : String → Option Bytes
  written : Nat

def Destination.empty : Destination := ⟨fun _ => none, 0⟩

def rootOf (manifest : PackManifest) : String :=
  let packId := manifest.packId
  s!"Useful-Media-Pack-{packId}-windows-x64/"

/-- The limit of an expected file. -/
def maximumOf (fact : Option (Nat × String)) : Nat :=
  match fact with
  | some (size, _) => size
  | none => maxSmallAssetBytes

/-- What is checked before an entry is opened: its place in the archive and its fact. -/
def admitEntry (manifest : PackManifest) (seen : List String) (entry : ArchiveEntry) :
    Except MediaPackError (String × Option (Nat × String)) := do
  failIf (entry.isDir ∨ entry.unixMode.any isSymlink) (.unsafeArchive entry.name)
  failIf ((rootOf manifest).toList.isPrefixOf entry.name.toList = false) (.unsafeArchive entry.name)
  let relative := String.ofList (entry.name.toList.drop (rootOf manifest).toList.length)
  validateBasename relative "ZIP entry"
  let fact ← orFail (.unsafeArchive entry.name) ((expectedEntries manifest).lookup relative)
  failIf (relative ∈ seen) (.unsafeArchive "duplicate entry")
  failIf (entry.size > maximumOf fact) (.unsafeArchive "entry size")
  return (relative, fact)

/-- `create_new`: the file must not be there. -/
def createNew (path : String) : Program MediaPackError Destination Unit := fun s =>
  match s.files path with
  | some _ => (.error (.io "file exists"), s)
  | none => (.ok (), { s with files := Function.update s.files path (some []) })

def writeAll (path : String) (bytes : Bytes) : Program MediaPackError Destination Unit := fun s =>
  (.ok (), ⟨Function.update s.files path (some ((s.files path).getD [] ++ bytes)),
    s.written + bytes.length⟩)

/-- The loop over the reads of an entry, with the bytes counted and hashed so far. -/
def copyReads (target : String) (maximum : Nat) (written : Nat) (digest : Bytes) :
    List Bytes → Program MediaPackError Destination (Nat × Bytes)
  | [] => pure (written, digest)
  | buffer :: rest =>
      if buffer.isEmpty then pure (written, digest)
      else if saturatingAdd written buffer.length > maximum then
        fail (.unsafeArchive "entry expanded past limit")
      else do
        writeAll target buffer
        copyReads target maximum (saturatingAdd written buffer.length) (digest ++ buffer) rest

/-- What is checked when an entry has been written. -/
def checkWritten (sha256Hex : Bytes → String) (manifestBytes : Bytes) (relative : String)
    (fact : Option (Nat × String)) (written : Nat) (hash : String) : Except MediaPackError Unit :=
  match fact with
  | some (size, expectedHash) =>
      failIf (¬ (written = size ∧ hash = expectedHash)) (.assetMismatch relative)
  | none =>
      failIf (¬ (relative = "MEDIA-PACK.json" ∧ written = manifestBytes.length ∧
          hash = sha256Hex manifestBytes) ∧
        ¬ (relative = "UNSIGNED-CANDIDATE.txt" ∧ written > 0)) (.assetMismatch relative)

section Extract

variable (sha256Hex : Bytes → String) (manifest : PackManifest) (manifestBytes : Bytes)

def extractEntry (seen : List String) (entry : ArchiveEntry) :
    Program MediaPackError Destination String := do
  let admitted ← ofExcept (admitEntry manifest seen entry)
  createNew admitted.1
  let copied ← copyReads admitted.1 (maximumOf admitted.2) 0 [] entry.reads
  ofExcept (checkWritten sha256Hex manifestBytes admitted.1 admitted.2 copied.1 (sha256Hex copied.2))
  pure admitted.1

/-- The loop over the entries, with the files seen so far. -/
def extractEntries (seen : List String) :
    List ArchiveEntry → Program MediaPackError Destination (List String)
  | [] => pure seen
  | entry :: rest => do
      let relative ← extractEntry sha256Hex manifest manifestBytes seen entry
      extractEntries (relative :: seen) rest

/-- `extract_closed_archive`, over the entries of the archive. -/
def extractClosedArchive (entries : List ArchiveEntry) :
    Program MediaPackError Destination Unit := do
  let seen ← extractEntries sha256Hex manifest manifestBytes [] entries
  ofExcept (failIf (seen.toFinset ≠ ((expectedEntries manifest).map Prod.fst).toFinset)
    (.unsafeArchive "incomplete entry set"))

end Extract

/-! ## One entry -/

/-- The limit of a file, by its name. -/
def limitOf (manifest : PackManifest) (relative : String) : Nat :=
  match (expectedEntries manifest).lookup relative with
  | some fact => maximumOf fact
  | none => 0

/-- An entry that can be written as a file. -/
structure Accepts (sha256Hex : Bytes → String) (manifest : PackManifest) (manifestBytes : Bytes)
    (entry : ArchiveEntry) (relative : String) (fact : Option (Nat × String)) : Prop where
  regular : ¬ (entry.isDir ∨ entry.unixMode.any isSymlink)
  name : entry.name = rootOf manifest ++ relative
  basename : validateBasename relative "ZIP entry" = .ok ()
  expected : (expectedEntries manifest).lookup relative = some fact
  declared : entry.size ≤ maximumOf fact
  actual : entry.content.length ≤ maximumOf fact
  checked : checkWritten sha256Hex manifestBytes relative fact entry.content.length
    (sha256Hex entry.content) = .ok ()

theorem name_eq_iff {root name relative : String} :
    root.toList.isPrefixOf name.toList = true ∧
      String.ofList (name.toList.drop root.toList.length) = relative ↔ name = root ++ relative := by
  constructor
  · rintro ⟨hpre, rfl⟩
    obtain ⟨tail, htail⟩ := List.isPrefixOf_iff_prefix.mp hpre
    refine String.toList_injective ?_
    rw [String.toList_append, String.toList_ofList, ← htail, List.drop_left]
  · rintro rfl
    rw [String.toList_append, List.drop_left, String.ofList_toList]
    exact ⟨List.isPrefixOf_iff_prefix.mpr (List.prefix_append _ _), rfl⟩

theorem append_right_injective {root a b : String} (h : root ++ a = root ++ b) : a = b := by
  have hlists := congrArg String.toList h
  rw [String.toList_append, String.toList_append, List.append_cancel_left_eq] at hlists
  exact String.toList_injective hlists

section Entry

variable {sha256Hex : Bytes → String} {manifest : PackManifest} {manifestBytes : Bytes}
  {seen : List String} {entry : ArchiveEntry} {relative : String} {fact : Option (Nat × String)}

theorem admitEntry_eq_ok : admitEntry manifest seen entry = .ok (relative, fact) ↔
    ¬ (entry.isDir ∨ entry.unixMode.any isSymlink) ∧ entry.name = rootOf manifest ++ relative ∧
      validateBasename relative "ZIP entry" = .ok () ∧
      (expectedEntries manifest).lookup relative = some fact ∧ relative ∉ seen ∧
      entry.size ≤ maximumOf fact := by
  simp only [admitEntry, bind_eq_ok, failIf_eq_ok, orFail_eq_ok, pure_eq_ok, exists_const,
    Prod.mk.injEq, Bool.not_eq_false, not_lt, ← @name_eq_iff (rootOf manifest)]
  constructor
  · rintro ⟨hregular, hpre, ⟨⟩, hbasename, fact, hfact, hseen, hsize, rfl, rfl⟩
    exact ⟨hregular, ⟨hpre, rfl⟩, hbasename, hfact, hseen, hsize⟩
  · rintro ⟨hregular, ⟨hpre, rfl⟩, hbasename, hfact, hseen, hsize⟩
    exact ⟨hregular, hpre, ⟨⟩, hbasename, fact, hfact, hseen, hsize, rfl, rfl⟩

/-- The reads are written and hashed up to the limit. -/
theorem copyReads_ensures {target : String} {maximum : Nat} (hmaximum : maximum < 2 ^ 64 - 1)
    (reads : List Bytes) {digest : Bytes} {s : Destination} (hfile : s.files target = some digest)
    (hwritten : digest.length ≤ maximum) :
    Ensures (copyReads target maximum digest.length digest reads) s
      (fun result t => (digest ++ delivered reads).length ≤ maximum ∧
        result = ((digest ++ delivered reads).length, digest ++ delivered reads) ∧
        t = ⟨Function.update s.files target (some (digest ++ delivered reads)),
          s.written + (delivered reads).length⟩)
      (fun _ t => maximum < (digest ++ delivered reads).length ∧
        t.written + digest.length ≤ s.written + maximum) := by
  induction reads generalizing digest s with
  | nil =>
      have hself : Function.update s.files target (some digest) = s.files := by
        rw [← hfile, Function.update_eq_self]
      rw [copyReads, ensures_pure]
      simp [delivered, hwritten, hself]
  | cons buffer rest ih =>
      rw [copyReads]
      split_ifs with hempty hmore
      · have hself : Function.update s.files target (some digest) = s.files := by
          rw [← hfile, Function.update_eq_self]
        rw [ensures_pure]
        simp [delivered, hempty, hwritten, hself]
      · have hcons : delivered (buffer :: rest) = buffer ++ delivered rest := by
          rw [delivered, List.takeWhile_cons_of_pos (by simpa using hempty), List.flatten_cons,
            delivered]
        rw [ensures_fail, hcons]
        simp only [saturatingAdd, List.length_append] at hmore ⊢
        omega
      · have hcons : delivered (buffer :: rest) = buffer ++ delivered rest := by
          rw [delivered, List.takeWhile_cons_of_pos (by simpa using hempty), List.flatten_cons,
            delivered]
        have hsum : saturatingAdd digest.length buffer.length = (digest ++ buffer).length := by
          simp only [saturatingAdd, List.length_append] at hmore ⊢
          omega
        rw [hsum] at hmore ⊢
        have hnext := @ih (digest ++ buffer)
          ⟨Function.update s.files target (some (digest ++ buffer)), s.written + buffer.length⟩ (Function.update_self _ _ _) (not_lt.mp hmore)
        have hrun : writeAll target buffer s = (.ok (),
            ⟨Function.update s.files target (some (digest ++ buffer)), s.written + buffer.length⟩) := by
          rw [writeAll, hfile, Option.getD_some]
        rw [ensures_bind, ensures_of_eq_ok hrun, hcons, ← List.append_assoc]
        refine hnext.imp (fun result t h => ?_) (fun e t h => ?_)
        · obtain ⟨hle, hresult, rfl⟩ := h
          refine ⟨hle, hresult, ?_⟩
          rw [Function.update_idem, List.length_append, Nat.add_assoc]
        · obtain ⟨hlt, hbound⟩ := h
          refine ⟨hlt, ?_⟩
          simp only [List.length_append] at hbound ⊢
          omega

/-- An entry is written when it can be and its file has not been seen; otherwise no more than the
limit of a file that has not been seen is written. -/
theorem extractEntry_ensures (hlimits : ∀ relative, limitOf manifest relative < 2 ^ 64 - 1)
    {s : Destination} (hfree : ∀ path, path ∉ seen → s.files path = none) :
    Ensures (extractEntry sha256Hex manifest manifestBytes seen entry) s
      (fun relative t => (∃ fact, Accepts sha256Hex manifest manifestBytes entry relative fact) ∧
        relative ∉ seen ∧ t = ⟨Function.update s.files relative (some entry.content),
          s.written + entry.content.length⟩)
      (fun _ t => (∀ relative fact, Accepts sha256Hex manifest manifestBytes entry relative fact →
          relative ∈ seen) ∧
        (t.written ≤ s.written ∨ ∃ relative, relative ∉ seen ∧
          (expectedEntries manifest).lookup relative ≠ none ∧
          t.written ≤ s.written + limitOf manifest relative)) := by
  rw [extractEntry, ensures_bind, ensures_ofExcept]
  constructor
  · rintro ⟨relative, fact⟩ hadmit
    obtain ⟨hregular, hname, hbasename, hfact, hseen, hsize⟩ := admitEntry_eq_ok.mp hadmit
    have hlimit : limitOf manifest relative = maximumOf fact := by
      rw [limitOf, hfact]
    have hunique {relative' : String} {fact' : Option (Nat × String)}
        (h : Accepts sha256Hex manifest manifestBytes entry relative' fact') :
        relative' = relative ∧ fact' = fact := by
      have hrelative : relative' = relative :=
        append_right_injective (h.name.symm.trans hname)
      have hexpected := h.expected
      rw [hrelative, hfact, Option.some.injEq] at hexpected
      exact ⟨hrelative, hexpected.symm⟩
    have hcreate : createNew relative s =
        (.ok (), { s with files := Function.update s.files relative (some []) }) := by
      rw [createNew, hfree relative hseen]
    have hcopy := @copyReads_ensures relative (maximumOf fact) (hlimit ▸ hlimits relative) entry.reads []
      { s with files := Function.update s.files relative (some []) }
      (Function.update_self _ _ _) (Nat.zero_le _)
    simp only [List.nil_append] at hcopy
    rw [ensures_bind, ensures_of_eq_ok hcreate, ensures_bind]
    refine hcopy.imp (fun result t h => ?_) (fun e t h => ?_)
    · obtain ⟨hle, rfl, rfl⟩ := h
      rw [ensures_bind, ensures_ofExcept]
      constructor
      · intro _ hchecked
        refine ensures_pure.mpr ⟨⟨fact, hregular, hname, hbasename, hfact, hsize, hle, hchecked⟩,
          hseen, ?_⟩
        rw [Function.update_idem, ArchiveEntry.content]
      · intro e hchecked
        refine ⟨fun relative' fact' h => ?_, .inr ⟨relative, hseen, by simp [hfact], ?_⟩⟩
        · obtain ⟨rfl, rfl⟩ := hunique h
          have hok := h.checked
          rw [ArchiveEntry.content, hchecked] at hok
          exact absurd hok (by simp)
        · rw [hlimit]
          exact Nat.add_le_add_left hle _
    · obtain ⟨hlt, hbound⟩ := h
      refine ⟨fun relative' fact' h => ?_, .inr ⟨relative, hseen, by simp [hfact], ?_⟩⟩
      · obtain ⟨rfl, rfl⟩ := hunique h
        exact absurd h.actual (not_le.mpr hlt)
      · rw [hlimit]
        exact hbound
  · intro e hadmit
    refine ⟨fun relative fact h => ?_, .inl (Nat.le_refl _)⟩
    by_contra hseen
    have hok := admitEntry_eq_ok.mpr
      ⟨h.regular, h.name, h.basename, h.expected, hseen, h.declared⟩
    rw [hok] at hadmit
    exact absurd hadmit (by simp)

end Entry

/-! ## A run over the entries -/

/-- What has been written for the entries that are done. -/
structure Written (sha256Hex : Bytes → String) (manifest : PackManifest) (manifestBytes : Bytes)
    (done : List ArchiveEntry) (seen : List String) (s : Destination) : Prop where
  accepted : ∀ entry ∈ done, ∃ relative fact,
    Accepts sha256Hex manifest manifestBytes entry relative fact
  names : done.map ArchiveEntry.name = seen.reverse.map (rootOf manifest ++ ·)
  nodup : seen.Nodup
  expected : ∀ relative ∈ seen, (expectedEntries manifest).lookup relative ≠ none
  files : ∀ path bytes, s.files path = some bytes ↔
    ∃ entry ∈ done, entry.name = rootOf manifest ++ path ∧ entry.content = bytes
  written : s.written ≤ (seen.map (limitOf manifest)).sum

section Run

variable {sha256Hex : Bytes → String} {manifest : PackManifest} {manifestBytes : Bytes}

theorem Written.files_eq_none {done : List ArchiveEntry} {seen : List String} {s : Destination}
    (h : Written sha256Hex manifest manifestBytes done seen s) (path : String) (hpath : path ∉ seen) :
    s.files path = none := by
  by_contra hsome
  obtain ⟨bytes, hbytes⟩ := Option.ne_none_iff_exists'.mp hsome
  obtain ⟨entry, hentry, hname, -⟩ := (h.files path bytes).mp hbytes
  have hmem := List.mem_map_of_mem (f := ArchiveEntry.name) hentry
  rw [h.names, hname] at hmem
  obtain ⟨relative, hrelative, heq⟩ := List.mem_map.mp hmem
  exact hpath (append_right_injective heq ▸ List.mem_reverse.mp hrelative)

/-- An entry that is written is done. -/
theorem Written.step {done : List ArchiveEntry} {seen : List String} {s : Destination}
    {entry : ArchiveEntry} {relative : String} {fact : Option (Nat × String)}
    (h : Written sha256Hex manifest manifestBytes done seen s)
    (haccepts : Accepts sha256Hex manifest manifestBytes entry relative fact)
    (hseen : relative ∉ seen) :
    Written sha256Hex manifest manifestBytes (done ++ [entry]) (relative :: seen)
      ⟨Function.update s.files relative (some entry.content), s.written + entry.content.length⟩ := by
  have hexpected : ∀ r ∈ relative :: seen, (expectedEntries manifest).lookup r ≠ none := by
    refine List.forall_mem_cons.mpr ⟨?_, h.expected⟩
    rw [haccepts.expected]
    exact Option.some_ne_none fact
  refine ⟨fun e he => ?_, ?_, List.nodup_cons.mpr ⟨hseen, h.nodup⟩, hexpected, fun path bytes => ?_, ?_⟩
  · rcases List.mem_append.mp he with he | he
    · exact h.accepted e he
    · exact List.mem_singleton.mp he ▸ ⟨relative, fact, haccepts⟩
  · rw [List.map_append, List.map_singleton, h.names, haccepts.name, List.reverse_cons,
      List.map_append, List.map_singleton]
  · simp only [List.mem_append, List.mem_singleton, or_and_right, exists_or, exists_eq_left,
      ← h.files]
    by_cases hpath : path = relative
    · subst hpath
      rw [Function.update_self, Option.some.injEq, h.files_eq_none path hseen]
      simp [haccepts.name]
    · rw [Function.update_of_ne hpath]
      refine (or_iff_left ?_).symm
      rintro ⟨hname, -⟩
      exact hpath (append_right_injective (hname.symm.trans haccepts.name))
  · have hactual := haccepts.actual
    have hwritten := h.written
    have hlimit : limitOf manifest relative = maximumOf fact := by
      rw [limitOf, haccepts.expected]
    simp only [List.map_cons, List.sum_cons, hlimit]
    omega

/-- Entries that can all be written, each as a file of its own. -/
def Writable (sha256Hex : Bytes → String) (manifest : PackManifest) (manifestBytes : Bytes)
    (entries : List ArchiveEntry) : Prop :=
  (∀ entry ∈ entries, ∃ relative fact,
    Accepts sha256Hex manifest manifestBytes entry relative fact) ∧
  (entries.map ArchiveEntry.name).Nodup

theorem extractEntries_ensures (hlimits : ∀ relative, limitOf manifest relative < 2 ^ 64 - 1)
    (entries : List ArchiveEntry) {done : List ArchiveEntry} {seen : List String} {s : Destination}
    (h : Written sha256Hex manifest manifestBytes done seen s) :
    Ensures (extractEntries sha256Hex manifest manifestBytes seen entries) s
      (fun seen t => Written sha256Hex manifest manifestBytes (done ++ entries) seen t)
      (fun _ t => ¬ Writable sha256Hex manifest manifestBytes (done ++ entries) ∧
        ∃ names : List String, names.Nodup ∧
          (∀ relative ∈ names, (expectedEntries manifest).lookup relative ≠ none) ∧
          t.written ≤ (names.map (limitOf manifest)).sum) := by
  induction entries generalizing done seen s with
  | nil =>
      rw [extractEntries, ensures_pure, List.append_nil]
      exact h
  | cons entry rest ih =>
      rw [extractEntries, ensures_bind]
      have hentry := @extractEntry_ensures sha256Hex manifest manifestBytes seen entry hlimits s h.files_eq_none
      refine hentry.imp (fun relative t hdone => ?_) (fun e t hfail => ?_)
      · obtain ⟨⟨fact, haccepts⟩, hseen, rfl⟩ := hdone
        have hnext := ih (h.step haccepts hseen)
        rwa [List.append_assoc, List.singleton_append] at hnext
      · obtain ⟨hrefused, hbound⟩ := hfail
        refine ⟨?_, ?_⟩
        · rintro ⟨haccepted, hnodup⟩
          obtain ⟨relative, fact, haccepts⟩ := haccepted entry (by simp)
          have hseen := hrefused relative fact haccepts
          rw [List.map_append, List.map_cons, h.names, haccepts.name] at hnodup
          have hdisjoint := (List.nodup_append.mp hnodup).2.2
          refine hdisjoint _ (List.mem_map_of_mem (List.mem_reverse.mpr hseen)) _
            List.mem_cons_self rfl
        · have hwritten := h.written
          rcases hbound with hbound | ⟨relative, hseen, hexpected, hbound⟩
          · exact ⟨seen, h.nodup, h.expected, by omega⟩
          · refine ⟨relative :: seen, List.nodup_cons.mpr ⟨hseen, h.nodup⟩,
              List.forall_mem_cons.mpr ⟨hexpected, h.expected⟩, ?_⟩
            rw [List.map_cons, List.sum_cons]
            omega

end Run

/-! ## The manifest -/

/-- The files of a pack. -/
def packFiles (manifest : PackManifest) : List String :=
  "MEDIA-PACK.json" :: "UNSIGNED-CANDIDATE.txt" :: manifest.components.map PackComponent.extractedFile

theorem keys_expectedEntries (manifest : PackManifest) :
    (expectedEntries manifest).map Prod.fst = packFiles manifest := by
  simp [expectedEntries, packFiles, Function.comp_def]

/-- What a valid manifest says about its components. -/
structure IsPlain (manifest : PackManifest) : Prop where
  nodup : (packFiles manifest).Nodup
  sizes : ∀ component ∈ manifest.components, component.sizeBytes ≤ maxArchiveBytes
  basenames : ∀ relative ∈ packFiles manifest, validateBasename relative "ZIP entry" = .ok ()

theorem validateBasename_label {value label label' : String}
    (h : validateBasename value label = .ok ()) : validateBasename value label' = .ok () := by
  rw [validateBasename, failIf_eq_ok] at h ⊢
  exact h

section Manifest

variable {K V : Type} {env : External Bytes K V}

theorem of_checkComponents {total : Nat} {components : List PackComponent}
    (h : checkComponents env total components = .ok ()) : ∀ component ∈ components,
      validateBasename component.extractedFile "component filename" = .ok () ∧
        component.sizeBytes ≤ maxArchiveBytes ∧ component.extractedFile = component.name ++ ".exe" := by
  induction components generalizing total with
  | nil => exact fun component hcomponent => absurd hcomponent List.not_mem_nil
  | cons component rest ih =>
      simp only [checkComponents, bind_eq_ok, failIf_eq_ok, exists_const] at h
      obtain ⟨_, hbasename, _, -, _, -, _, -, hfacts, hname, hrest⟩ := h
      simp only [not_or, not_lt, gt_iff_lt] at hfacts
      exact List.forall_mem_cons.mpr ⟨⟨hbasename, hfacts.2.2.2.1, not_not.mp hname⟩, ih hrest⟩

theorem nodup_names {pack : String} {components : List PackComponent} {expected : Finset String}
    (hnames : (components.map PackComponent.name).toFinset = expected)
    (hcard : (components.map PackComponent.name).toFinset.card = components.length)
    (hexpected : expectedComponents pack = .ok expected) :
    (components.map PackComponent.name).Nodup ∧ ∀ component ∈ components,
      component.name = "mpv" ∨ component.name = "ffmpeg" ∨ component.name = "ffprobe" := by
  constructor
  · have hdedup := List.dedup_sublist (components.map PackComponent.name)
    rw [List.card_toFinset] at hcard
    rw [← List.dedup_eq_self]
    exact hdedup.eq_of_length (by rw [hcard, List.length_map])
  · intro component hcomponent
    have hmem : component.name ∈ expected := by
      rw [← hnames, List.mem_toFinset]
      exact List.mem_map_of_mem hcomponent
    unfold expectedComponents at hexpected
    split_ifs at hexpected
    · rw [Except.ok.injEq] at hexpected
      subst hexpected
      exact .inl (by simpa using hmem)
    · rw [Except.ok.injEq] at hexpected
      subst hexpected
      exact .inr (by simpa using hmem)

theorem isPlain_of_validateManifest {manifest : PackManifest} {pack : String}
    (h : validateManifest env manifest pack = .ok ()) : IsPlain manifest := by
  simp only [validateManifest, bind_eq_ok, failIf_eq_ok, exists_const] at h
  obtain ⟨-, _, -, _, -, expected, hexpected, hclosure, hcomponents⟩ := h
  rw [not_or, not_not, not_not] at hclosure
  obtain ⟨hnodup, hnames⟩ := nodup_names hclosure.1 hclosure.2 hexpected
  have hfacts := of_checkComponents hcomponents
  have hfiles : manifest.components.map PackComponent.extractedFile =
      (manifest.components.map PackComponent.name).map (· ++ ".exe") := by
    rw [List.map_map]
    exact List.map_congr_left fun component hcomponent => (hfacts component hcomponent).2.2
  have hother : ∀ file ∈ manifest.components.map PackComponent.extractedFile,
      file ≠ "MEDIA-PACK.json" ∧ file ≠ "UNSIGNED-CANDIDATE.txt" := by
    refine List.forall_mem_map.mpr fun component hcomponent => ?_
    rw [(hfacts component hcomponent).2.2]
    rcases hnames component hcomponent with hname | hname | hname <;> rw [hname] <;> decide
  refine ⟨?_, fun component hcomponent => (hfacts component hcomponent).2.1, ?_⟩
  · refine List.nodup_cons.mpr ⟨?_, List.nodup_cons.mpr ⟨fun h => (hother _ h).2 rfl, ?_⟩⟩
    · rw [List.mem_cons, not_or]
      exact ⟨by decide, fun h => (hother _ h).1 rfl⟩
    · rw [hfiles]
      refine hnodup.map fun a b heq => ?_
      have hlists := congrArg String.toList heq
      rw [String.toList_append, String.toList_append, List.append_cancel_right_eq] at hlists
      exact String.toList_injective hlists
  · refine List.forall_mem_cons.mpr ⟨by decide, List.forall_mem_cons.mpr ⟨by decide, ?_⟩⟩
    exact List.forall_mem_map.mpr fun component hcomponent =>
      validateBasename_label (hfacts component hcomponent).1

end Manifest

/-! ## The closed archive -/

/-- The archive that a manifest describes, its entries in any order. -/
structure Closed (sha256Hex : Bytes → String) (manifest : PackManifest) (manifestBytes : Bytes)
    (entries : List ArchiveEntry) : Prop where
  regular : ∀ entry ∈ entries, ¬ (entry.isDir ∨ entry.unixMode.any isSymlink)
  declared : ∀ entry ∈ entries, ∀ relative, entry.name = rootOf manifest ++ relative →
    entry.size ≤ limitOf manifest relative
  names : (entries.map ArchiveEntry.name).Perm ((packFiles manifest).map (rootOf manifest ++ ·))
  manifestFile : ∀ entry ∈ entries, entry.name = rootOf manifest ++ "MEDIA-PACK.json" →
    entry.content = manifestBytes
  candidate : ∀ entry ∈ entries, entry.name = rootOf manifest ++ "UNSIGNED-CANDIDATE.txt" →
    0 < entry.content.length ∧ entry.content.length ≤ maxSmallAssetBytes
  components : ∀ entry ∈ entries, ∀ component ∈ manifest.components,
    entry.name = rootOf manifest ++ component.extractedFile →
      entry.content.length = component.sizeBytes ∧
        sha256Hex entry.content = component.extractedSha256

section Facts

variable {sha256Hex : Bytes → String} {manifest : PackManifest} {manifestBytes : Bytes}

theorem lookup_ne_none_iff {relative : String} :
    (expectedEntries manifest).lookup relative ≠ none ↔ relative ∈ packFiles manifest := by
  rw [← Option.isSome_iff_ne_none, List.lookup_isSome_iff, ← keys_expectedEntries, List.mem_map]
  exact exists_congr fun entry => and_congr_right fun _ => by rw [beq_iff_eq, eq_comm]

theorem lookup_component (hplain : IsPlain manifest) {component : PackComponent}
    (hcomponent : component ∈ manifest.components) :
    (expectedEntries manifest).lookup component.extractedFile =
      some (some (component.sizeBytes, component.extractedSha256)) := by
  have hnodup := hplain.nodup
  rw [← keys_expectedEntries] at hnodup
  refine (Json.lookup_eq_some_iff_mem hnodup).mpr ?_
  exact List.mem_append_right _ (List.mem_map_of_mem hcomponent)

/-- What is expected of the files of a pack. -/
theorem fact_cases (hplain : IsPlain manifest) {relative : String} {fact : Option (Nat × String)}
    (h : (expectedEntries manifest).lookup relative = some fact) :
    (relative = "MEDIA-PACK.json" ∧ fact = none) ∨
      (relative = "UNSIGNED-CANDIDATE.txt" ∧ fact = none) ∨
      ∃ component ∈ manifest.components, relative = component.extractedFile ∧
        fact = some (component.sizeBytes, component.extractedSha256) := by
  have hnodup := hplain.nodup
  rw [← keys_expectedEntries] at hnodup
  have hmem := (Json.lookup_eq_some_iff_mem hnodup).mp h
  simp only [expectedEntries, List.cons_append, List.nil_append, List.mem_cons, Prod.mk.injEq,
    List.mem_map] at hmem
  rcases hmem with hmem | hmem | ⟨component, hcomponent, rfl, rfl⟩
  · exact .inl hmem
  · exact .inr (.inl hmem)
  · exact .inr (.inr ⟨component, hcomponent, rfl, rfl⟩)

theorem limitOf_lt (hplain : IsPlain manifest) (relative : String) :
    limitOf manifest relative < 2 ^ 64 - 1 := by
  have hsmall : maxSmallAssetBytes < 2 ^ 64 - 1 := by decide
  have hlarge : maxArchiveBytes < 2 ^ 64 - 1 := by decide
  unfold limitOf
  split
  · rename_i fact hfact
    rcases fact_cases hplain hfact with ⟨-, rfl⟩ | ⟨-, rfl⟩ | ⟨component, hcomponent, -, rfl⟩
    · exact hsmall
    · exact hsmall
    · exact (hplain.sizes component hcomponent).trans_lt hlarge
  · decide

/-- All files of a pack together. -/
theorem sum_limitOf (hplain : IsPlain manifest) : ((packFiles manifest).map (limitOf manifest)).sum =
    (manifest.components.map PackComponent.sizeBytes).sum + 2 * maxSmallAssetBytes := by
  have hmanifest : limitOf manifest "MEDIA-PACK.json" = maxSmallAssetBytes := rfl
  have hcandidate : limitOf manifest "UNSIGNED-CANDIDATE.txt" = maxSmallAssetBytes := rfl
  have hcomponents : (manifest.components.map PackComponent.extractedFile).map (limitOf manifest) =
      manifest.components.map PackComponent.sizeBytes := by
    rw [List.map_map]
    refine List.map_congr_left fun component hcomponent => ?_
    rw [Function.comp_apply, limitOf, lookup_component hplain hcomponent]
    rfl
  rw [packFiles, List.map_cons, List.map_cons, List.sum_cons, List.sum_cons, hmanifest, hcandidate,
    hcomponents]
  omega

/-- Files that are not named twice take no more than all files. -/
theorem sum_limitOf_le (hplain : IsPlain manifest) {names : List String} (hnodup : names.Nodup)
    (hexpected : ∀ relative ∈ names, (expectedEntries manifest).lookup relative ≠ none) :
    (names.map (limitOf manifest)).sum ≤
      (manifest.components.map PackComponent.sizeBytes).sum + 2 * maxSmallAssetBytes := by
  rw [← sum_limitOf hplain]
  have hsubperm : names.Subperm (packFiles manifest) :=
    hnodup.subperm fun relative hrelative => lookup_ne_none_iff.mp (hexpected relative hrelative)
  obtain ⟨names', hperm, hsublist⟩ := hsubperm
  rw [← (hperm.map (limitOf manifest)).sum_eq]
  exact (hsublist.map (limitOf manifest)).sum_le_sum fun _ _ => Nat.zero_le _

/-- Files that pass the last check are the closed archive. -/
theorem closed_iff (hsha : Function.Injective sha256Hex) (hplain : IsPlain manifest)
    (hbytes : manifestBytes.length ≤ maxSmallAssetBytes) {entries : List ArchiveEntry} :
    Closed sha256Hex manifest manifestBytes entries ↔
      Writable sha256Hex manifest manifestBytes entries ∧
        (entries.map ArchiveEntry.name).Perm ((packFiles manifest).map (rootOf manifest ++ ·)) := by
  have hnodup : ((packFiles manifest).map (rootOf manifest ++ ·)).Nodup :=
    hplain.nodup.map fun _ _ => append_right_injective
  constructor
  · intro h
    refine ⟨⟨fun entry hentry => ?_, h.names.nodup_iff.mpr hnodup⟩, h.names⟩
    obtain ⟨relative, hrelative, hname⟩ := List.mem_map.mp
      (h.names.subset (List.mem_map_of_mem (f := ArchiveEntry.name) hentry))
    obtain ⟨fact, hfact⟩ := Option.ne_none_iff_exists'.mp (lookup_ne_none_iff.mpr hrelative)
    have hlimit : limitOf manifest relative = maximumOf fact := by
      rw [limitOf, hfact]
    have hdeclared := h.declared entry hentry relative hname.symm
    rw [hlimit] at hdeclared
    have haccepts (hactual : entry.content.length ≤ maximumOf fact)
        (hchecked : checkWritten sha256Hex manifestBytes relative fact entry.content.length
          (sha256Hex entry.content) = .ok ()) :
        ∃ relative fact, Accepts sha256Hex manifest manifestBytes entry relative fact :=
      ⟨relative, fact, h.regular entry hentry, hname.symm, hplain.basenames relative hrelative,
        hfact, hdeclared, hactual, hchecked⟩
    rcases fact_cases hplain hfact with ⟨rfl, rfl⟩ | ⟨rfl, rfl⟩ | ⟨component, hcomponent, rfl, rfl⟩
    · have hcontent := h.manifestFile entry hentry hname.symm
      refine haccepts (hcontent ▸ hbytes) (failIf_eq_ok.mpr fun hfail => hfail.1 ⟨rfl, ?_, ?_⟩)
      · rw [hcontent]
      · rw [hcontent]
    · obtain ⟨hpos, hle⟩ := h.candidate entry hentry hname.symm
      exact haccepts hle (failIf_eq_ok.mpr fun hfail => hfail.2 ⟨rfl, hpos⟩)
    · obtain ⟨hsize, hhash⟩ := h.components entry hentry component hcomponent hname.symm
      exact haccepts hsize.le (failIf_eq_ok.mpr fun hfail => hfail ⟨hsize, hhash⟩)
  · rintro ⟨⟨haccepted, -⟩, hnames⟩
    have hof {entry : ArchiveEntry} {relative : String} (hentry : entry ∈ entries)
        (hname : entry.name = rootOf manifest ++ relative) :
        ∃ fact, Accepts sha256Hex manifest manifestBytes entry relative fact := by
      obtain ⟨relative', fact, h⟩ := haccepted entry hentry
      obtain rfl := append_right_injective (hname.symm.trans h.name)
      exact ⟨fact, h⟩
    refine ⟨fun entry hentry => ?_, fun entry hentry relative hname => ?_, hnames,
      fun entry hentry hname => ?_, fun entry hentry hname => ?_,
      fun entry hentry component hcomponent hname => ?_⟩
    · obtain ⟨relative, fact, h⟩ := haccepted entry hentry
      exact h.regular
    · obtain ⟨fact, h⟩ := hof hentry hname
      rw [limitOf, h.expected]
      exact h.declared
    · obtain ⟨fact, h⟩ := hof hentry hname
      have hfact : some fact = some none := h.expected.symm
      rw [Option.some.injEq] at hfact
      subst hfact
      have hchecked := failIf_eq_ok.mp h.checked
      by_contra hcontent
      refine hchecked ⟨fun hsame => hcontent (hsha hsame.2.2), fun hother => ?_⟩
      exact absurd hother.1 (by decide)
    · obtain ⟨fact, h⟩ := hof hentry hname
      have hfact : some fact = some none := h.expected.symm
      rw [Option.some.injEq] at hfact
      subst hfact
      have hchecked := failIf_eq_ok.mp h.checked
      refine ⟨?_, h.actual⟩
      by_contra hpos
      refine hchecked ⟨fun hother => absurd hother.1 (by decide), fun hsame => hpos hsame.2⟩
    · obtain ⟨fact, h⟩ := hof hentry hname
      have hfact := h.expected.symm
      rw [lookup_component hplain hcomponent, Option.some.injEq] at hfact
      subst hfact
      exact not_not.mp (failIf_eq_ok.mp h.checked)

end Facts

/-- What is accepted is the closed archive; then its files are there and nothing else, and in no case
is more written than the files may hold. -/
theorem extractClosedArchive_iff {K V : Type} (env : External Bytes K V) (manifest : PackManifest)
    (pack : String) (manifestBytes : Bytes) (entries : List ArchiveEntry)
    (hsha : Function.Injective env.sha256Hex)
    (hmanifest : validateManifest env manifest pack = .ok ())
    (hbytes : manifestBytes.length ≤ maxSmallAssetBytes) :
    ((extractClosedArchive env.sha256Hex manifest manifestBytes entries .empty).1 = .ok () ↔
        Closed env.sha256Hex manifest manifestBytes entries) ∧
      ((extractClosedArchive env.sha256Hex manifest manifestBytes entries .empty).1 = .ok () →
        ∀ path bytes, (extractClosedArchive env.sha256Hex manifest manifestBytes entries
            .empty).2.files path = some bytes ↔
          ∃ entry ∈ entries, entry.name = rootOf manifest ++ path ∧ entry.content = bytes) ∧
      (extractClosedArchive env.sha256Hex manifest manifestBytes entries .empty).2.written ≤
        (manifest.components.map PackComponent.sizeBytes).sum + 2 * maxSmallAssetBytes := by
  have hplain := isPlain_of_validateManifest hmanifest
  rw [closed_iff hsha hplain hbytes]
  have hstart : Written env.sha256Hex manifest manifestBytes [] [] .empty := by
    refine ⟨by simp, rfl, List.nodup_nil, by simp, fun path bytes => ?_, Nat.le_refl _⟩
    simp [Destination.empty]
  have hrun := extractEntries_ensures (limitOf_lt hplain) entries hstart
  rw [List.nil_append] at hrun
  have hall : Ensures (extractClosedArchive env.sha256Hex manifest manifestBytes entries) .empty
      (fun _ t => (Writable env.sha256Hex manifest manifestBytes entries ∧
          (entries.map ArchiveEntry.name).Perm ((packFiles manifest).map (rootOf manifest ++ ·))) ∧
        (∀ path bytes, t.files path = some bytes ↔
          ∃ entry ∈ entries, entry.name = rootOf manifest ++ path ∧ entry.content = bytes) ∧
        t.written ≤ (manifest.components.map PackComponent.sizeBytes).sum + 2 * maxSmallAssetBytes)
      (fun _ t => ¬ (Writable env.sha256Hex manifest manifestBytes entries ∧
          (entries.map ArchiveEntry.name).Perm ((packFiles manifest).map (rootOf manifest ++ ·))) ∧
        t.written ≤ (manifest.components.map PackComponent.sizeBytes).sum +
          2 * maxSmallAssetBytes) := by
    rw [extractClosedArchive, ensures_bind]
    refine hrun.imp (fun seen t h => ?_) (fun e t h => ?_)
    · have hwritten := h.written.trans (sum_limitOf_le hplain h.nodup h.expected)
      have hnames : (entries.map ArchiveEntry.name).Perm (seen.map (rootOf manifest ++ ·)) := by
        rw [h.names]
        exact (List.reverse_perm seen).map _
      have hset : seen.toFinset = ((expectedEntries manifest).map Prod.fst).toFinset ↔
          seen.Perm (packFiles manifest) := by
        rw [keys_expectedEntries, List.perm_ext_iff_of_nodup h.nodup hplain.nodup, Finset.ext_iff]
        simp only [List.mem_toFinset]
      rw [ensures_ofExcept]
      constructor
      · intro _ hsame
        rw [failIf_eq_ok, not_not, hset] at hsame
        refine ⟨⟨⟨h.accepted, ?_⟩, hnames.trans (hsame.map _)⟩, h.files, hwritten⟩
        exact hnames.nodup_iff.mpr (h.nodup.map fun _ _ => append_right_injective)
      · intro e hother
        refine ⟨?_, hwritten⟩
        rintro ⟨-, hperm⟩
        have hsame : seen.Perm (packFiles manifest) :=
          (List.map_perm_map_iff fun _ _ => append_right_injective).mp (hnames.symm.trans hperm)
        rw [failIf, if_neg (not_not.mpr (hset.mpr hsame))] at hother
        exact absurd hother (by simp)
    · obtain ⟨hrefused, names, hnodup, hexpected, hbound⟩ := h
      exact ⟨fun hclosed => hrefused hclosed.1, hbound.trans (sum_limitOf_le hplain hnodup hexpected)⟩
  unfold Ensures at hall
  rcases hend : extractClosedArchive env.sha256Hex manifest manifestBytes entries .empty with
    ⟨_ | _, t⟩
  · rw [hend] at hall
    exact ⟨iff_of_false (by simp) hall.1, fun hok => absurd hok (by simp), hall.2⟩
  · rw [hend] at hall
    exact ⟨iff_of_true rfl hall.1, fun _ => hall.2.1, hall.2.2⟩

/-! ## A closed archive -/

namespace Sample

open Useful.Media.Sample (component digest archiveRoot)

/-- Digests of texts that are told apart: that of a player is the one of the manifest. -/
def sha256Hex (bytes : Bytes) : String :=
  if bytes = List.replicate 16 1 then (component false).extractedSha256
  else String.ofList ('x' :: bytes.map fun byte => Char.ofNat byte.toNat)

theorem sha256Hex_injective : Function.Injective sha256Hex := by
  have hbyte : Function.Injective fun byte : UInt8 => Char.ofNat byte.toNat := by
    have hvalue (n : Nat) (hn : n < 256) : (Char.ofNat n).toNat = n :=
      Char.toNat_ofNat_of_lt (.inl (by omega))
    intro a b heq
    have hnat := congrArg Char.toNat heq
    rw [hvalue _ a.toNat_lt, hvalue _ b.toNat_lt] at hnat
    exact UInt8.toNat_inj.mp hnat
  have hplayer (bytes : Bytes) :
      (component false).extractedSha256 ≠ String.ofList ('x' :: bytes.map fun byte => Char.ofNat byte.toNat) := by
    intro heq
    have hlists := congrArg (fun s => s.toList.head?) heq
    rw [String.toList_ofList, List.head?_cons] at hlists
    exact absurd hlists (by decide)
  intro a b heq
  unfold sha256Hex at heq
  split_ifs at heq with ha hb hb
  · rw [ha, hb]
  · exact absurd heq (hplayer b)
  · exact absurd heq.symm (hplayer a)
  · have hlists := String.ofList_injective heq
    rw [List.cons.injEq] at hlists
    exact List.map_injective_iff.mpr hbyte hlists.2

def env : External Bytes Unit Nat where
  length := List.length
  sha256Hex := sha256Hex
  textBytes := fun _ => []
  verifyingKey := fun _ => some ()
  fingerprint := fun _ => digest '8'
  verifyStrict := fun _ _ _ => true
  parseVersion := fun _ => some 1
  parseUrl := fun _ => some ⟨"https", "", false, false, true⟩
  parseStatement := fun _ => .error "expected value"
  parseManifest := fun _ => .error "expected value"
  parsePointer := fun _ => .error "expected value"
  parseReceipt := fun _ => .error "expected value"
  pointerBytes := fun _ => []
  receiptBytes := fun _ => []
  zipEntries := fun _ => .error "invalid Zip archive"

def entry (name : String) (content : Bytes) : ArchiveEntry :=
  ⟨archiveRoot "preview" ++ name, false, none, content.length, [content]⟩

def entries : List ArchiveEntry :=
  [entry "mpv.exe" (List.replicate 16 1), entry "UNSIGNED-CANDIDATE.txt" [3],
    entry "MEDIA-PACK.json" [2]]

end Sample

open Useful.Media.Sample (manifest validateManifest_sample) in
theorem extractClosedArchive_sample :
    (extractClosedArchive Sample.sha256Hex (manifest false) [2] Sample.entries .empty).2.written ≤
      16 + 2 * maxSmallAssetBytes :=
  (extractClosedArchive_iff Sample.env (manifest false) "preview" [2] Sample.entries
    Sample.sha256Hex_injective (validateManifest_sample false) (by decide)).2.2

end Useful.Media.ClosedArchive
