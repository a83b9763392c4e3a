/-
# Pushing a source to a store

`useful source storage push` puts every exported file of a source, and every package once more
under its digest, into a directory or a bucket. A put refuses to overwrite. Whether what is
stored afterwards is what was planned depends on what was there before, and what was there
before depends on the earlier pushes.
-/

import Useful.Math.Checks
import Useful.Math.FileTree
import Mathlib.Data.List.Pairwise
import Mathlib.Logic.Function.Basic

namespace Useful.Cli

open Useful.Math

/-! ## Stores -/

inductive Backend
  | fs
  | s3
  deriving DecidableEq

/-- The paths of a configuration, as lists of names: the storage root or the bucket, and the
prefix below it. -/
structure StorageConfig where
  backend : Backend
  base : List String
  storagePrefix : List String

structure StorageError where
  message : String
  code : String
  deriving DecidableEq, Repr

/-- In a bucket, a directory is a marker object without bytes. -/
inductive Entry
  | file (bytes : List Nat)
  | directory
  deriving DecidableEq

def Entry.size : Entry → Nat
  | .file bytes => bytes.length
  | .directory => 0

abbrev ObjectStore := FileTree Entry

inductive PutStatus
  | written
  | unchanged
  deriving DecidableEq

variable (config : StorageConfig)

/-- `withPrefix`, as a text. -/
def keyText (key : List String) : String := "/".intercalate (config.storagePrefix ++ key)

/-- A path goes on with one more name, as in `path.resolve` and in the path of a URL. -/
def nextSegment (path : List String) (segment : String) : List String :=
  if segment = "." then path
  else if segment = ".." then path.dropLast
  else if segment = "" ∧ config.backend = .fs then path
  else path ++ [segment]

/-- Where the object of a key is stored. -/
def locate (key : List String) : List String :=
  (config.storagePrefix ++ key).foldl (nextSegment config) config.base

/-- `FsStorageDriver.resolve` -/
def resolve (key : List String) : Except StorageError (List String) :=
  if config.base <+: locate config key then .ok (locate config key)
  else .error ⟨s!"path escapes storage root: {keyText config key}", "path_escape"⟩

/-- `fs.mkdirSync(path.dirname(full), { recursive: true })` -/
def makeParents (store : ObjectStore) (full : List String) : Except StorageError ObjectStore :=
  if full.dropLast.inits.any fun dir => (store dir).any (· ≠ .directory) then
    .error ⟨"ENOTDIR: not a directory, mkdir", "ENOTDIR"⟩
  else
    .ok fun dir => if dir <+: full.dropLast ∧ store dir = none then some .directory else store dir

/-- `FsStorageDriver.put` -/
def putFs (store : ObjectStore) (key : List String) (bytes : List Nat) :
    Except StorageError PutStatus × ObjectStore :=
  match resolve config key with
  | .error e => (.error e, store)
  | .ok full =>
      match makeParents store full with
      | .error e => (.error e, store)
      | .ok store =>
          match store full with
          | none => (.ok .written, Function.update store full (some (.file bytes)))
          | some .directory =>
              (.error ⟨"EISDIR: illegal operation on a directory, read", "EISDIR"⟩, store)
          | some (.file existing) =>
              if existing = bytes then (.ok .unchanged, store)
              else (.error ⟨s!"refusing to overwrite different bytes at {keyText config key}",
                "object_conflict"⟩, store)

/-- `S3StorageDriver.put`: the bytes that are there are not read. -/
def putS3 (store : ObjectStore) (key : List String) (bytes : List Nat) :
    Except StorageError PutStatus × ObjectStore :=
  match store (locate config key) with
  | none => (.ok .written, Function.update store (locate config key) (some (.file bytes)))
  | some existing =>
      let remote := existing.size
      let size := bytes.length
      if remote = size then (.ok .unchanged, store)
      else (.error ⟨s!"refusing to overwrite different size at {keyText config key} (remote={remote}, local={size})",
        "object_conflict"⟩, store)

def put (store : ObjectStore) (key : List String) (bytes : List Nat) :
    Except StorageError PutStatus × ObjectStore :=
  match config.backend with
  | .fs => putFs config store key bytes
  | .s3 => putS3 config store key bytes

/-- `head`: the size of what is stored. -/
def head (store : ObjectStore) (key : List String) : Except StorageError (Option Nat) :=
  match config.backend with
  | .fs => do
      let full ← resolve config key
      match store full with
      | some (.file bytes) => return some bytes.length
      | _ => return none
  | .s3 => return (store (locate config key)).map Entry.size

/-! ## Plans -/

def EXPORT_DIRS : List String := [".well-known", "metadata", "targets", "catalog"]

/-- A file below one of the exported directories. -/
structure TreeFile where
  top : String
  dirs : List String
  base : String
  bytes : List Nat

def TreeFile.path (f : TreeFile) : List String := f.top :: (f.dirs ++ [f.base])

/-- A name that stands for itself in a path. -/
def IsName (name : String) : Prop :=
  name ≠ "" ∧ name ≠ "." ∧ name ≠ ".." ∧ '\\' ∉ name.toList

/-- Neither path leads to or through the other. -/
def Apart (path path' : List String) : Prop := ¬ path <+: path' ∧ ¬ path' <+: path

instance (name : String) : Decidable (IsName name) := inferInstanceAs (Decidable (_ ∧ _))

instance (path path' : List String) : Decidable (Apart path path') :=
  inferInstanceAs (Decidable (_ ∧ _))

/-- What `export-static` leaves, in the order in which it is walked. -/
structure ExportTree where
  files : List TreeFile
  names : ∀ f ∈ files, ∀ name ∈ f.path, IsName name
  apart : files.Pairwise fun f g => Apart f.path g.path

structure PlannedObject where
  key : List String
  bytes : List Nat
  sha256 : String
  contentType : String
  kind : String
  digest : Option String

def contentTypeFor (name : String) : String :=
  if name.endsWith ".json" then "application/json; charset=utf-8"
  else if name.endsWith ".md" then "text/markdown; charset=utf-8"
  else "application/octet-stream"

def isHexDigit (c : Char) : Bool := ('a' ≤ c && c ≤ 'f') || ('0' ≤ c && c ≤ '9')

/-- `base.match(/^([a-f0-9]{64})\./)` -/
def digestOf (base : String) : Option String :=
  let digest := base.toList.take 64
  if digest.length = 64 ∧ digest.all isHexDigit ∧ base.toList[64]? = some '.' then
    some (String.ofList digest)
  else none

section

variable (sha256Hex : List Nat → String)

def plannedObject (key : List String) (f : TreeFile) (kind : String) (digest : Option String) :
    PlannedObject :=
  ⟨key, f.bytes, sha256Hex f.bytes, contentTypeFor (key.getLastD ""), kind, digest⟩

def addObject (objects : List PlannedObject) (o : PlannedObject) : List PlannedObject :=
  if objects.any (·.key = o.key) then objects else objects ++ [o]

/-- One file of the export. A package is planned under its digest as well. -/
def addFile (objects : List PlannedObject) (f : TreeFile) :
    Except StorageError (List PlannedObject) :=
  let objects := addObject objects (plannedObject sha256Hex f.path f "static-export" none)
  match if f.top = "targets" then digestOf f.base else none with
  | none => .ok objects
  | some digest =>
      if sha256Hex f.bytes ≠ digest then
        .error ⟨s!"target filename digest mismatch: {f.base}", "digest_mismatch"⟩
      else
        .ok (addObject objects
          (plannedObject sha256Hex ["sha256", digest] f "content-addressed" (some digest)))

/-- The files below the exported directories, directory by directory. -/
def ExportTree.exported (tree : ExportTree) : List TreeFile :=
  EXPORT_DIRS.flatMap fun top => tree.files.filter (·.top = top)

/-- `obj.key.startsWith("keys/") || obj.key.includes("/keys/")` -/
def leaksKeys (key : List String) : Bool :=
  (key.head? = some "keys" && 1 < key.length) || key.tail.dropLast.contains "keys"

/-- `buildUploadPlan`, for an exported tree. -/
def buildUploadPlan (tree : ExportTree) : Except StorageError (List PlannedObject) := do
  failIf (¬ tree.files.any (·.path = [".well-known", "useful-repository.json"]))
    ⟨"export missing .well-known/useful-repository.json", "invalid_export"⟩
  let objects ← tree.exported.foldlM (addFile sha256Hex) []
  failIf (objects.any fun o => leaksKeys o.key) ⟨"refusing to upload keys/", "keys_leak"⟩
  return objects

end

/-! ## Push and verify -/

/-- `pushStorage`, for the objects of a plan. -/
@[grind =]
def pushStorage : ObjectStore → List PlannedObject →
    Except StorageError (List PutStatus) × ObjectStore
  | store, [] => (.ok [], store)
  | store, o :: objects =>
      match put config store o.key o.bytes with
      | (.error e, after) => (.error e, after)
      | (.ok status, after) =>
          match pushStorage after objects with
          | (.error e, last) => (.error e, last)
          | (.ok statuses, last) => (.ok (status :: statuses), last)

inductive CheckCode
  | ok
  | objectMissing
  | sizeMismatch (remoteBytes : Nat)
  deriving DecidableEq

def checkObject (store : ObjectStore) (o : PlannedObject) : Except StorageError CheckCode := do
  match ← head config store o.key with
  | none => return .objectMissing
  | some bytes => return if bytes ≠ o.bytes.length then .sizeMismatch bytes else .ok

/-- `verifyStorage`: whether its result is `ok`. -/
def verifyStorage (store : ObjectStore) (plan : List PlannedObject) : Except StorageError Bool := do
  let checks ← plan.mapM (checkObject config store)
  return checks.all (· = .ok)

/-- Where a push is interrupted: after so many objects, and in the next put before it does
anything, after it made the directories, or after it wrote so many bytes. A bucket takes an
object in whole or not at all. -/
inductive Interruption
  | before
  | afterParents
  | during (written : Nat)

/-- What an interrupted put leaves. -/
def interruptedPut (store : ObjectStore) (o : PlannedObject) : Interruption → ObjectStore
  | .before => store
  | .afterParents =>
      match config.backend with
      | .fs => ((resolve config o.key).bind (makeParents store)).toOption.getD store
      | .s3 => store
  | .during written =>
      match config.backend with
      | .fs => (putFs config store o.key (o.bytes.take written)).2
      | .s3 => (putS3 config store o.key o.bytes).2

/-- A publish of the source, and a push of what it exports, perhaps interrupted. -/
structure Round where
  tree : ExportTree
  stop : Option (Nat × Interruption)

/-- The store after a round. -/
def afterRound (sha256Hex : List Nat → String) (store : ObjectStore) (r : Round) : ObjectStore :=
  match buildUploadPlan sha256Hex r.tree with
  | .error _ => store
  | .ok plan =>
      match r.stop with
      | none => (pushStorage config store plan).2
      | some (done, stop) =>
          let reached := (pushStorage config store (plan.take done)).2
          match plan[done]? with
          | none => reached
          | some o => interruptedPut config reached o stop

/-! ## What a push is for -/

/-- Every planned key holds the planned bytes. -/
def Holds (store : ObjectStore) (plan : List PlannedObject) : Prop :=
  ∀ o ∈ plan, store (locate config o.key) = some (.file o.bytes)

/-- A push that succeeds stores what was planned, and a verification that succeeds has seen
it. -/
def Truthful (store : ObjectStore) (plan : List PlannedObject) : Prop :=
  ((∃ statuses, (pushStorage config store plan).1 = .ok statuses) →
      Holds config (pushStorage config store plan).2 plan) ∧
    (verifyStorage config store plan = .ok true → Holds config store plan)

/-- The push succeeds, and readers of the store find what was planned. -/
def Delivers (store : ObjectStore) (plan : List PlannedObject) : Prop :=
  (∃ statuses, (pushStorage config store plan).1 = .ok statuses) ∧
    Holds config (pushStorage config store plan).2 plan

/-- Nothing is in the way of an object: its place can be reached, and it is free or holds the
planned bytes. -/
structure Clear (store : ObjectStore) (o : PlannedObject) : Prop where
  inside : config.backend = .fs → config.base <+: locate config o.key
  parents : config.backend = .fs → ∀ dir, dir <+: (locate config o.key).dropLast →
    ∀ bytes, store dir ≠ some (.file bytes)
  content : store (locate config o.key) = none ∨
    store (locate config o.key) = some (.file o.bytes)

/-- In a bucket, the place of an object is free or holds something of its size. -/
def FreeOrSameSize (store : ObjectStore) (o : PlannedObject) : Prop :=
  ∀ e, store (locate config o.key) = some e → e.size = o.bytes.length

/-- What is stored for an object has its size. -/
def HasSize (store : ObjectStore) (o : PlannedObject) : Prop :=
  (config.backend = .fs → config.base <+: locate config o.key) ∧
    ∃ e, store (locate config o.key) = some e ∧ e.size = o.bytes.length ∧
      (config.backend = .fs → e ≠ .directory)

/-! ## Plans keep their objects apart -/

variable {config} {sha256Hex : List Nat → String} {store : ObjectStore}

theorem foldl_nextSegment {key : List String} (h : ∀ name ∈ key, IsName name)
    (path : List String) : key.foldl (nextSegment config) path = path ++ key := by
  induction key generalizing path with
  | nil => rw [List.foldl_nil, List.append_nil]
  | cons name key ih =>
      obtain ⟨hempty, hdot, hdots, -⟩ := h name List.mem_cons_self
      rw [List.foldl_cons, ih (fun name hname => h name (List.mem_cons_of_mem _ hname))]
      simp [nextSegment, hempty, hdot, hdots]

/-- The place of a key of proper names is that key, below one directory. -/
theorem locate_eq {key : List String} (h : ∀ name ∈ key, IsName name) :
    locate config key = locate config [] ++ key := by
  rw [locate, List.foldl_append, foldl_nextSegment h, locate, List.append_nil]

theorem apart_locate {key key' : List String} (h : ∀ name ∈ key, IsName name)
    (h' : ∀ name ∈ key', IsName name) (hapart : Apart key key') :
    Apart (locate config key) (locate config key') := by
  rw [locate_eq h, locate_eq h', Apart, List.prefix_append_right_inj,
    List.prefix_append_right_inj]
  exact hapart

/-- What the objects of a plan have in common. -/
structure WellPlanned (plan : List PlannedObject) : Prop where
  nonempty : ∀ o ∈ plan, o.key ≠ []
  names : ∀ o ∈ plan, ∀ name ∈ o.key, IsName name
  apart : plan.Pairwise fun o o' => Apart o.key o'.key

/-! ## One put -/

theorem resolve_eq_ok {key full : List String} :
    resolve config key = .ok full ↔ config.base <+: locate config key ∧ locate config key = full := by
  unfold resolve
  split_ifs with h <;> simp [h]

theorem makeParents_eq_ok {after : ObjectStore} {full : List String} :
    makeParents store full = .ok after ↔
      (∀ dir, dir <+: full.dropLast → ∀ bytes, store dir ≠ some (.file bytes)) ∧
        after = fun dir =>
          if dir <+: full.dropLast ∧ store dir = none then some .directory else store dir := by
  have hblocked : full.dropLast.inits.any (fun dir => (store dir).any (· ≠ .directory)) = true ↔
      ∃ dir, dir <+: full.dropLast ∧ ∃ bytes, store dir = some (.file bytes) := by
    simp only [List.any_eq_true, List.mem_inits, Option.any_eq_true, decide_eq_true_eq]
    constructor
    · rintro ⟨dir, hdir, e, he, hne⟩
      cases e with
      | file bytes => exact ⟨dir, hdir, bytes, he⟩
      | directory => exact absurd rfl hne
    · rintro ⟨dir, hdir, bytes, he⟩
      exact ⟨dir, hdir, _, he, nofun⟩
  unfold makeParents
  split_ifs with h
  · obtain ⟨dir, hdir, bytes, he⟩ := hblocked.mp h
    simp only [false_iff, not_and]
    exact fun hall => absurd he (hall dir hdir bytes)
  · rw [hblocked] at h
    push Not at h
    simp only [Except.ok.injEq]
    exact ⟨fun heq => ⟨h, heq.symm⟩, fun heq => heq.2.symm⟩

/-- Making the directories on the way to an object leaves what is there. -/
theorem makeParents_cases {after : ObjectStore} {full : List String}
    (h : makeParents store full = .ok after) (path : List String) :
    after path = store path ∨
      (store path = none ∧ after path = some .directory ∧ path <+: full.dropLast) := by
  obtain ⟨-, rfl⟩ := makeParents_eq_ok.mp h
  by_cases hmade : path <+: full.dropLast ∧ store path = none
  · exact .inr ⟨hmade.2, if_pos hmade, hmade.1⟩
  · exact .inl (if_neg hmade)

/-- What a put can do to a place: nothing, make it a directory on the way to the object, or
store the object where nothing was. -/
theorem put_cases (key : List String) (bytes : List Nat) (path : List String) :
    (put config store key bytes).2 path = store path ∨
      (store path = none ∧ (put config store key bytes).2 path = some .directory ∧
        path <+: (locate config key).dropLast) ∨
      (path = locate config key ∧ store path = none ∧
        (put config store key bytes).2 path = some (.file bytes)) := by
  unfold put
  cases config.backend with
  | s3 =>
      unfold putS3
      cases hentry : store (locate config key) with
      | none =>
          by_cases hpath : path = locate config key
          · subst hpath
            exact .inr (.inr ⟨rfl, hentry, Function.update_self ..⟩)
          · exact .inl (Function.update_of_ne hpath ..)
      | some existing =>
          left
          dsimp only
          split <;> rfl
  | fs =>
      unfold putFs
      cases hresolve : resolve config key with
      | error e => exact .inl rfl
      | ok full =>
          obtain ⟨-, rfl⟩ := resolve_eq_ok.mp hresolve
          dsimp only
          cases hparents : makeParents store (locate config key) with
          | error e => exact .inl rfl
          | ok after =>
              have hmade := makeParents_cases hparents
              dsimp only
              cases hentry : after (locate config key) with
              | none =>
                  by_cases hpath : path = locate config key
                  · subst hpath
                    have hfree : store (locate config key) = none := by
                      rcases hmade (locate config key) with h | ⟨h, -, -⟩
                      · exact h.symm.trans hentry
                      · exact h
                    exact .inr (.inr ⟨rfl, hfree, Function.update_self ..⟩)
                  · simp only [Function.update_of_ne hpath]
                    exact (hmade path).imp_right .inl
              | some e =>
                  have hafter : ∀ (r : Except StorageError PutStatus × ObjectStore),
                      r.2 = after → r.2 path = store path ∨
                        (store path = none ∧ r.2 path = some .directory ∧
                          path <+: (locate config key).dropLast) ∨
                        (path = locate config key ∧ store path = none ∧
                          r.2 path = some (.file bytes)) := by
                    rintro r hr
                    rw [hr]
                    exact (hmade path).imp_right .inl
                  apply hafter
                  cases e with
                  | directory => rfl
                  | file existing =>
                      dsimp only
                      split <;> rfl

/-- A put overwrites nothing. -/
theorem put_keeps {key path : List String} {bytes : List Nat} {e : Entry}
    (h : store path = some e) : (put config store key bytes).2 path = some e := by
  rcases put_cases key bytes path with hsame | ⟨hnone, -⟩ | ⟨-, hnone, -⟩
  · rw [hsame, h]
  · rw [hnone] at h
    cases h
  · rw [hnone] at h
    cases h

theorem not_prefix_dropLast {path : List String} (h : path ≠ []) : ¬ path <+: path.dropLast := by
  intro hprefix
  have hle := hprefix.length_le
  rw [List.length_dropLast] at hle
  have := List.length_pos_iff.mpr h
  omega

/-- Nothing being in the way, the put succeeds and the object is stored. -/
theorem put_of_clear {o : PlannedObject} (hplace : locate config o.key ≠ [])
    (h : Clear config store o) :
    (∃ status, (put config store o.key o.bytes).1 = .ok status) ∧
      (put config store o.key o.bytes).2 (locate config o.key) = some (.file o.bytes) := by
  unfold put
  cases hbackend : config.backend with
  | s3 =>
      unfold putS3
      rcases h.content with hfree | hsame
      · rw [hfree]
        exact ⟨⟨_, rfl⟩, Function.update_self ..⟩
      · rw [hsame]
        dsimp only [Entry.size]
        rw [if_pos rfl]
        exact ⟨⟨_, rfl⟩, hsame⟩
  | fs =>
      have hresolve := resolve_eq_ok.mpr ⟨h.inside hbackend, rfl⟩
      have hparents := makeParents_eq_ok.mpr ⟨h.parents hbackend, rfl⟩
      have hself : ¬ (locate config o.key <+: (locate config o.key).dropLast ∧
          store (locate config o.key) = none) :=
        fun hcreated => not_prefix_dropLast hplace hcreated.1
      unfold putFs
      rw [hresolve]
      dsimp only
      rw [hparents]
      dsimp only
      rw [if_neg hself]
      rcases h.content with hfree | hsame
      · rw [hfree]
        dsimp only
        exact ⟨⟨_, rfl⟩, Function.update_self ..⟩
      · rw [hsame]
        dsimp only
        rw [if_pos rfl]
        exact ⟨⟨_, rfl⟩, (if_neg hself).trans hsame⟩

/-- A put into a directory that succeeds stores the object, and nothing was in its way. -/
theorem clear_of_putFs {o : PlannedObject} {status : PutStatus} (hbackend : config.backend = .fs)
    (h : (put config store o.key o.bytes).1 = .ok status) : Clear config store o := by
  unfold put putFs at h
  simp only [hbackend] at h
  cases hresolve : resolve config o.key with
  | error e =>
      rw [hresolve] at h
      cases h
  | ok full =>
      obtain ⟨hinside, rfl⟩ := resolve_eq_ok.mp hresolve
      rw [hresolve] at h
      dsimp only at h
      cases hparents : makeParents store (locate config o.key) with
      | error e =>
          rw [hparents] at h
          cases h
      | ok after =>
          rw [hparents] at h
          dsimp only at h
          have hfree := (makeParents_eq_ok.mp hparents).1
          refine ⟨fun _ => hinside, fun _ => hfree, ?_⟩
          rcases makeParents_cases hparents (locate config o.key) with hsame | ⟨hnone, -, -⟩
          · rw [← hsame]
            cases hentry : after (locate config o.key) with
            | none => exact .inl rfl
            | some e =>
                rw [hentry] at h
                cases e with
                | directory => cases h
                | file existing =>
                    dsimp only at h
                    split_ifs at h with heq
                    · exact .inr (by rw [heq])
          · exact .inl hnone

/-- A put into a bucket succeeds when the place is free or holds something of the same size. -/
theorem putS3_ok_iff {o : PlannedObject} (hbackend : config.backend = .s3) :
    (∃ status, (put config store o.key o.bytes).1 = .ok status) ↔
      FreeOrSameSize config store o := by
  unfold put putS3 FreeOrSameSize
  simp only [hbackend]
  cases store (locate config o.key) with
  | none => simp
  | some existing =>
      dsimp only
      split_ifs with hsize
      · simpa using hsize
      · simpa using hsize

/-! ## A whole push -/

/-- What is in the way later was in the way before. -/
theorem Clear.of_put {o : PlannedObject} {key : List String} {bytes : List Nat}
    (h : Clear config (put config store key bytes).2 o) : Clear config store o := by
  refine ⟨h.inside, fun hbackend dir hdir bytes' hfile => ?_, ?_⟩
  · exact h.parents hbackend dir hdir bytes' (put_keeps hfile)
  · cases hentry : store (locate config o.key) with
    | none => exact .inl rfl
    | some e =>
        have hcontent := h.content
        rw [put_keeps hentry] at hcontent
        exact hcontent

/-- A put leaves the place of an object with a key apart from its own. -/
theorem put_elsewhere {key key' : List String} {bytes : List Nat}
    (hapart : Apart (locate config key) (locate config key')) :
    (put config store key bytes).2 (locate config key') = store (locate config key') := by
  rcases @put_cases config store key bytes (locate config key') with
    hsame | ⟨-, -, hway⟩ | ⟨heq, -, -⟩
  · exact hsame
  · exact absurd (hway.trans (List.dropLast_prefix _)) hapart.2
  · exact absurd (heq ▸ List.prefix_rfl) hapart.1

theorem Clear.put {o : PlannedObject} {key : List String} {bytes : List Nat}
    (h : Clear config store o) (hapart : Apart (locate config key) (locate config o.key)) :
    Clear config (Cli.put config store key bytes).2 o := by
  refine ⟨h.inside, fun hbackend dir hdir bytes' hfile => ?_, ?_⟩
  · rcases @put_cases config store key bytes dir with
      hsame | ⟨-, hmade, -⟩ | ⟨heq, -, -⟩
    · rw [hsame] at hfile
      exact h.parents hbackend dir hdir bytes' hfile
    · rw [hmade] at hfile
      cases hfile
    · exact hapart.1 (heq ▸ hdir.trans (List.dropLast_prefix _))
  · rw [put_elsewhere hapart]
    exact h.content

theorem pushStorage_cons (o : PlannedObject) (plan : List PlannedObject) :
    pushStorage config store (o :: plan) =
      match put config store o.key o.bytes with
      | (.error e, after) => (.error e, after)
      | (.ok status, after) =>
          match pushStorage config after plan with
          | (.error e, last) => (.error e, last)
          | (.ok statuses, last) => (.ok (status :: statuses), last) :=
  rfl

theorem pushStorage_keeps {plan : List PlannedObject} {path : List String} {e : Entry}
    (h : store path = some e) : (pushStorage config store plan).2 path = some e := by
  induction plan generalizing store with
  | nil => exact h
  | cons o plan ih =>
      have hkeeps : (put config store o.key o.bytes).2 path = some e := put_keeps h
      have hrest := ih hkeeps
      rw [pushStorage_cons]
      generalize put config store o.key o.bytes = first at hkeeps hrest ⊢
      rcases first with ⟨error | status, after⟩
      · exact hkeeps
      · dsimp only at hrest ⊢
        generalize pushStorage config after plan = rest at hrest ⊢
        rcases rest with ⟨error | statuses, last⟩
        · exact hrest
        · exact hrest

/-- A push succeeds when its first put does and the rest of it does. -/
theorem pushStorage_cons_ok {o : PlannedObject} {plan : List PlannedObject} :
    (∃ statuses, (pushStorage config store (o :: plan)).1 = .ok statuses) ↔
      (∃ status, (put config store o.key o.bytes).1 = .ok status) ∧
        ∃ statuses, (pushStorage config (put config store o.key o.bytes).2 plan).1 =
          .ok statuses := by
  rw [pushStorage_cons]
  rcases put config store o.key o.bytes with ⟨error | status, after⟩
  · simp
  · dsimp only
    rcases pushStorage config after plan with ⟨error | statuses, last⟩
    · simp
    · simp

theorem pushStorage_cons_snd {o : PlannedObject} {plan : List PlannedObject}
    (h : ∃ status, (put config store o.key o.bytes).1 = .ok status) :
    (pushStorage config store (o :: plan)).2 =
      (pushStorage config (put config store o.key o.bytes).2 plan).2 := by
  obtain ⟨status, h⟩ := h
  rw [pushStorage_cons]
  rcases hput : put config store o.key o.bytes with ⟨error | status, after⟩
  · rw [hput] at h
    cases h
  · dsimp only
    rcases pushStorage config after plan with ⟨error | statuses, last⟩
    · rfl
    · rfl

namespace WellPlanned

variable {o : PlannedObject} {plan : List PlannedObject}

theorem tail (h : WellPlanned (o :: plan)) : WellPlanned plan where
  nonempty o ho := h.nonempty o (List.mem_cons_of_mem _ ho)
  names o ho := h.names o (List.mem_cons_of_mem _ ho)
  apart := (List.pairwise_cons.mp h.apart).2

theorem locate_ne_nil (h : WellPlanned plan) (ho : o ∈ plan) : locate config o.key ≠ [] := by
  rw [locate_eq (h.names o ho)]
  exact List.append_ne_nil_of_right_ne_nil _ (h.nonempty o ho)

theorem apart_head (h : WellPlanned (o :: plan)) {o' : PlannedObject} (ho : o' ∈ plan) :
    Apart (locate config o.key) (locate config o'.key) :=
  apart_locate (h.names o List.mem_cons_self) (h.names o' (List.mem_cons_of_mem _ ho))
    ((List.pairwise_cons.mp h.apart).1 o' ho)

end WellPlanned

/-- A push delivers exactly when nothing is in the way of any of its objects. -/
theorem delivers_iff {plan : List PlannedObject} (hplan : WellPlanned plan) :
    Delivers config store plan ↔ ∀ o ∈ plan, Clear config store o := by
  induction plan generalizing store with
  | nil => exact ⟨fun _ o ho => absurd ho List.not_mem_nil, fun _ => ⟨⟨[], rfl⟩, fun o ho =>
      absurd ho List.not_mem_nil⟩⟩
  | cons o plan ih =>
      constructor
      · rintro ⟨hok, hholds⟩
        obtain ⟨hput, hrest⟩ := pushStorage_cons_ok.mp hok
        rw [pushStorage_cons_snd hput] at hholds
        have hlater := (ih hplan.tail).mp
          ⟨hrest, fun o' ho' => hholds o' (List.mem_cons_of_mem _ ho')⟩
        have hfirst : Clear config store o := by
          cases hbackend : config.backend with
          | fs =>
              obtain ⟨status, hstatus⟩ := hput
              exact clear_of_putFs hbackend hstatus
          | s3 =>
              refine ⟨fun h => absurd (hbackend.symm.trans h) nofun,
                fun h => absurd (hbackend.symm.trans h) nofun, ?_⟩
              cases hentry : store (locate config o.key) with
              | none => exact .inl rfl
              | some e =>
                  have hput : (put config store o.key o.bytes).2 (locate config o.key) = some e :=
                    put_keeps hentry
                  have hkept := hholds o List.mem_cons_self
                  rw [pushStorage_keeps hput] at hkept
                  exact .inr hkept
        intro o' ho'
        rcases List.mem_cons.mp ho' with rfl | ho'
        · exact hfirst
        · exact (hlater o' ho').of_put
      · intro hclear
        obtain ⟨hput, hstored⟩ := put_of_clear (hplan.locate_ne_nil List.mem_cons_self)
          (hclear o List.mem_cons_self)
        have hnext : ∀ o' ∈ plan, Clear config (put config store o.key o.bytes).2 o' :=
          fun o' ho' => (hclear o' (List.mem_cons_of_mem _ ho')).put (hplan.apart_head ho')
        obtain ⟨hrest, hholds⟩ := (ih hplan.tail).mpr hnext
        refine ⟨pushStorage_cons_ok.mpr ⟨hput, hrest⟩, fun o' ho' => ?_⟩
        rw [pushStorage_cons_snd hput]
        rcases List.mem_cons.mp ho' with rfl | ho'
        · exact pushStorage_keeps hstored
        · exact hholds o' ho'

/-- A push into a directory that succeeds found nothing in its way. -/
theorem clear_of_pushFs {plan : List PlannedObject} (hbackend : config.backend = .fs)
    (h : ∃ statuses, (pushStorage config store plan).1 = .ok statuses) :
    ∀ o ∈ plan, Clear config store o := by
  induction plan generalizing store with
  | nil => exact fun o ho => absurd ho List.not_mem_nil
  | cons o plan ih =>
      obtain ⟨⟨status, hput⟩, hrest⟩ := pushStorage_cons_ok.mp h
      intro o' ho'
      rcases List.mem_cons.mp ho' with rfl | ho'
      · exact clear_of_putFs hbackend hput
      · exact (ih hrest o' ho').of_put

/-- A push into a bucket succeeds when the sizes fit. -/
theorem pushS3_ok_iff {plan : List PlannedObject} (hplan : WellPlanned plan)
    (hbackend : config.backend = .s3) :
    (∃ statuses, (pushStorage config store plan).1 = .ok statuses) ↔
      ∀ o ∈ plan, FreeOrSameSize config store o := by
  induction plan generalizing store with
  | nil => exact ⟨fun _ o ho => absurd ho List.not_mem_nil, fun _ => ⟨[], rfl⟩⟩
  | cons o plan ih =>
      have hrest : (∀ o' ∈ plan, FreeOrSameSize config (put config store o.key o.bytes).2 o') ↔
          ∀ o' ∈ plan, FreeOrSameSize config store o' := by
        apply forall₂_congr
        intro o' ho'
        rw [FreeOrSameSize, put_elsewhere (hplan.apart_head ho'), FreeOrSameSize]
      rw [pushStorage_cons_ok, putS3_ok_iff hbackend, ih hplan.tail, hrest,
        List.forall_mem_cons]

theorem checkObject_eq_ok {o : PlannedObject} :
    checkObject config store o = .ok .ok ↔ HasSize config store o := by
  have hcode : ∀ size : Nat, (if size ≠ o.bytes.length then CheckCode.sizeMismatch size else .ok) =
      .ok ↔ size = o.bytes.length := by
    intro size
    split_ifs with h
    · simpa using h
    · simpa using h
  unfold checkObject head HasSize
  cases config.backend with
  | fs =>
      simp only [bind_eq_ok, resolve_eq_ok, true_imp_iff]
      constructor
      · rintro ⟨size, ⟨_, ⟨hinside, rfl⟩, hsize⟩, hcheck⟩
        cases hentry : store (locate config o.key) with
        | none =>
            rw [hentry] at hsize
            cases hsize
            cases hcheck
        | some e =>
            rw [hentry] at hsize
            cases e with
            | directory =>
                cases hsize
                cases hcheck
            | file bytes =>
                cases hsize
                exact ⟨hinside, _, rfl, (hcode _).mp (pure_eq_ok.mp hcheck), nofun⟩
      · rintro ⟨hinside, e, hentry, hsize, hfile⟩
        cases e with
        | directory => exact absurd rfl hfile
        | file bytes =>
            refine ⟨some bytes.length, ⟨_, ⟨hinside, rfl⟩, ?_⟩, ?_⟩
            · rw [hentry]
              rfl
            · exact pure_eq_ok.mpr ((hcode _).mpr hsize)
  | s3 =>
      cases hentry : store (locate config o.key) with
      | none => simp [pure, Except.pure, bind, Except.bind]
      | some e => simp [bind, Except.bind, pure, Except.pure]

/-- A verification succeeds when the sizes are those planned. -/
theorem verifyStorage_eq_true {plan : List PlannedObject} :
    verifyStorage config store plan = .ok true ↔ ∀ o ∈ plan, HasSize config store o := by
  simp only [verifyStorage, bind_eq_ok, pure_eq_ok, List.all_eq_true, decide_eq_true_eq,
    mapM_eq_const, exists_eq_right, checkObject_eq_ok]

/-- Push and verification tell the truth exactly when nothing of the planned size takes the
place of a planned object: for a push into a bucket, unless some other object shows its size,
and for a verification, unless some planned object is missing or shows another size. -/
theorem truthful_iff {plan : List PlannedObject} (hplan : WellPlanned plan) :
    Truthful config store plan ↔
      (config.backend = .s3 → (∀ o ∈ plan, FreeOrSameSize config store o) →
        ∀ o ∈ plan, Clear config store o) ∧
      ((∀ o ∈ plan, HasSize config store o) → Holds config store plan) := by
  have hpush : (∃ statuses, (pushStorage config store plan).1 = .ok statuses) →
      (Holds config (pushStorage config store plan).2 plan ↔
        ∀ o ∈ plan, Clear config store o) := by
    intro hok
    rw [← delivers_iff hplan]
    exact ⟨fun hholds => ⟨hok, hholds⟩, And.right⟩
  rw [Truthful, verifyStorage_eq_true]
  apply and_congr_left'
  rw [imp_congr_right hpush]
  cases hbackend : config.backend with
  | fs => exact iff_of_true (clear_of_pushFs hbackend) nofun
  | s3 =>
      rw [pushS3_ok_iff hplan hbackend]
      exact ⟨fun h _ => h, fun h => h rfl⟩

/-! ## The plan of a tree -/

/-- The key of a package under its digest. -/
def IsDigestKey (key : List String) : Prop :=
  ∃ digest, key = ["sha256", digest] ∧ digest.toList.length = 64 ∧ digest.toList.all isHexDigit = true

/-- Keys are paths of the export, or digests, and occur once. -/
structure PlannedFrom (files : List TreeFile) (plan : List PlannedObject) : Prop where
  keys : ∀ o ∈ plan, (∃ f ∈ files, o.key = f.path) ∨ IsDigestKey o.key
  distinct : plan.Pairwise fun o o' => o.key ≠ o'.key

theorem digestOf_eq_some {base digest : String} (h : digestOf base = some digest) :
    digest.toList.length = 64 ∧ digest.toList.all isHexDigit = true := by
  unfold digestOf at h
  dsimp only at h
  split_ifs at h with hmatch
  cases h
  rw [String.toList_ofList]
  exact ⟨hmatch.1, hmatch.2.1⟩

variable {files : List TreeFile} {objects plan : List PlannedObject}

theorem PlannedFrom.addObject {o : PlannedObject} (h : PlannedFrom files objects)
    (ho : (∃ f ∈ files, o.key = f.path) ∨ IsDigestKey o.key) :
    PlannedFrom files (Cli.addObject objects o) := by
  unfold Cli.addObject
  split_ifs with hseen
  · exact h
  · have hfresh : ∀ o' ∈ objects, o'.key ≠ o.key := by
      intro o' ho' heq
      exact hseen (List.any_eq_true.mpr ⟨o', ho', decide_eq_true heq⟩)
    refine ⟨fun o' ho' => ?_, ?_⟩
    · rcases List.mem_append.mp ho' with hold | hnew
      · exact h.keys o' hold
      · rw [List.mem_singleton.mp hnew]
        exact ho
    · rw [List.pairwise_append]
      refine ⟨h.distinct, List.pairwise_singleton _ _, fun o' ho' o'' ho'' => ?_⟩
      rw [List.mem_singleton.mp ho'']
      exact hfresh o' ho'

theorem PlannedFrom.addFile {f : TreeFile} (hf : f ∈ files) (h : PlannedFrom files objects)
    (hadd : Cli.addFile sha256Hex objects f = .ok plan) : PlannedFrom files plan := by
  have hpath := h.addObject (o := plannedObject sha256Hex f.path f "static-export" none)
    (.inl ⟨f, hf, rfl⟩)
  unfold Cli.addFile at hadd
  dsimp only at hadd
  cases hdigest : (if f.top = "targets" then digestOf f.base else none) with
  | none =>
      rw [hdigest] at hadd
      cases hadd
      exact hpath
  | some digest =>
      rw [hdigest] at hadd
      dsimp only at hadd
      split_ifs at hadd hdigest with hmatch htop
      cases hadd
      exact hpath.addObject (.inr ⟨digest, rfl, digestOf_eq_some hdigest⟩)

theorem PlannedFrom.addFiles {added : List TreeFile} (hadded : ∀ f ∈ added, f ∈ files)
    (h : PlannedFrom files objects) (hadd : added.foldlM (Cli.addFile sha256Hex) objects = .ok plan) :
    PlannedFrom files plan := by
  induction added generalizing objects with
  | nil =>
      cases hadd
      exact h
  | cons f added ih =>
      rw [List.foldlM_cons] at hadd
      obtain ⟨next, hnext, hrest⟩ := bind_eq_ok.mp hadd
      exact ih (fun f hf => hadded f (List.mem_cons_of_mem _ hf))
        (h.addFile (hadded f List.mem_cons_self) hnext) hrest

theorem plannedFrom_buildUploadPlan {tree : ExportTree}
    (h : buildUploadPlan sha256Hex tree = .ok plan) : PlannedFrom tree.exported plan := by
  obtain ⟨_, -, h⟩ := bind_eq_ok.mp h
  obtain ⟨objects, hadd, h⟩ := bind_eq_ok.mp h
  obtain ⟨_, -, h⟩ := bind_eq_ok.mp h
  cases h
  have hempty : PlannedFrom tree.exported [] := ⟨nofun, .nil⟩
  exact hempty.addFiles (fun _ hf => hf) hadd

/-- A prefix of a list of its length is that list. -/
theorem apart_of_ne {path path' : List String} (hlength : path.length = path'.length)
    (hne : path ≠ path') : Apart path path' :=
  ⟨fun h => hne (h.eq_of_length hlength), fun h => hne (h.eq_of_length hlength.symm).symm⟩

theorem apart_of_head_ne {name name' : String} {path path' : List String} (hne : name ≠ name') :
    Apart (name :: path) (name' :: path') := by
  refine ⟨fun h => hne ?_, fun h => hne ?_⟩
  · exact (List.cons_prefix_cons.mp h).1
  · exact (List.cons_prefix_cons.mp h).1.symm

theorem isName_digest {digest : String} (hlength : digest.toList.length = 64)
    (hhex : digest.toList.all isHexDigit = true) : IsName digest := by
  have hshort : ∀ s : String, s.toList.length ≠ 64 → digest ≠ s := by
    rintro s hs rfl
    exact hs hlength
  refine ⟨hshort "" (by decide), hshort "." (by decide), hshort ".." (by decide), fun hmem => ?_⟩
  exact absurd (List.all_eq_true.mp hhex _ hmem) (by decide)

/-- The plan of a tree is well planned. -/
theorem wellPlanned_buildUploadPlan {tree : ExportTree}
    (h : buildUploadPlan sha256Hex tree = .ok plan) : WellPlanned plan := by
  have hplanned := plannedFrom_buildUploadPlan h
  have hfiles : ∀ f ∈ tree.exported, f ∈ tree.files ∧ f.top ∈ EXPORT_DIRS := by
    intro f hf
    obtain ⟨top, htop, hmem⟩ := List.mem_flatMap.mp hf
    obtain ⟨hmem, heq⟩ := List.mem_filter.mp hmem
    exact ⟨hmem, (of_decide_eq_true heq) ▸ htop⟩
  have hdigest : ∀ f ∈ tree.exported, ∀ key, IsDigestKey key → Apart f.path key := by
    rintro f hf _ ⟨digest, rfl, -⟩
    apply apart_of_head_ne
    intro heq
    exact absurd (heq ▸ (hfiles f hf).2) (by decide)
  have hsymm : Std.Symm fun f g : TreeFile => Apart f.path g.path := ⟨fun f g h => h.symm⟩
  refine ⟨fun o ho => ?_, fun o ho => ?_, ?_⟩
  · rcases hplanned.keys o ho with ⟨f, -, hkey⟩ | ⟨digest, hkey, -⟩
    · rw [hkey]
      exact List.cons_ne_nil _ _
    · rw [hkey]
      exact List.cons_ne_nil _ _
  · rcases hplanned.keys o ho with ⟨f, hf, hkey⟩ | ⟨digest, hkey, hlength, hhex⟩
    · rw [hkey]
      exact tree.names f (hfiles f hf).1
    · rw [hkey]
      intro name hname
      rcases List.mem_cons.mp hname with rfl | hname
      · exact ⟨by decide, by decide, by decide, by decide⟩
      · rw [List.mem_singleton.mp hname]
        exact isName_digest hlength hhex
  · refine hplanned.distinct.imp_of_mem fun {o o'} ho ho' hne => ?_
    rcases hplanned.keys o ho, hplanned.keys o' ho' with
      ⟨⟨f, hf, hkey⟩ | hkey, ⟨g, hg, hkey'⟩ | hkey'⟩
    · rw [hkey, hkey'] at hne ⊢
      exact tree.apart.forall (hfiles f hf).1 (hfiles g hg).1 fun heq => hne (heq ▸ rfl)
    · rw [hkey]
      exact hdigest f hf _ hkey'
    · rw [hkey']
      exact (hdigest g hg _ hkey).symm
    · obtain ⟨digest, heq, -⟩ := hkey
      obtain ⟨digest', heq', -⟩ := hkey'
      rw [heq, heq'] at hne ⊢
      exact apart_of_ne rfl hne

/-! ## Histories -/

variable (config) (sha256Hex)

/-- For a tree that is pushed into a store with any content: push and verification tell the
truth. -/
def TruthfulFor (store : ObjectStore) (tree : ExportTree) : Prop :=
  ∀ plan, buildUploadPlan sha256Hex tree = .ok plan → Truthful config store plan

/-- In a history of rounds, each push that is not interrupted delivers. -/
def DeliversEach (store : ObjectStore) (history : List Round) : Prop :=
  ∀ before r after plan, history = before ++ r :: after → r.stop = none →
    buildUploadPlan sha256Hex r.tree = .ok plan →
      Delivers config (before.foldl (afterRound config sha256Hex) store) plan

/-- In a history of rounds, each push that is not interrupted finds the place of each planned
object reachable, and free or with the planned bytes. -/
def ClearEach (store : ObjectStore) (history : List Round) : Prop :=
  ∀ before r after plan, history = before ++ r :: after → r.stop = none →
    buildUploadPlan sha256Hex r.tree = .ok plan →
      ∀ o ∈ plan, Clear config (before.foldl (afterRound config sha256Hex) store) o

/-- Pushes are truthful, and histories of pushes deliver, exactly when nothing of the planned
size takes the place of a planned object unnoticed and each push finds its places clear. -/
theorem storage_push_iff (store start : ObjectStore) (tree : ExportTree) (history : List Round) :
    TruthfulFor config sha256Hex store tree ∧ DeliversEach config sha256Hex start history ↔
      (∀ plan, buildUploadPlan sha256Hex tree = .ok plan →
        (config.backend = .s3 → (∀ o ∈ plan, FreeOrSameSize config store o) →
          ∀ o ∈ plan, Clear config store o) ∧
        ((∀ o ∈ plan, HasSize config store o) → Holds config store plan)) ∧
      ClearEach config sha256Hex start history := by
  apply and_congr
  · apply forall₂_congr
    intro plan hplan
    exact truthful_iff (wellPlanned_buildUploadPlan hplan)
  · apply forall₄_congr
    intro before r after _
    apply forall₃_congr
    intro _ _ hplan
    exact delivers_iff (wellPlanned_buildUploadPlan hplan)

variable {config} {sha256Hex}

/-- After a push has delivered a tree, one with other bytes at a common key does not find its
places clear. -/
theorem not_clear_of_changed {plan : List PlannedObject} {o o' : PlannedObject}
    (hdelivers : Delivers config store plan) (ho : o ∈ plan) (hkey : o.key = o'.key)
    (hchanged : o.bytes ≠ o'.bytes) :
    ¬ Clear config (pushStorage config store plan).2 o' := by
  intro hclear
  have hstored := hdelivers.2 o ho
  have hcontent := hclear.content
  rw [← hkey, hstored] at hcontent
  rcases hcontent with hnone | hsame
  · cases hnone
  · exact hchanged (Entry.file.inj (Option.some.inj hsame))

/-! ## The second publish -/

def directoryConfig : StorageConfig where
  backend := .fs
  base := ["srv", "store"]
  storagePrefix := ["mirror", "v1"]

/-- What a source without packages exports after its first publish. -/
def firstExport : ExportTree where
  files :=
    [⟨".well-known", [], "useful-repository.json", [123, 125]⟩,
      ⟨"metadata", [], "1.root.json", [1]⟩, ⟨"metadata", [], "1.snapshot.json", [2]⟩,
      ⟨"metadata", [], "1.targets.json", [3]⟩, ⟨"metadata", [], "timestamp.json", [4, 1]⟩,
      ⟨"catalog", [], "snapshot.json", [5]⟩]
  names := by decide
  apart := by decide

/-- The same source after its second publish: the versions and the timestamp go on. -/
def secondExport : ExportTree where
  files :=
    [⟨".well-known", [], "useful-repository.json", [123, 125]⟩,
      ⟨"metadata", [], "1.root.json", [1]⟩, ⟨"metadata", [], "1.snapshot.json", [2]⟩,
      ⟨"metadata", [], "1.targets.json", [3]⟩, ⟨"metadata", [], "2.snapshot.json", [2, 2]⟩,
      ⟨"metadata", [], "2.targets.json", [3, 2]⟩, ⟨"metadata", [], "timestamp.json", [4, 2]⟩,
      ⟨"catalog", [], "snapshot.json", [5]⟩]
  names := by decide
  apart := by decide

/-- What is planned for an export without packages. -/
def plannedExport (sha256Hex : List Nat → String) (files : List TreeFile) :
    List PlannedObject :=
  files.map fun f => plannedObject sha256Hex f.path f "static-export" none

theorem addFiles_without_packages (sha256Hex : List Nat → String) {added : List TreeFile}
    (htargets : ∀ f ∈ added, f.top ≠ "targets")
    (hdistinct : added.Pairwise fun f g => f.path ≠ g.path)
    (hfresh : ∀ o ∈ objects, ∀ f ∈ added, o.key ≠ f.path) :
    added.foldlM (addFile sha256Hex) objects = .ok (objects ++ plannedExport sha256Hex added) := by
  induction added generalizing objects with
  | nil => simp [plannedExport, pure, Except.pure]
  | cons f added ih =>
      obtain ⟨hhead, hdistinct⟩ := List.pairwise_cons.mp hdistinct
      have hunseen : ¬ objects.any (fun o => decide (o.key = f.path)) = true := by
        rw [Bool.not_eq_true, List.any_eq_false]
        intro o ho
        simpa using hfresh o ho f List.mem_cons_self
      have hobject : addObject objects (plannedObject sha256Hex f.path f "static-export" none) =
          objects ++ [plannedObject sha256Hex f.path f "static-export" none] :=
        if_neg hunseen
      have hadd : addFile sha256Hex objects f =
          .ok (objects ++ [plannedObject sha256Hex f.path f "static-export" none]) := by
        unfold addFile
        rw [if_neg (htargets f List.mem_cons_self), hobject]
      have hnext : ∀ o ∈ objects ++ [plannedObject sha256Hex f.path f "static-export" none],
          ∀ g ∈ added, o.key ≠ g.path := by
        intro o ho g hg
        rcases List.mem_append.mp ho with hold | hnew
        · exact hfresh o hold g (List.mem_cons_of_mem _ hg)
        · rw [List.mem_singleton.mp hnew]
          exact hhead g hg
      rw [List.foldlM_cons, bind_of_eq_ok hadd,
        ih (fun g hg => htargets g (List.mem_cons_of_mem _ hg)) hdistinct hnext]
      simp [plannedExport]

theorem plan_without_packages (sha256Hex : List Nat → String) {tree : ExportTree}
    (hdiscovery : tree.files.any (·.path = [".well-known", "useful-repository.json"]) = true)
    (htargets : ∀ f ∈ tree.exported, f.top ≠ "targets")
    (hdistinct : tree.exported.Pairwise fun f g => f.path ≠ g.path)
    (hkeys : tree.exported.any (fun f => leaksKeys f.path) = false) :
    buildUploadPlan sha256Hex tree = .ok (plannedExport sha256Hex tree.exported) := by
  have hadd : tree.exported.foldlM (addFile sha256Hex) [] =
      .ok ([] ++ plannedExport sha256Hex tree.exported) :=
    addFiles_without_packages sha256Hex htargets hdistinct nofun
  have hleaks : (plannedExport sha256Hex tree.exported).any (fun o => leaksKeys o.key) = false := by
    rw [plannedExport, List.any_map]
    exact hkeys
  rw [buildUploadPlan, failIf, if_neg (not_not.mpr hdiscovery)]
  rw [List.nil_append] at hadd
  refine bind_eq_ok.mpr ⟨⟨⟩, rfl, bind_eq_ok.mpr ⟨_, hadd, ?_⟩⟩
  rw [hleaks]
  rfl

theorem plan_firstExport (sha256Hex : List Nat → String) :
    buildUploadPlan sha256Hex firstExport = .ok (plannedExport sha256Hex firstExport.exported) :=
  plan_without_packages sha256Hex (by decide) (by decide) (by decide) (by decide)

theorem plan_secondExport (sha256Hex : List Nat → String) :
    buildUploadPlan sha256Hex secondExport = .ok (plannedExport sha256Hex secondExport.exported) :=
  plan_without_packages sha256Hex (by decide) (by decide) (by decide) (by decide)

/-- Two publishes of one source, each pushed into the same directory: the second push is
refused at the timestamp. -/
theorem second_push_refused : ¬ ∀ sha256Hex store start tree history,
    TruthfulFor directoryConfig sha256Hex store tree ∧
      DeliversEach directoryConfig sha256Hex start history := by
  intro hall
  let sha256Hex : List Nat → String := fun _ => ""
  have hdelivers := (hall sha256Hex (fun _ => none) (fun _ => none) firstExport
    [⟨firstExport, none⟩, ⟨secondExport, none⟩]).2
  have hfirst := hdelivers [] _ _ _ rfl rfl (plan_firstExport sha256Hex)
  have hsecond := hdelivers [⟨firstExport, none⟩] _ _ _ rfl rfl (plan_secondExport sha256Hex)
  have hstore : [⟨firstExport, none⟩].foldl (afterRound directoryConfig sha256Hex)
      (fun _ => none) = (pushStorage directoryConfig (fun _ => none)
        (plannedExport sha256Hex firstExport.exported)).2 := by
    rw [List.foldl_cons, List.foldl_nil, afterRound, plan_firstExport]
  rw [hstore] at hsecond
  have hclear := (delivers_iff (wellPlanned_buildUploadPlan (plan_secondExport sha256Hex))).mp
    hsecond
  let old : TreeFile := ⟨"metadata", [], "timestamp.json", [4, 1]⟩
  let new : TreeFile := ⟨"metadata", [], "timestamp.json", [4, 2]⟩
  have hold : old ∈ firstExport.exported := by
    simp [old, ExportTree.exported, firstExport, EXPORT_DIRS]
  have hnew : new ∈ secondExport.exported := by
    simp [new, ExportTree.exported, secondExport, EXPORT_DIRS]
  have hplanned := List.mem_map_of_mem
    (f := fun f => plannedObject sha256Hex f.path f "static-export" none) hnew
  refine not_clear_of_changed hfirst (List.mem_map_of_mem hold) ?_ ?_ (hclear _ hplanned)
  · rfl
  · decide

end Useful.Cli
