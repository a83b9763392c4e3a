/-
# Reading the metadata

What a reader finds who starts at `timestamp.json` and follows the versions pinned in it:
the snapshot, and from there the targets. The reader knows nothing of the signer but that
`json.Unmarshal` reads back what `json.MarshalIndent` has written.
-/

import Useful.Server.Metadata
import Useful.Server.Repository

namespace Useful.Math.Json

universe u

variable {ν : Type u}

/-- The value of a key, in an object that has it. -/
def member (key : String) : Json ν → Option (Json ν)
  | .obj members => members.lookup key
  | _ => none

def text? : Json ν → Option String
  | .str s => some s
  | _ => none

/-- Sorting the keys leaves each key its value, sorted in turn. -/
theorem member_sortKeys (le : String → String → Prop) [DecidableRel le]
    {members : List (String × Json ν)} (h : (members.map Prod.fst).Nodup) (key : String) :
    member key (sortKeys le (.obj members)) = (members.lookup key).map (sortKeys le) := by
  have hkeys : ((members.map fun m => (m.1, sortKeys le m.2)).map Prod.fst).Nodup := by
    rw [List.map_map]
    exact h
  rw [sortKeys_obj, ← lookup_map]
  exact (lookup_perm hkeys (List.perm_insertionSort _ _).symm key).symm

end Useful.Math.Json

namespace Useful.Server

open Useful.Math Useful.TufMeta Useful.Math.Json

/-! ## A reader -/

def int? : Json GoNumber → Option Int
  | .num (.int n) => some n
  | _ => none

/-- What a parent says about its child. -/
structure Pin where
  version : Int
  length : Int
  sha256 : String
  deriving DecidableEq

section

variable {β : Type} (parse : β → Option (Json GoNumber))

/-- The signed part of a document. -/
def signedPart (bytes : β) : Option (Json GoNumber) := (parse bytes).bind (member "signed")

def versionOf (bytes : β) : Option Int :=
  (signedPart parse bytes).bind fun signed => (member "version" signed).bind int?

def pinOf (bytes : β) (name : String) : Option Pin := do
  let signed ← signedPart parse bytes
  let entry ← (member "meta" signed).bind (member name)
  let version ← (member "version" entry).bind int?
  let length ← (member "length" entry).bind int?
  let sha256 ← ((member "hashes" entry).bind (member "sha256")).bind text?
  return ⟨version, length, sha256⟩

/-- The targets by name. -/
def targetsOf (bytes : β) : Option (List (String × Json GoNumber)) :=
  (signedPart parse bytes).bind fun signed =>
    match member "targets" signed with
    | some (.obj members) => some members
    | _ => none

/-- The documents reached from a timestamp. -/
structure Reached (β : Type) where
  timestamp : β
  snapshotPin : Pin
  snapshot : β
  targetsPin : Pin
  targets : β

def timestampKey : String := metadataKey "timestamp.json"

def snapshotKey (version : Int) : String := metadataKey s!"{version}.snapshot.json"

def targetsKey (version : Int) : String := metadataKey s!"{version}.targets.json"

/-- Follow the versions that `timestamp.json` and the snapshot pin. -/
def reach (objects : String → Option β) : Option (Reached β) := do
  let timestamp ← objects timestampKey
  let snapshotPin ← pinOf parse timestamp "snapshot.json"
  let snapshot ← objects (snapshotKey snapshotPin.version)
  let targetsPin ← pinOf parse snapshot "targets.json"
  let targets ← objects (targetsKey targetsPin.version)
  return ⟨timestamp, snapshotPin, snapshot, targetsPin, targets⟩

/-- The documents carry one version, and each pins the exact bytes of the next. -/
def Reached.Closed (env : External β) (r : Reached β) (version : Int) : Prop :=
  versionOf parse r.timestamp = some version ∧ versionOf parse r.snapshot = some version ∧
    versionOf parse r.targets = some version ∧
    r.snapshotPin = ⟨version, env.length r.snapshot, env.sha256Hex r.snapshot⟩ ∧
    r.targetsPin = ⟨version, env.length r.targets, env.sha256Hex r.targets⟩

/-- The artifact is a target, with the entry that the server makes for it. -/
def Reached.Lists (env : External β) (r : Reached β) (art : Artifact) : Prop :=
  ∃ name members, artifactTargetName env art = .ok name ∧ targetsOf parse r.targets = some members ∧
    (name, sortKeys Tuf.byteLe (targetJson (targetEntry art))) ∈ members

/-- No target has the name of the artifact. -/
def Reached.Omits (env : External β) (r : Reached β) (art : Artifact) : Prop :=
  ∀ name members, artifactTargetName env art = .ok name → targetsOf parse r.targets = some members →
    name ∉ members.map Prod.fst

/-! ## Reading what was signed -/

def isInt : GoNumber → Bool
  | .int _ => true
  | _ => false

/-- `json.Unmarshal` reads back what `json.MarshalIndent` has written, for values without
fractions. -/
def ReadsBack (env : External β) : Prop :=
  ∀ v : Json GoNumber, v.DistinctKeys → v.anyNum (fun n => ! isInt n) = false →
    parse (env.marshalIndent (sortKeys Tuf.byteLe v)) = some (sortKeys Tuf.byteLe v)

/-- A document that can be signed and read back. -/
structure Readable (signed : Json GoNumber) : Prop where
  distinct : signed.DistinctKeys
  ints : signed.anyNum (fun n => ! isInt n) = false

variable {parse} {env : External β}

theorem signedPart_sign {signed : Json GoNumber} {key : Key} {bytes : β}
    (hparse : ReadsBack parse env) (hsigned : Readable signed)
    (h : sign env signed key = .ok bytes) :
    signedPart parse bytes = some (sortKeys Tuf.byteLe signed) := by
  obtain ⟨message, -, h⟩ := bind_eq_ok.mp h
  obtain ⟨-, -, h⟩ := bind_eq_ok.mp h
  cases h
  unfold signedPart
  rw [hparse]
  · rw [Option.bind_some, member_sortKeys Tuf.byteLe (by simp)]
    rfl
  · have hdistinct := hsigned.distinct
    unfold DistinctKeys at hdistinct ⊢
    simp [hdistinct]
  · have hints := hsigned.ints
    simp [hints]

theorem readable_targetJson (target : TargetEntry) (h : Readable (.obj target.custom)) :
    Readable (targetJson target) := by
  obtain ⟨hdistinct, hints⟩ := h
  unfold DistinctKeys at hdistinct
  constructor
  · unfold DistinctKeys targetJson
    simp [hdistinct]
  · unfold targetJson
    simpa [isInt] using hints

theorem readable_custom (art : Artifact) : Readable (.obj (targetEntry art).custom) := by
  constructor
  · unfold DistinctKeys targetEntry
    simp
  · unfold targetEntry
    simp

theorem readable_buildTargets {version expires : Int} {targets : List (String × TargetEntry)}
    (hnames : (targets.map Prod.fst).Nodup)
    (htargets : ∀ target ∈ targets, Readable (targetJson target.2)) :
    Readable (buildTargets env version expires targets) := by
  have hkeys : ((targets.map fun target => (target.1, targetJson target.2)).map
      Prod.fst).Nodup := by
    rw [List.map_map]
    exact hnames
  have hdistinct : (Json.obj (targets.map fun target =>
      (target.1, targetJson target.2))).DistinctKeys := by
    refine (forallObjects_obj _ _).mpr ⟨hkeys, ?_⟩
    rw [List.forall_mem_map]
    exact fun target hmem => (htargets target hmem).distinct
  have hints : (Json.obj (targets.map fun target => (target.1, targetJson target.2))).anyNum
      (fun n => ! isInt n) = false := by
    rw [anyNum_obj, List.any_map, List.any_eq_false]
    intro target hmem
    simp [(htargets target hmem).ints]
  unfold DistinctKeys at hdistinct
  unfold buildTargets
  constructor
  · unfold DistinctKeys
    rw [forallObjects_obj]
    simp only [List.forall_mem_cons]
    exact ⟨by simp, trivial, trivial, trivial, trivial, hdistinct, fun _ h => absurd h List.not_mem_nil⟩
  · rw [anyNum_obj]
    simp only [List.any_cons, hints]
    simp [isInt]

theorem readable_buildSnapshot {version expires : Int} {bytes : β} {child : Int} :
    Readable (buildSnapshot env version expires bytes child) := by
  constructor
  · unfold DistinctKeys buildSnapshot metaEntry
    simp
  · unfold buildSnapshot metaEntry
    simp [isInt]

theorem readable_buildTimestamp {version expires : Int} {bytes : β} {child : Int} :
    Readable (buildTimestamp env version expires bytes child) := by
  constructor
  · unfold DistinctKeys buildTimestamp metaEntry
    simp
  · unfold buildTimestamp metaEntry
    simp [isInt]

/-! ### A signed release -/

/-- What a reader finds in the three documents of a release. -/
structure ReadRelease (parse : β → Option (Json GoNumber)) (env : External β) (version : Int)
    (entries : List (String × TargetEntry)) (release : Release β) : Prop where
  timestamp : versionOf parse release.timestampBytes = some version
  snapshot : versionOf parse release.snapshotBytes = some version
  targets : versionOf parse release.targetsBytes = some version
  snapshotPin : pinOf parse release.timestampBytes "snapshot.json" =
    some ⟨version, env.length release.snapshotBytes, env.sha256Hex release.snapshotBytes⟩
  targetsPin : pinOf parse release.snapshotBytes "targets.json" =
    some ⟨version, env.length release.targetsBytes, env.sha256Hex release.targetsBytes⟩
  members : ∃ members, targetsOf parse release.targetsBytes = some members ∧
    members.Perm (entries.map fun target =>
      (target.1, sortKeys Tuf.byteLe (targetJson target.2)))

section

variable {bytes : β} {members : List (String × Json GoNumber)}
  (h : signedPart parse bytes = some (sortKeys Tuf.byteLe (.obj members)))
  (hnodup : (members.map Prod.fst).Nodup)

include h hnodup

theorem versionOf_signed {version : Int} (hlookup : members.lookup "version" = some (.num (.int version))) :
    versionOf parse bytes = some version := by
  unfold versionOf
  rw [h, Option.bind_some, member_sortKeys Tuf.byteLe hnodup, hlookup]
  rfl

theorem pinOf_signed {name : String} {child : β} {version : Int}
    (hlookup : members.lookup "meta" = some (.obj [(name, metaEntry env child version)])) :
    pinOf parse bytes name = some ⟨version, env.length child, env.sha256Hex child⟩ := by
  have hentry : ((members.lookup "meta").map (sortKeys Tuf.byteLe)).bind (member name) =
      some (sortKeys Tuf.byteLe (metaEntry env child version)) := by
    rw [hlookup, Option.map_some, Option.bind_some, member_sortKeys Tuf.byteLe (by simp),
      List.lookup_cons_self]
    rfl
  have hfields : ([("version", Json.num (GoNumber.int version)),
      ("length", .num (.int (env.length child))),
      ("hashes", .obj [("sha256", .str (env.sha256Hex child))])].map Prod.fst).Nodup := by
    simp
  have hhash : member "sha256" (sortKeys Tuf.byteLe
      (.obj [("sha256", .str (env.sha256Hex child))] : Json GoNumber)) =
      some (.str (env.sha256Hex child)) := by
    rw [member_sortKeys Tuf.byteLe (by simp), List.lookup_cons_self]
    rfl
  unfold metaEntry at hentry
  unfold pinOf
  simp only [h, member_sortKeys Tuf.byteLe hnodup, hentry, member_sortKeys Tuf.byteLe hfields,
    Option.bind_eq_bind, Option.bind_some]
  rw [show List.lookup "hashes" _ = some (Json.obj [("sha256", .str (env.sha256Hex child))]) from rfl,
    Option.map_some, Option.bind_some, hhash]
  rfl

theorem targetsOf_signed {targets : List (String × Json GoNumber)}
    (hlookup : members.lookup "targets" = some (.obj targets)) :
    ∃ found, targetsOf parse bytes = some found ∧
      found.Perm (targets.map fun target => (target.1, sortKeys Tuf.byteLe target.2)) := by
  unfold targetsOf
  rw [h, Option.bind_some, member_sortKeys Tuf.byteLe hnodup, hlookup, Option.map_some, sortKeys_obj]
  exact ⟨_, rfl, List.perm_insertionSort _ _⟩

end

/-- What is signed as a release is read as one. -/
theorem readRelease_signRelease {keys : MetadataKeys} {version now : Int}
    {targets : List (String × TargetEntry)} {release : Release β} (hparse : ReadsBack parse env)
    (hnames : (targets.map Prod.fst).Nodup)
    (htargets : ∀ target ∈ targets, Readable (targetJson target.2))
    (h : signRelease env keys version now targets = .ok release) :
    ReadRelease parse env version targets release := by
  obtain ⟨targetsBytes, htargetsSigned, h⟩ := bind_eq_ok.mp h
  obtain ⟨snapshotBytes, hsnapshotSigned, h⟩ := bind_eq_ok.mp h
  obtain ⟨timestampBytes, htimestampSigned, h⟩ := bind_eq_ok.mp h
  cases h
  have htargetsPart := signedPart_sign hparse (readable_buildTargets hnames htargets) htargetsSigned
  have hsnapshotPart := signedPart_sign hparse readable_buildSnapshot hsnapshotSigned
  have htimestampPart := signedPart_sign hparse readable_buildTimestamp htimestampSigned
  constructor
  · exact versionOf_signed htimestampPart (by simp) rfl
  · exact versionOf_signed hsnapshotPart (by simp) rfl
  · exact versionOf_signed htargetsPart (by simp) rfl
  · exact pinOf_signed htimestampPart (by simp) rfl
  · exact pinOf_signed hsnapshotPart (by simp) rfl
  · obtain ⟨found, hfound, hperm⟩ := targetsOf_signed htargetsPart (by simp) rfl
    rw [List.map_map] at hperm
    exact ⟨found, hfound, hperm⟩

end

end Useful.Server
