/-
# Snapshots of processes and their differences

A sample lists the processes of one moment. `diff` compares two samples: a process that was
not there before is sent whole, one that stays is sent with its dynamic metrics, and only if
they changed, and of one that left the key is sent.

Numbers go to the front end as JSON numbers. Seconds, bytes and counts are below 2^53, where
these are exact.
-/

import Useful.Math.Table
import Useful.Math.Text
import Mathlib.Data.Rat.Defs
import Mathlib.Data.String.Basic

namespace Useful.Procmon

open Useful.Math

/-- A `u64` that a JSON number holds exactly. -/
abbrev SafeInteger := Fin (2 ^ 53)

/-- A PID and a start time in Unix seconds. -/
structure ProcessIdentity where
  pid : UInt32
  startTime : SafeInteger
  deriving DecidableEq

/-- `ProcessIdentity::key`, and `keyOf` in the front end. -/
def ProcessIdentity.key (identity : ProcessIdentity) : String :=
  String.ofList (decimalNat identity.pid.toNat ++ ':' :: decimalNat identity.startTime.val)

inductive Metric (α : Type)
  | available (value : α)
  | unavailable
  deriving DecidableEq

structure StaticInfo where
  name : String
  exePath : Option String
  cmdLine : Option String
  publisher : Option String
  iconKey : Option String
  parent : Option ProcessIdentity
  deriving DecidableEq

structure DynamicMetrics where
  cpu : ℚ
  workingSet : SafeInteger
  privateBytes : SafeInteger
  diskRead : SafeInteger
  diskWrite : SafeInteger
  netUp : Metric SafeInteger
  netDown : Metric SafeInteger
  tcpConnections : Metric UInt32
  udpEndpoints : Metric UInt32
  gpu : Metric ℚ
  gpuMemory : Metric SafeInteger
  threads : UInt32
  handles : Metric UInt32
  deriving DecidableEq

/-- `DynamicMetrics::differs` -/
def DynamicMetrics.differs (metrics other : DynamicMetrics) : Bool := metrics ≠ other

structure ProcessSnapshot where
  identity : ProcessIdentity
  static : StaticInfo
  dynamic : DynamicMetrics
  deriving DecidableEq

def ProcessSnapshot.key (snapshot : ProcessSnapshot) : String := snapshot.identity.key

structure UpdatedProcess where
  key : String
  dynamic : DynamicMetrics
  deriving DecidableEq

structure ProcessDelta where
  added : List ProcessSnapshot
  updated : List UpdatedProcess
  removed : List String
  deriving DecidableEq

/-- What one sampling returns: processes with different identities. -/
abbrev Sample := Table ProcessSnapshot ProcessSnapshot.identity

/-- The rows are in the order of an iteration. -/
abbrev SnapshotMap := Table ProcessSnapshot ProcessSnapshot.key

/-- `build_map` -/
def buildMap (snapshots : List ProcessSnapshot) : SnapshotMap :=
  snapshots.foldl Table.put .empty

/-- The order of identities. -/
def ProcessIdentity.le (identity other : ProcessIdentity) : Bool :=
  identity.pid < other.pid ||
    identity.pid = other.pid && identity.startTime ≤ other.startTime

/-- The order of keys. -/
def keyLe (key other : String) : Bool := key ≤ other

def diff (prev next : SnapshotMap) : ProcessDelta where
  added := (next.rows.filter fun snapshot => (prev.find snapshot.key).isNone).mergeSort
    fun a b => a.identity.le b.identity
  updated := (next.rows.filterMap fun snapshot =>
    match prev.find snapshot.key with
    | none => none
    | some old =>
        if old.dynamic.differs snapshot.dynamic then some ⟨snapshot.key, snapshot.dynamic⟩
        else none).mergeSort fun a b => keyLe a.key b.key
  removed := ((prev.rows.filter fun snapshot => (next.find snapshot.key).isNone).map
    ProcessSnapshot.key).mergeSort keyLe

/-! ## Keys -/

theorem ProcessIdentity.key_injective : Function.Injective ProcessIdentity.key := by
  intro a b heq
  have hcolon : ∀ rest : List Char, RestAvoids (fun c => c.isDigit = true) (':' :: rest) := by
    intro rest
    rw [restAvoids_cons]
    decide
  obtain ⟨hpid, hstart⟩ := digits_append_inj (fun _ => isDigit_of_mem_decimalNat)
    (fun _ => isDigit_of_mem_decimalNat) (hcolon _) (hcolon _) (String.ofList_injective heq)
  rw [List.cons.injEq] at hstart
  have hpid' := UInt32.toNat_inj.mp (decimalNat_injective hpid)
  have hstart' := Fin.val_injective (decimalNat_injective hstart.2)
  cases a
  cases b
  cases hpid'
  cases hstart'
  rfl

/-- Samples have different keys. -/
theorem Sample.nodup_key (sample : Sample) : (sample.rows.map ProcessSnapshot.key).Nodup := by
  have hmap : sample.rows.map ProcessSnapshot.key =
      (sample.rows.map ProcessSnapshot.identity).map ProcessIdentity.key := by
    rw [List.map_map]
    rfl
  rw [hmap]
  exact sample.nodup.map ProcessIdentity.key_injective

/-- The map of a sample holds its processes. -/
theorem find_buildMap (sample : Sample) (identity : ProcessIdentity) :
    (buildMap sample.rows).find identity.key = sample.find identity := by
  cases hfind : sample.find identity with
  | some snapshot =>
      obtain ⟨hmem, rfl⟩ := Table.find_eq_some.mp hfind
      exact Table.find_foldl_put_of_mem sample.nodup_key hmem _
  | none =>
      refine (Table.find_foldl_put_of_notMem (fun hmem => ?_) _).trans rfl
      obtain ⟨snapshot, hmem, hkey⟩ := List.mem_map.mp hmem
      exact Table.find_eq_none.mp hfind snapshot hmem (ProcessIdentity.key_injective hkey)

/-! ## What a difference says -/

variable {prev next : SnapshotMap}

theorem mem_added {snapshot : ProcessSnapshot} :
    snapshot ∈ (diff prev next).added ↔ snapshot ∈ next.rows ∧ prev.find snapshot.key = none := by
  simp [diff, List.mem_mergeSort, List.mem_filter]

theorem mem_updated {update : UpdatedProcess} :
    update ∈ (diff prev next).updated ↔ ∃ snapshot ∈ next.rows, ∃ old,
      prev.find snapshot.key = some old ∧ old.dynamic ≠ snapshot.dynamic ∧
        update = ⟨snapshot.key, snapshot.dynamic⟩ := by
  rw [diff, List.mem_mergeSort, List.mem_filterMap]
  refine exists_congr fun snapshot => and_congr_right fun _ => ?_
  cases prev.find snapshot.key with
  | none => simp
  | some old =>
      constructor
      · intro hsome
        obtain ⟨hdiffers, heq⟩ := Option.ite_none_right_eq_some.mp hsome
        cases heq
        exact ⟨old, rfl, of_decide_eq_true hdiffers, rfl⟩
      · rintro ⟨_, heq, hne, rfl⟩
        cases heq
        exact if_pos (decide_eq_true hne)

theorem mem_removed {key : String} :
    key ∈ (diff prev next).removed ↔ prev.find key ≠ none ∧ next.find key = none := by
  rw [diff, List.mem_mergeSort, List.mem_map]
  constructor
  · rintro ⟨snapshot, hmem, rfl⟩
    obtain ⟨hprev, hnext⟩ := List.mem_filter.mp hmem
    refine ⟨fun hnone => Table.find_eq_none.mp hnone snapshot hprev rfl, ?_⟩
    simpa using hnext
  · rintro ⟨hprev, hnext⟩
    obtain ⟨snapshot, hfind⟩ := Option.ne_none_iff_exists'.mp hprev
    obtain ⟨hmem, rfl⟩ := Table.find_eq_some.mp hfind
    exact ⟨snapshot, List.mem_filter.mpr ⟨hmem, Option.isNone_iff_eq_none.mpr hnext⟩, rfl⟩

theorem nodup_added : ((diff prev next).added.map ProcessSnapshot.key).Nodup :=
  ((List.mergeSort_perm _ _).map _).nodup_iff.mpr
    (next.nodup.sublist (List.filter_sublist.map _))

theorem nodup_updated : ((diff prev next).updated.map UpdatedProcess.key).Nodup := by
  refine ((List.mergeSort_perm _ _).map _).nodup_iff.mpr (List.pairwise_map.mpr ?_)
  refine List.Pairwise.filterMap _ ?_ (List.pairwise_map.mp next.nodup)
  intro a b hne
  cases prev.find a.key with
  | none => exact fun _ heq => nomatch heq
  | some old =>
      intro update hupdate
      obtain ⟨-, heq⟩ := Option.ite_none_right_eq_some.mp hupdate
      cases heq
      cases prev.find b.key with
      | none => exact fun _ heq => nomatch heq
      | some old' =>
          intro update' hupdate'
          obtain ⟨-, heq⟩ := Option.ite_none_right_eq_some.mp hupdate'
          cases heq
          exact hne

end Useful.Procmon
