/-
# Accepted TUF state of a source

The client stores, for each source, the four TUF versions it has accepted and
the digests they were accepted with. `accept_trp_tuf_state` compares a verified
candidate with the stored state and replaces it in a SQLite write transaction of
its own; `accept_trp_tuf_state_in_transaction` does the same inside a transaction
of its caller. Several connections may be at work on one database file, so the
store is a machine: a committed table, at most one connection with a working
copy, and a program counter for each connection.

`Advances` is what the component is for: a stored version never decreases, and a
version never changes its digest.
-/

import Useful.Math.Transition
import Useful.Math.Checks
import Useful.Math.Unicode
import Mathlib.Logic.Function.Basic

namespace Useful.Core

open Useful.Math

/-! ## The program: `crates/useful-core/src/db.rs` -/

inductive CoreError
  | db (detail : String)
  | trustState (detail : String)
  deriving DecidableEq, Repr

structure TrpTufVersions where
  root : Nat
  timestamp : Nat
  snapshot : Nat
  targets : Nat
  deriving DecidableEq, Repr

structure TrpTufState where
  versions : TrpTufVersions
  rootSha256 : String
  timestampSha256 : String
  snapshotSha256 : String
  targetsSha256 : String
  deriving DecidableEq, Repr

/-- A row of `trp_sources`, without its display columns. The version columns are
`i64` with a check that they are not negative, so the casts to `u64` are
identities on them. -/
structure SourceRow where
  discoveryUrl : String
  rootKeyFingerprint : String
  enabled : Bool
  tuf : TrpTufState
  deriving DecidableEq, Repr

/-- The table, by its primary key. -/
abbrev Sources := String → Option SourceRow

/-- The arguments of `accept_trp_tuf_state`. -/
structure AcceptCall where
  sourceId : String
  expectedDiscoveryUrl : String
  expectedRootFingerprint : String
  candidate : TrpTufState
  deriving DecidableEq, Repr

/-- A statement inside the transaction that fails, with SQLite's text. -/
inductive SqlFault
  | select (detail : String)
  | update (detail : String)
  deriving DecidableEq, Repr

def i64Max : Nat := 2 ^ 63 - 1

/-- 64 lower-case hexadecimal digits. -/
def isCanonicalDigest (digest : String) : Bool :=
  let bytes := utf8 digest.toList
  bytes.length == 64 && bytes.all fun byte =>
    (48 ≤ byte && byte ≤ 57) || (97 ≤ byte && byte ≤ 102)

/-- `trp_tuf_state`. -/
def trpTufState (rows : Sources) (sourceId : String) (fault : Option SqlFault) :
    Except CoreError TrpTufState :=
  match fault with
  | some (.select detail) => .error (.db detail)
  | _ => orFail (.db "Query returned no rows") ((rows sourceId).map SourceRow.tuf)

/-- The body of the loop over the four roles. -/
def checkRole (entry : String × Nat × Nat × String × String) : Except CoreError Unit := do
  let (role, old, new, oldDigest, newDigest) := entry
  failIf (new < old) (.trustState s!"{role} metadata 从 {old} 回滚到 {new}")
  failIf (old ≠ 0 ∧ new = old ∧ newDigest ≠ oldDigest)
    (.trustState s!"{role} metadata 同版本摘要发生变化")

/-- The table the loop runs over. -/
def roleEntries (last candidate : TrpTufState) : List (String × Nat × Nat × String × String) :=
  [("root", last.versions.root, candidate.versions.root, last.rootSha256,
      candidate.rootSha256),
    ("timestamp", last.versions.timestamp, candidate.versions.timestamp, last.timestampSha256,
      candidate.timestampSha256),
    ("snapshot", last.versions.snapshot, candidate.versions.snapshot, last.snapshotSha256,
      candidate.snapshotSha256),
    ("targets", last.versions.targets, candidate.versions.targets, last.targetsSha256,
      candidate.targetsSha256)]

/-- The `WHERE` clause of the update, on the row with the given id. -/
def updateMatches (row : SourceRow) (call : AcceptCall) : Bool :=
  row.discoveryUrl == call.expectedDiscoveryUrl &&
    row.rootKeyFingerprint == call.expectedRootFingerprint && row.enabled &&
    row.tuf.versions.root ≤ call.candidate.versions.root &&
    row.tuf.versions.timestamp ≤ call.candidate.versions.timestamp &&
    row.tuf.versions.snapshot ≤ call.candidate.versions.snapshot &&
    row.tuf.versions.targets ≤ call.candidate.versions.targets

/-- The update statement: the new table and the number of rows changed. -/
def updateTuf (rows : Sources) (call : AcceptCall) : Sources × Nat :=
  match rows call.sourceId with
  | none => (rows, 0)
  | some row =>
      if updateMatches row call then
        (Function.update rows call.sourceId (some { row with tuf := call.candidate }), 1)
      else (rows, 0)

/-- `accept_trp_tuf_state_in_transaction`, on the working copy of the transaction. -/
def acceptTrpTufStateInTransaction (rows : Sources) (call : AcceptCall)
    (fault : Option SqlFault) : Except CoreError Sources := do
  let candidate := call.candidate
  let versions := candidate.versions
  failIf ([versions.root, versions.timestamp, versions.snapshot, versions.targets].any
      fun value => value > i64Max)
    (.trustState "TUF 版本超出 SQLite 整数范围")
  failIf ([candidate.rootSha256, candidate.timestampSha256, candidate.snapshotSha256,
      candidate.targetsSha256].any fun digest => !isCanonicalDigest digest)
    (.trustState "TUF metadata 摘要必须为 canonical lowercase SHA-256")
  let last ← trpTufState rows call.sourceId fault
  forM (roleEntries last candidate) checkRole
  match fault with
  | some (.update detail) => .error (.db detail)
  | _ => do
      let (rows', changed) := updateTuf rows call
      failIf (changed ≠ 1) (.trustState "源不存在、身份已变化或并发验证已接受更高版本")
      return rows'

/-- `UPDATE trp_sources SET enabled = ?2 WHERE id = ?1`. -/
def setEnabled (rows : Sources) (sourceId : String) (enabled : Bool) : Sources :=
  match rows sourceId with
  | none => rows
  | some row => Function.update rows sourceId (some { row with enabled := enabled })

/-! ## Connections and transactions -/

/-- Where a connection stands. `accept_trp_tuf_state` passes through `accepting`,
its transaction begun, and `closing`, its body done with a result. -/
inductive Phase
  | idle
  | inTransaction
  | accepting (call : AcceptCall)
  | closing (call : AcceptCall) (result : Except CoreError Unit)

/-- The database file and its connections. The writer holds SQLite's write lock
and a working copy; all others read the committed table. -/
structure Store where
  committed : Sources
  writer : Option (Nat × Sources)
  phase : Nat → Phase

namespace Store

/-- Move a connection to another phase. -/
def moveTo (s : Store) (c : Nat) (p : Phase) : Store :=
  { s with phase := Function.update s.phase c p }

/-- `BEGIN IMMEDIATE` takes the write lock. -/
def beginImmediate (s : Store) (c : Nat) (p : Phase) : Store :=
  { s with writer := some (c, s.committed), phase := Function.update s.phase c p }

/-- A statement of the writer replaces the working copy. -/
def write (s : Store) (c : Nat) (working : Sources) : Store :=
  { s with writer := some (c, working) }

/-- `COMMIT` publishes the working copy and releases the lock. -/
def commit (s : Store) (c : Nat) (working : Sources) : Store :=
  { committed := working, writer := none, phase := Function.update s.phase c .idle }

/-- `ROLLBACK` drops the working copy and releases the lock. -/
def rollback (s : Store) (c : Nat) : Store :=
  { s with writer := none, phase := Function.update s.phase c .idle }

/-- The working copy of a connection, if it holds the lock. -/
def workingOf (s : Store) (c : Nat) : Option Sources :=
  match s.writer with
  | some (c', working) => if c' = c then some working else none
  | none => none

end Store

/-- What happens next, with the result where a call returns. -/
inductive Event
  | begin_ (c : Nat)
  | acceptInTransaction (c : Nat) (call : AcceptCall) (result : Except CoreError Unit)
  | commit (c : Nat)
  | rollback (c : Nat)
  | accept (c : Nat) (call : AcceptCall)
  | acceptBusy (c : Nat) (call : AcceptCall) (error : CoreError)
  | acceptBody (c : Nat)
  | acceptClose (c : Nat) (call : AcceptCall) (result : Except CoreError Unit)
  | setEnabled (c : Nat) (sourceId : String) (enabled : Bool)
  | refused (c : Nat)

/-- The steps of the store. A statement may fail at any point, with any fault. -/
inductive Step : Store → Event → Store → Prop
  | begin_ {s : Store} {c : Nat} (idle : s.phase c = .idle) (free : s.writer = none) :
      Step s (.begin_ c) (s.beginImmediate c .inTransaction)
  | acceptInTransaction {s : Store} {c : Nat} {call : AcceptCall} {fault : Option SqlFault}
      {working working' : Sources} (inside : s.phase c = .inTransaction)
      (holds : s.workingOf c = some working)
      (accepted : acceptTrpTufStateInTransaction working call fault = .ok working') :
      Step s (.acceptInTransaction c call (.ok ())) (s.write c working')
  | refuseInTransaction {s : Store} {c : Nat} {call : AcceptCall} {fault : Option SqlFault}
      {working : Sources} {e : CoreError} (inside : s.phase c = .inTransaction)
      (holds : s.workingOf c = some working)
      (refused : acceptTrpTufStateInTransaction working call fault = .error e) :
      Step s (.acceptInTransaction c call (.error e)) s
  | commit {s : Store} {c : Nat} {working : Sources} (inside : s.phase c = .inTransaction)
      (holds : s.workingOf c = some working) : Step s (.commit c) (s.commit c working)
  | rollback {s : Store} {c : Nat} (inside : s.phase c = .inTransaction) :
      Step s (.rollback c) (s.rollback c)
  | accept {s : Store} {c : Nat} {call : AcceptCall} (idle : s.phase c = .idle)
      (free : s.writer = none) : Step s (.accept c call) (s.beginImmediate c (.accepting call))
  | acceptBusy {s : Store} {c : Nat} {call : AcceptCall} {e : CoreError}
      (ready : s.phase c = .idle ∨ s.phase c = .inTransaction) : Step s (.acceptBusy c call e) s
  | acceptBody {s : Store} {c : Nat} {call : AcceptCall} {fault : Option SqlFault}
      {working working' : Sources} (inside : s.phase c = .accepting call)
      (holds : s.workingOf c = some working)
      (accepted : acceptTrpTufStateInTransaction working call fault = .ok working') :
      Step s (.acceptBody c) ((s.write c working').moveTo c (.closing call (.ok ())))
  | refuseBody {s : Store} {c : Nat} {call : AcceptCall} {fault : Option SqlFault}
      {working : Sources} {e : CoreError} (inside : s.phase c = .accepting call)
      (holds : s.workingOf c = some working)
      (refused : acceptTrpTufStateInTransaction working call fault = .error e) :
      Step s (.acceptBody c) (s.moveTo c (.closing call (.error e)))
  | closeCommit {s : Store} {c : Nat} {call : AcceptCall} {working : Sources}
      (inside : s.phase c = .closing call (.ok ())) (holds : s.workingOf c = some working) :
      Step s (.acceptClose c call (.ok ())) (s.commit c working)
  | closeFault {s : Store} {c : Nat} {call : AcceptCall} {detail : String}
      (inside : s.phase c = .closing call (.ok ())) :
      Step s (.acceptClose c call (.error (.db detail))) (s.rollback c)
  | closeError {s : Store} {c : Nat} {call : AcceptCall} {e : CoreError}
      (inside : s.phase c = .closing call (.error e)) :
      Step s (.acceptClose c call (.error e)) (s.rollback c)
  | setEnabled {s : Store} {c : Nat} {sourceId : String} {enabled : Bool}
      (idle : s.phase c = .idle) (free : s.writer = none) :
      Step s (.setEnabled c sourceId enabled)
        { s with committed := setEnabled s.committed sourceId enabled }
  | setEnabledInTransaction {s : Store} {c : Nat} {sourceId : String} {enabled : Bool}
      {working : Sources} (inside : s.phase c = .inTransaction)
      (holds : s.workingOf c = some working) :
      Step s (.setEnabled c sourceId enabled) (s.write c (setEnabled working sourceId enabled))
  | refused {s : Store} {c : Nat} : Step s (.refused c) s

/-- A database at rest. -/
structure Store.Initial (s : Store) : Prop where
  free : s.writer = none
  idle : ∀ c, s.phase c = .idle

/-! ## What acceptance is for -/

/-- The four roles. -/
inductive Role
  | root
  | timestamp
  | snapshot
  | targets
  deriving DecidableEq, Repr

namespace TrpTufState

def version (state : TrpTufState) : Role → Nat
  | .root => state.versions.root
  | .timestamp => state.versions.timestamp
  | .snapshot => state.versions.snapshot
  | .targets => state.versions.targets

def digest (state : TrpTufState) : Role → String
  | .root => state.rootSha256
  | .timestamp => state.timestampSha256
  | .snapshot => state.snapshotSha256
  | .targets => state.targetsSha256

/-- No version decreases, and a version that stays keeps its digest. -/
def Advances (old new : TrpTufState) : Prop :=
  ∀ role, old.version role ≤ new.version role ∧
    (new.version role = old.version role → old.version role ≠ 0 →
      new.digest role = old.digest role)

theorem Advances.refl (state : TrpTufState) : state.Advances state :=
  fun _ => ⟨le_rfl, fun _ _ => rfl⟩

/-- Between two equal versions there is no other, so digests are kept along a chain. -/
theorem Advances.trans {a b c : TrpTufState} (hab : a.Advances b) (hbc : b.Advances c) :
    a.Advances c := by
  intro role
  obtain ⟨hle, hdigest⟩ := hab role
  obtain ⟨hle', hdigest'⟩ := hbc role
  refine ⟨hle.trans hle', ?_⟩
  intro hsame hpos
  have hmiddle : b.version role = a.version role := by omega
  exact (hdigest' (by omega) (by omega)).trans (hdigest hmiddle hpos)

/-- A state that may be stored: versions in range and canonical digests. -/
def WellFormed (state : TrpTufState) : Prop :=
  ∀ role, state.version role ≤ i64Max ∧ isCanonicalDigest (state.digest role) = true

end TrpTufState

namespace Sources

/-- No row disappears, and every row advances. -/
def Advances (rows rows' : Sources) : Prop :=
  ∀ sourceId row, rows sourceId = some row →
    ∃ row', rows' sourceId = some row' ∧ row.tuf.Advances row'.tuf

theorem Advances.refl (rows : Sources) : rows.Advances rows :=
  fun _ row hrow => ⟨row, hrow, .refl _⟩

theorem Advances.trans {a b c : Sources} (hab : a.Advances b) (hbc : b.Advances c) :
    a.Advances c := by
  intro sourceId row hrow
  obtain ⟨row', hrow', hadvances⟩ := hab sourceId row hrow
  obtain ⟨row'', hrow'', hadvances'⟩ := hbc sourceId row' hrow'
  exact ⟨row'', hrow'', hadvances.trans hadvances'⟩

/-- Replacing one row by one that advances it advances the table. -/
theorem advances_update {rows : Sources} {sourceId : String} {row row' : SourceRow}
    (hrow : rows sourceId = some row) (h : row.tuf.Advances row'.tuf) :
    rows.Advances (Function.update rows sourceId (some row')) := by
  intro id old hold
  by_cases hid : id = sourceId
  · subst hid
    rw [hrow] at hold
    cases hold
    exact ⟨row', by simp, h⟩
  · exact ⟨old, by simp [hid, hold], .refl _⟩

/-- The table after an accepted call: the row was enabled under the expected
identity, the candidate advances it, and it alone is replaced. -/
def Accepts (rows : Sources) (call : AcceptCall) (rows' : Sources) : Prop :=
  ∃ row, rows call.sourceId = some row ∧ row.enabled = true ∧
    row.discoveryUrl = call.expectedDiscoveryUrl ∧
    row.rootKeyFingerprint = call.expectedRootFingerprint ∧
    row.tuf.Advances call.candidate ∧
    rows' = Function.update rows call.sourceId (some { row with tuf := call.candidate })

theorem Accepts.advances {rows rows' : Sources} {call : AcceptCall}
    (h : rows.Accepts call rows') : rows.Advances rows' := by
  obtain ⟨row, hrow, -, -, -, hadvances, rfl⟩ := h
  exact advances_update hrow hadvances

end Sources

theorem setEnabled_advances (rows : Sources) (sourceId : String) (enabled : Bool) :
    rows.Advances (setEnabled rows sourceId enabled) := by
  unfold setEnabled
  cases hrow : rows sourceId with
  | none => exact .refl rows
  | some row => exact Sources.advances_update hrow (.refl _)

/-- The loop passes exactly the candidates that advance the stored state. -/
theorem forM_checkRole_eq_ok {last candidate : TrpTufState} {r : Unit} :
    forM (roleEntries last candidate) checkRole = .ok r ↔ last.Advances candidate := by
  have hrole : ∀ role old new oldDigest newDigest,
      checkRole (role, old, new, oldDigest, newDigest) = .ok ⟨⟩ ↔
        old ≤ new ∧ (new = old → old ≠ 0 → newDigest = oldDigest) := by
    intro role old new oldDigest newDigest
    simp only [checkRole, bind_eq_ok, failIf_eq_ok, not_lt, exists_and_left, exists_const]
    refine and_congr_right fun _ => ?_
    constructor
    · intro h hsame hpos
      by_contra hne
      exact h ⟨hpos, hsame, hne⟩
    · rintro h ⟨hpos, hsame, hne⟩
      exact hne (h hsame hpos)
  rw [forM_eq_ok]
  simp only [roleEntries, List.forall_mem_cons, hrole]
  constructor
  · rintro ⟨hroot, htimestamp, hsnapshot, htargets, -⟩ role
    cases role with
    | root => exact hroot
    | timestamp => exact htimestamp
    | snapshot => exact hsnapshot
    | targets => exact htargets
  · intro h
    exact ⟨h .root, h .timestamp, h .snapshot, h .targets, by simp⟩

/-- The range and digest checks pass exactly the candidates that may be stored. -/
theorem wellFormed_iff {state : TrpTufState} :
    state.WellFormed ↔
      (¬ [state.versions.root, state.versions.timestamp, state.versions.snapshot,
        state.versions.targets].any (fun value => value > i64Max) = true) ∧
      ¬ [state.rootSha256, state.timestampSha256, state.snapshotSha256,
        state.targetsSha256].any (fun digest => !isCanonicalDigest digest) = true := by
  have hroles : state.WellFormed ↔ ∀ role ∈ [Role.root, .timestamp, .snapshot, .targets],
      state.version role ≤ i64Max ∧ isCanonicalDigest (state.digest role) = true :=
    ⟨fun h role _ => h role, fun h role => h role (by cases role <;> simp)⟩
  rw [hroles]
  simp [TrpTufState.version, TrpTufState.digest]
  tauto

theorem trpTufState_eq_ok {rows : Sources} {sourceId : String} {state : TrpTufState} :
    trpTufState rows sourceId none = .ok state ↔
      ∃ row, rows sourceId = some row ∧ row.tuf = state := by
  unfold trpTufState
  rw [orFail_eq_ok, Option.map_eq_some_iff]

/-- The versions of the update's condition are those of an advancing candidate. -/
theorem updateMatches_eq_true {row : SourceRow} {call : AcceptCall}
    (h : row.tuf.Advances call.candidate) :
    updateMatches row call = true ↔ row.enabled = true ∧
      row.discoveryUrl = call.expectedDiscoveryUrl ∧
      row.rootKeyFingerprint = call.expectedRootFingerprint := by
  have hroot : row.tuf.versions.root ≤ call.candidate.versions.root := (h .root).1
  have htimestamp : row.tuf.versions.timestamp ≤ call.candidate.versions.timestamp :=
    (h .timestamp).1
  have hsnapshot : row.tuf.versions.snapshot ≤ call.candidate.versions.snapshot :=
    (h .snapshot).1
  have htargets : row.tuf.versions.targets ≤ call.candidate.versions.targets :=
    (h .targets).1
  simp only [updateMatches, Bool.and_eq_true, beq_iff_eq, decide_eq_true_eq, hroot, htimestamp,
    hsnapshot, htargets, and_true]
  tauto

/-- A call is accepted exactly when no statement fails, the candidate may be
stored, and it advances an enabled row with the expected identity. -/
theorem acceptTrpTufStateInTransaction_eq_ok {rows rows' : Sources} {call : AcceptCall}
    {fault : Option SqlFault} :
    acceptTrpTufStateInTransaction rows call fault = .ok rows' ↔
      fault = none ∧ call.candidate.WellFormed ∧ rows.Accepts call rows' := by
  simp only [acceptTrpTufStateInTransaction, bind_eq_ok, failIf_eq_ok, exists_and_left,
    exists_const, wellFormed_iff, and_assoc]
  cases fault with
  | some fault =>
      cases fault with
      | select detail => simp [trpTufState]
      | update detail => simp
  | none =>
      simp only [true_and, trpTufState_eq_ok, forM_checkRole_eq_ok, bind_eq_ok, failIf_eq_ok,
        pure_eq_ok]
      refine and_congr_right fun _ => and_congr_right fun _ => ?_
      constructor
      · rintro ⟨_, ⟨row, hrow, rfl⟩, -, hadvances, _, hone, hrows⟩
        have hmatches : updateMatches row call = true := by
          by_contra hno
          simp [updateTuf, hrow, hno] at hone
        obtain ⟨henabled, hurl, hfingerprint⟩ := (updateMatches_eq_true hadvances).mp hmatches
        simp only [updateTuf, hrow, hmatches, if_true] at hrows
        exact ⟨row, hrow, henabled, hurl, hfingerprint, hadvances, hrows.symm⟩
      · rintro ⟨row, hrow, henabled, hurl, hfingerprint, hadvances, rfl⟩
        have hmatches := (updateMatches_eq_true hadvances).mpr ⟨henabled, hurl, hfingerprint⟩
        refine ⟨row.tuf, ⟨row, hrow, rfl⟩, ⟨⟩, hadvances, ⟨⟩, ?_⟩
        simp [updateTuf, hrow, hmatches]

end Useful.Core
