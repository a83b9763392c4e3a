/-
# The client's verification chain

`BuiltinTufBackend::verify` walks from the trusted root over every consecutively
numbered root the source has, then over timestamp, snapshot and targets.
`Verified` states what a result stands for, without the walk: a chain of root
documents, each signed under its predecessor and under itself, and three
documents signed under the last root and pinned by their parents. The walk
succeeds exactly with the results that are verified in this sense.
-/

import Useful.Tuf.RoleDoc
import Mathlib.Logic.Relation

namespace Useful.Tuf

open Useful.Math

section

variable (env : External)

/-! ## The program -/

/-- `check_meta_entry`: length, digest and version pinned by the parent. -/
def checkMetaEntry (name : String) (bytes : Bytes) (entry : Value) : Except TufError Nat := do
  let length ← signedU64 entry "length" name
  let sha ← orFail (.malformed s!"{name}: 缺少 hashes.sha256")
    ((entry.pointer ["hashes", "sha256"]).bind Value.asStr)
  failIf (bytes.length ≠ length ∨ ¬ eqIgnoreAsciiCase (sha256Hex env bytes) sha)
    (.hashMismatch name)
  signedVersion entry name

/-- `Some(&Value::Bool(true))`. -/
def isTrue : Option Value → Bool
  | some (.bool true) => true
  | _ => false

/-- What the rotation loop carries from one root to the next, its version apart. -/
structure RootState where
  keys : List (String × String)
  rootRole : RoleDef
  rootSigned : Value
  rootSha256 : String

/-- The trust anchor, up to the loop. -/
def anchorRoot (trustedRoot : Bytes) (nowRfc3339 : String) :
    Except TufError (RootState × Nat) := do
  let anchor ← parseDoc env "root" trustedRoot
  let keys ← rootKeys anchor.signed.tree
  validateRootRoles env anchor.signed.tree keys
  let rootRole ← roleDef env anchor.signed.tree "root"
  let rootSigned ← verifyRoleDoc env anchor keys rootRole "root" nowRfc3339 false
  failIf (¬ isTrue (rootSigned.get "consistent_snapshot"))
    (.malformed "root: 必须启用 consistent_snapshot")
  let version ← signedVersion rootSigned "root"
  return (⟨keys, rootRole, rootSigned, sha256Hex env trustedRoot⟩, version)

/-- One turn of the rotation loop, for the bytes found under the next name. -/
def rotateRoot (nowRfc3339 : String) (cur : RootState) (nextVersion : Nat) (name : String)
    (bytes : Bytes) : Except TufError RootState := do
  let next ← parseDoc env name bytes
  let _ ← verifyRoleDoc env next cur.keys cur.rootRole "root" nowRfc3339 false
  let nextKeys ← rootKeys next.signed.tree
  validateRootRoles env next.signed.tree nextKeys
  let nextRole ← roleDef env next.signed.tree "root"
  let rootSigned ← verifyRoleDoc env next nextKeys nextRole "root" nowRfc3339 false
  failIf (¬ isTrue (rootSigned.get "consistent_snapshot"))
    (.malformed "轮换后的 root 必须继续启用 consistent_snapshot")
  let version ← signedVersion rootSigned "root"
  failIf (version ≠ nextVersion) (.versionMismatch "root")
  return ⟨nextKeys, nextRole, rootSigned, sha256Hex env bytes⟩

def rootName (version : Nat) : String := s!"{version}.root.json"

/-- The rotation loop. The version is a `u64`, so the loop ends. -/
def rootLoop (src : MetadataSource) (nowRfc3339 : String) (cur : RootState) (version : Nat) :
    Except TufError (RootState × Nat) :=
  if 2 ^ 64 ≤ version + 1 then
    .error (.malformed "root: version 溢出")
  else
    match src (rootName (version + 1)) with
    | none => .ok (cur, version)
    | some bytes => do
        let next ← rotateRoot env nowRfc3339 cur (version + 1) (rootName (version + 1)) bytes
        rootLoop src nowRfc3339 next (version + 1)
termination_by 2 ^ 64 - version

/-- One entry of the targets table. -/
def targetInfo (name : String) (info : Value) : Except TufError TargetInfo := do
  let length ← signedU64 info "length" "target"
  let sha ← orFail (.malformed s!"target {name}: 缺少 sha256")
    ((info.pointer ["hashes", "sha256"]).bind Value.asStr)
  return ⟨length, env.toLowercase sha, info.get "custom"⟩

/-- The loop over the targets table. -/
def targetsLoop : List (String × Value) → Except TufError (List (String × TargetInfo))
  | [] => .ok []
  | (name, info) :: rest => do
      let target ← targetInfo env name info
      let targets ← targetsLoop rest
      return (name, target) :: targets

/-- The file a parent pins, by its entry in the parent's `meta`. -/
def fetchPinned (src : MetadataSource) (final : RootState) (role nowRfc3339 : String)
    (parent : Value) (missing : TufError) : Except TufError (Value × Bytes × Nat) := do
  let entry ← orFail missing (parent.pointer ["meta", s!"{role}.json"])
  let version ← signedVersion entry role
  let name := s!"{version}.{role}.json"
  let bytes ← orFail (.missing name) (src name)
  let _ ← checkMetaEntry env role bytes entry
  let doc ← parseDoc env role bytes
  let roleDef ← roleDef env final.rootSigned role
  let signed ← verifyRoleDoc env doc final.keys roleDef role nowRfc3339 true
  let signedVersion ← signedVersion signed role
  failIf (signedVersion ≠ version) (.versionMismatch role)
  return (signed, bytes, version)

/-- `BuiltinTufBackend::verify`. -/
def verify (src : MetadataSource) (trustedRoot : Bytes) (nowRfc3339 : String) :
    Except TufError VerifiedTuf := do
  let (anchor, anchorVersion) ← anchorRoot env trustedRoot nowRfc3339
  let (final, version) ← rootLoop env src nowRfc3339 anchor anchorVersion
  -- Only the final root is authoritative for freeze protection.
  checkExpiry final.rootSigned "root" nowRfc3339
  let tsBytes ← orFail (.missing "timestamp.json") (src "timestamp.json")
  let ts ← parseDoc env "timestamp" tsBytes
  let tsRole ← roleDef env final.rootSigned "timestamp"
  let tsSigned ← verifyRoleDoc env ts final.keys tsRole "timestamp" nowRfc3339 true
  let timestampVersion ← signedVersion tsSigned "timestamp"
  let (snapSigned, snapBytes, snapVersion) ← fetchPinned env src final "snapshot" nowRfc3339
    tsSigned (.malformed "timestamp: 缺少 snapshot meta")
  let (tgtSigned, tgtBytes, tgtVersion) ← fetchPinned env src final "targets" nowRfc3339
    snapSigned (.malformed "snapshot: 缺少 targets meta")
  let map ← orFail (.malformed "targets: 缺少 targets 表")
    ((tgtSigned.get "targets").bind Value.asObject)
  let targets ← targetsLoop env map
  return {
    rootVersion := version
    timestampVersion := timestampVersion
    snapshotVersion := snapVersion
    targetsVersion := tgtVersion
    rootSha256 := final.rootSha256
    timestampSha256 := sha256Hex env tsBytes
    snapshotSha256 := sha256Hex env snapBytes
    targetsSha256 := sha256Hex env tgtBytes
    targets := targets }

/-! ## What a result stands for -/

/-- A root document and what the verifier reads off it. -/
structure Root where
  bytes : Bytes
  doc : TufDoc
  keys : List (String × String)
  role : RoleDef
  version : Nat

namespace Root

/-- The signed part of the document. -/
def signed (r : Root) : Value := r.doc.signed.tree

/-- A root document that is well formed and signed under its own root role. Its
expiry plays no part. -/
structure Accepted (r : Root) : Prop where
  size : r.bytes.length ≤ maxMetadataSize
  parsed : env.fromSlice r.bytes = .ok r.doc
  keys_eq : rootKeys r.signed = .ok r.keys
  roles_valid : validateRootRoles env r.signed r.keys = .ok ()
  role_eq : roleDef env r.signed "root" = .ok r.role
  self_signed : SignedBy env r.keys r.role "root" r.doc
  consistent : isTrue (r.signed.get "consistent_snapshot") = true
  version_eq : (r.signed.get "version").bind Value.asU64 = some r.version
  version_pos : r.version ≠ 0

/-- The next root is found under the next version number and is signed under the
root roles of both. -/
structure Rotates (src : MetadataSource) (r next : Root) : Prop where
  found : src (rootName (r.version + 1)) = some next.bytes
  accepted : next.Accepted env
  consecutive : next.version = r.version + 1
  cross_signed : SignedBy env r.keys r.role "root" next.doc

/-- What the loop keeps of a root. -/
def state (r : Root) : RootState := ⟨r.keys, r.role, r.signed, sha256Hex env r.bytes⟩

end Root

/-- A document signed under a role of the final root and not expired. -/
structure RoleAccepted (final : Root) (role nowRfc3339 : String) (doc : TufDoc) : Prop where
  signed : ∃ def_, roleDef env final.signed role = .ok def_ ∧
    SignedBy env final.keys def_ role doc
  unexpired : Unexpired doc.signed.tree nowRfc3339

/-- The version of a document. -/
def HasVersion (signed : Value) (version : Nat) : Prop :=
  (signed.get "version").bind Value.asU64 = some version ∧ version ≠ 0

/-- A parent's entry gives the version, the length and the digest of a file. -/
def Pins (entry : Value) (bytes : Bytes) (version : Nat) : Prop :=
  HasVersion entry version ∧
    (entry.get "length").bind Value.asU64 = some bytes.length ∧
    ∃ sha, (entry.pointer ["hashes", "sha256"]).bind Value.asStr = some sha ∧
      eqIgnoreAsciiCase (sha256Hex env bytes) sha = true

/-- A file with the document it holds. -/
structure MetadataFile where
  bytes : Bytes
  doc : TufDoc
  version : Nat

/-- The file can be read, carries its version and is accepted for its role. -/
structure MetadataFile.Accepted (file : MetadataFile) (final : Root)
    (role nowRfc3339 : String) : Prop where
  size : file.bytes.length ≤ maxMetadataSize
  parsed : env.fromSlice file.bytes = .ok file.doc
  accepted : RoleAccepted env final role nowRfc3339 file.doc
  version_eq : HasVersion file.doc.signed.tree file.version

/-- The file is the one its parent pins. -/
structure MetadataFile.PinnedBy (file : MetadataFile) (src : MetadataSource) (role : String)
    (parent : Value) : Prop where
  pinned : ∃ entry, parent.pointer ["meta", s!"{role}.json"] = some entry ∧
    Pins env entry file.bytes file.version
  found : src s!"{file.version}.{role}.json" = some file.bytes

/-- A target is the decoded entry of the signed table. -/
def DecodesTarget (member : String × Value) (target : String × TargetInfo) : Prop :=
  target.1 = member.1 ∧
    (member.2.get "length").bind Value.asU64 = some target.2.length ∧
    (∃ sha, (member.2.pointer ["hashes", "sha256"]).bind Value.asStr = some sha ∧
      target.2.sha256 = env.toLowercase sha) ∧
    target.2.custom = member.2.get "custom"

/-- The documents behind a result. -/
structure Evidence where
  anchor : Root
  final : Root
  timestamp : MetadataFile
  snapshot : MetadataFile
  targets : MetadataFile
  table : List (String × Value)

/-- The documents certify the result. -/
structure Certifies (e : Evidence) (src : MetadataSource) (trustedRoot : Bytes)
    (nowRfc3339 : String) (v : VerifiedTuf) : Prop where
  anchor_bytes : e.anchor.bytes = trustedRoot
  anchor_accepted : e.anchor.Accepted env
  rotations : Relation.ReflTransGen (Root.Rotates env src) e.anchor e.final
  next_absent : src (rootName (e.final.version + 1)) = none
  next_u64 : e.final.version + 1 < 2 ^ 64
  root_unexpired : Unexpired e.final.signed nowRfc3339
  timestamp_found : src "timestamp.json" = some e.timestamp.bytes
  timestamp_accepted : e.timestamp.Accepted env e.final "timestamp" nowRfc3339
  snapshot_pinned : e.snapshot.PinnedBy env src "snapshot" e.timestamp.doc.signed.tree
  snapshot_accepted : e.snapshot.Accepted env e.final "snapshot" nowRfc3339
  targets_pinned : e.targets.PinnedBy env src "targets" e.snapshot.doc.signed.tree
  targets_accepted : e.targets.Accepted env e.final "targets" nowRfc3339
  table_eq : (e.targets.doc.signed.tree.get "targets").bind Value.asObject = some e.table
  targets_eq : List.Forall₂ (DecodesTarget env) e.table v.targets
  versions_eq : v.rootVersion = e.final.version ∧ v.timestampVersion = e.timestamp.version ∧
    v.snapshotVersion = e.snapshot.version ∧ v.targetsVersion = e.targets.version
  digests_eq : v.rootSha256 = sha256Hex env e.final.bytes ∧
    v.timestampSha256 = sha256Hex env e.timestamp.bytes ∧
    v.snapshotSha256 = sha256Hex env e.snapshot.bytes ∧
    v.targetsSha256 = sha256Hex env e.targets.bytes

/-! ## Roots -/

theorem anchorRoot_eq_ok {trustedRoot : Bytes} {nowRfc3339 : String} {st : RootState}
    {version : Nat} :
    anchorRoot env trustedRoot nowRfc3339 = .ok (st, version) ↔
      ∃ r : Root, r.bytes = trustedRoot ∧ r.Accepted env ∧ st = r.state env ∧
        version = r.version := by
  simp only [anchorRoot, bind_eq_ok, parseDoc_eq_ok, verifyRoleDoc_eq_ok, failIf_eq_ok,
    signedVersion_eq_ok, pure_eq_ok, not_not, Prod.mk.injEq]
  constructor
  · rintro ⟨doc, ⟨hsize, hparsed⟩, keys, hkeys, _, hroles, role, hrole, _,
      ⟨hsigned, -, rfl⟩, _, hconsistent, n, ⟨hversion, hpos⟩, rfl, rfl⟩
    exact ⟨⟨trustedRoot, doc, keys, role, n⟩, rfl,
      ⟨hsize, hparsed, hkeys, hroles, hrole, hsigned, hconsistent, hversion, hpos⟩, rfl, rfl⟩
  · rintro ⟨r, rfl, h, rfl, rfl⟩
    exact ⟨r.doc, ⟨h.size, h.parsed⟩, r.keys, h.keys_eq, ⟨⟩, h.roles_valid, r.role, h.role_eq, _,
      ⟨h.self_signed, by simp, rfl⟩, ⟨⟩, h.consistent, r.version,
      ⟨h.version_eq, h.version_pos⟩, rfl, rfl⟩

theorem rotateRoot_eq_ok {r : Root} {nowRfc3339 name : String} {nextVersion : Nat}
    {bytes : Bytes} {st : RootState} :
    rotateRoot env nowRfc3339 (r.state env) nextVersion name bytes = .ok st ↔
      ∃ next : Root, next.bytes = bytes ∧ next.Accepted env ∧ next.version = nextVersion ∧
        SignedBy env r.keys r.role "root" next.doc ∧ st = next.state env := by
  simp only [rotateRoot, bind_eq_ok, parseDoc_eq_ok, verifyRoleDoc_eq_ok, failIf_eq_ok,
    signedVersion_eq_ok, pure_eq_ok, not_not, Root.state]
  constructor
  · rintro ⟨doc, ⟨hsize, hparsed⟩, _, ⟨hcross, -, -⟩, keys, hkeys, _, hroles, role, hrole, _,
      ⟨hsigned, -, rfl⟩, _, hconsistent, n, ⟨hversion, hpos⟩, _, rfl, rfl⟩
    exact ⟨⟨bytes, doc, keys, role, n⟩, rfl,
      ⟨hsize, hparsed, hkeys, hroles, hrole, hsigned, hconsistent, hversion, hpos⟩, rfl,
      hcross, rfl⟩
  · rintro ⟨next, rfl, h, rfl, hcross, rfl⟩
    exact ⟨next.doc, ⟨h.size, h.parsed⟩, _, ⟨hcross, by simp, rfl⟩, next.keys, h.keys_eq, ⟨⟩,
      h.roles_valid, next.role, h.role_eq, _, ⟨h.self_signed, by simp, rfl⟩, ⟨⟩, h.consistent,
      next.version, ⟨h.version_eq, h.version_pos⟩, ⟨⟩, rfl, rfl⟩

/-- The version of an accepted root is a `u64`. -/
theorem Root.Accepted.version_lt {r : Root} (h : r.Accepted env) : r.version < 2 ^ 64 := by
  have hread : signedVersion r.signed "root" = .ok r.version :=
    signedVersion_eq_ok.mpr ⟨h.version_eq, h.version_pos⟩
  exact lt_of_signedVersion hread

/-- One turn of the loop: it stops at an absent name and otherwise goes on with
an accepted next root. -/
theorem rootLoop_eq_ok {src : MetadataSource} {nowRfc3339 : String} {r : Root}
    {st : RootState} {version : Nat} :
    rootLoop env src nowRfc3339 (r.state env) r.version = .ok (st, version) ↔
      r.version + 1 < 2 ^ 64 ∧
        (src (rootName (r.version + 1)) = none ∧ st = r.state env ∧ version = r.version ∨
          ∃ next : Root, r.Rotates env src next ∧
            rootLoop env src nowRfc3339 (next.state env) next.version = .ok (st, version)) := by
  rw [rootLoop]
  split
  · rename_i hoverflow
    simp only [reduceCtorEq, false_iff, not_and]
    omega
  · rename_i hbound
    cases hfound : src (rootName (r.version + 1)) with
    | none =>
        simp only [Except.ok.injEq, Prod.mk.injEq, true_and]
        constructor
        · rintro ⟨rfl, rfl⟩
          exact ⟨by omega, .inl ⟨rfl, rfl⟩⟩
        · rintro ⟨-, ⟨rfl, rfl⟩ | ⟨next, hrotates, -⟩⟩
          · exact ⟨rfl, rfl⟩
          · rw [hrotates.found] at hfound
            cases hfound
    | some bytes =>
        simp only [bind_eq_ok, rotateRoot_eq_ok, reduceCtorEq, false_and, false_or]
        constructor
        · rintro ⟨_, ⟨next, rfl, haccepted, hversion, hcross, rfl⟩, hrest⟩
          exact ⟨by omega, next, ⟨hfound, haccepted, hversion, hcross⟩, hversion ▸ hrest⟩
        · rintro ⟨-, next, hrotates, hrest⟩
          have hbytes : bytes = next.bytes :=
            Option.some.inj (hfound.symm.trans hrotates.found)
          exact ⟨next.state env, ⟨next, hbytes.symm, hrotates.accepted, hrotates.consecutive,
            hrotates.cross_signed, rfl⟩, hrotates.consecutive ▸ hrest⟩

/-- The loop ends at the last root of a chain of rotations, where the next name
is absent. -/
theorem rootLoop_eq_ok_iff_chain {src : MetadataSource} {nowRfc3339 : String} {r : Root}
    {st : RootState} {version : Nat} :
    rootLoop env src nowRfc3339 (r.state env) r.version = .ok (st, version) ↔
      ∃ final : Root, Relation.ReflTransGen (Root.Rotates env src) r final ∧
        src (rootName (final.version + 1)) = none ∧ final.version + 1 < 2 ^ 64 ∧
        st = final.state env ∧ version = final.version := by
  constructor
  · -- The distance to the largest version decreases with every rotation.
    induction hdist : 2 ^ 64 - r.version using Nat.strong_induction_on generalizing r with
    | _ dist ih =>
        intro h
        obtain ⟨hbound, ⟨habsent, rfl, rfl⟩ | ⟨next, hrotates, hrest⟩⟩ := (rootLoop_eq_ok env).mp h
        · exact ⟨r, .refl, habsent, hbound, rfl, rfl⟩
        · have hcloser : 2 ^ 64 - next.version < dist := by
            have := hrotates.consecutive
            omega
          obtain ⟨final, hchain, hfinal⟩ := ih _ hcloser rfl hrest
          exact ⟨final, .head hrotates hchain, hfinal⟩
  · rintro ⟨final, hchain, habsent, hbound, rfl, rfl⟩
    induction hchain using Relation.ReflTransGen.head_induction_on with
    | refl => exact (rootLoop_eq_ok env).mpr ⟨hbound, .inl ⟨habsent, rfl, rfl⟩⟩
    | @head r next hrotates _ ih =>
        have hnext := hrotates.accepted.version_lt
        rw [hrotates.consecutive] at hnext
        exact (rootLoop_eq_ok env).mpr ⟨hnext, .inr ⟨next, hrotates, ih⟩⟩

/-! ## Pinned documents -/

theorem checkMetaEntry_eq_ok {name : String} {bytes : Bytes} {entry : Value} {version : Nat} :
    checkMetaEntry env name bytes entry = .ok version ↔ Pins env entry bytes version := by
  simp only [checkMetaEntry, signedU64, bind_eq_ok, orFail_eq_ok, failIf_eq_ok, not_or, not_not,
    signedVersion_eq_ok, Pins, HasVersion]
  constructor
  · rintro ⟨length, hlength, sha, hsha, _, ⟨rfl, hdigest⟩, hversion⟩
    exact ⟨hversion, hlength, sha, hsha, hdigest⟩
  · rintro ⟨hversion, hlength, sha, hsha, hdigest⟩
    exact ⟨_, hlength, sha, hsha, ⟨⟩, ⟨rfl, hdigest⟩, hversion⟩

theorem fetchPinned_eq_ok {src : MetadataSource} {final : Root} {role nowRfc3339 : String}
    {parent : Value} {missing : TufError} {signed : Value} {bytes : Bytes} {version : Nat} :
    fetchPinned env src (final.state env) role nowRfc3339 parent missing =
        .ok (signed, bytes, version) ↔
      ∃ file : MetadataFile, file.PinnedBy env src role parent ∧
        file.Accepted env final role nowRfc3339 ∧ signed = file.doc.signed.tree ∧
        bytes = file.bytes ∧ version = file.version := by
  simp only [fetchPinned, bind_eq_ok, orFail_eq_ok, signedVersion_eq_ok, checkMetaEntry_eq_ok,
    parseDoc_eq_ok, verifyRoleDoc_eq_ok, failIf_eq_ok, pure_eq_ok, not_not, Prod.mk.injEq,
    Root.state]
  constructor
  · rintro ⟨entry, hentry, version, hversion, bytes, hbytes, version', hpins, doc,
      ⟨hsize, hparsed⟩, role, hrole, _, ⟨hsigned, hunexpired, rfl⟩, _, hdoc, _, rfl, rfl, rfl,
      rfl⟩
    have hsame : version' = _ := Option.some.inj (hpins.1.1.symm.trans hversion.1)
    subst hsame
    exact ⟨⟨bytes, doc, version'⟩, ⟨⟨entry, hentry, hpins⟩, hbytes⟩,
      ⟨hsize, hparsed, ⟨⟨role, hrole, hsigned⟩, hunexpired trivial⟩, hdoc⟩, rfl, rfl, rfl⟩
  · rintro ⟨file, ⟨⟨entry, hentry, hpins⟩, hfound⟩,
      ⟨hsize, hparsed, ⟨⟨role, hrole, hsigned⟩, hunexpired⟩, hversion⟩, rfl, rfl, rfl⟩
    exact ⟨entry, hentry, file.version, hpins.1, file.bytes, hfound, file.version, hpins,
      file.doc, ⟨hsize, hparsed⟩, role, hrole, _, ⟨hsigned, fun _ => hunexpired, rfl⟩, _,
      hversion, ⟨⟩, rfl, rfl, rfl, rfl⟩

/-- The table is decoded entry by entry. -/
theorem targetsLoop_eq_ok {table : List (String × Value)}
    {targets : List (String × TargetInfo)} :
    targetsLoop env table = .ok targets ↔ List.Forall₂ (DecodesTarget env) table targets := by
  induction table generalizing targets with
  | nil => simp [targetsLoop, eq_comm]
  | cons member table ih =>
      obtain ⟨name, info⟩ := member
      simp only [targetsLoop, targetInfo, signedU64, bind_eq_ok, orFail_eq_ok, pure_eq_ok, ih,
        List.forall₂_cons_left_iff, DecodesTarget]
      constructor
      · rintro ⟨_, ⟨length, hlength, sha, hsha, rfl⟩, targets, htargets, rfl⟩
        exact ⟨_, targets, ⟨rfl, hlength, ⟨sha, hsha, rfl⟩, rfl⟩, htargets, rfl⟩
      · rintro ⟨⟨name', target⟩, targets, ⟨rfl, hlength, ⟨sha, hsha, hdigest⟩, hcustom⟩,
          htargets, rfl⟩
        refine ⟨target, ⟨target.length, hlength, sha, hsha, ?_⟩, targets, htargets, rfl⟩
        rw [← hdigest, ← hcustom]

/-! ## Soundness and completeness of the chain -/

/-- Verification succeeds with a result exactly when some documents certify it. -/
theorem verify_eq_ok_iff_certified (src : MetadataSource) (trustedRoot : Bytes)
    (nowRfc3339 : String) (v : VerifiedTuf) :
    verify env src trustedRoot nowRfc3339 = .ok v ↔
      ∃ e : Evidence, Certifies env e src trustedRoot nowRfc3339 v := by
  simp only [verify, bind_eq_ok, Prod.exists, anchorRoot_eq_ok, orFail_eq_ok, parseDoc_eq_ok,
    checkExpiry_eq_ok, verifyRoleDoc_eq_ok, signedVersion_eq_ok, targetsLoop_eq_ok, pure_eq_ok]
  constructor
  · rintro ⟨_, _, ⟨anchor, hbytes, hanchor, rfl, rfl⟩, _, _, hloop, _, hroot, tsBytes, htsFound,
      ts, ⟨htsSize, htsParsed⟩, tsRole, htsRole, _, ⟨htsSigned, htsUnexpired, rfl⟩, tsVersion,
      htsVersion, _, _, _, hsnap, _, _, _, htgt, table, htable, targets, htargets, rfl⟩
    obtain ⟨final, hchain, habsent, hbound, rfl, rfl⟩ := (rootLoop_eq_ok_iff_chain env).mp hloop
    obtain ⟨snapshot, hsnapPinned, hsnapAccepted, rfl, rfl, rfl⟩ :=
      (fetchPinned_eq_ok env).mp hsnap
    obtain ⟨tgt, htgtPinned, htgtAccepted, rfl, rfl, rfl⟩ := (fetchPinned_eq_ok env).mp htgt
    exact ⟨⟨anchor, final, ⟨tsBytes, ts, tsVersion⟩, snapshot, tgt, table⟩,
      { anchor_bytes := hbytes
        anchor_accepted := hanchor
        rotations := hchain
        next_absent := habsent
        next_u64 := hbound
        root_unexpired := hroot
        timestamp_found := htsFound
        timestamp_accepted :=
          ⟨htsSize, htsParsed, ⟨⟨tsRole, htsRole, htsSigned⟩, htsUnexpired trivial⟩, htsVersion⟩
        snapshot_pinned := hsnapPinned
        snapshot_accepted := hsnapAccepted
        targets_pinned := htgtPinned
        targets_accepted := htgtAccepted
        table_eq := htable
        targets_eq := htargets
        versions_eq := ⟨rfl, rfl, rfl, rfl⟩
        digests_eq := ⟨rfl, rfl, rfl, rfl⟩ }⟩
  · rintro ⟨e, h⟩
    obtain ⟨⟨tsRole, htsRole, htsSigned⟩, htsUnexpired⟩ := h.timestamp_accepted.accepted
    obtain ⟨hrootVersion, htsVersion, hsnapVersion, htgtVersion⟩ := h.versions_eq
    obtain ⟨hrootSha, htsSha, hsnapSha, htgtSha⟩ := h.digests_eq
    refine ⟨_, _, ⟨e.anchor, h.anchor_bytes, h.anchor_accepted, rfl, rfl⟩, _, _,
      (rootLoop_eq_ok_iff_chain env).mpr
        ⟨e.final, h.rotations, h.next_absent, h.next_u64, rfl, rfl⟩, ⟨⟩, h.root_unexpired,
      e.timestamp.bytes, h.timestamp_found, e.timestamp.doc,
      ⟨h.timestamp_accepted.size, h.timestamp_accepted.parsed⟩, tsRole, htsRole, _,
      ⟨htsSigned, fun _ => htsUnexpired, rfl⟩, e.timestamp.version,
      h.timestamp_accepted.version_eq, _, _, _,
      (fetchPinned_eq_ok env).mpr
        ⟨e.snapshot, h.snapshot_pinned, h.snapshot_accepted, rfl, rfl, rfl⟩, _, _, _,
      (fetchPinned_eq_ok env).mpr
        ⟨e.targets, h.targets_pinned, h.targets_accepted, rfl, rfl, rfl⟩,
      e.table, h.table_eq, v.targets, h.targets_eq, ?_⟩
    cases v
    simp only at hrootVersion htsVersion hsnapVersion htgtVersion hrootSha htsSha hsnapSha htgtSha
    simp only [Root.state, hrootVersion, htsVersion, hsnapVersion, htgtVersion, hrootSha, htsSha,
      hsnapSha, htgtSha]

end

end Useful.Tuf
