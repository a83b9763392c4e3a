/-
# TUF metadata documents on the client

The values `serde_json` hands to the client, the accessors the verifier reads
them with, and the document types of `crates/useful-repository-client/src/tuf.rs`.
What lies outside the repository is collected in `External`: signature
verification, SHA-256, the two `serde` entry points that read raw bytes, and the
error text of the third.

A `serde_json` object is a B-tree map, so its members come in increasing order
of the bytes of their keys; `SerdeValue` carries that invariant. The accessors do
not depend on it and are defined on any tree.
-/

import Useful.Math.Checks
import Useful.Math.Json
import Useful.Math.Unicode
import Mathlib.Data.List.Dedup

namespace Useful.Tuf

open Useful.Math

/-- Raw file contents and messages. -/
abbrev Bytes := List UInt8

/-- The bytes of a text. -/
def asBytes (text : List Char) : Bytes := (utf8 text).map UInt8.ofNat

/-- Different texts have different bytes. -/
theorem asBytes_injective : Function.Injective asBytes := by
  intro s t heq
  have hlt : ∀ (text : List Char), ∀ b ∈ utf8 text, b < 256 := by
    intro text b hb
    obtain ⟨c, -, hc⟩ := List.mem_flatMap.mp hb
    exact lt_of_mem_utf8Char hc
  have hback : ∀ text, (asBytes text).map UInt8.toNat = utf8 text := by
    intro text
    rw [asBytes, List.map_map]
    exact (List.map_congr_left (g := id) fun b hb =>
      UInt8.toNat_ofNat_of_lt' (hlt text b hb)).trans (List.map_id _)
  exact utf8_injective (by rw [← hback s, ← hback t, heq])

/-- Strings compared by their bytes, as `String: Ord` does. -/
def byteLe (a b : String) : Prop := utf8 a.toList ≤ utf8 b.toList

def byteLt (a b : String) : Prop := utf8 a.toList < utf8 b.toList

instance : DecidableRel byteLe := fun a b =>
  inferInstanceAs (Decidable (utf8 a.toList ≤ utf8 b.toList))

instance : DecidableRel byteLt := fun a b =>
  inferInstanceAs (Decidable (utf8 a.toList < utf8 b.toList))

instance : Std.Total byteLe := ⟨fun a b => le_total (utf8 a.toList) (utf8 b.toList)⟩

instance : IsTrans String byteLe :=
  ⟨fun a b c => le_trans (a := utf8 a.toList) (b := utf8 b.toList) (c := utf8 c.toList)⟩

instance : Std.Antisymm byteLe :=
  ⟨fun _ _ hab hba => String.toList_inj.mp (utf8_injective (le_antisymm hab hba))⟩

/-- Size limit of a single metadata file. -/
def maxMetadataSize : Nat := 8 * 1024 * 1024

def specVersion : String := "1.0.0"

/-- `TufError`, with the texts and numbers each variant carries. -/
inductive TufError
  | malformed (detail : String)
  | thresholdNotMet (role : String) (valid threshold : Nat)
  | expired (role expires : String)
  | hashMismatch (name : String)
  | versionMismatch (role : String)
  | rollback (role : String) (old new : Nat)
  | missing (name : String)
  | limitExceeded (detail : String)
  deriving DecidableEq, Repr

/-! ## Values -/

/-- `serde_json::Number`: an unsigned 64-bit integer, a negative 64-bit integer,
or a double, of which only the bits are kept. -/
inductive Number
  | posInt (n : Nat) (isU64 : n < 2 ^ 64)
  | negInt (n : Int) (isNegI64 : -2 ^ 63 ≤ n ∧ n < 0)
  | float (bits : UInt64)
  deriving DecidableEq

namespace Number

/-- `Number::is_f64`. -/
def isF64 : Number → Bool
  | .float _ => true
  | _ => false

/-- The integer a number stands for, if it is one. -/
def toInt? : Number → Option Int
  | .posInt n _ => some n
  | .negInt n _ => some n
  | .float _ => none

/-- An integer of the 64-bit ranges as a number. -/
def ofInt (i : Int) (h : -2 ^ 63 ≤ i ∧ i < 2 ^ 64) : Number :=
  if hneg : i < 0 then .negInt i ⟨h.1, hneg⟩
  else .posInt i.toNat (by omega)

end Number

/-- `serde_json::Value`. -/
abbrev Value := Json Number

namespace Value

/-- `Value::get` with a key: `None` unless the value is an object that has it. -/
def get (v : Value) (key : String) : Option Value :=
  match v with
  | .obj members => members.lookup key
  | _ => none

def asStr : Value → Option String
  | .str s => some s
  | _ => none

/-- `Value::as_u64`: a double is not an integer, whatever its value. -/
def asU64 : Value → Option Nat
  | .num (.posInt n _) => some n
  | _ => none

def asObject : Value → Option (List (String × Value))
  | .obj members => some members
  | _ => none

/-- The array index a pointer token denotes: decimal digits without a sign or a
leading zero. -/
def parseIndex (token : String) : Option Nat :=
  match token.toList with
  | [] => none
  | ['0'] => some 0
  | '0' :: _ => none
  | digits => if digits.all Char.isDigit then some (Nat.ofDigitChars 10 digits 0) else none

/-- `Value::pointer`, on the tokens of the pointer. -/
def pointer (v : Value) : List String → Option Value
  | [] => some v
  | token :: tokens =>
      match v with
      | .obj members => (members.lookup token).bind fun w => pointer w tokens
      | .arr items =>
          ((parseIndex token).bind fun i => items[i]?).bind fun w => pointer w tokens
      | _ => none

end Value

/-! ## Documents -/

structure TufSignature where
  keyid : String
  sig : String
  deriving DecidableEq

/-- A `serde_json::Value` with the invariant of its B-tree maps. -/
structure SerdeValue where
  tree : Value
  sorted : tree.KeysSorted byteLt

structure TufDoc where
  signatures : List TufSignature
  signed : SerdeValue

structure RoleDef where
  keyids : List String
  threshold : Nat
  deriving DecidableEq

/-- A verified entry of the targets table. -/
structure TargetInfo where
  length : Nat
  sha256 : String
  custom : Option Value

/-- The result of a successful verification. -/
structure VerifiedTuf where
  rootVersion : Nat
  timestampVersion : Nat
  snapshotVersion : Nat
  targetsVersion : Nat
  rootSha256 : String
  timestampSha256 : String
  snapshotSha256 : String
  targetsSha256 : String
  /-- File name to target, in the order of the signed table. -/
  targets : List (String × TargetInfo)

/-- A metadata provider: a directory, an HTTP cache or a map. -/
abbrev MetadataSource := String → Option Bytes

/-- What the verifier calls outside the repository. -/
structure External where
  /-- `ed25519_dalek` on a 32-byte public key, a message and a 64-byte signature;
  false also when the key bytes are not a curve point. -/
  ed25519Verify : Bytes → Bytes → Bytes → Bool
  /-- SHA-256. -/
  sha256 : Bytes → Bytes
  /-- `serde_json::from_slice::<TufDoc>`. -/
  fromSlice : Bytes → Except String TufDoc
  /-- The text of the error with which a value is not a `RoleDef`. -/
  roleDefError : Value → String
  /-- `str::to_lowercase`, over the Unicode tables. -/
  toLowercase : String → String

/-! ## Hexadecimal text -/

def hexVal (c : Char) : Option Nat :=
  if '0' ≤ c ∧ c ≤ '9' then some (c.toNat - 48)
  else if 'a' ≤ c ∧ c ≤ 'f' then some (c.toNat - 87)
  else if 'A' ≤ c ∧ c ≤ 'F' then some (c.toNat - 55)
  else none

/-- `hex::decode`: pairs of hexadecimal digits of either case. -/
def hexDecode : List Char → Option Bytes
  | [] => some []
  | [_] => none
  | hi :: lo :: rest => do
      let h ← hexVal hi
      let l ← hexVal lo
      let tail ← hexDecode rest
      return UInt8.ofNat (16 * h + l) :: tail

/-- `hex::encode`: two lower-case digits for each byte. -/
def hexEncode (bytes : Bytes) : String :=
  String.ofList (bytes.flatMap fun b =>
    [Nat.digitChar (b.toNat / 16), Nat.digitChar (b.toNat % 16)])

/-- `str::eq_ignore_ascii_case`. -/
def eqIgnoreAsciiCase (a b : String) : Bool :=
  a.toList.map Char.toLower == b.toList.map Char.toLower

def sha256Hex (env : External) (bytes : Bytes) : String :=
  hexEncode (env.sha256 bytes)

/-! ## Reading fields -/

def parseDoc (env : External) (name : String) (bytes : Bytes) : Except TufError TufDoc := do
  failIf (bytes.length > maxMetadataSize) (.limitExceeded s!"{name} 超过大小上限")
  (env.fromSlice bytes).mapError fun e => .malformed s!"{name}: {e}"

def signedStr (signed : Value) (key ctx : String) : Except TufError String :=
  orFail (.malformed s!"{ctx}: 缺少 {key}") ((signed.get key).bind Value.asStr)

def signedU64 (signed : Value) (key ctx : String) : Except TufError Nat :=
  orFail (.malformed s!"{ctx}: 缺少 {key}") ((signed.get key).bind Value.asU64)

def signedVersion (signed : Value) (ctx : String) : Except TufError Nat := do
  let version ← signedU64 signed "version" ctx
  failIf (version = 0) (.malformed s!"{ctx}: version 必须为正整数")
  return version

/-- One entry of the `keys` table of a root document. -/
def rootKey (k : Value) : Except TufError String := do
  let keytype := ((k.get "keytype").bind Value.asStr).getD ""
  failIf (keytype ≠ "ed25519") (.malformed s!"不支持的 keytype: {keytype}")
  orFail (.malformed "key 缺少 keyval.public")
    ((k.pointer ["keyval", "public"]).bind Value.asStr)

/-- The loop of `root_keys` over the members of the table. -/
def rootKeysLoop : List (String × Value) → Except TufError (List (String × String))
  | [] => .ok []
  | (keyid, k) :: rest => do
      let publicHex ← rootKey k
      let out ← rootKeysLoop rest
      return (keyid, publicHex) :: out

/-- The `keys` of a root document: key id to public key in hexadecimal. -/
def rootKeys (rootSigned : Value) : Except TufError (List (String × String)) := do
  let keys ← orFail (.malformed "root: 缺少 keys")
    ((rootSigned.get "keys").bind Value.asObject)
  rootKeysLoop keys

/-- A list of strings, as `Vec<String>` is deserialized. -/
def stringItems : List Value → Option (List String)
  | [] => some []
  | .str s :: rest => (stringItems rest).map (s :: ·)
  | _ :: _ => none

/-- `Vec<String>` from a value. -/
def asStrings : Value → Option (List String)
  | .arr items => stringItems items
  | _ => none

/-- `u32` from a value. -/
def asU32 (v : Value) : Option Nat :=
  v.asU64.filter fun n => n < 2 ^ 32

/-- `serde_json::from_value::<RoleDef>`: a derived structure is read from an
object with both fields or from the array of both. -/
def RoleDef.fromValue : Value → Option RoleDef
  | .obj members => do
      let keyids ← (members.lookup "keyids").bind asStrings
      let threshold ← (members.lookup "threshold").bind asU32
      return ⟨keyids, threshold⟩
  | .arr [keyids, threshold] => do
      let keyids ← asStrings keyids
      let threshold ← asU32 threshold
      return ⟨keyids, threshold⟩
  | _ => none

def roleDef (env : External) (rootSigned : Value) (role : String) :
    Except TufError RoleDef := do
  let v ← orFail (.malformed s!"root: 缺少角色 {role}") (rootSigned.pointer ["roles", role])
  orFail (.malformed s!"角色 {role}: {env.roleDefError v}") (RoleDef.fromValue v)

/-- One role of `validate_root_roles`. The keys a role may name are those of the
table, each at most once, and the threshold must be reachable. -/
def validateRootRole (env : External) (rootSigned : Value)
    (keys : List (String × String)) (roleName : String) : Except TufError Unit := do
  let role ← roleDef env rootSigned roleName
  failIf (role.keyids = []) (.malformed s!"root: 角色 {roleName} 的 keyids 不能为空")
  let unique := role.keyids.dedup.insertionSort byteLe
  failIf (unique.length ≠ role.keyids.length)
    (.malformed s!"root: 角色 {roleName} 含重复 keyid")
  match unique.find? fun keyid => (keys.lookup keyid).isNone with
  | some unknown =>
      .error (.malformed s!"root: 角色 {roleName} 引用了未知 keyid {unknown}")
  | none =>
      failIf (role.threshold = 0 ∨ role.threshold > unique.length)
        (.malformed
          s!"root: 角色 {roleName} 的 threshold {role.threshold} 超出授权唯一密钥数 {unique.length}")

/-- The four top-level roles, in the order they are checked. -/
def topLevelRoles : List String := ["root", "timestamp", "snapshot", "targets"]

/-- Reject role definitions that no signature set could meaningfully satisfy. -/
def validateRootRoles (env : External) (rootSigned : Value)
    (keys : List (String × String)) : Except TufError Unit :=
  forM topLevelRoles (validateRootRole env rootSigned keys)

/-! ## What the readers accept -/

theorem parseDoc_eq_ok {env : External} {name : String} {bytes : Bytes} {doc : TufDoc} :
    parseDoc env name bytes = .ok doc ↔
      bytes.length ≤ maxMetadataSize ∧ env.fromSlice bytes = .ok doc := by
  simp only [parseDoc, bind_eq_ok, failIf_eq_ok, mapError_eq_ok, exists_and_left,
    exists_const, not_lt, gt_iff_lt]

theorem signedStr_eq_ok {signed : Value} {key ctx s : String} :
    signedStr signed key ctx = .ok s ↔ (signed.get key).bind Value.asStr = some s :=
  orFail_eq_ok

theorem signedVersion_eq_ok {signed : Value} {ctx : String} {version : Nat} :
    signedVersion signed ctx = .ok version ↔
      (signed.get "version").bind Value.asU64 = some version ∧ version ≠ 0 := by
  simp only [signedVersion, signedU64, bind_eq_ok, orFail_eq_ok, failIf_eq_ok, pure_eq_ok]
  constructor
  · rintro ⟨n, hn, -, hpos, rfl⟩
    exact ⟨hn, hpos⟩
  · rintro ⟨hn, hpos⟩
    exact ⟨version, hn, ⟨⟩, hpos, rfl⟩

/-- A version is an unsigned 64-bit integer. -/
theorem lt_of_signedVersion {signed : Value} {ctx : String} {version : Nat}
    (h : signedVersion signed ctx = .ok version) : version < 2 ^ 64 := by
  obtain ⟨hget, -⟩ := signedVersion_eq_ok.mp h
  obtain ⟨v, -, hv⟩ := Option.bind_eq_some_iff.mp hget
  unfold Value.asU64 at hv
  split at hv
  · rename_i n hn
    exact Option.some.inj hv ▸ hn
  · cases hv

/-- A role that `validate_root_roles` lets pass: its key ids are pairwise
different and in the table, and there are at least as many as the threshold. -/
structure RoleDef.Valid (keys : List (String × String)) (role : RoleDef) : Prop where
  nodup : role.keyids.Nodup
  known : ∀ keyid ∈ role.keyids, ∃ publicHex, keys.lookup keyid = some publicHex
  positive : 0 < role.threshold
  reachable : role.threshold ≤ role.keyids.length

theorem validateRootRole_eq_ok {env : External} {rootSigned : Value}
    {keys : List (String × String)} {roleName : String} :
    validateRootRole env rootSigned keys roleName = .ok () ↔
      ∃ role, roleDef env rootSigned roleName = .ok role ∧ role.Valid keys := by
  have hlength : ∀ keyids : List String,
      (keyids.dedup.insertionSort byteLe).length = keyids.length ↔ keyids.Nodup := by
    intro keyids
    rw [List.length_insertionSort]
    constructor
    · intro h
      have hself := (List.dedup_sublist keyids).eq_of_length h
      exact List.dedup_eq_self.mp hself
    · intro h
      rw [h.dedup]
  rw [validateRootRole, bind_eq_ok]
  refine exists_congr fun role => and_congr_right fun _ => ?_
  simp only [bind_eq_ok, failIf_eq_ok, exists_and_left, exists_const, not_not]
  constructor
  · rintro ⟨-, hnodup, hrest⟩
    split at hrest
    · cases hrest
    · rename_i hknown
      rw [failIf_eq_ok, not_or, hnodup] at hrest
      refine ⟨(hlength _).mp hnodup, ?_, by omega, by omega⟩
      intro keyid hmem
      have := List.find?_eq_none.mp hknown keyid (by simpa using hmem)
      exact Option.isSome_iff_exists.mp (by simpa using this)
  · rintro ⟨hnodup, hknown, hpos, hreach⟩
    refine ⟨?_, (hlength _).mpr hnodup, ?_⟩
    · rintro hnil
      rw [hnil, List.length_nil] at hreach
      omega
    · have hfind : (role.keyids.dedup.insertionSort byteLe).find?
          (fun keyid => (keys.lookup keyid).isNone) = none := by
        rw [List.find?_eq_none]
        intro keyid hmem
        obtain ⟨publicHex, hkey⟩ := hknown keyid (by simpa using hmem)
        simp [hkey]
      rw [hfind]
      refine failIf_eq_ok.mpr ?_
      rw [(hlength _).mpr hnodup]
      omega

/-- Every top-level role of an accepted root is valid. -/
theorem validateRootRoles_eq_ok {env : External} {rootSigned : Value}
    {keys : List (String × String)} :
    validateRootRoles env rootSigned keys = .ok () ↔
      ∀ roleName ∈ topLevelRoles,
        ∃ role, roleDef env rootSigned roleName = .ok role ∧ role.Valid keys := by
  rw [validateRootRoles, forM_eq_ok]
  exact forall₂_congr fun _ _ => validateRootRole_eq_ok

end Useful.Tuf
