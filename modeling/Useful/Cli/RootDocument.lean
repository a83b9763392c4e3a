/-
# Root documents on both sides

The CLI signs the canonical text of a root document, and the client reads the document with
`serde_json` and writes the canonical text again. Both sort the keys of an object, by UTF-16 units
and by bytes, and the keys of a root document are ASCII, so the texts are the same and the client
accepts a document that its own key has signed.
-/

import Useful.Cli.RotateRoot
import Useful.Tuf.Verify

/-! ## Reading sorted values -/

namespace Useful.Tuf

open Useful.Math

namespace Value

variable {v : Value}

/-- Sorting moves members around, and keys are listed once, so they are found as before. -/
theorem get_sortKeys (key : String) (h : v.DistinctKeys) :
    Value.get (Json.sortKeys byteLe v) key = (v.get key).map (Json.sortKeys byteLe) := by
  cases v with
  | obj members =>
      rw [Json.DistinctKeys, Json.forallObjects_obj] at h
      have hkeys : ((members.map fun m => (m.1, Json.sortKeys byteLe m.2)).map Prod.fst).Nodup := by
        rw [List.map_map]
        exact h.1
      rw [Json.sortKeys_obj, get, get, ← Json.lookup_map]
      exact (Json.lookup_perm hkeys (List.perm_insertionSort _ _).symm key).symm
  | _ => rfl

theorem get_sortKeys_of_get {w : Value} {key : String} (h : v.DistinctKeys)
    (hget : v.get key = some w) :
    Value.get (Json.sortKeys byteLe v) key = some (Json.sortKeys byteLe w) := by
  rw [get_sortKeys key h, hget, Option.map_some]

theorem pointer_of_get {w : Value} {key : String} {tokens : List String}
    (h : v.get key = some w) : v.pointer (key :: tokens) = w.pointer tokens := by
  cases v with
  | obj members =>
      rw [get] at h
      rw [pointer, h, Option.bind_some]
  | _ => cases h

end Value

theorem RoleDef.fromValue_of_get {v keyids threshold : Value} {ids : List String} {n : Nat}
    (hkeyids : v.get "keyids" = some keyids) (hthreshold : v.get "threshold" = some threshold)
    (hids : asStrings keyids = some ids) (hn : asU32 threshold = some n) :
    RoleDef.fromValue v = some ⟨ids, n⟩ := by
  cases v with
  | obj members =>
      rw [Value.get] at hkeyids hthreshold
      rw [fromValue, hkeyids, hthreshold]
      simp [hids, hn]
  | _ => cases hkeyids

theorem stringItems_map_str (ids : List String) : stringItems (ids.map .str) = some ids := by
  induction ids with
  | nil => rfl
  | cons id ids ih => rw [List.map_cons, stringItems, ih, Option.map_some]

end Useful.Tuf

namespace Useful.Cli.Source

open Useful.Math

/-! ## Canonical texts -/

section Texts

variable {ν : Type} {number : Nat → ν} {s : RootSigned}

/-- A count as `serde_json` reads it. -/
def u64 (n : Nat) : Tuf.Number := .posInt (n % 2 ^ 64) (Nat.mod_lt _ (by decide))

/-- The numbers of a document are integers that JavaScript and `u64` hold. -/
structure RootSigned.Safe (s : RootSigned) : Prop where
  version : s.version ≤ 2 ^ 53
  threshold : ∀ r ∈ [s.root, s.targets, s.snapshot, s.timestamp], r.threshold = 1

/-- The key ids of a document are listed once, and they are ASCII. -/
structure RootSigned.Plain (s : RootSigned) : Prop where
  nodup : (s.keys.map Prod.fst).Nodup
  ascii : ∀ k ∈ s.keys, ∀ c ∈ k.1.toList, c.toNat < 128

theorem mapNum_tufKeyObject (publicHex : String) :
    (tufKeyObject publicHex : Json Nat).mapNum number = tufKeyObject publicHex := by
  simp [tufKeyObject]

theorem rootJson_eq_mapNum : rootJson number s = (rootJson id s).mapNum number := by
  simp [rootJson, roleJson, Function.comp_def, mapNum_tufKeyObject]

/-- The keys of the objects of a root document, those of `keys` apart. -/
def fixedKeys : List (List String) :=
  [["_type", "spec_version", "consistent_snapshot", "version", "expires", "keys", "roles"],
    ["root", "targets", "snapshot", "timestamp"], ["keyids", "threshold"],
    ["keytype", "scheme", "keyval"], ["public"]]

theorem forallObjects_rootJson {P : List String → Prop} (hfixed : ∀ keys ∈ fixedKeys, P keys)
    (hids : P (s.keys.map Prod.fst)) : (rootJson number s).ForallObjects P := by
  simp only [fixedKeys, List.forall_mem_cons, List.not_mem_nil, false_implies, implies_true,
    and_true] at hfixed
  obtain ⟨hroot, hroles, hrole, hkey, hpublic⟩ := hfixed
  have hobject : ∀ publicHex, (tufKeyObject publicHex : Json ν).ForallObjects P := by
    intro publicHex
    simp [tufKeyObject, hkey, hpublic]
  have hkeys : (Json.obj (s.keys.map fun k => (k.1, (tufKeyObject k.2 : Json ν)))).ForallObjects
      P := by
    rw [Json.forallObjects_obj, List.map_map]
    refine ⟨hids, fun m hm => ?_⟩
    obtain ⟨k, -, rfl⟩ := List.mem_map.mp hm
    exact hobject k.2
  simp [rootJson, roleJson, hroot, hroles, hrole, hkeys]

theorem distinctKeys_rootJson (h : s.Plain) : (rootJson number s).DistinctKeys :=
  forallObjects_rootJson (by decide) h.nodup

/-- An ASCII text is in conflict with no other. -/
theorem not_orderConflict {s t : List Char} (hs : ∀ c ∈ s, c.toNat < 128) :
    ¬ OrderConflict s t := by
  induction s generalizing t with
  | nil => exact id
  | cons c s ih =>
      cases t with
      | nil => exact id
      | cons d t =>
          have hc := hs c List.mem_cons_self
          have hrest : ¬ OrderConflict s t := ih fun c hc => hs c (List.mem_cons_of_mem _ hc)
          unfold OrderConflict
          split_ifs
          · exact hrest
          · simp only [AboveSurrogates, Supplementary]
            omega

theorem noOrderConflict_of_ascii {keys : List String}
    (h : ∀ k ∈ keys, ∀ c ∈ k.toList, c.toNat < 128) : Interop.NoOrderConflict keys :=
  fun k hk _ _ => not_orderConflict (h k hk)

/-- The keys of a root document are sorted alike by units and by bytes. -/
theorem sortKeys_rootJson (h : s.Plain) :
    Json.sortKeys unitLe (rootJson number s) = Json.sortKeys Tuf.byteLe (rootJson number s) := by
  refine (Json.sortKeys_eq_sortKeys_iff _ _ (distinctKeys_rootJson h)).mpr ?_
  refine forallObjects_rootJson (fun keys hkeys => ?_) ?_
  · refine (Interop.orders_agree_iff keys).mpr (noOrderConflict_of_ascii ?_)
    revert keys
    simp [fixedKeys]
  · refine (Interop.orders_agree_iff _).mpr (noOrderConflict_of_ascii fun k hk => ?_)
    obtain ⟨entry, hentry, rfl⟩ := List.mem_map.mp hk
    exact h.ascii entry hentry

/-- The text that is signed. -/
def rootText (s : RootSigned) : List Char :=
  Json.render quoted (fun n : Nat => decimal n) (Json.sortKeys Tuf.byteLe (rootJson id s))

theorem anyNum_rootJson (h : s.Safe) :
    (rootJson id s).anyNum (fun n => decide (2 ^ 53 < n)) = false := by
  obtain ⟨hversion, hthreshold⟩ := h
  simp only [List.forall_mem_cons, List.not_mem_nil, false_implies, implies_true,
    and_true] at hthreshold
  obtain ⟨hroot, htargets, hsnapshot, htimestamp⟩ := hthreshold
  simpa [rootJson, roleJson, tufKeyObject, hroot, htargets, hsnapshot, htimestamp] using hversion

/-- The CLI signs this text. -/
theorem canonicalJson_rootJson (exponential : Int → List Char) (hsafe : s.Safe)
    (hplain : s.Plain) :
    canonicalJson exponential (rootJson jsNumber s) = .ok (rootText s) := by
  have hnumber : ∀ n : Nat, decide (2 ^ 53 < n) = false →
      writeNumber exponential (jsNumber n) = .ok (decimal n) := by
    intro n hn
    have hsmall : (n : Int).natAbs < 10 ^ 21 := by
      have := of_decide_eq_false hn
      omega
    have hden : ((n : ℚ)).den = 1 := Rat.den_natCast n
    have hnum : ((n : ℚ)).num = n := Rat.num_natCast n
    rw [jsNumber, writeNumber, if_pos hden, hnum, if_pos hsmall]
  rw [rootJson_eq_mapNum, canonicalJson, Json.encode_mapNum, canonicalString_eq_quoted,
    Json.encode_eq_ok unitLe quoted hnumber (anyNum_rootJson hsafe), sortKeys_rootJson hplain]
  rfl

/-- The client verifies this text. -/
theorem canonicalJson_read {read : Tuf.SerdeValue} (hsafe : s.Safe)
    (hread : read.tree = Json.sortKeys Tuf.byteLe (rootJson u64 s)) :
    Tuf.canonicalJson read.tree = .ok (rootText s) := by
  have hnumber : ∀ n : Nat, decide (2 ^ 53 < n) = false →
      Tuf.writeNumber (u64 n) = .ok (decimal n) := by
    intro n hn
    have hsmall : n % 2 ^ 64 = n := Nat.mod_eq_of_lt (by
      have := of_decide_eq_false hn
      omega)
    rw [u64, Tuf.writeNumber]
    simp only [hsmall]
  have hfloat : (rootJson u64 s).anyNum Tuf.Number.isF64 = false := by
    simp [rootJson, roleJson, tufKeyObject, u64, Tuf.Number.isF64]
  have hself : Json.sortKeys Tuf.byteLe read.tree = read.tree :=
    Json.sortKeys_eq_self Tuf.byteLe (fun _ _ => le_of_lt) read.sorted
  have hunsorted : Tuf.canonicalJson read.tree = Tuf.canonicalJson (rootJson u64 s) := by
    rw [Tuf.canonicalJson_eq_ok hfloat, ← hread, Tuf.canonicalJson_eq_ok, hself]
    rw [hread, Json.anyNum_sortKeys, hfloat]
  rw [hunsorted, Tuf.canonicalJson, rootJson_eq_mapNum, Json.encode_mapNum,
    Tuf.canonicalString_eq_quoted,
    Json.encode_eq_ok Tuf.byteLe quoted hnumber (anyNum_rootJson hsafe)]
  rfl

end Texts

/-! ## Keys -/

theorem ascii_hexEncode {bytes : Tuf.Bytes} :
    ∀ c ∈ (Tuf.hexEncode bytes).toList, c.toNat < 128 := by
  have hdigit : ∀ n < 16, (Nat.digitChar n).toNat < 128 := by decide
  intro c hc
  rw [Tuf.hexEncode, String.toList_ofList] at hc
  obtain ⟨b, -, hb⟩ := List.mem_flatMap.mp hc
  have hlow : b.toNat % 16 < 16 := Nat.mod_lt _ (by decide)
  have hhigh : b.toNat / 16 < 16 := by
    have := b.toNat_lt
    omega
  rcases List.mem_cons.mp hb with rfl | hb
  · exact hdigit _ hhigh
  · rw [List.mem_singleton.mp hb]
    exact hdigit _ hlow

/-- Hexadecimal text is read back. -/
theorem hexDecode_hexEncode (bytes : Tuf.Bytes) :
    Tuf.hexDecode (Tuf.hexEncode bytes).toList = some bytes := by
  have hdigit : ∀ n < 16, Tuf.hexVal (Nat.digitChar n) = some n := by decide
  rw [Tuf.hexEncode, String.toList_ofList]
  induction bytes with
  | nil => rfl
  | cons b bytes ih =>
      have hlow : Tuf.hexVal (Nat.digitChar (b.toNat % 16)) = some (b.toNat % 16) :=
        hdigit _ (Nat.mod_lt _ (by decide))
      have hhigh : Tuf.hexVal (Nat.digitChar (b.toNat / 16)) = some (b.toNat / 16) :=
        hdigit _ (by
          have := b.toNat_lt
          omega)
      have hbyte : UInt8.ofNat (16 * (b.toNat / 16) + b.toNat % 16) = b := by
        rw [Nat.div_add_mod, UInt8.ofNat_toNat]
      rw [List.flatMap_cons, List.cons_append, List.cons_append, List.nil_append, Tuf.hexDecode,
        hhigh, hlow, ih]
      exact congrArg (fun b => some (b :: bytes)) hbyte

/-- What the client's verifier and `node:crypto` have in common. -/
structure Crypto.Lawful (crypto : Crypto) (tuf : Tuf.External) : Prop where
  publicKey_length : ∀ pem, (crypto.publicKeyOf pem).length = 32
  signature_length : ∀ pem message, (crypto.edSign pem message).length = 64
  verifies : ∀ pem message,
    tuf.ed25519Verify (crypto.publicKeyOf pem) message (crypto.edSign pem message) = true

variable {crypto : Crypto} {tuf : Tuf.External}

/-- A signature verifies under the public key of its private key. -/
theorem Crypto.Lawful.verifySignature (h : crypto.Lawful tuf) (pem : String)
    (message : Tuf.Bytes) :
    Tuf.verifySignature tuf (Tuf.hexEncode (crypto.publicKeyOf pem)) message
      (Tuf.hexEncode (crypto.edSign pem message)) = true := by
  simp [Tuf.verifySignature, hexDecode_hexEncode, h.publicKey_length, h.signature_length,
    h.verifies]

variable (crypto)

/-- The key of a private key. -/
def keyOf (privatePem : String) : Key :=
  let publicHex := Tuf.hexEncode (crypto.publicKeyOf privatePem)
  let text := Json.render quoted (fun _ : JsNumber => [])
    (Json.sortKeys unitLe (tufKeyObject publicHex))
  ⟨Tuf.hexEncode (crypto.sha256 (Tuf.asBytes text)), publicHex, privatePem⟩

variable {crypto}

@[simp]
theorem keyOf_privatePem (pem : String) : (keyOf crypto pem).privatePem = pem := rfl

theorem keyFromPrivatePem_eq (pem : String) :
    keyFromPrivatePem crypto pem = .ok (keyOf crypto pem) := by
  have htext : ∀ publicHex, canonicalJson crypto.exponential (tufKeyObject publicHex) =
      .ok (Json.render quoted (fun _ : JsNumber => [])
        (Json.sortKeys unitLe (tufKeyObject publicHex))) := by
    intro publicHex
    have hnone : (tufKeyObject publicHex : Json JsNumber).anyNum (fun _ => true) = false := by
      simp [tufKeyObject]
    rw [canonicalJson, canonicalString_eq_quoted]
    refine Json.encode_eq_ok unitLe quoted ?_ hnone
    intro n hn
    cases hn
  rw [keyFromPrivatePem, keyidOf, htext]
  rfl

/-! ## Documents with one key for each role -/

/-- The keys of the roles that a rotation leaves alone. -/
structure Team where
  targets : Key
  snapshot : Key
  timestamp : Key

/-- The keys of a root document. -/
def Team.keys (team : Team) (root : Key) : List Key :=
  [root, team.targets, team.snapshot, team.timestamp]

def Team.Apart (team : Team) (root : Key) : Prop := ((team.keys root).map Key.keyid).Nodup

/-- A root document with one key for each role. -/
def soloRoot (version : Nat) (expires : String) (root : Key) (team : Team) : RootSigned where
  version := version
  expires := expires
  keys := (team.keys root).map Key.listed
  root := ⟨[root.keyid], 1⟩
  targets := ⟨[team.targets.keyid], 1⟩
  snapshot := ⟨[team.snapshot.keyid], 1⟩
  timestamp := ⟨[team.timestamp.keyid], 1⟩

section

variable {version : Nat} {expires : String} {root : Key} {team : Team}

theorem setKey_of_not_mem {keys : List ListedKey} {k : ListedKey}
    (h : k.1 ∉ keys.map Prod.fst) : setKey keys k = keys ++ [k] := by
  have hnone : keys.any (·.1 = k.1) = false := by
    rw [List.any_eq_false]
    intro e he
    simpa using fun heq : e.1 = k.1 => h (heq ▸ List.mem_map_of_mem he)
  rw [setKey, hnone]
  rfl

/-- Keys of different key ids are listed in the order in which they come. -/
theorem foldl_setKey {keys added : List ListedKey}
    (h : ((keys ++ added).map Prod.fst).Nodup) : added.foldl setKey keys = keys ++ added := by
  induction added generalizing keys with
  | nil => simp
  | cons k added ih =>
      have hfresh : k.1 ∉ keys.map Prod.fst := by
        rw [List.map_append, List.map_cons, List.nodup_append] at h
        exact fun hmem => h.2.2 _ hmem _ List.mem_cons_self rfl
      rw [List.foldl_cons, setKey_of_not_mem hfresh, ih]
      · simp
      · simpa using h

theorem keyids_eq : ((team.keys root).map Key.listed).map Prod.fst =
    (team.keys root).map Key.keyid := by
  rw [List.map_map]
  rfl

theorem buildRootSigned_eq (h : team.Apart root) :
    buildRootSigned version expires [root.listed] [team.targets.listed] [team.snapshot.listed]
      [team.timestamp.listed] = soloRoot version expires root team := by
  have hnodup : (([] ++ (team.keys root).map Key.listed).map Prod.fst).Nodup := by
    rw [List.nil_append, keyids_eq]
    exact h
  have hkeys : ((team.keys root).map Key.listed).foldl setKey [] =
      (team.keys root).map Key.listed := foldl_setKey hnodup
  rw [soloRoot, ← hkeys]
  rfl

theorem rolesOf_eq {cur : RootSigned} {k : Key} (h : cur.keys.lookup k.keyid = some k.publicHex) :
    rolesOf cur ⟨[k.keyid], 1⟩ = .ok [k.listed] := by
  simp [rolesOf, h, Key.listed, pure, Except.pure, bind, Except.bind]

/-- Each key of the document is found under its key id. -/
theorem lookup_soloRoot (h : team.Apart root) {k : Key} (hk : k ∈ team.keys root) :
    (soloRoot version expires root team).keys.lookup k.keyid = some k.publicHex := by
  have hnodup : (((team.keys root).map Key.listed).map Prod.fst).Nodup := by
    rw [keyids_eq]
    exact h
  exact (Json.lookup_eq_some_iff_mem hnodup).mpr (List.mem_map.mpr ⟨k, hk, rfl⟩)

end

variable (crypto) in
/-- The document, signed with private keys. -/
def signedRoot (version : Nat) (expires : String) (root : Key) (team : Team)
    (signers : List String) : Signed RootSigned where
  signatures := signers.map fun pem => ((keyOf crypto pem).keyid,
    Tuf.hexEncode (crypto.edSign pem (Tuf.asBytes (rootText (soloRoot version expires root team)))))
  signed := soloRoot version expires root team

/-- The root key and the keys of the other roles, from their private keys. -/
structure Drawn (crypto : Crypto) (root : Key) (team : Team) : Prop where
  keys : ∀ k ∈ team.keys root, ∃ pem, k = keyOf crypto pem
  apart : team.Apart root

section

variable {version : Nat} {expires : String} {root : Key} {team : Team} {signers : List String}

theorem safe_soloRoot (h : version ≤ 2 ^ 53) : (soloRoot version expires root team).Safe :=
  ⟨h, by simp [soloRoot]⟩

theorem Drawn.plain (h : Drawn crypto root team) :
    (soloRoot version expires root team).Plain where
  nodup := by
    rw [soloRoot, keyids_eq]
    exact h.apart
  ascii := by
    intro entry hentry
    obtain ⟨k, hk, rfl⟩ := List.mem_map.mp hentry
    obtain ⟨pem, rfl⟩ := h.keys k hk
    exact ascii_hexEncode

theorem wrapAndSign_eq (h : Drawn crypto root team) (hversion : version ≤ 2 ^ 53) :
    wrapAndSign crypto (soloRoot version expires root team) (signers.map (keyOf crypto)) =
      .ok (signedRoot crypto version expires root team signers) := by
  have hsign : ∀ pem, signCanonical crypto pem (soloRoot version expires root team) =
      .ok (Tuf.hexEncode (crypto.edSign pem
        (Tuf.asBytes (rootText (soloRoot version expires root team))))) := by
    intro pem
    rw [signCanonical, canonicalJson_rootJson _ (safe_soloRoot hversion) h.plain]
    rfl
  have hall : (signers.map (keyOf crypto)).mapM (fun s => do
        let sig ← signCanonical crypto s.privatePem (soloRoot version expires root team)
        return (s.keyid, sig)) =
      .ok (signedRoot crypto version expires root team signers).signatures := by
    rw [mapM_eq_ok, List.forall₂_map_left_iff, signedRoot, List.forall₂_map_right_iff,
      List.forall₂_same]
    intro pem _
    rw [keyOf_privatePem, hsign]
    rfl
  rw [wrapAndSign, hall]
  rfl

end

/-! ## What the client reads -/

/-- `serde_json` reads the document that was written. -/
structure Reads (read : Tuf.TufDoc) (doc : Signed RootSigned) : Prop where
  signatures : read.signatures = doc.signatures.map fun s => ⟨s.1, s.2⟩
  signed : read.signed.tree = Json.sortKeys Tuf.byteLe (rootJson u64 doc.signed)

/-- The keys of a document in the order in which the client holds them. -/
def heldKeys (s : RootSigned) : List ListedKey := s.keys.insertionSort (Json.keyLe Tuf.byteLe)

section

variable {read : Tuf.TufDoc} {doc : Signed RootSigned}

theorem rootKey_eq (publicHex : String) :
    Tuf.rootKey (Json.sortKeys Tuf.byteLe (tufKeyObject publicHex)) = .ok publicHex := by
  have hdistinct : (tufKeyObject publicHex : Tuf.Value).DistinctKeys := by
    simp [tufKeyObject, Json.DistinctKeys]
  have hpublic : (Json.obj [("public", .str publicHex)] : Tuf.Value).DistinctKeys := by
    simp [Json.DistinctKeys]
  have htype := Tuf.Value.get_sortKeys_of_get hdistinct
    (show Tuf.Value.get (tufKeyObject publicHex) "keytype" = some (.str "ed25519") from rfl)
  have hkeyval := Tuf.Value.get_sortKeys_of_get hdistinct
    (show Tuf.Value.get (tufKeyObject publicHex) "keyval" =
      some (.obj [("public", .str publicHex)]) from rfl)
  have hhex := Tuf.Value.get_sortKeys_of_get hpublic
    (show Tuf.Value.get (.obj [("public", .str publicHex)]) "public" =
      some (.str publicHex) from rfl)
  rw [Tuf.rootKey, htype, Tuf.Value.pointer_of_get hkeyval, Tuf.Value.pointer_of_get hhex]
  rfl

theorem rootKeysLoop_eq (keys : List ListedKey) :
    Tuf.rootKeysLoop (keys.map fun k =>
      (k.1, Json.sortKeys Tuf.byteLe (tufKeyObject k.2))) = .ok keys := by
  induction keys with
  | nil => rfl
  | cons k keys ih =>
      rw [List.map_cons, Tuf.rootKeysLoop, rootKey_eq, ih]
      rfl

/-- A member of the signed part, as the client finds it. -/
theorem Reads.get (h : Reads read doc) (hplain : doc.signed.Plain) {key : String} {w : Tuf.Value}
    (hget : Tuf.Value.get (rootJson u64 doc.signed) key = some w) :
    Tuf.Value.get read.signed.tree key = some (Json.sortKeys Tuf.byteLe w) := by
  rw [h.signed]
  exact Tuf.Value.get_sortKeys_of_get (distinctKeys_rootJson hplain) hget

theorem Reads.rootKeys (h : Reads read doc) (hplain : doc.signed.Plain) :
    Tuf.rootKeys read.signed.tree = .ok (heldKeys doc.signed) := by
  have hkeys : Tuf.Value.get (rootJson u64 doc.signed) "keys" =
      some (.obj (doc.signed.keys.map fun k => (k.1, tufKeyObject k.2))) := rfl
  have hsorted : ((doc.signed.keys.map fun k => (k.1, (tufKeyObject k.2 : Tuf.Value))).map
        fun m => (m.1, Json.sortKeys Tuf.byteLe m.2)).insertionSort (Json.keyLe Tuf.byteLe) =
      (heldKeys doc.signed).map fun k =>
        (k.1, Json.sortKeys Tuf.byteLe (tufKeyObject k.2)) := by
    rw [List.map_map, heldKeys]
    exact (List.map_insertionSort (Json.keyLe Tuf.byteLe) (Json.keyLe Tuf.byteLe)
      (fun k : ListedKey => (k.1, Json.sortKeys Tuf.byteLe (tufKeyObject k.2))) _
      fun _ _ _ _ => Iff.rfl).symm
  rw [Tuf.rootKeys, h.get hplain hkeys, Json.sortKeys_obj, hsorted]
  exact rootKeysLoop_eq _

/-- The roles that the documents list, by name. -/
def RootSigned.role (s : RootSigned) (name : String) : Option RoleKeys :=
  [("root", s.root), ("targets", s.targets), ("snapshot", s.snapshot),
    ("timestamp", s.timestamp)].lookup name

theorem fromValue_roleJson {r : RoleKeys} (hthreshold : r.threshold = 1) :
    Tuf.RoleDef.fromValue (Json.sortKeys Tuf.byteLe (roleJson u64 r)) =
      some ⟨r.keyids, 1⟩ := by
  have hdistinct : (roleJson u64 r).DistinctKeys := by
    simp [roleJson, Json.DistinctKeys]
  have hkeyids := Tuf.Value.get_sortKeys_of_get hdistinct
    (show Tuf.Value.get (roleJson u64 r) "keyids" = some (.arr (r.keyids.map .str)) from rfl)
  have hcount := Tuf.Value.get_sortKeys_of_get hdistinct
    (show Tuf.Value.get (roleJson u64 r) "threshold" = some (.num (u64 r.threshold)) from rfl)
  refine Tuf.RoleDef.fromValue_of_get hkeyids hcount ?_ ?_
  · have hitems : (r.keyids.map Json.str).map (Json.sortKeys Tuf.byteLe) =
        r.keyids.map (Json.str : String → Tuf.Value) := by
      rw [List.map_map]
      rfl
    rw [Json.sortKeys_arr, hitems]
    exact Tuf.stringItems_map_str r.keyids
  · rw [hthreshold]
    rfl

theorem Reads.roleDef (h : Reads read doc) (hplain : doc.signed.Plain) {name : String}
    {r : RoleKeys} (hrole : doc.signed.role name = some r) (hthreshold : r.threshold = 1) :
    Tuf.roleDef tuf read.signed.tree name = .ok ⟨r.keyids, 1⟩ := by
  let roles : Tuf.Value := .obj ([("root", doc.signed.root), ("targets", doc.signed.targets),
    ("snapshot", doc.signed.snapshot), ("timestamp", doc.signed.timestamp)].map fun m =>
      (m.1, roleJson u64 m.2))
  have hroles : Tuf.Value.get (rootJson u64 doc.signed) "roles" = some roles := rfl
  have hdistinct : roles.DistinctKeys := by
    simp [roles, roleJson, Json.DistinctKeys]
  have hmember : Tuf.Value.get roles name = some (roleJson u64 r) := by
    rw [RootSigned.role] at hrole
    rw [Tuf.Value.get, Json.lookup_map, hrole, Option.map_some]
  have hpointer : Tuf.Value.pointer read.signed.tree ["roles", name] =
      some (Json.sortKeys Tuf.byteLe (roleJson u64 r)) := by
    rw [Tuf.Value.pointer_of_get (h.get hplain hroles),
      Tuf.Value.pointer_of_get (Tuf.Value.get_sortKeys_of_get hdistinct hmember)]
    rfl
  rw [Tuf.roleDef, hpointer]
  exact bind_eq_ok.mpr ⟨_, rfl, orFail_eq_ok.mpr (fromValue_roleJson hthreshold)⟩

end

/-! ## Accepted documents -/

section

variable {version : Nat} {expires : String} {root : Key} {team : Team} {signers : List String}
  {read : Tuf.TufDoc} {bytes : Tuf.Bytes}

/-- The document as the client holds it. -/
def clientRoot (bytes : Tuf.Bytes) (read : Tuf.TufDoc) (s : RootSigned) : Tuf.Root where
  bytes := bytes
  doc := read
  keys := heldKeys s
  role := ⟨s.root.keyids, 1⟩
  version := s.version

theorem Drawn.lookup (h : Drawn crypto root team) {k : Key} (hk : k ∈ team.keys root) :
    (heldKeys (soloRoot version expires root team)).lookup k.keyid = some k.publicHex := by
  have hplain : (soloRoot version expires root team).Plain := h.plain
  have hperm := (List.perm_insertionSort (Json.keyLe Tuf.byteLe)
    (soloRoot version expires root team).keys).symm
  rw [heldKeys, ← Json.lookup_perm hplain.nodup hperm]
  exact lookup_soloRoot h.apart hk

/-- A document that a private key has signed is signed for a role with its key. -/
theorem signedBy (hlawful : crypto.Lawful tuf) (h : Drawn crypto root team)
    (hversion : version ≤ 2 ^ 53)
    (hread : Reads read (signedRoot crypto version expires root team signers))
    {keys : List ListedKey} {pem : String} (hsigner : pem ∈ signers)
    (hkey : keys.lookup (keyOf crypto pem).keyid = some (keyOf crypto pem).publicHex) :
    Tuf.SignedBy tuf keys ⟨[(keyOf crypto pem).keyid], 1⟩ "root" read where
  type_eq := by
    rw [hread.get h.plain (show Tuf.Value.get (rootJson u64 _) "_type" = some (.str "root") from rfl)]
    rfl
  spec_eq := by
    rw [hread.get h.plain (show Tuf.Value.get (rootJson u64 _) "spec_version" =
      some (.str Tuf.specVersion) from rfl)]
    rfl
  threshold_met := by
    let s : Tuf.TufSignature := ⟨(keyOf crypto pem).keyid, Tuf.hexEncode (crypto.edSign pem
      (Tuf.asBytes (rootText (soloRoot version expires root team))))⟩
    have hmem : s ∈ read.signatures := by
      rw [hread.signatures, signedRoot, List.map_map]
      exact List.mem_map.mpr ⟨pem, hsigner, rfl⟩
    have hsigns : Tuf.entrySigns tuf keys ⟨[(keyOf crypto pem).keyid], 1⟩
        (Tuf.asBytes (rootText (soloRoot version expires root team))) s = true :=
      (Tuf.entrySigns_eq_true tuf).mpr
        ⟨List.mem_cons_self, _, hkey, hlawful.verifySignature pem _⟩
    refine ⟨_, canonicalJson_read (safe_soloRoot hversion) hread.signed, ?_⟩
    exact Finset.card_pos.mpr ⟨s.keyid, (mem_passing _ _).mpr ⟨s, hmem, hsigns, rfl⟩⟩

/-- The client accepts a document that its own root key has signed. -/
theorem accepted (hlawful : crypto.Lawful tuf) {pem : String}
    (h : Drawn crypto (keyOf crypto pem) team) (hversion : version ≤ 2 ^ 53)
    (hpositive : version ≠ 0) (hsigner : pem ∈ signers)
    (hread : Reads read (signedRoot crypto version expires (keyOf crypto pem) team signers))
    (hsize : bytes.length ≤ Tuf.maxMetadataSize) (hparsed : tuf.fromSlice bytes = .ok read) :
    (clientRoot bytes read (soloRoot version expires (keyOf crypto pem) team)).Accepted tuf := by
  have hroot : (keyOf crypto pem) ∈ team.keys (keyOf crypto pem) := List.mem_cons_self
  have hkey : (heldKeys (soloRoot version expires (keyOf crypto pem) team)).lookup
      (keyOf crypto pem).keyid = some (keyOf crypto pem).publicHex := h.lookup hroot
  have hrole : ∀ name (k : Key), k ∈ team.keys (keyOf crypto pem) →
      (soloRoot version expires (keyOf crypto pem) team).role name = some ⟨[k.keyid], 1⟩ →
      Tuf.roleDef tuf read.signed.tree name = .ok ⟨[k.keyid], 1⟩ ∧
        Tuf.RoleDef.Valid (heldKeys (soloRoot version expires (keyOf crypto pem) team))
          ⟨[k.keyid], 1⟩ := by
    intro name k hk hname
    refine ⟨hread.roleDef h.plain hname rfl, ?_, ?_, ?_, ?_⟩
    · exact List.nodup_singleton _
    · intro keyid hkeyid
      rw [List.mem_singleton.mp hkeyid]
      exact ⟨_, h.lookup hk⟩
    · exact Nat.one_pos
    · exact le_rfl
  exact
    { size := hsize
      parsed := hparsed
      keys_eq := hread.rootKeys h.plain
      roles_valid := by
        refine Tuf.validateRootRoles_eq_ok.mpr fun name hname => ?_
        simp only [Tuf.topLevelRoles, List.mem_cons, List.not_mem_nil, or_false] at hname
        rcases hname with rfl | rfl | rfl | rfl
        · exact ⟨_, hrole "root" _ hroot rfl⟩
        · exact ⟨_, hrole "timestamp" team.timestamp (by simp [Team.keys]) rfl⟩
        · exact ⟨_, hrole "snapshot" team.snapshot (by simp [Team.keys]) rfl⟩
        · exact ⟨_, hrole "targets" team.targets (by simp [Team.keys]) rfl⟩
      role_eq := (hrole "root" _ hroot rfl).1
      self_signed := signedBy hlawful h hversion hread hsigner hkey
      consistent := by
        rw [Tuf.Root.signed, clientRoot, hread.get h.plain
          (show Tuf.Value.get (rootJson u64 _) "consistent_snapshot" = some (.bool true) from rfl)]
        rfl
      version_eq := by
        have hsmall : version % 2 ^ 64 = version := Nat.mod_eq_of_lt (by omega)
        rw [Tuf.Root.signed, clientRoot, hread.get h.plain
          (show Tuf.Value.get (rootJson u64 _) "version" = some (.num (u64 version)) from rfl)]
        exact congrArg some hsmall
      version_pos := hpositive }

end

end Useful.Cli.Source
