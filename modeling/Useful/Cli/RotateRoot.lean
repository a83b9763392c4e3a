/-
# Rotating the root key of a static source

`useful source init` and `useful source rotate-root`, with the root document they write as the
JSON value that is signed. A rotation writes the new root document first, then moves the old
private key away and writes the new one. None of these writes is atomic, so a file that is being
written is empty for a while.
-/

import Useful.Cli.Source
import Useful.Interop.CanonicalJson
import Mathlib.Logic.Function.Basic

namespace Useful.Cli.Source

open Useful.Math

/-! ## Keys and signatures -/

/-- What root documents take from elsewhere: `node:crypto`, and `String(n)` from `10^21` on. -/
structure Crypto where
  /-- The public key of a private key, as 32 raw bytes. -/
  publicKeyOf : String → Tuf.Bytes
  edSign : String → Tuf.Bytes → Tuf.Bytes
  sha256 : Tuf.Bytes → Tuf.Bytes
  exponential : Int → List Char

/-- `tufKeyObject` -/
def tufKeyObject {ν : Type} (publicHex : String) : Json ν :=
  .obj [("keytype", .str "ed25519"), ("scheme", .str "ed25519"),
    ("keyval", .obj [("public", .str publicHex)])]

def roleJson {ν : Type} (number : Nat → ν) (r : RoleKeys) : Json ν :=
  .obj [("keyids", .arr (r.keyids.map .str)), ("threshold", .num (number r.threshold))]

/-- The signed part of a root document, as `buildRootSigned` lays it out. -/
def rootJson {ν : Type} (number : Nat → ν) (s : RootSigned) : Json ν :=
  .obj [("_type", .str "root"), ("spec_version", .str Tuf.specVersion),
    ("consistent_snapshot", .bool true), ("version", .num (number s.version)),
    ("expires", .str s.expires),
    ("keys", .obj (s.keys.map fun k => (k.1, tufKeyObject k.2))),
    ("roles", .obj [("root", roleJson number s.root), ("targets", roleJson number s.targets),
      ("snapshot", roleJson number s.snapshot), ("timestamp", roleJson number s.timestamp)])]

/-- A count as a JavaScript number. -/
def jsNumber (n : Nat) : JsNumber := .finite n

variable (crypto : Crypto)

/-- `keyidOf` -/
def keyidOf (publicHex : String) : Except String String := do
  let text ← canonicalJson crypto.exponential (tufKeyObject publicHex)
  return Tuf.hexEncode (crypto.sha256 (Tuf.asBytes text))

/-- `keyFromPrivatePem` -/
def keyFromPrivatePem (privatePem : String) : Except String Key := do
  let publicHex := Tuf.hexEncode (crypto.publicKeyOf privatePem)
  let keyid ← keyidOf crypto publicHex
  return ⟨keyid, publicHex, privatePem⟩

/-- `signCanonical` -/
def signCanonical (privatePem : String) (signedObj : RootSigned) : Except String String := do
  let text ← canonicalJson crypto.exponential (rootJson jsNumber signedObj)
  return Tuf.hexEncode (crypto.edSign privatePem (Tuf.asBytes text))

/-- `wrapAndSign` -/
def wrapAndSign (signed : RootSigned) (signers : List Key) : Except String (Signed RootSigned) := do
  let signatures ← signers.mapM fun s => do
    let sig ← signCanonical crypto s.privatePem signed
    return (s.keyid, sig)
  return ⟨signatures, signed⟩

/-! ## Root documents -/

/-- A key as a role lists it: its key id and the public key. -/
abbrev ListedKey := String × String

def Key.listed (k : Key) : ListedKey := (k.keyid, k.publicHex)

/-- `keys[k.keyid] = …`: a key id that is there keeps its place. -/
def setKey (keys : List ListedKey) (k : ListedKey) : List ListedKey :=
  if keys.any (·.1 = k.1) then keys.map fun e => if e.1 = k.1 then k else e else keys ++ [k]

def roleKeysOf (keyList : List ListedKey) : RoleKeys :=
  ⟨(keyList.map Prod.fst).insertionSort unitLe, 1⟩

/-- `buildRootSigned`, with the threshold left at one as both callers leave it. -/
def buildRootSigned (version : Nat) (expires : String)
    (root targets snapshot timestamp : List ListedKey) : RootSigned where
  version := version
  expires := expires
  keys := (root ++ targets ++ snapshot ++ timestamp).foldl setKey []
  root := roleKeysOf root
  targets := roleKeysOf targets
  snapshot := roleKeysOf snapshot
  timestamp := roleKeysOf timestamp

/-! ## The disk -/

/-- The files, and the listing of `metadata` as far as it names root documents. -/
structure Disk where
  files : Files
  rootVersions : List Nat
  lists : ∀ n, n ∈ rootVersions ↔ files (.rootDoc n) ≠ none

def Disk.empty : Disk := ⟨fun _ => none, [], by simp⟩

/-- The listing once a file is there. -/
def listed (versions : List Nat) : Path → List Nat
  | .rootDoc n => if n ∈ versions then versions else n :: versions
  | _ => versions

theorem mem_listed {versions : List Nat} {path : Path} {n : Nat} :
    n ∈ listed versions path ↔ n ∈ versions ∨ path = .rootDoc n := by
  cases path with
  | rootDoc m =>
      simp only [listed, Path.rootDoc.injEq]
      split_ifs with hm
      · exact ⟨.inl, fun h => h.elim id fun h => h ▸ hm⟩
      · rw [List.mem_cons, or_comm, eq_comm]
  | _ => simp [listed]

/-- A file gets new contents. -/
def Disk.put (d : Disk) (path : Path) (c : Content) : Disk where
  files := Function.update d.files path (some c)
  rootVersions := listed d.rootVersions path
  lists := by
    intro n
    rw [mem_listed, d.lists n]
    by_cases hpath : path = .rootDoc n
    · simp [hpath]
    · simp [hpath, Function.update_of_ne (Ne.symm hpath)]

/-- `renameSync` of a private key to its backup. -/
def Disk.moveKey (d : Disk) (role : String) (version : Nat) : Disk where
  files := Function.update (Function.update d.files (.keyBackup version) (d.files (.key role)))
    (.key role) none
  rootVersions := d.rootVersions
  lists := by simp [d.lists]

@[simp]
theorem Disk.put_files (d : Disk) (path : Path) (c : Content) :
    (d.put path c).files = Function.update d.files path (some c) := rfl

@[simp]
theorem Disk.moveKey_files (d : Disk) (role : String) (version : Nat) :
    (d.moveKey role version).files =
      Function.update (Function.update d.files (.keyBackup version) (d.files (.key role)))
        (.key role) none := rfl

inductive DiskOp
  | makeDirs (path : Path)
  /-- Open for writing: the file is there, and empty. -/
  | truncate (path : Path)
  | write (path : Path) (c : Content)
  | moveKey (role : String) (version : Nat)

def Disk.perform (d : Disk) : DiskOp → Disk
  | .makeDirs _ => d
  | .truncate path => d.put path (.raw [])
  | .write path c => d.put path c
  | .moveKey role version => d.moveKey role version

abbrev DiskScript := Script DiskOp String

/-- `writeFileEnsured` -/
def writeFileEnsured (path : Path) (c : Content) : DiskScript PUnit := do
  .perform (.makeDirs path)
  .perform (.truncate path)
  .perform (.write path c)

/-- `loadRoleKey(dir, "root")` -/
def loadRootKey (files : Files) : Except String Key :=
  match files (.key "root") with
  | some (.pem text) => keyFromPrivatePem crypto text
  | some _ => .error "Invalid PEM"
  | none => .error "缺少私钥 keys/root.pem（开发文件密钥）"

/-! ## The commands -/

/-- The private keys that `cmdInit` generates. -/
structure InitKeys where
  root : String
  targets : String
  snapshot : String
  timestamp : String
  publisher : String

structure InitOptions where
  id : Option String
  name : Option String
  operator : Option String
  baseUrl : Option String

/-- `source-config.yaml` as `cmdInit` fills it in. -/
def initConfig (opts : InitOptions) (publisher : Key) : SourceConfig where
  sourceId := opts.id.getD "com.example.my-source"
  name := opts.name.getD "My Useful Source"
  operator := opts.operator.getD "Self-hosted"
  description := ""
  baseUrl := opts.baseUrl.getD "http://127.0.0.1:8787"
  publisherKeyId := s!"ed25519:{publisher.publicHex}"
  expires := ⟨3650, 365, 30, 7⟩

/-- `cmdInit`: the keys, the configuration, the first root document and an empty state. -/
def cmdInit (clock : Clock) (opts : InitOptions) (pems : InitKeys) (files : Files) :
    DiskScript PUnit :=
  if files .config ≠ none then .die "目录已经是一个源"
  else do
    let root ← .ofExcept (keyFromPrivatePem crypto pems.root)
    writeFileEnsured (.key "root") (.pem pems.root)
    let targets ← .ofExcept (keyFromPrivatePem crypto pems.targets)
    writeFileEnsured (.key "targets") (.pem pems.targets)
    let snapshot ← .ofExcept (keyFromPrivatePem crypto pems.snapshot)
    writeFileEnsured (.key "snapshot") (.pem pems.snapshot)
    let timestamp ← .ofExcept (keyFromPrivatePem crypto pems.timestamp)
    writeFileEnsured (.key "timestamp") (.pem pems.timestamp)
    let publisher ← .ofExcept (keyFromPrivatePem crypto pems.publisher)
    writeFileEnsured (.key "publisher") (.pem pems.publisher)
    let config := initConfig opts publisher
    writeFileEnsured .config (.config config)
    let rootSigned := buildRootSigned 1 (clock.expiresIn config.expires.root) [root.listed]
      [targets.listed] [snapshot.listed] [timestamp.listed]
    let rootDoc ← .ofExcept (wrapAndSign crypto rootSigned [root])
    writeFileEnsured (.rootDoc 1) (.root rootDoc)
    writeFileEnsured .state (.state ⟨⟨0, 0, 0⟩, []⟩)

/-- `n + 1` on JavaScript numbers, for the integers up to `2^53`. -/
def addOne (n : Nat) : Nat := if n < 2 ^ 53 then n + 1 else n

/-- `readJson` of a root document. -/
def readRoot (files : Files) (version : Nat) : Except String RootSigned :=
  match files (.rootDoc version) with
  | some (.root doc) => .ok doc.signed
  | _ => .error "Unexpected end of JSON input"

/-- `rolesOf` -/
def rolesOf (cur : RootSigned) (r : RoleKeys) : Except String (List ListedKey) :=
  r.keyids.mapM fun kid =>
    match cur.keys.lookup kid with
    | some publicHex => .ok (kid, publicHex)
    | none => .error "Cannot read properties of undefined (reading 'keyval')"

/-- What `cmdRotateRoot` reads and computes before it writes: the current version, and the new
root document. -/
def nextRoot (clock : Clock) (newPem : String) (d : Disk) :
    Except String (Nat × Nat × Signed RootSigned) := do
  let config ← loadConfig d.files
  let oldRoot ← loadRootKey crypto d.files
  match d.rootVersions.insertionSort (· ≥ ·) with
  | [] => .error "缺少 root metadata"
  | version :: _ =>
      let cur ← readRoot d.files version
      let newRoot ← keyFromPrivatePem crypto newPem
      let targets ← rolesOf cur cur.targets
      let snapshot ← rolesOf cur cur.snapshot
      let timestamp ← rolesOf cur cur.timestamp
      let newSigned := buildRootSigned (addOne cur.version) (clock.expiresIn config.expires.root)
        [newRoot.listed] targets snapshot timestamp
      let doc ← wrapAndSign crypto newSigned [oldRoot, newRoot]
      return (cur.version, addOne cur.version, doc)

/-- `cmdRotateRoot`, for the private key that `generateKey` returns. -/
def cmdRotateRoot (clock : Clock) (newPem : String) (d : Disk) : DiskScript PUnit := do
  let (version, next, doc) ← .ofExcept (nextRoot crypto clock newPem d)
  writeFileEnsured (.rootDoc next) (.root doc)
  .perform (.moveKey "root" version)
  writeFileEnsured (.key "root") (.pem newPem)

end Useful.Cli.Source
