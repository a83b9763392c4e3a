/-
# Pointer histories of media packs

Installs and rollbacks move between packs, and damage may strike any installed
directory in between. An install retires the current pointer to the previous one,
unless it cannot be read. It does so as well when it repairs the damaged pack that is
current, and then the previous pointer names the pack that is being activated and
nothing is left to roll back to. Histories are kept exactly as long as no install
repairs in place.
-/

import Useful.Math.Transition
import Useful.Media.PackActivation

namespace Useful.Media

open Useful.Math Useful.Math.Program

/-! ## Histories -/

section History

variable {β K V : Type} [LT V] [DecidableLT V]

/-- Successful calls, and damage to an installed directory. -/
inductive PackEvent (β : Type)
  | install (input : InstallInput β) (fault : PackSite → Option String)
      (pointer : CurrentPointer)
  | rollback (packId : String) (fault : PackSite → Option String) (pointer : CurrentPointer)
  | damage (lock packId : String) (left : Option (Payload β))

variable (env : External β K V)

inductive PackStep : PackRoot β → PackEvent β → PackRoot β → Prop
  | install {root root' : PackRoot β} {input : InstallInput β} {fault : PackSite → Option String}
      {pointer : CurrentPointer}
      (returned : installVerifiedPack env fault input root = (.ok pointer, root')) :
      PackStep root (.install input fault pointer) root'
  | rollback {root root' : PackRoot β} {packId : String} {fault : PackSite → Option String}
      {pointer : CurrentPointer}
      (returned : rollback env fault packId root = (.ok pointer, root')) :
      PackStep root (.rollback packId fault pointer) root'
  | damage {root : PackRoot β} {lock packId : String} {left : Option (Payload β)}
      (installed : (root.payloads lock packId).isSome = true) :
      PackStep root (.damage lock packId left) (root.setPayload lock packId left)

/-- The pointer that an install from one root to another retires: the current one, read
when the new payload is in its place. -/
def Retires (before after : PackRoot β) (packId : String) (old : CurrentPointer) : Prop :=
  readPointer env { after with pointers := before.pointers } packId false = .ok old

/-- The file of the current pointer holds one of the right form for a runtime lock. -/
def CurrentNames (root : PackRoot β) (packId lock : String) : Prop :=
  ∃ bytes current, root.pointers packId false = some bytes ∧
    parsePointerFile env bytes = .ok current ∧ isCurrentPointer current packId = true ∧
    current.runtimeLockSha256 = lock

/-- The previous pointer names an intact payload other than the one installed, which
the current pointer names too. -/
def Repairs (before : PackRoot β) (pointer previous : CurrentPointer) : Prop :=
  readPointer env before pointer.packId true = .ok previous ∧
    validateInstalledPayload env before previous = .ok () ∧
    previous.relativePath ≠ pointer.relativePath ∧
    CurrentNames env before pointer.packId pointer.runtimeLockSha256

/-- A step keeps the history of pointers: an install never retires the pack it
activates, and a repair leaves the previous pointer there to roll back to. -/
def KeepsHistory (before : PackRoot β) : PackEvent β → PackRoot β → Prop
  | .install _ _ pointer, after =>
      (∀ old, Retires env before after pointer.packId old →
        old.relativePath ≠ pointer.relativePath) ∧
      ∀ previous, Repairs env before pointer previous →
        after.pointers pointer.packId true = before.pointers pointer.packId true ∧
        ∃ after', rollback env (fun _ => none) pointer.packId after = (.ok previous, after')
  | _, _ => True

/-- An install does not repair in place: the current pointer does not name the runtime
lock of the pack to be installed. -/
def NotInPlace (before : PackRoot β) : PackEvent β → Prop
  | .install input _ _ => ∀ manifest, env.parseManifest input.manifestBytes = .ok manifest →
      ¬ CurrentNames env before manifest.packId manifest.runtimeLockSha256
  | _ => True

variable {env} {before after : PackRoot β} {input : InstallInput β} {pointer : CurrentPointer}

/-- What the checks on a pack say about its pack id and its manifest. -/
theorem verifyPack_eq_ok {verified : VerifiedPack} (h : verifyPack env input = .ok verified) :
    validatePackId verified.manifest.packId = .ok () ∧
      env.parseManifest input.manifestBytes = .ok verified.manifest := by
  simp only [verifyPack, bind_eq_ok, mapError_eq_ok, pure_eq_ok, validateManifest,
    failIf_eq_ok, not_or, not_not] at h
  obtain ⟨_, hid, _, -, _, -, _, -, _, -, _, -, statement, -, manifest, hmanifest, _, -, _,
    ⟨_, ⟨-, -, -, hpackId, -⟩, -⟩, _, -, _, -, _, -, rfl⟩ := h
  exact ⟨hpackId ▸ hid, hmanifest⟩

/-- The pointer an install retires becomes the previous one; if it retires none, the
previous one stays. -/
theorem previous_of_install (h : Installs env input before pointer after) :
    (∀ old, Retires env before after pointer.packId old →
      after.pointers pointer.packId true = some (env.pointerBytes old)) ∧
    ((∀ old, ¬ Retires env before after pointer.packId old) →
      after.pointers pointer.packId true = before.pointers pointer.packId true) := by
  have hactivated : ∀ root : PackRoot β, root.pointers = before.pointers →
      after = activated env root pointer →
      (∀ old, Retires env before after pointer.packId old →
        after.pointers pointer.packId true = some (env.pointerBytes old)) ∧
      ((∀ old, ¬ Retires env before after pointer.packId old) →
        after.pointers pointer.packId true = before.pointers pointer.packId true) := by
    intro root hpointers hafter
    have hroot : { after with pointers := before.pointers } = root := by
      rw [hafter, payloads_activated, ← hpointers]
    have hprevious : (activated env root pointer).pointers pointer.packId true = _ :=
      previous_activated root pointer
    unfold Retires
    rw [hroot, hafter, hprevious]
    cases readPointer env root pointer.packId false with
    | ok old => simp
    | error e => simp [hpointers]
  cases h with
  | reactivate => exact hactivated _ rfl rfl
  | replace verified _ payload =>
      exact hactivated (before.setPayload verified.manifest.runtimeLockSha256
        verified.manifest.packId (some payload)) rfl rfl

/-- An install retires the pack it activates exactly when it repairs in place. -/
theorem retires_self_iff (h : Installs env input before pointer after) :
    (∃ old, Retires env before after pointer.packId old ∧
      old.relativePath = pointer.relativePath) ↔
      CurrentNames env before pointer.packId pointer.runtimeLockSha256 := by
  constructor
  · intro hretires
    obtain ⟨old, hold, hpath⟩ := hretires
    obtain ⟨-, ⟨bytes, hbytes, hparse⟩, hform, -⟩ := readPointer_eq_ok.mp hold
    refine ⟨bytes, old, hbytes, hparse, hform, ?_⟩
    rw [relativePath_of_isCurrentPointer hform] at hpath
    cases h with
    | reactivate => exact relativePath_injective _ hpath
    | replace => exact relativePath_injective _ hpath
  · intro hnames
    obtain ⟨bytes, current, hbytes, hparse, hform, hlock⟩ := hnames
    have hpath : current.relativePath = relativePath pointer.runtimeLockSha256 pointer.packId :=
      hlock ▸ relativePath_of_isCurrentPointer hform
    cases h with
    | reactivate verified hverified intact inactive =>
        have hread : readPointer env before verified.manifest.packId false = .ok current := by
          rw [readPointer_eq_ok]
          refine ⟨(verifyPack_eq_ok hverified).1, ⟨bytes, hbytes, hparse⟩, hform, ?_⟩
          rw [hlock]
          exact isFile_of_validateInstalledPayload intact
        exact absurd hpath (inactive current hread)
    | replace verified hverified payload prepared =>
        refine ⟨current, ?_, hpath⟩
        apply readPointer_eq_ok.mpr
        refine ⟨(verifyPack_eq_ok hverified).1, ⟨bytes, hbytes, hparse⟩, hform, payload, ?_,
          isFile_of_preparePayload prepared⟩
        rw [hlock]
        show (activated env _ _).payloads _ _ = _
        rw [payloads_activated]
        exact PackRoot.payloads_setPayload_self _ _ _ _

/-- A step keeps the history exactly when it does not repair in place. -/
theorem keepsHistory_iff {event : PackEvent β} (h : PackStep env before event after) :
    KeepsHistory env before event after ↔ NotInPlace env before event := by
  cases h with
  | rollback => exact Iff.rfl
  | damage => exact Iff.rfl
  | @install _ input fault pointer returned =>
      have hinstalls := installVerifiedPack_spec.of_eq_ok returned
      have hiff := retires_self_iff hinstalls
      have hguard : NotInPlace env before (.install input fault pointer) ↔
          ¬ CurrentNames env before pointer.packId pointer.runtimeLockSha256 := by
        have hmanifest : ∃ manifest, env.parseManifest input.manifestBytes = .ok manifest ∧
            manifest.packId = pointer.packId ∧
            manifest.runtimeLockSha256 = pointer.runtimeLockSha256 := by
          cases hinstalls with
          | reactivate verified hverified => exact ⟨_, (verifyPack_eq_ok hverified).2, rfl, rfl⟩
          | replace verified hverified => exact ⟨_, (verifyPack_eq_ok hverified).2, rfl, rfl⟩
        obtain ⟨manifest, hparse, hid, hlock⟩ := hmanifest
        rw [← hid, ← hlock]
        constructor
        · intro hguard
          exact hguard manifest hparse
        · intro hnames manifest' hparse'
          rw [hparse] at hparse'
          cases hparse'
          exact hnames
      rw [hguard, ← hiff]
      constructor
      · intro hkeeps hretires
        obtain ⟨old, hold, hpath⟩ := hretires
        exact hkeeps.1 old hold hpath
      · intro hretires
        refine ⟨fun old hold hpath => hretires ⟨old, hold, hpath⟩, ?_⟩
        intro previous hrepairs
        exact absurd (hiff.mpr hrepairs.2.2.2) hretires

/-- A run of successful calls and damage keeps the history of pointers at every step
exactly when none of its installs repairs in place. -/
theorem pointer_history_kept_iff (env : External β K V) (root root' : PackRoot β)
    (events : List (PackEvent β)) :
    Run (fun before event after =>
        PackStep env before event after ∧ KeepsHistory env before event after) root events root' ↔
      Run (Guarded (NotInPlace env) (PackStep env)) root events root' := by
  apply Run.congr
  intro before event after
  constructor
  · intro h
    exact ⟨(keepsHistory_iff h.1).mp h.2, h.1⟩
  · intro h
    exact ⟨h.2, (keepsHistory_iff h.2).mpr h.1⟩

end History

/-! ## Repairing the active pack -/

namespace Sample

/-- The files of two releases of a preview pack. -/
inductive Content
  | archive (second : Bool)
  | manifest (second : Bool)
  | statement (second : Bool)
  | player (second : Bool)
  | notice
  | text (s : String)
  | pointer (p : CurrentPointer)
  | receipt (r : InstalledReceipt)

/-- A digest of one repeated digit. -/
def digest (digit : Char) : String := String.ofList (List.replicate 64 digit)

def lock : Bool → String
  | false => digest '1'
  | true => digest '2'

def component (second : Bool) : PackComponent where
  name := "mpv"
  version := "0.40"
  sourceUrl := "https://sources.example.test/mpv.7z"
  archiveSha256 := digest '4'
  extractedFile := "mpv.exe"
  extractedSha256 := if second then digest '5' else digest '3'
  sizeBytes := 16
  license := "GPLv2+"

def manifest (second : Bool) : PackManifest where
  schemaVersion := packSchema
  distributionStatus := "unsigned-candidate"
  signatureDomain := packSignatureDomain
  packId := "preview"
  platform := "windows"
  arch := "x64"
  runtimeLockSha256 := lock second
  minimumUsefulVersion := "0.1.0"
  correspondingSourceRequired := true
  components := [component second]

def asset (name : String) (digit : Char) (size : Nat) : CatalogAsset := ⟨name, digest digit, size⟩

def pack (second : Bool) : CatalogPack where
  id := "preview"
  archive := asset "preview.zip" (if second then 'b' else 'a') 700
  manifest := asset "preview.manifest.json" (if second then 'd' else 'c') 600
  statement := asset "preview.statement.json" (if second then 'f' else 'e') 800
  statementSignatureHex := String.ofList (List.replicate 128 '9')
  correspondingSource := asset "preview-source.zip" '6' 900

def statement (second : Bool) : SigningStatement where
  schemaVersion := statementSchema
  signatureDomain := packSignatureDomain
  packId := "preview"
  platform := "windows"
  arch := "x64"
  runtimeLockSha256 := lock second
  minimumUsefulVersion := "0.1.0"
  manifestSha256 := (pack second).manifest.sha256
  archiveFile := "preview.zip"
  archiveSha256 := (pack second).archive.sha256
  archiveSizeBytes := 700
  correspondingSourceAssetId := "preview-source.zip"
  correspondingSourceAssetSha256 := digest '6'
  correspondingSourceAssetSizeBytes := 900

/-- The directory of the entries of an archive. -/
def archiveRoot (packId : String) : String := s!"Useful-Media-Pack-{packId}-windows-x64/"

def entry (name : String) (size : Nat) (content : Content) : ZipEntry Content where
  name := archiveRoot "preview" ++ name
  isDir := false
  isSymlink := false
  size := size
  content := content

def env : External Content Unit Nat where
  length := fun
    | .archive _ => 700
    | .manifest _ => 600
    | .statement _ => 800
    | .player _ => 16
    | _ => 300
  sha256Hex := fun
    | .archive second => (pack second).archive.sha256
    | .manifest second => (pack second).manifest.sha256
    | .statement second => (pack second).statement.sha256
    | .player second => (component second).extractedSha256
    | _ => digest '0'
  textBytes := .text
  verifyingKey := fun _ => some ()
  fingerprint := fun _ => digest '8'
  verifyStrict := fun _ _ _ => true
  parseVersion := fun _ => some 1
  parseUrl := fun _ => some ⟨"https", "", false, false, true⟩
  parseStatement := fun
    | .statement second => .ok (statement second)
    | _ => .error "expected value"
  parseManifest := fun
    | .manifest second => .ok (manifest second)
    | _ => .error "expected value"
  parsePointer := fun
    | .pointer p => .ok p
    | _ => .error "expected value"
  parseReceipt := fun
    | .receipt r => .ok r
    | _ => .error "expected value"
  pointerBytes := .pointer
  receiptBytes := .receipt
  zipEntries := fun
    | .archive second => .ok [entry "MEDIA-PACK.json" 600 (.manifest second),
        entry "UNSIGNED-CANDIDATE.txt" 300 .notice, entry "mpv.exe" 16 (.player second)]
    | _ => .error "invalid Zip archive"

def input (second : Bool) : InstallInput Content where
  pack := pack second
  publicKeyHex := digest '7'
  archive := .archive second
  manifestBytes := .manifest second
  statementBytes := .statement second
  currentUsefulVersion := "0.1.0"

theorem lock_hex (second : Bool) : isLowerHex (lock second).toList 64 = true := by
  cases second
  · exact isLowerHex_replicate (by decide)
  · exact isLowerHex_replicate (by decide)

theorem validateSha_digest {label : String} {c : Char} (h : c.isDigit || ('a' ≤ c && c ≤ 'f')) :
    validateSha (digest c) label = .ok () :=
  failIf_eq_ok.mpr (by rw [digest, isLowerHex_replicate h]; decide)

theorem validateSha_lock (second : Bool) :
    validateSha (lock second) "runtime lock SHA-256" = .ok () := by
  cases second
  · exact validateSha_digest (by decide)
  · exact validateSha_digest (by decide)

theorem validateManifest_sample (second : Bool) :
    validateManifest env (manifest second) "preview" = .ok () := by
  have hplayer : validateSha (component second).extractedSha256 "component SHA-256" = .ok () := by
    cases second
    · exact validateSha_digest (by decide)
    · exact validateSha_digest (by decide)
  refine bind_eq_ok.mpr ⟨⟨⟩, failIf_eq_ok.mpr ?_, ?_⟩
  · intro h
    rcases h with h | h | h | h | h | h | h
    all_goals first | exact h rfl | cases h
  refine bind_eq_ok.mpr ⟨⟨⟩, validateSha_lock second, ?_⟩
  refine bind_eq_ok.mpr ⟨_, rfl, ?_⟩
  refine bind_eq_ok.mpr ⟨_, rfl, ?_⟩
  refine bind_eq_ok.mpr ⟨⟨⟩, failIf_eq_ok.mpr ?_, ?_⟩
  · intro h
    rcases h with h | h
    all_goals exact h rfl
  refine bind_eq_ok.mpr ⟨⟨⟩, failIf_eq_ok.mpr ?_, ?_⟩
  · cases second <;> decide
  refine bind_eq_ok.mpr ⟨⟨⟩, hplayer, ?_⟩
  refine bind_eq_ok.mpr ⟨⟨⟩, validateSha_digest (by decide), ?_⟩
  refine bind_eq_ok.mpr ⟨⟨⟩, rfl, ?_⟩
  refine bind_eq_ok.mpr ⟨⟨⟩, failIf_eq_ok.mpr ?_, ?_⟩
  · show ¬ ("0.40" = "" ∨ "GPLv2+" = "" ∨ 16 = 0 ∨ 16 > maxArchiveBytes ∨ 16 > maxArchiveBytes)
    decide
  refine bind_eq_ok.mpr ⟨⟨⟩, failIf_eq_ok.mpr ?_, rfl⟩
  intro h
  exact h rfl

theorem trim_replicate {n : Nat} {c : Char} (h : isWhitespace c = false) :
    trim (List.replicate n c) = List.replicate n c := by
  have hdrop : (List.replicate n c).dropWhile isWhitespace = List.replicate n c := by
    cases n with
    | zero => rfl
    | succ n => simp [List.replicate_succ, h]
  rw [trim, hdrop, List.reverse_replicate, hdrop, List.reverse_replicate]

theorem verifyPack_input (second : Bool) :
    verifyPack env (input second) = .ok ⟨statement second, manifest second⟩ := by
  have hkey : parsePublicKey env (digest '7') = .ok () := by
    refine bind_eq_ok.mpr ⟨⟨⟩, failIf_eq_ok.mpr ?_, rfl⟩
    rw [digest, isLowerHex_replicate (by decide), String.toList_ofList]
    decide
  have hsignature : verifyDetached env (.statement second) (pack second).statementSignatureHex ()
      = .ok () := by
    have htrim : trim (pack second).statementSignatureHex.toList = List.replicate 128 '9' := by
      show trim (String.ofList (List.replicate 128 '9')).toList = _
      rw [String.toList_ofList, trim_replicate (by decide)]
    refine bind_eq_ok.mpr ⟨⟨⟩, failIf_eq_ok.mpr ?_, rfl⟩
    rw [htrim, ← String.toList_ofList (l := List.replicate 128 '9'), isLowerHex_replicate (by decide)]
    decide
  have hstatement : validateStatement (statement second) (pack second) (manifest second)
      = .ok () := by
    refine bind_eq_ok.mpr ⟨⟨⟩, failIf_eq_ok.mpr ?_, validateSha_lock second⟩
    simp only [not_or, not_not]
    exact ⟨rfl, rfl, rfl, rfl, rfl, rfl, rfl, rfl, rfl, rfl, rfl, rfl, rfl, rfl⟩
  have hassets : ∀ asset bytes label, env.length bytes = asset.sizeBytes →
      env.sha256Hex bytes = asset.sha256 →
      verifyCatalogAsset env asset bytes label = .ok () := by
    intro asset bytes label hlength hsha
    apply failIf_eq_ok.mpr
    intro h
    rcases h with h | h
    · exact h hlength
    · exact h hsha
  refine bind_eq_ok.mpr ⟨⟨⟩, failIf_eq_ok.mpr (fun h => h.1 rfl), ?_⟩
  refine bind_eq_ok.mpr ⟨⟨⟩, hkey, ?_⟩
  refine bind_eq_ok.mpr ⟨⟨⟩, hassets _ _ _ rfl rfl, ?_⟩
  refine bind_eq_ok.mpr ⟨⟨⟩, hassets _ _ _ rfl rfl, ?_⟩
  refine bind_eq_ok.mpr ⟨⟨⟩, hassets _ _ _ rfl rfl, ?_⟩
  refine bind_eq_ok.mpr ⟨⟨⟩, hsignature, ?_⟩
  refine bind_eq_ok.mpr ⟨_, rfl, ?_⟩
  refine bind_eq_ok.mpr ⟨_, rfl, ?_⟩
  refine bind_eq_ok.mpr ⟨⟨⟩, hstatement, ?_⟩
  refine bind_eq_ok.mpr ⟨⟨⟩, validateManifest_sample second, ?_⟩
  refine bind_eq_ok.mpr ⟨_, rfl, ?_⟩
  refine bind_eq_ok.mpr ⟨_, rfl, ?_⟩
  exact bind_eq_ok.mpr ⟨⟨⟩, failIf_eq_ok.mpr (by decide), rfl⟩

/-- The payload of a release. -/
def payload (second : Bool) : Payload Content :=
  fun name => if name = "mpv.exe" then some (.file (.player second))
    else if name = "UNSIGNED-CANDIDATE.txt" then some (.file .notice)
    else if name = "MEDIA-PACK.json" then some (.file (.manifest second))
    else none

theorem extract_entry {second : Bool} {name : String} {size : Nat} {content : Content}
    {fact : Option (Nat × String)} {seen : List String} {extracted : Payload Content}
    {rest : List (ZipEntry Content)} {result : List String × Payload Content}
    (hsize : size ≤ match fact with
      | some (size, _) => size
      | none => maxSmallAssetBytes)
    (hname : validateBasename name "ZIP entry" = .ok ())
    (hfact : (expectedEntries (manifest second)).lookup name = some fact)
    (hseen : name ∉ seen)
    (hlength : env.length content = size)
    (hentry : checkEntry env (.manifest second) name fact content = .ok ())
    (hrest : extractEntries env (manifest second) (.manifest second) (name :: seen)
      (fun n => if n = name then some (.file content) else extracted n) rest = .ok result) :
    extractEntries env (manifest second) (.manifest second) seen extracted
      (entry name size content :: rest) = .ok result := by
  have hrelative : String.ofList ((archiveRoot "preview" ++ name).toList.drop
      (archiveRoot "preview").toList.length) = name := by
    rw [String.toList_append, List.drop_left, String.ofList_toList]
  have hroot : (archiveRoot "preview").toList.isPrefixOf
      (archiveRoot "preview" ++ name).toList = true := by
    rw [String.toList_append]
    exact List.isPrefixOf_iff_prefix.mpr (List.prefix_append _ _)
  have main : ∀ relative, relative = name → (do
      validateBasename relative "ZIP entry"
      let fact ← orFail (MediaPackError.unsafeArchive (archiveRoot "preview" ++ name))
        ((expectedEntries (manifest second)).lookup relative)
      failIf (relative ∈ seen) (.unsafeArchive "duplicate entry")
      let maximum := match fact with
        | some (size, _) => size
        | none => maxSmallAssetBytes
      failIf (size > maximum) (.unsafeArchive "entry size")
      failIf (env.length content > maximum) (.unsafeArchive "entry expanded past limit")
      checkEntry env (.manifest second) relative fact content
      extractEntries env (manifest second) (.manifest second) (relative :: seen)
        (fun n => if n = relative then some (.file content) else extracted n) rest)
      = .ok result := by
    intro relative heq
    subst heq
    refine bind_eq_ok.mpr ⟨⟨⟩, hname, ?_⟩
    refine bind_eq_ok.mpr ⟨fact, orFail_eq_ok.mpr hfact, ?_⟩
    refine bind_eq_ok.mpr ⟨⟨⟩, failIf_eq_ok.mpr hseen, ?_⟩
    refine bind_eq_ok.mpr ⟨⟨⟩, failIf_eq_ok.mpr (Nat.not_lt.mpr hsize), ?_⟩
    refine bind_eq_ok.mpr ⟨⟨⟩, failIf_eq_ok.mpr (Nat.not_lt.mpr (hlength ▸ hsize)), ?_⟩
    exact bind_eq_ok.mpr ⟨⟨⟩, hentry, hrest⟩
  rw [extractEntries]
  refine bind_eq_ok.mpr ⟨⟨⟩, failIf_eq_ok.mpr ?_, ?_⟩
  · show ¬ (false = true ∨ false = true)
    decide
  refine bind_eq_ok.mpr ⟨⟨⟩, failIf_eq_ok.mpr ?_, main _ hrelative⟩
  intro h
  exact absurd (hroot.symm.trans h) (by decide)

/-- The payload an install puts into place. -/
def installed (second : Bool) : Payload Content :=
  Function.update (Function.update (Function.update (payload second)
    "MEDIA-PACK-SIGNING.json" (some (.file (.statement second))))
    "MEDIA-PACK-SIGNATURE.hex" (some (.file (.text ((pack second).statementSignatureHex ++ "\n")))))
    "INSTALLED.json" (some (.file (.receipt (installReceipt env (input second)
      ⟨statement second, manifest second⟩))))

theorem preparePayload_input (second : Bool) :
    preparePayload env (input second) ⟨statement second, manifest second⟩ =
      .ok (installed second) := by
  have hplayer : checkEntry env (.manifest second) "mpv.exe"
      (some (16, (component second).extractedSha256)) (.player second) = .ok () := by
    apply failIf_eq_ok.mpr
    intro h
    rcases h with h | h
    · exact h rfl
    · exact h rfl
  have hmanifest : checkEntry env (.manifest second) "MEDIA-PACK.json" none (.manifest second)
      = .ok () :=
    failIf_eq_ok.mpr fun h => h.1 ⟨rfl, rfl, rfl⟩
  have hnotice : checkEntry env (.manifest second) "UNSIGNED-CANDIDATE.txt" none .notice
      = .ok () :=
    failIf_eq_ok.mpr fun h => h.2 ⟨rfl, by decide⟩
  have hentries : extractEntries env (manifest second) (.manifest second) []
      (fun _ => none) [entry "MEDIA-PACK.json" 600 (.manifest second),
        entry "UNSIGNED-CANDIDATE.txt" 300 .notice, entry "mpv.exe" 16 (.player second)]
      = .ok (["mpv.exe", "UNSIGNED-CANDIDATE.txt", "MEDIA-PACK.json"], payload second) := by
    apply extract_entry (show 600 ≤ maxSmallAssetBytes by decide) (failIf_eq_ok.mpr (by decide)) rfl
      (by decide) rfl hmanifest
    apply extract_entry (show 300 ≤ maxSmallAssetBytes by decide) (failIf_eq_ok.mpr (by decide)) rfl
      (by decide) rfl hnotice
    exact extract_entry (le_refl 16) (failIf_eq_ok.mpr (by decide)) rfl (by decide) rfl hplayer
      rfl
  have hextract : extractClosedArchive env (.archive second) (manifest second) (.manifest second)
      = .ok (payload second) := by
    refine bind_eq_ok.mpr ⟨_, rfl, ?_⟩
    refine bind_eq_ok.mpr ⟨_, hentries, ?_⟩
    refine bind_eq_ok.mpr ⟨⟨⟩, failIf_eq_ok.mpr ?_, rfl⟩
    show ¬ (_ ≠ (["MEDIA-PACK.json", "UNSIGNED-CANDIDATE.txt", "mpv.exe"].toFinset))
    decide
  exact bind_eq_ok.mpr ⟨payload second, hextract, rfl⟩

/-- The pointer of a release. -/
def pointer (second : Bool) : CurrentPointer := installPointer env (input second) (manifest second)

/-- What an install puts into place is intact. -/
theorem intact_installed {root : PackRoot Content} {second : Bool}
    (hplace : root.payloads (lock second) "preview" = some (installed second)) :
    validateInstalledPayload env root (pointer second) = .ok () := by
  have harchive : validateSha (pack second).archive.sha256 "installed archive SHA-256" = .ok () := by
    cases second
    · exact validateSha_digest (by decide)
    · exact validateSha_digest (by decide)
  have hsource : validateBasename "preview-source.zip" "installed source asset id" = .ok () :=
    failIf_eq_ok.mpr (by decide)
  have hplayer : validateInstalledComponent env (installed second) (component second) = .ok () := by
    apply failIf_eq_ok.mpr
    intro h
    rcases h with h | h
    all_goals exact h rfl
  refine bind_eq_ok.mpr ⟨(installed second, manifest second), ?_, ?_⟩
  · refine bind_eq_ok.mpr ⟨_, orFail_eq_ok.mpr hplace, ?_⟩
    refine bind_eq_ok.mpr ⟨.manifest second, rfl, ?_⟩
    refine bind_eq_ok.mpr ⟨⟨⟩, failIf_eq_ok.mpr ?_, ?_⟩
    · show ¬ (600 = 0 ∨ 600 > maxSmallAssetBytes)
      decide
    refine bind_eq_ok.mpr ⟨_, rfl, ?_⟩
    refine bind_eq_ok.mpr ⟨⟨⟩, validateManifest_sample second, ?_⟩
    refine bind_eq_ok.mpr ⟨⟨⟩, failIf_eq_ok.mpr (fun h => h rfl), ?_⟩
    refine bind_eq_ok.mpr ⟨_, rfl, ?_⟩
    refine bind_eq_ok.mpr ⟨⟨⟩, failIf_eq_ok.mpr ?_, ?_⟩
    · show ¬ (300 = 0 ∨ 300 > maxSmallAssetBytes)
      decide
    refine bind_eq_ok.mpr ⟨_, rfl, ?_⟩
    refine bind_eq_ok.mpr ⟨⟨⟩, failIf_eq_ok.mpr ?_, ?_⟩
    · intro h
      rcases h with h | h | h | h | h
      all_goals exact h rfl
    refine bind_eq_ok.mpr ⟨⟨⟩, harchive, ?_⟩
    refine bind_eq_ok.mpr ⟨⟨⟩, hsource, ?_⟩
    exact bind_eq_ok.mpr ⟨⟨⟩, validateSha_digest (by decide), rfl⟩
  · apply forM_eq_ok.mpr
    intro c hc
    rw [List.mem_singleton.mp hc]
    exact hplayer

/-- An install of a release that is not intact succeeds. -/
theorem install_input {root : PackRoot Content} {second : Bool}
    (broken : validateInstalledPayload env root (pointer second) ≠ .ok ()) :
    PackStep env root (.install (input second) (fun _ => none) (pointer second))
      (activated env (root.setPayload (lock second) "preview" (some (installed second)))
        (pointer second)) := by
  have hspec : Ensures (installVerifiedPack env (fun _ => none) (input second)) root
      (Installs env (input second) root) fun _ _ => False := by
    apply (installVerifiedPack_broken (verifyPack_input second) broken).imp fun _ _ => id
    intro _ _ h
    rcases h with ⟨_, _, h⟩ | ⟨e, h⟩
    · cases h
    · rw [preparePayload_input] at h
      cases h
  obtain ⟨p, t, hrun, hinstalls⟩ := hspec.exists_eq_ok
  cases hinstalls with
  | reactivate verified hverified intact =>
      rw [verifyPack_input] at hverified
      cases hverified
      exact absurd intact broken
  | replace verified hverified payload prepared =>
      rw [verifyPack_input] at hverified
      cases hverified
      rw [preparePayload_input] at prepared
      cases prepared
      exact .install hrun

theorem isCurrentPointer_pointer (second : Bool) :
    isCurrentPointer (pointer second) "preview" = true := by
  have hfingerprint : isLowerHex (digest '8').toList 64 = true := isLowerHex_replicate (by decide)
  simp only [isCurrentPointer, Bool.and_eq_true, beq_iff_eq]
  exact ⟨⟨⟨⟨rfl, rfl⟩, lock_hex second⟩, hfingerprint⟩, rfl⟩

theorem readPointer_pointer {root : PackRoot Content} {previous second : Bool}
    (hfile : root.pointers "preview" previous = some (.pointer (pointer second)))
    (hplace : root.payloads (lock second) "preview" = some (installed second)) :
    readPointer env root "preview" previous = .ok (pointer second) :=
  readPointer_eq_ok.mpr ⟨failIf_eq_ok.mpr fun h => h.1 rfl, ⟨_, hfile, rfl⟩,
    isCurrentPointer_pointer second, installed second, hplace, rfl⟩

theorem lock_ne : lock false ≠ lock true := by
  intro h
  have hdigits := congrArg String.toList h
  simp only [lock, digest, String.toList_ofList] at hdigits
  revert hdigits
  decide

/-- The payload of a release without its player. -/
def damaged (second : Bool) : Payload Content :=
  Function.update (installed second) "mpv.exe" none

/-- Without its player a release is not intact. -/
theorem not_intact {root : PackRoot Content} {second : Bool}
    (hplace : root.payloads (lock second) "preview" = some (damaged second)) :
    validateInstalledPayload env root (pointer second) ≠ .ok () := by
  intro h
  simp only [validateInstalledPayload, readInstalledManifest, bind_eq_ok, orFail_eq_ok,
    pure_eq_ok, mapError_eq_ok] at h
  obtain ⟨_, ⟨target, htarget, manifestBytes, hbytes, _, -, manifest', hparse, _, -, _, -, _, -,
    _, -, _, -, _, -, _, -, _, -, _, -, rfl⟩, hcomponents⟩ := h
  cases htarget.symm.trans hplace
  cases hbytes
  cases hparse
  cases forM_eq_ok.mp hcomponents (component second) List.mem_cons_self

theorem validateInstalledPayload_missing {root : PackRoot Content} {second : Bool}
    (h : root.payloads (lock second) "preview" = none) :
    validateInstalledPayload env root (pointer second) ≠ .ok () := by
  intro hintact
  obtain ⟨target, htarget, -⟩ := isFile_of_validateInstalledPayload hintact
  cases htarget.symm.trans h

/-- The root before any install. -/
def empty : PackRoot Content := ⟨fun _ _ => none, fun _ _ => none⟩

/-- The root after an install of the first release. -/
def afterFirst : PackRoot Content :=
  activated env (empty.setPayload (lock false) "preview" (some (installed false))) (pointer false)

/-- The root after an install of the second release. -/
def afterSecond : PackRoot Content :=
  activated env (afterFirst.setPayload (lock true) "preview" (some (installed true)))
    (pointer true)

/-- The root after damage to the second release. -/
def broken : PackRoot Content :=
  afterSecond.setPayload (lock true) "preview" (some (damaged true))

/-- The root after a repair of the second release. -/
def repaired : PackRoot Content :=
  activated env (broken.setPayload (lock true) "preview" (some (installed true))) (pointer true)

theorem payloads_afterFirst : afterFirst.payloads (lock true) "preview" = none ∧
    afterFirst.payloads (lock false) "preview" = some (installed false) := by
  rw [afterFirst, payloads_activated, PackRoot.payloads_setPayload_of_ne lock_ne.symm]
  exact ⟨rfl, PackRoot.payloads_setPayload_self _ _ _ _⟩

theorem payloads_broken :
    broken.payloads (lock false) "preview" = some (installed false) := by
  rw [broken, PackRoot.payloads_setPayload_of_ne lock_ne, afterSecond, payloads_activated,
    PackRoot.payloads_setPayload_of_ne lock_ne]
  exact payloads_afterFirst.2

/-- The second install retires the first release. -/
theorem previous_broken : broken.pointers "preview" true = some (.pointer (pointer false)) := by
  have hread : readPointer env (afterFirst.setPayload (lock true) "preview"
      (some (installed true))) "preview" false = .ok (pointer false) := by
    apply readPointer_pointer
    · exact current_activated (empty.setPayload (lock false) "preview" (some (installed false)))
        (pointer false)
    · rw [PackRoot.payloads_setPayload_of_ne lock_ne]
      exact payloads_afterFirst.2
  exact previous_of_readPointer (pointer true) hread

theorem current_broken : broken.pointers "preview" false = some (.pointer (pointer true)) :=
  current_activated (afterFirst.setPayload (lock true) "preview" (some (installed true)))
    (pointer true)

theorem payloads_repaired : repaired.payloads (lock true) "preview" = some (installed true) := by
  rw [repaired, payloads_activated]
  exact PackRoot.payloads_setPayload_self _ _ _ _

/-- The repair retires the release it repairs. -/
theorem previous_repaired : repaired.pointers "preview" true = some (.pointer (pointer true)) := by
  have hread : readPointer env (broken.setPayload (lock true) "preview"
      (some (installed true))) "preview" false = .ok (pointer true) :=
    readPointer_pointer current_broken (PackRoot.payloads_setPayload_self _ _ _ _)
  exact previous_of_readPointer (pointer true) hread

/-- Two releases are installed, the second is damaged and installed again: the intact
first release could be rolled back to before that, and cannot after it. -/
theorem repair_loses_history :
    Run (PackStep env) empty
      [.install (input false) (fun _ => none) (pointer false),
        .install (input true) (fun _ => none) (pointer true),
        .damage (lock true) "preview" (some (damaged true))] broken ∧
    PackStep env broken (.install (input true) (fun _ => none) (pointer true)) repaired ∧
    Repairs env broken (pointer true) (pointer false) ∧
    ¬ KeepsHistory env broken (.install (input true) (fun _ => none) (pointer true)) repaired ∧
    rollback env (fun _ => none) "preview" repaired =
      (.error (.noPrevious "preview"), repaired) := by
  have hmissing : empty.payloads (lock false) "preview" = none := rfl
  have hfirst := install_input (validateInstalledPayload_missing hmissing)
  have hsecond := install_input (validateInstalledPayload_missing payloads_afterFirst.1)
  have hrepair := install_input
    (not_intact (PackRoot.payloads_setPayload_self afterSecond (lock true) "preview" _))
  have hdamage : (afterSecond.payloads (lock true) "preview").isSome = true := by
    rw [afterSecond, payloads_activated, PackRoot.payloads_setPayload_self]
    rfl
  have hnames : CurrentNames env broken "preview" (lock true) :=
    ⟨_, pointer true, current_broken, rfl, isCurrentPointer_pointer true, rfl⟩
  refine ⟨.cons hfirst (.cons hsecond (.cons (.damage hdamage) (.nil _))), hrepair, ?_, ?_, ?_⟩
  · refine ⟨readPointer_pointer previous_broken payloads_broken,
      intact_installed payloads_broken, ?_, hnames⟩
    intro hpath
    exact lock_ne (relativePath_injective "preview" hpath)
  · intro hkeeps
    exact (keepsHistory_iff hrepair).mp hkeeps (manifest true) rfl hnames
  · apply rollback_eq_noPrevious
    · exact readPointer_pointer previous_repaired payloads_repaired
    · exact readPointer_pointer (current_activated _ _) payloads_repaired
    · rfl

end Sample
end Useful.Media
