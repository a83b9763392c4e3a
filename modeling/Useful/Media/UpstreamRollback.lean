/-
# Rolling back upstream media packs

An install over another pack makes the pointer of that pack the previous one and leaves its
directory alone. A rollback checks the previous directory against the specification that the
application was built with, so it brings back the pack that was replaced only where this pack
is the built-in one.
-/

import Useful.Math.Transition
import Useful.Media.Upstream

namespace Useful.Media.Upstream

open Useful.Math Useful.Media

variable {β V : Type} {env : UpstreamExternal β V}

/-- What is written as JSON is read back, and pointers are short. -/
structure UpstreamExternal.Lawful (env : UpstreamExternal β V) : Prop where
  specBytes_injective : Function.Injective env.specBytes
  parsePointer_pointerBytes : ∀ pointer, env.parsePointer (env.pointerBytes pointer) = .ok pointer
  length_pointerBytes : ∀ pointer packId, isPointer pointer packId = true →
    validatePackId packId = .ok () → isLowerHex pointer.specSha256.toList 64 = true →
    0 < env.length (env.pointerBytes pointer) ∧
      env.length (env.pointerBytes pointer) ≤ maxSmallAssetBytes

section Reading

variable {root root' : UpstreamRoot β} {pointer : UpstreamPointer} {packId : String}
  {previous : Bool}

theorem relativePath_injective (packId : String) :
    Function.Injective fun spec => relativePath spec packId := by
  intro spec spec' heq
  have hlist := congrArg String.toList heq
  simp only [relativePath, toString, String.toList_append, List.append_assoc,
    List.append_cancel_left_eq, List.append_cancel_right_eq] at hlist
  exact String.toList_inj.mp hlist

theorem readPointer_eq_ok : readPointer env root packId previous = .ok pointer ↔
    validatePackId packId = .ok () ∧
      (∃ bytes, root.pointers packId previous = some bytes ∧
        0 < env.length bytes ∧ env.length bytes ≤ maxSmallAssetBytes ∧
        env.parsePointer bytes = .ok pointer) ∧
      isPointer pointer packId = true ∧ isLowerHex pointer.specSha256.toList 64 = true := by
  simp only [readPointer, validateSha, bind_eq_ok, orFail_eq_ok, failIf_eq_ok, mapError_eq_ok,
    pure_eq_ok, not_or, Bool.not_eq_false, not_lt, gt_iff_lt, ← Nat.pos_iff_ne_zero]
  constructor
  · rintro ⟨_, hid, bytes, hbytes, _, ⟨hpos, hle⟩, read, hparse, _, hform, _, hsha, rfl⟩
    exact ⟨hid, ⟨bytes, hbytes, hpos, hle, hparse⟩, hform, hsha⟩
  · rintro ⟨hid, ⟨bytes, hbytes, hpos, hle, hparse⟩, hform, hsha⟩
    exact ⟨⟨⟩, hid, bytes, hbytes, ⟨⟩, ⟨hpos, hle⟩, pointer, hparse, ⟨⟩, hform, ⟨⟩, hsha, rfl⟩

/-- A pointer that is read can be written and read again. -/
theorem readPointer_of_pointerBytes (hlawful : env.Lawful)
    (hread : readPointer env root packId previous = .ok pointer) {previous' : Bool}
    (hbytes : root'.pointers packId previous' = some (env.pointerBytes pointer)) :
    readPointer env root' packId previous' = .ok pointer := by
  obtain ⟨hid, -, hform, hsha⟩ := readPointer_eq_ok.mp hread
  obtain ⟨hpos, hle⟩ := hlawful.length_pointerBytes pointer packId hform hid hsha
  exact readPointer_eq_ok.mpr ⟨hid, ⟨_, hbytes, hpos, hle,
    hlawful.parsePointer_pointerBytes pointer⟩, hform, hsha⟩

theorem packId_of_isPointer (h : isPointer pointer packId = true) : pointer.packId = packId := by
  simp only [isPointer, Bool.and_eq_true, beq_iff_eq] at h
  exact h.1.2

theorem relativePath_of_isPointer (h : isPointer pointer packId = true) :
    pointer.relativePath = relativePath pointer.specSha256 packId := by
  simp only [isPointer, Bool.and_eq_true, beq_iff_eq] at h
  exact h.2

variable [DecidableEq β] {pack pack' : UpstreamPack} {payload payload' : UpstreamPayload β}

/-- The check of a directory depends on this directory alone. -/
theorem validateInstalled_congr (h : root.targets pointer.specSha256 pointer.packId =
    root'.targets pointer.specSha256 pointer.packId) :
    validateInstalled env root pack pointer = validateInstalled env root' pack pointer := by
  unfold validateInstalled
  rw [h]

/-- A directory that is all right holds the text of its specification. -/
theorem manifest_of_validateInstalled
    (h : validateInstalled env root pack pointer = .ok payload) :
    pointer.specSha256 = specSha256 env pack ∧
      root.targets pointer.specSha256 pointer.packId = some (.dir payload) ∧
      readFile payload "UPSTREAM-RUNTIME.json" = .ok (env.specBytes pack) := by
  simp only [validateInstalled, bind_eq_ok, orFail_eq_ok, pure_eq_ok] at h
  obtain ⟨_, hbinding, target, htarget, found, hfound, manifest, hmanifest, _, hspec,
    _, -, _, -, _, -, _, -, _, -, _, -, _, -, rfl⟩ := h
  have hbinding := failIf_eq_ok.mp hbinding
  push Not at hbinding
  have hspec : manifest = env.specBytes pack := not_not.mp (failIf_eq_ok.mp hspec)
  cases target with
  | other => cases hfound
  | dir held =>
    cases hfound
    exact ⟨hbinding.1, htarget, hspec ▸ hmanifest⟩

/-- A directory is all right for one specification only. -/
theorem pack_unique (hlawful : env.Lawful)
    (h : validateInstalled env root pack pointer = .ok payload)
    (h' : validateInstalled env root pack' pointer = .ok payload') : pack = pack' := by
  obtain ⟨-, htarget, hmanifest⟩ := manifest_of_validateInstalled h
  obtain ⟨-, htarget', hmanifest'⟩ := manifest_of_validateInstalled h'
  rw [htarget] at htarget'
  cases htarget'
  exact hlawful.specBytes_injective (Except.ok.inj (hmanifest.symm.trans hmanifest'))

end Reading

/-! ## Installs and rollbacks -/

section Calls

variable {root root' : UpstreamRoot β} {pointer old : UpstreamPointer}
  {lock : UpstreamRuntimeLock} {packId : String}

theorem targets_activatePointer (root : UpstreamRoot β) (pointer : UpstreamPointer) :
    (activatePointer env root pointer).targets = root.targets := by
  unfold activatePointer
  cases readPointer env root pointer.packId false with
  | error e => rfl
  | ok old =>
    simp only
    split <;> rfl

theorem current_activatePointer (root : UpstreamRoot β) (pointer : UpstreamPointer) :
    (activatePointer env root pointer).pointers pointer.packId false =
      some (env.pointerBytes pointer) :=
  UpstreamRoot.pointers_setPointer_self _ _ _ _

/-- A current pointer to elsewhere becomes the previous one. -/
theorem previous_activatePointer (hread : readPointer env root pointer.packId false = .ok old)
    (hpath : old.relativePath ≠ pointer.relativePath) :
    (activatePointer env root pointer).pointers pointer.packId true =
      some (env.pointerBytes old) := by
  unfold activatePointer
  rw [hread]
  simp only [hpath, ne_eq, not_false_eq_true, if_true]
  rw [UpstreamRoot.pointers_setPointer_of_ne (by decide)]
  exact UpstreamRoot.pointers_setPointer_self _ _ _ _

theorem isActive_eq_false_of_ne {path : String}
    (hread : ∀ active, readPointer env root packId false = .ok active →
      active.relativePath ≠ path) : isActive env root packId path = false := by
  unfold isActive
  cases hactive : readPointer env root packId false with
  | error e => rfl
  | ok active => exact beq_eq_false_iff_ne.mpr (hread active hactive)

variable {input : UpstreamInstallInput β}

/-- What an install leaves behind: its pack is active, and the directories of other
specifications are as they were. -/
structure Installs (env : UpstreamExternal β V) (input : UpstreamInstallInput β)
    (root root' : UpstreamRoot β) : Prop where
  packId : validatePackId input.pack.id = .ok ()
  activated : ∃ placed : UpstreamRoot β, placed.pointers = root.pointers ∧
    (∀ spec, spec ≠ specSha256 env input.pack → placed.targets spec = root.targets spec) ∧
    root' = activatePointer env placed (installPointer env input.pack)

/-- The pack that was active is the one to roll back to. -/
theorem Installs.previous (hlawful : env.Lawful) (h : Installs env input root root')
    (hold : readPointer env root input.pack.id false = .ok old)
    (hother : old.specSha256 ≠ specSha256 env input.pack) :
    readPointer env root' input.pack.id true = .ok old ∧
      root'.targets old.specSha256 = root.targets old.specSha256 ∧
      isActive env root' input.pack.id old.relativePath = false := by
  obtain ⟨placed, hpointers, htargets, rfl⟩ := h.activated
  have hform := (readPointer_eq_ok.mp hold).2.2.1
  have hpath : old.relativePath ≠ (installPointer env input.pack).relativePath := by
    rw [relativePath_of_isPointer hform]
    exact fun heq => hother (relativePath_injective _ heq)
  have hread : readPointer env placed input.pack.id false = .ok old := by
    unfold readPointer at hold ⊢
    rwa [hpointers]
  refine ⟨?_, ?_, ?_⟩
  · exact readPointer_of_pointerBytes hlawful hold (previous_activatePointer hread hpath)
  · rw [targets_activatePointer]
    exact htargets _ hother
  · apply isActive_eq_false_of_ne
    intro active hactive
    obtain ⟨-, ⟨bytes, hbytes, -, -, hparse⟩, -⟩ := readPointer_eq_ok.mp hactive
    have hcurrent : (activatePointer env placed (installPointer env input.pack)).pointers
        input.pack.id false = some (env.pointerBytes (installPointer env input.pack)) :=
      current_activatePointer placed (installPointer env input.pack)
    rw [hcurrent] at hbytes
    cases hbytes
    rw [hlawful.parsePointer_pointerBytes] at hparse
    cases hparse
    exact hpath.symm

variable [DecidableEq β]

/-- A rollback brings back the previous pointer if its directory is all right for the built-in
specification and it is not active. -/
theorem rollback_eq_ok : rollback env lock packId root = .ok root' ↔
    ∃ pack previous payload, builtInPack env lock packId = .ok pack ∧
      readPointer env root packId true = .ok previous ∧
      validateInstalled env root pack previous = .ok payload ∧
      isActive env root packId previous.relativePath = false ∧
      root.setPointer packId false (some (env.pointerBytes previous)) = root' := by
  simp only [rollback, bind_eq_ok, mapError_eq_ok, failIf_eq_ok, pure_eq_ok, Bool.not_eq_true]
  constructor
  · rintro ⟨pack, hpack, previous, hprevious, payload, hpayload, _, hactive, hroot⟩
    exact ⟨pack, previous, payload, hpack, hprevious, hpayload, hactive, hroot⟩
  · rintro ⟨pack, previous, payload, hpack, hprevious, hpayload, hactive, hroot⟩
    exact ⟨pack, hpack, previous, hprevious, payload, hpayload, ⟨⟩, hactive, hroot⟩

/-- The status offers a rollback exactly when there is one. -/
theorem previousAvailable_iff : (installedStatus env lock root packId).previousAvailable = true ↔
    ∃ root', rollback env lock packId root = .ok root' := by
  simp only [rollback_eq_ok, installedStatus, validPointer, isInstalled]
  cases builtInPack env lock packId with
  | error e => simp
  | ok pack =>
    cases readPointer env root packId true with
    | error e => simp
    | ok previous =>
      cases hvalid : validateInstalled env root pack previous with
      | error e => simp [hvalid]
      | ok payload => simp [hvalid]

/-- After an install over an intact pack with another specification, a rollback succeeds exactly
when that is the built-in one, and then it brings back what was replaced. -/
theorem rollback_after_install {packOld : UpstreamPack} {payload : UpstreamPayload β}
    (hlawful : env.Lawful) (h : Installs env input root root')
    (hold : readPointer env root input.pack.id false = .ok old)
    (hintact : validateInstalled env root packOld old = .ok payload)
    (hother : old.specSha256 ≠ specSha256 env input.pack) :
    (∃ root'', rollback env lock input.pack.id root' = .ok root'' ∧
      readPointer env root'' input.pack.id false = .ok old ∧
      root''.targets old.specSha256 = root.targets old.specSha256) ↔
      builtInPack env lock input.pack.id = .ok packOld := by
  obtain ⟨hprevious, htargets, hinactive⟩ := h.previous hlawful hold hother
  have hcongr : ∀ pack, validateInstalled env root' pack old = validateInstalled env root pack old :=
    fun pack => validateInstalled_congr (congrFun htargets old.packId)
  constructor
  · rintro ⟨root'', hrollback, -⟩
    obtain ⟨pack, previous, held, hpack, hread, hvalid, -⟩ := rollback_eq_ok.mp hrollback
    rw [hprevious] at hread
    cases hread
    rw [hcongr] at hvalid
    rw [hpack, pack_unique hlawful hintact hvalid]
  · intro hpack
    refine ⟨_, rollback_eq_ok.mpr ⟨packOld, old, payload, hpack, hprevious, ?_, hinactive, rfl⟩,
      ?_, htargets⟩
    · rw [hcongr]
      exact hintact
    · exact readPointer_of_pointerBytes hlawful hold
        (UpstreamRoot.pointers_setPointer_self _ _ _ _)

variable [LT V] [DecidableLT V]

theorem installUpstreamPack_spec (h : installUpstreamPack env input root = .ok root') :
    Installs env input root root' := by
  obtain ⟨archive, hverified, h⟩ := bind_eq_ok.mp h
  obtain ⟨_, hvalid, -⟩ := bind_eq_ok.mp hverified
  obtain ⟨_, hid, -⟩ := bind_eq_ok.mp hvalid
  refine ⟨hid, ?_⟩
  simp only at h
  split at h
  · obtain ⟨_, -, h⟩ := bind_eq_ok.mp h
    exact ⟨root, rfl, fun _ _ => rfl, (pure_eq_ok.mp h).symm⟩
  · obtain ⟨payload, -, h⟩ := bind_eq_ok.mp h
    refine ⟨root.setTarget (specSha256 env input.pack) input.pack.id (some (.dir payload)), rfl,
      ?_, (pure_eq_ok.mp h).symm⟩
    intro spec hspec
    exact UpstreamRoot.targets_setTarget_of_ne hspec root _ _

/-! ## Runs -/

/-- Successful installs, each with the lock that the application has when it comes to a
rollback, successful rollbacks, and changes of the files from outside. -/
inductive UpstreamEvent (β : Type)
  | install (input : UpstreamInstallInput β) (lock : UpstreamRuntimeLock)
  | rollback (packId : String) (lock : UpstreamRuntimeLock)
  | disturb (root : UpstreamRoot β)

variable (env)

inductive UpstreamStep : UpstreamRoot β → UpstreamEvent β → UpstreamRoot β → Prop
  | install {root root' : UpstreamRoot β} {input : UpstreamInstallInput β}
      {lock : UpstreamRuntimeLock} (returned : installUpstreamPack env input root = .ok root') :
      UpstreamStep root (.install input lock) root'
  | rollback {root root' : UpstreamRoot β} {packId : String} {lock : UpstreamRuntimeLock}
      (returned : Upstream.rollback env lock packId root = .ok root') :
      UpstreamStep root (.rollback packId lock) root'
  | disturb (root root' : UpstreamRoot β) : UpstreamStep root (.disturb root') root'

/-- The pack that an install replaces: it is active, intact and of another specification. -/
structure Replaces (before : UpstreamRoot β) (input : UpstreamInstallInput β)
    (old : UpstreamPointer) (packOld : UpstreamPack) : Prop where
  active : readPointer env before input.pack.id false = .ok old
  intact : ∃ payload, validateInstalled env before packOld old = .ok payload
  other : old.specSha256 ≠ specSha256 env input.pack

/-- After an install, a rollback brings back the pack that was replaced. -/
def Usable (before : UpstreamRoot β) : UpstreamEvent β → UpstreamRoot β → Prop
  | .install input lock, after => ∀ old packOld, Replaces env before input old packOld →
      ∃ after', Upstream.rollback env lock input.pack.id after = .ok after' ∧
        readPointer env after' input.pack.id false = .ok old ∧
        after'.targets old.specSha256 = before.targets old.specSha256
  | _, _ => True

/-- The pack that an install replaces is the one in the lock. -/
def ReplacesBuiltIn (before : UpstreamRoot β) : UpstreamEvent β → Prop
  | .install input lock => ∀ old packOld, Replaces env before input old packOld →
      builtInPack env lock input.pack.id = .ok packOld
  | _ => True

variable {env}

theorem usable_iff (hlawful : env.Lawful) {event : UpstreamEvent β}
    (h : UpstreamStep env root event root') :
    Usable env root event root' ↔ ReplacesBuiltIn env root event := by
  cases h with
  | rollback => exact Iff.rfl
  | disturb => exact Iff.rfl
  | install returned =>
    have hinstalls := installUpstreamPack_spec returned
    constructor
    · intro husable old packOld hreplaces
      obtain ⟨payload, hintact⟩ := hreplaces.intact
      exact (rollback_after_install hlawful hinstalls hreplaces.active hintact
        hreplaces.other).mp (husable old packOld hreplaces)
    · intro hbuiltIn old packOld hreplaces
      obtain ⟨payload, hintact⟩ := hreplaces.intact
      exact (rollback_after_install hlawful hinstalls hreplaces.active hintact
        hreplaces.other).mpr (hbuiltIn old packOld hreplaces)

/-- In a run, a rollback is usable after every install exactly when every install that replaces
an intact pack replaces the one in the lock. -/
theorem rollback_usable_iff (hlawful : env.Lawful) (root root' : UpstreamRoot β)
    (events : List (UpstreamEvent β)) :
    Run (fun before event after =>
        UpstreamStep env before event after ∧ Usable env before event after) root events root' ↔
      Run (Guarded (ReplacesBuiltIn env) (UpstreamStep env)) root events root' := by
  apply Run.congr
  intro before event after
  constructor
  · intro h
    exact ⟨(usable_iff hlawful h.1).mp h.2, h.1⟩
  · intro h
    exact ⟨h.2, (usable_iff hlawful h.2).mpr h.1⟩

/-- An application that installs what it was built with cannot roll back to what it replaced. -/
theorem rollback_fails_of_builtIn {packOld : UpstreamPack} (hlawful : env.Lawful)
    (h : installUpstreamPack env input root = .ok root')
    (hbuiltIn : builtInPack env lock input.pack.id = .ok input.pack)
    (hreplaces : Replaces env root input old packOld) :
    (installedStatus env lock root' input.pack.id).previousAvailable = false := by
  obtain ⟨hprevious, htargets, -⟩ :=
    (installUpstreamPack_spec h).previous hlawful hreplaces.active hreplaces.other
  rw [← Bool.not_eq_true, previousAvailable_iff]
  rintro ⟨root'', hrollback⟩
  obtain ⟨pack, previous, held, hpack, hread, hvalid, -⟩ := rollback_eq_ok.mp hrollback
  rw [hprevious] at hread
  cases hread
  rw [hbuiltIn] at hpack
  cases hpack
  exact hreplaces.other (manifest_of_validateInstalled hvalid).1

end Calls

end Useful.Media.Upstream

/-! ## Two versions of a pack -/

namespace Useful.Media.Upstream.Sample

open Useful.Math Useful.Media

/-- The files, by version where there are two of them. -/
inductive Content
  | zip (second : Bool)
  | exe (second : Bool)
  | spec (pack : UpstreamPack)
  | pointer (pointer : UpstreamPointer)
  | receipt (receipt : UpstreamReceipt)
  deriving DecidableEq

def digest (digit : Char) : String := String.ofList (List.replicate 64 digit)

def versionText (second : Bool) : String := if second then "2" else "1"

def zipDigest (second : Bool) : String := digest (if second then 'd' else 'c')

def exeDigest (second : Bool) : String := digest (if second then '1' else '0')

def specDigest (second : Bool) : String := digest (if second then 'b' else 'a')

/-- The preview pack. -/
def preview (second : Bool) : UpstreamPack where
  id := "preview"
  version := versionText second
  provider := "mpv project"
  providerPageUrl := "https://mpv.io/installation/"
  sourceCodeUrl := "https://github.com/mpv-player/mpv/tree/v1"
  license := "GPLv2+"
  minimumUsefulVersion := "0.1.0"
  archive := ⟨"https://github.com/mpv-player/mpv/releases/download/v1/mpv.zip", "mpv.zip",
    zipDigest second, 1⟩
  files := [⟨some "mpv", "mpv.exe", "mpv.exe", exeDigest second, 1⟩]

def transcode : UpstreamPack where
  id := "transcode"
  version := "8"
  provider := "gyan.dev"
  providerPageUrl := "https://ffmpeg.org/download.html"
  sourceCodeUrl := "https://ffmpeg.org/releases/ffmpeg-8.tar.xz"
  license := "GPLv3"
  minimumUsefulVersion := "0.1.0"
  archive := ⟨"https://www.gyan.dev/ffmpeg/builds/packages/ffmpeg-8.zip", "ffmpeg-8.zip",
    digest 'e', 1⟩
  files := [⟨some "ffmpeg", "bin/ffmpeg.exe", "ffmpeg.exe", digest '2', 1⟩,
    ⟨some "ffprobe", "bin/ffprobe.exe", "ffprobe.exe", digest '3', 1⟩]

/-- The lock of an application that comes with the first or the second version. -/
def lock (second : Bool) : UpstreamRuntimeLock :=
  ⟨upstreamLockSchema, "windows", "x64", [preview second, transcode]⟩

def parseUrl (text : String) : Option ParsedUrl :=
  let rest := text.toList.drop 8
  let path := rest.dropWhile (· ≠ '/')
  some
    { scheme := "https"
      username := ""
      hasPassword := false
      hasFragment := false
      host := some (String.ofList (rest.takeWhile (· ≠ '/')))
      path := String.ofList path
      lastSegment := (path.splitOn '/').getLast?.map String.ofList }

def env : UpstreamExternal Content Nat where
  length _ := 1
  sha256Hex
    | .zip second => zipDigest second
    | .exe second => exeDigest second
    | .spec pack => specDigest (pack.version = "2")
    | _ => digest 'f'
  parseVersion _ := some 0
  parseUrl := parseUrl
  zipEntries
    | .zip second => .ok [⟨"mpv.exe", false, false, 1, .exe second⟩]
    | _ => .error "invalid Zip archive"
  specBytes := .spec
  pointerBytes := .pointer
  receiptBytes := .receipt
  parsePointer
    | .pointer pointer => .ok pointer
    | _ => .error "expected value"
  parseReceipt
    | .receipt receipt => .ok receipt
    | _ => .error "expected value"

theorem env_lawful : env.Lawful where
  specBytes_injective _ _ heq := Content.spec.inj heq
  parsePointer_pointerBytes _ := rfl
  length_pointerBytes _ _ _ _ _ := ⟨Nat.zero_lt_one, by simp [env, maxSmallAssetBytes]⟩

def input (second : Bool) : UpstreamInstallInput Content := ⟨preview second, .file (.zip second), "0.1.0"⟩

/-- The pointer to a version. -/
def pointer (second : Bool) : UpstreamPointer := installPointer env (preview second)

/-- The directory of a version. -/
def payload (second : Bool) : UpstreamPayload Content :=
  (((∅ : UpstreamPayload Content).insert "mpv.exe" (.file (.exe second))).insert
    "UPSTREAM-RUNTIME.json" (.file (.spec (preview second)))).insert "INSTALLED-UPSTREAM.json"
      (.file (.receipt (installReceipt env (preview second))))

theorem validatePack_preview (second : Bool) : validatePack env (preview second) = .ok () := by
  cases second <;> decide

theorem validatePack_transcode : validatePack env transcode = .ok () := by
  decide +kernel

theorem builtInPack_lock (second : Bool) :
    builtInPack env (lock second) "preview" = .ok (preview second) := by
  have hpacks : ∀ pack ∈ (lock second).packs, validatePack env pack = .ok () := by
    simp only [lock, List.mem_cons, List.not_mem_nil, or_false, forall_eq_or_imp, forall_eq]
    exact ⟨validatePack_preview second, validatePack_transcode⟩
  have hids : ((lock second).packs.map UpstreamPack.id).toFinset = {"preview", "transcode"} ∧
      ((lock second).packs.map UpstreamPack.id).toFinset.card = (lock second).packs.length := by
    cases second <;> decide
  have hlock : validateLock env (lock second) = .ok () := by
    refine bind_eq_ok.mpr ⟨⟨⟩, failIf_eq_ok.mpr ?_, bind_eq_ok.mpr ⟨⟨⟩, failIf_eq_ok.mpr ?_,
      forM_eq_ok.mpr hpacks⟩⟩
    · simp [lock]
    · exact not_or.mpr ⟨not_not.mpr hids.1, not_not.mpr hids.2⟩
  exact bind_eq_ok.mpr ⟨⟨⟩, rfl, bind_eq_ok.mpr ⟨⟨⟩, hlock, rfl⟩⟩

theorem verifyPack_input (second : Bool) :
    verifyPack env (input second) = .ok (.zip second) := by
  refine bind_eq_ok.mpr ⟨⟨⟩, validatePack_preview second, ?_⟩
  cases second <;> with_unfolding_all rfl

theorem preparePayload_zip (second : Bool) :
    preparePayload env (.zip second) (preview second) = .ok (payload second) := by
  cases second <;> with_unfolding_all rfl

theorem specSha256_preview (second : Bool) :
    specSha256 env (preview second) = specDigest second := by
  cases second
  · simp [specSha256, env, preview, versionText]
  · simp [specSha256, env, preview, versionText]

theorem isLowerHex_pointer (second : Bool) :
    isLowerHex (pointer second).specSha256.toList 64 = true := by
  have hspec : (pointer second).specSha256 = specDigest second := specSha256_preview second
  rw [hspec]
  cases second
  · exact isLowerHex_replicate (by decide)
  · exact isLowerHex_replicate (by decide)

theorem specSha256_ne : (pointer false).specSha256 ≠ (pointer true).specSha256 := by
  have hspec : ∀ second, (pointer second).specSha256 = specDigest second := specSha256_preview
  rw [hspec, hspec]
  intro heq
  have hdigits := congrArg String.toList heq
  simp only [specDigest, digest, String.toList_ofList] at hdigits
  revert hdigits
  decide

variable {root : UpstreamRoot Content} {second : Bool}

theorem validateInstalled_payload
    (h : root.targets (pointer second).specSha256 "preview" = some (.dir (payload second))) :
    validateInstalled env root (preview second) (pointer second) = .ok (payload second) := by
  have hcongr : validateInstalled env root (preview second) (pointer second) =
      validateInstalled env ⟨fun _ _ => some (.dir (payload second)), fun _ _ => none⟩
        (preview second) (pointer second) := validateInstalled_congr h
  rw [hcongr]
  cases second <;> with_unfolding_all rfl

/-- The root after an install into a free place. -/
def placed (root : UpstreamRoot Content) (second : Bool) : UpstreamRoot Content :=
  activatePointer env
    (root.setTarget (pointer second).specSha256 "preview" (some (.dir (payload second))))
    (pointer second)

theorem install_input (h : root.targets (pointer second).specSha256 "preview" = none) :
    installUpstreamPack env (input second) root = .ok (placed root second) := by
  have hbroken : isInstalled env root (preview second) (pointer second) = false := by
    unfold isInstalled
    cases hvalid : validateInstalled env root (preview second) (pointer second) with
    | error e => rfl
    | ok held =>
      have htarget := (manifest_of_validateInstalled hvalid).2.1
      exact absurd (h.symm.trans htarget) nofun
  refine bind_eq_ok.mpr ⟨_, verifyPack_input second, ?_⟩
  show (if isInstalled env root (preview second) (pointer second) = true then _ else _) = _
  rw [hbroken, if_neg Bool.false_ne_true]
  exact bind_eq_ok.mpr ⟨_, preparePayload_zip second, rfl⟩

def empty : UpstreamRoot Content := ⟨fun _ _ => none, fun _ _ => none⟩

/-- The first version is installed. -/
def afterFirst : UpstreamRoot Content := placed empty false

/-- The second version is installed over it. -/
def afterSecond : UpstreamRoot Content := placed afterFirst true

theorem targets_placed (root : UpstreamRoot Content) (second : Bool) :
    (placed root second).targets (pointer second).specSha256 "preview" =
      some (.dir (payload second)) := by
  unfold placed
  rw [targets_activatePointer]
  simp [UpstreamRoot.setTarget]

theorem current_placed (root : UpstreamRoot Content) (second : Bool) :
    (placed root second).pointers "preview" false = some (.pointer (pointer second)) := by
  unfold placed
  exact current_activatePointer _ (pointer second)

theorem install_first : installUpstreamPack env (input false) empty = .ok afterFirst :=
  install_input rfl

theorem install_second : installUpstreamPack env (input true) afterFirst = .ok afterSecond := by
  apply install_input
  unfold afterFirst placed
  rw [targets_activatePointer, UpstreamRoot.targets_setTarget_of_ne specSha256_ne.symm]
  rfl

theorem readPointer_afterFirst :
    readPointer env afterFirst "preview" false = .ok (pointer false) := by
  have hbytes : afterFirst.pointers "preview" false = some (.pointer (pointer false)) :=
    current_placed empty false
  have hlength := env_lawful.length_pointerBytes (pointer false) "preview" (by decide) rfl
    (isLowerHex_pointer false)
  exact readPointer_eq_ok.mpr ⟨rfl, ⟨_, hbytes, hlength.1, hlength.2, rfl⟩, by decide,
    isLowerHex_pointer false⟩

theorem replaces_first : Replaces env afterFirst (input true) (pointer false) (preview false) where
  active := readPointer_afterFirst
  intact := ⟨_, validateInstalled_payload (targets_placed empty false)⟩
  other := specSha256_ne

/-- The second version is installed, and the application goes back to the lock with the first. -/
theorem rollback_usable_iff_downgrade :
    Run (fun before event after =>
        UpstreamStep env before event after ∧ Usable env before event after) empty
      [.install (input false) (lock false), .install (input true) (lock false)] afterSecond := by
  have hfirst : Guarded (ReplacesBuiltIn env) (UpstreamStep env) empty
      (.install (input false) (lock false)) afterFirst := by
    refine ⟨?_, .install install_first⟩
    intro old packOld hreplaces
    obtain ⟨-, ⟨bytes, hbytes, -⟩, -⟩ := readPointer_eq_ok.mp hreplaces.active
    cases hbytes
  have hsecond : Guarded (ReplacesBuiltIn env) (UpstreamStep env) afterFirst
      (.install (input true) (lock false)) afterSecond := by
    refine ⟨?_, .install install_second⟩
    intro old packOld hreplaces
    obtain rfl := Except.ok.inj (readPointer_afterFirst.symm.trans hreplaces.active)
    obtain ⟨held, hintact⟩ := hreplaces.intact
    rw [pack_unique env_lawful hintact
      (validateInstalled_payload (targets_placed empty false))]
    exact builtInPack_lock false
  exact (rollback_usable_iff env_lawful _ _ _).mpr (.cons hfirst (.single hsecond))

/-- An application that was built with the second version installs it over the first, and cannot
roll back. -/
theorem upgrade_ends_rollback :
    installUpstreamPack env (input false) empty = .ok afterFirst ∧
      installUpstreamPack env (input true) afterFirst = .ok afterSecond ∧
      Replaces env afterFirst (input true) (pointer false) (preview false) ∧
      builtInPack env (lock true) "preview" = .ok (preview true) ∧
      ¬ ∃ root, rollback env (lock true) "preview" afterSecond = .ok root := by
  refine ⟨install_first, install_second, replaces_first, builtInPack_lock true, ?_⟩
  rw [← previousAvailable_iff, Bool.not_eq_true]
  exact rollback_fails_of_builtIn env_lawful install_second (builtInPack_lock true) replaces_first

end Useful.Media.Upstream.Sample
