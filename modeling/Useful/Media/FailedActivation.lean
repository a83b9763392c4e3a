/-
# Media packs whose activation fails

An install prepares a payload beside the others, moves it into its place and writes two pointer
files; a rollback writes one. Each write, each move and each read on the way may fail, and what
was done before stays done. A failed rollback has changed nothing. A failed install may have
taken the directory of the pack away, may have written the previous pointer over, and may have
set the current one aside.
-/

import Useful.Media.PackHistory

namespace Useful.Media

open Useful.Math Useful.Math.Program

/-! ## Reads that fail -/

/-- The reads of an activation and of a rollback. Each may fail on a file that is all right. -/
inductive PackRead
  | targetExists
  | currentExists
  | readCurrent
  | readPrevious
  | checkPrevious
  deriving DecidableEq, Repr

section Programs

variable {β K V : Type} (env : External β K V) (fault : PackSite → Option String)
  (unreadable : PackRead → Bool)

/-- The result of a read, unless it fails. -/
def readAt {α : Type} (site : PackRead) (x : Except MediaPackError α) : Except MediaPackError α :=
  if unreadable site then .error (.io "read failed") else x

/-- `activate_pointer`. A file of which the existence cannot be found out counts as absent. -/
def activatePointerReading (pointer : CurrentPointer) :
    Program MediaPackError (PackRoot β) Unit := do
  let root ← state
  if (root.pointers pointer.packId false).isSome ∧ unreadable .currentExists = false then
    match readAt unreadable .readCurrent (readPointer env root pointer.packId false) with
    | .ok old =>
        fileOp fault .writePrevious fun root =>
          root.setPointer pointer.packId true (some (env.pointerBytes old))
    | .error _ =>
        fileOp fault .moveCurrent fun root => root.setPointer pointer.packId false none
  fileOp fault .writeCurrent fun root =>
    root.setPointer pointer.packId false (some (env.pointerBytes pointer))

/-- Put a payload into its place. A directory that counts as absent is still in the way. -/
def moveIntoPlaceReading (lock packId : String) (payload : Payload β) :
    Program MediaPackError (PackRoot β) Unit := do
  let root ← state
  if unreadable .targetExists then
    if (root.payloads lock packId).isSome then fail (.io "directory not empty")
    else moveTarget fault lock packId payload none
  else moveIntoPlace fault lock packId payload

variable [LT V] [DecidableLT V]

/-- What an install activates, and the payload to put into place if there is none that is all
right. -/
structure Staged (β : Type) where
  pointer : CurrentPointer
  payload : Option (Payload β)

/-- The part of `install_verified_pack` that prepares the activation. -/
def stagePack (input : InstallInput β) : Program MediaPackError (PackRoot β) (Staged β) := do
  let verified ← ofExcept (verifyPack env input)
  let manifest := verified.manifest
  fileOp fault .ensureInstallRoot id
  fileOp fault .ensureLockRoot id
  let pointer := installPointer env input manifest
  let root ← state
  if validateInstalledPayload env root pointer = .ok () then
    let alreadyActive : Bool := match readPointer env root manifest.packId false with
      | .ok current => current.relativePath == pointer.relativePath
      | .error _ => false
    ofExcept (failIf alreadyActive (.alreadyInstalled pointer.relativePath))
    return ⟨pointer, none⟩
  else
    fileOp fault .createStaging id
    fileOp fault .extract id
    let payload ← ofExcept (preparePayload env input verified)
    fileOp fault .writeStatement id
    fileOp fault .writeSignature id
    fileOp fault .writeReceipt id
    return ⟨pointer, some payload⟩

/-- Put the payload into its place, if there is one to put. -/
def moveStaged (staged : Staged β) : Program MediaPackError (PackRoot β) Unit :=
  match staged.payload with
  | none => pure ()
  | some payload =>
      moveIntoPlaceReading fault unreadable staged.pointer.runtimeLockSha256 staged.pointer.packId
        payload

omit [LT V] [DecidableLT V] in
/-- The part of `install_verified_pack` that activates. -/
def activateStaged (staged : Staged β) : Program MediaPackError (PackRoot β) CurrentPointer := do
  moveStaged fault unreadable staged
  activatePointerReading env fault unreadable staged.pointer
  return staged.pointer

/-- `install_verified_pack`, with reads that may fail. -/
def installVerifiedPackReading (input : InstallInput β) :
    Program MediaPackError (PackRoot β) CurrentPointer := do
  let staged ← stagePack env fault input
  activateStaged env fault unreadable staged

omit [LT V] [DecidableLT V] in
/-- `rollback`, with reads that may fail. -/
def rollbackReading (packId : String) : Program MediaPackError (PackRoot β) CurrentPointer := do
  let root ← state
  let previous ← ofExcept ((readAt unreadable .readPrevious
    (readPointer env root packId true)).mapError fun _ => .noPrevious packId)
  ofExcept ((readAt unreadable .checkPrevious
    (validateInstalledPayload env root previous)).mapError fun _ => .noPrevious packId)
  let sameAsCurrent : Bool :=
    match readAt unreadable .readCurrent (readPointer env root packId false) with
    | .ok current => current.relativePath == previous.relativePath
    | .error _ => false
  ofExcept (failIf sameAsCurrent (.noPrevious packId))
  fileOp fault .writeCurrent fun root =>
    root.setPointer packId false (some (env.pointerBytes previous))
  return previous

end Programs

/-! ## Without failing reads -/

section

variable {β K V : Type} {env : External β K V} {fault : PackSite → Option String}

/-- No read fails. -/
def allReadable (_ : PackRead) : Bool := false

theorem activatePointerReading_allReadable (pointer : CurrentPointer) :
    activatePointerReading env fault allReadable pointer = activatePointer env fault pointer := by
  refine bind_congr fun root => ?_
  by_cases hcurrent : (root.pointers pointer.packId false).isSome = true
  · exact (if_pos ⟨hcurrent, rfl⟩).trans (if_pos hcurrent).symm
  · exact (if_neg fun h => hcurrent h.1).trans (if_neg hcurrent).symm

theorem moveIntoPlaceReading_allReadable (lock packId : String) (payload : Payload β) :
    moveIntoPlaceReading fault allReadable lock packId payload =
      moveIntoPlace fault lock packId payload := by
  funext root
  rfl

theorem rollbackReading_allReadable (packId : String) :
    rollbackReading env fault allReadable packId = rollback env fault packId := by
  refine bind_congr fun root => bind_congr fun previous => ?_
  rfl

variable [LT V] [DecidableLT V]

/-- When no read fails, the install is the one followed before. -/
theorem installVerifiedPackReading_allReadable (input : InstallInput β) :
    installVerifiedPackReading env fault allReadable input =
      installVerifiedPack env fault input := by
  unfold installVerifiedPackReading stagePack installVerifiedPack
  simp only [Program.bind_assoc]
  refine bind_congr fun verified => bind_congr fun _ => bind_congr fun _ => bind_congr fun root => ?_
  by_cases intact : validateInstalledPayload env root
      (installPointer env input verified.manifest) = .ok ()
  · simp only [intact, if_true, Program.bind_assoc]
    refine bind_congr fun _ => ?_
    rw [Program.pure_bind]
    unfold activateStaged
    rw [activatePointerReading_allReadable]
    rfl
  · simp only [intact, if_false, Program.bind_assoc]
    refine bind_congr fun _ => bind_congr fun _ => bind_congr fun payload => bind_congr fun _ =>
      bind_congr fun _ => bind_congr fun _ => ?_
    rw [Program.pure_bind]
    unfold activateStaged
    rw [activatePointerReading_allReadable]
    rfl

end

/-! ## What a pointer resolves to -/

section Resolving

variable {β K V : Type} (env : External β K V)

/-- The runtime lock and the payload that a pointer resolves to, if the payload is intact. -/
def resolve (root : PackRoot β) (packId : String) (previous : Bool) :
    Option (String × Payload β) :=
  match readPointer env root packId previous with
  | .error _ => none
  | .ok pointer =>
      if validateInstalledPayload env root pointer = .ok () then
        (root.payloads pointer.runtimeLockSha256 packId).map fun payload =>
          (pointer.runtimeLockSha256, payload)
      else none

/-- What is written as JSON is read back, and pointers are short. -/
structure External.Lawful (env : External β K V) : Prop where
  parsePointer_pointerBytes : ∀ pointer, env.parsePointer (env.pointerBytes pointer) = .ok pointer
  parseReceipt_receiptBytes : ∀ receipt, env.parseReceipt (env.receiptBytes receipt) = .ok receipt
  length_pointerBytes : ∀ pointer packId, isCurrentPointer pointer packId = true →
    validatePackId packId = .ok () →
    0 < env.length (env.pointerBytes pointer) ∧ env.length (env.pointerBytes pointer) ≤ maxPointerBytes

variable {env} {root root' : PackRoot β} {packId lock lock' : String} {previous previous' : Bool}
  {payload payload' : Payload β} {pointer : CurrentPointer}

theorem packId_of_isCurrentPointer (h : isCurrentPointer pointer packId = true) :
    pointer.packId = packId := by
  simp only [isCurrentPointer, Bool.and_eq_true, beq_iff_eq] at h
  exact h.1.1.1.2

theorem resolve_eq_some : resolve env root packId previous = some (lock, payload) ↔
    ∃ pointer, readPointer env root packId previous = .ok pointer ∧
      validateInstalledPayload env root pointer = .ok () ∧
      pointer.runtimeLockSha256 = lock ∧ root.payloads lock packId = some payload := by
  unfold resolve
  cases hread : readPointer env root packId previous with
  | error e => simp
  | ok pointer =>
    simp only [Option.ite_none_right_eq_some, Option.map_eq_some_iff, Prod.mk.injEq,
      Except.ok.injEq, exists_eq_left']
    constructor
    · rintro ⟨hvalid, held, hheld, rfl, rfl⟩
      exact ⟨hvalid, rfl, hheld⟩
    · rintro ⟨hvalid, rfl, hheld⟩
      exact ⟨hvalid, payload, hheld, rfl, rfl⟩

/-- The check of a payload looks at this payload alone. -/
theorem validateInstalledPayload_congr
    (h : root.payloads pointer.runtimeLockSha256 pointer.packId =
      root'.payloads pointer.runtimeLockSha256 pointer.packId) :
    validateInstalledPayload env root pointer = validateInstalledPayload env root' pointer := by
  unfold validateInstalledPayload readInstalledManifest
  rw [h]

/-- A pointer file that stays, to a payload that stays, resolves as before. -/
theorem resolve_of_same (hfile : root'.pointers packId previous' = root.pointers packId previous)
    (hplace : root'.payloads lock packId = root.payloads lock packId)
    (h : resolve env root packId previous = some (lock, payload)) :
    resolve env root' packId previous' = some (lock, payload) := by
  obtain ⟨pointer, hread, hvalid, rfl, hheld⟩ := resolve_eq_some.mp h
  obtain ⟨hid, hparse, hform, target, htarget, hreceipt⟩ := readPointer_eq_ok.mp hread
  have hpackId := packId_of_isCurrentPointer hform
  refine resolve_eq_some.mpr ⟨pointer, ?_, ?_, rfl, hplace.trans hheld⟩
  · refine readPointer_eq_ok.mpr ⟨hid, ?_, hform, target, hplace.trans htarget, hreceipt⟩
    rwa [hfile]
  · rw [← hvalid]
    apply validateInstalledPayload_congr
    rw [hpackId]
    exact hplace

/-- One pointer file leads to one runtime lock. -/
theorem lock_unique (hfile : root'.pointers packId previous' = root.pointers packId previous)
    (h : resolve env root packId previous = some (lock, payload))
    (h' : resolve env root' packId previous' = some (lock', payload')) : lock = lock' := by
  obtain ⟨pointer, hread, -, rfl, -⟩ := resolve_eq_some.mp h
  obtain ⟨pointer', hread', -, rfl, -⟩ := resolve_eq_some.mp h'
  obtain ⟨-, ⟨bytes, hbytes, hparse⟩, -⟩ := readPointer_eq_ok.mp hread
  obtain ⟨-, ⟨bytes', hbytes', hparse'⟩, -⟩ := readPointer_eq_ok.mp hread'
  rw [hfile, hbytes] at hbytes'
  cases hbytes'
  rw [hparse] at hparse'
  cases hparse'
  rfl

/-- A pointer that is read can be written to another file, and is read there. -/
theorem readPointer_of_pointerBytes (hlawful : env.Lawful)
    (hread : readPointer env root packId previous = .ok pointer)
    (hpayloads : root'.payloads = root.payloads)
    (hbytes : root'.pointers packId previous' = some (env.pointerBytes pointer)) :
    readPointer env root' packId previous' = .ok pointer := by
  obtain ⟨hid, -, hform, htarget⟩ := readPointer_eq_ok.mp hread
  obtain ⟨hpos, hle⟩ := hlawful.length_pointerBytes pointer packId hform hid
  refine readPointer_eq_ok.mpr ⟨hid, ⟨_, hbytes, ?_⟩, hform, ?_⟩
  · refine bind_eq_ok.mpr ⟨⟨⟩, failIf_eq_ok.mpr ?_, mapError_eq_ok.mpr
      (hlawful.parsePointer_pointerBytes pointer)⟩
    rintro (hzero | hlarge)
    · exact hpos.ne' hzero
    · exact absurd hle (not_le.mpr hlarge)
  · rwa [hpayloads]

/-- A prepared payload is all right only for pointers with the key it was signed with. -/
theorem fingerprint_of_prepared {input : InstallInput β} {verified : VerifiedPack}
    (hlawful : env.Lawful) (hprepared : preparePayload env input verified = .ok payload)
    (hheld : root.payloads pointer.runtimeLockSha256 pointer.packId = some payload)
    (hvalid : validateInstalledPayload env root pointer = .ok ()) :
    pointer.mediaPackPublicKeyFingerprint = env.fingerprint input.publicKeyHex := by
  simp only [preparePayload, bind_eq_ok, pure_eq_ok] at hprepared
  obtain ⟨extracted, -, rfl⟩ := hprepared
  simp only [validateInstalledPayload, readInstalledManifest, bind_eq_ok, orFail_eq_ok,
    mapError_eq_ok] at hvalid
  obtain ⟨_, ⟨target, htarget, _, -, _, -, _, -, _, -, _, -, content, hcontent, _, -, receipt,
    hreceipt, _, hbinding, -⟩, -⟩ := hvalid
  rw [hheld] at htarget
  cases htarget
  simp only [readFile, Function.update_self, Except.ok.injEq] at hcontent
  subst hcontent
  rw [hlawful.parseReceipt_receiptBytes] at hreceipt
  cases hreceipt
  have hbinding := failIf_eq_ok.mp hbinding
  push Not at hbinding
  exact hbinding.2.2.2.2.symm

end Resolving

/-! ## How far a failed install has got -/

section Failing

variable {β K V : Type} (env : External β K V) (fault : PackSite → Option String)
  (unreadable : PackRead → Bool) (staged : Staged β) (root : PackRoot β)

/-- Where the payload of the pack goes, there is one already. -/
def Occupied : Prop :=
  (root.payloads staged.pointer.runtimeLockSha256 staged.pointer.packId).isSome = true

/-- A directory that is in the way is seen and moved aside. -/
def MakesWay : Prop :=
  Occupied staged root → unreadable .targetExists = false ∧ fault .moveDamaged = none

/-- The directory of the pack is moved away and does not come back. -/
def Displaces : Prop :=
  staged.payload.isSome = true ∧ MakesWay fault unreadable staged root ∧
    (fault .moveTarget = none ∨ Occupied staged root ∧ fault .restoreDamaged ≠ none)

/-- The payload gets into its place, so that the pointers come next. -/
def Activates : Prop :=
  staged.payload.isSome = true → MakesWay fault unreadable staged root ∧ fault .moveTarget = none

/-- The root with the payload in its place. -/
def placedRoot : PackRoot β :=
  match staged.payload with
  | none => root
  | some payload =>
      root.setPayload staged.pointer.runtimeLockSha256 staged.pointer.packId (some payload)

/-- The current pointer is read with the payload in its place, and written over the previous
one. -/
def Overwrites : Prop :=
  Activates fault unreadable staged root ∧ unreadable .currentExists = false ∧
    unreadable .readCurrent = false ∧
    (∃ old, readPointer env (placedRoot staged root) staged.pointer.packId false = .ok old) ∧
    fault .writePrevious = none

/-- The current pointer is not read, and its file moved aside. -/
def SetsAside : Prop :=
  Activates fault unreadable staged root ∧ unreadable .currentExists = false ∧
    (root.pointers staged.pointer.packId false).isSome = true ∧
    (unreadable .readCurrent = true ∨
      ¬ ∃ old, readPointer env (placedRoot staged root) staged.pointer.packId false = .ok old) ∧
    fault .moveCurrent = none

/-- The roots that a failed activation leaves behind. -/
inductive Failed : PackRoot β → Prop
  | unmoved (hdisplaces : ¬ Displaces fault unreadable staged root)
      (hoverwrites : ¬ Overwrites env fault unreadable staged root)
      (haside : ¬ SetsAside env fault unreadable staged root) : Failed root
  | lost (hdisplaces : Displaces fault unreadable staged root)
      (hoverwrites : ¬ Overwrites env fault unreadable staged root)
      (haside : ¬ SetsAside env fault unreadable staged root) :
      Failed (root.setPayload staged.pointer.runtimeLockSha256 staged.pointer.packId none)
  | placed (hdisplaces : staged.payload.isSome = true → Displaces fault unreadable staged root)
      (hoverwrites : ¬ Overwrites env fault unreadable staged root)
      (haside : ¬ SetsAside env fault unreadable staged root) : Failed (placedRoot staged root)
  | overwritten (hdisplaces : staged.payload.isSome = true → Displaces fault unreadable staged root)
      (hoverwrites : Overwrites env fault unreadable staged root)
      (haside : ¬ SetsAside env fault unreadable staged root) (old : CurrentPointer)
      (hread : readPointer env (placedRoot staged root) staged.pointer.packId false = .ok old) :
      Failed ((placedRoot staged root).setPointer staged.pointer.packId true
        (some (env.pointerBytes old)))
  | setAside (hdisplaces : staged.payload.isSome = true → Displaces fault unreadable staged root)
      (hoverwrites : ¬ Overwrites env fault unreadable staged root)
      (haside : SetsAside env fault unreadable staged root) :
      Failed ((placedRoot staged root).setPointer staged.pointer.packId false none)

variable {env fault unreadable staged root}

theorem fileOp_exact {site : PackSite} {f : PackRoot β → PackRoot β} :
    Ensures (fileOp fault site f) root (fun _ t => t = f root ∧ fault site = none)
      (fun _ t => t = root ∧ fault site ≠ none) := by
  unfold fileOp
  cases hfault : fault site with
  | none => exact ensures_modify.mpr ⟨rfl, rfl⟩
  | some text => exact ensures_fail.mpr ⟨rfl, nofun⟩

/-- A file operation that leaves the root alone. -/
theorem skip_exact {site : PackSite} :
    Ensures (fileOp fault site id) root (fun _ t => t = root) (fun _ t => t = root) :=
  fileOp_exact.imp (fun _ _ h => h.1) fun _ _ h => h.1

theorem setPayload_self {lock packId : String} {payload : Option (Payload β)}
    (h : root.payloads lock packId = payload) : root.setPayload lock packId payload = root := by
  subst h
  simp [PackRoot.setPayload]

theorem moveTarget_exact {lock packId : String} {payload : Payload β}
    {damaged : Option (Payload β)} :
    Ensures (moveTarget fault lock packId payload damaged) root
      (fun _ t => t = root.setPayload lock packId (some payload) ∧ fault .moveTarget = none)
      (fun _ t => fault .moveTarget ≠ none ∧
        ((damaged = none ∨ fault .restoreDamaged ≠ none) ∧ t = root ∨
          damaged.isSome = true ∧ fault .restoreDamaged = none ∧
            t = root.setPayload lock packId damaged)) := by
  unfold moveTarget
  apply ensures_bind.mpr
  apply ensures_attempt.mpr
  apply fileOp_exact.imp
  · rintro _ t ⟨rfl, hfault⟩
    exact ensures_pure.mpr ⟨rfl, hfault⟩
  · rintro error t ⟨rfl, hfault⟩
    cases damaged with
    | none => exact ensures_fail.mpr ⟨hfault, .inl ⟨.inl rfl, rfl⟩⟩
    | some damaged =>
      apply ensures_bind.mpr
      apply ensures_attempt.mpr
      apply fileOp_exact.imp
      · rintro _ t ⟨rfl, hrestore⟩
        exact ensures_fail.mpr ⟨hfault, .inr ⟨rfl, hrestore, rfl⟩⟩
      · rintro _ t ⟨rfl, hrestore⟩
        exact ensures_fail.mpr ⟨hfault, .inl ⟨.inr hrestore, rfl⟩⟩

/-- Into a free place the payload is moved, or nothing happens. -/
theorem moveTarget_free {payload : Payload β} (hstaged : staged.payload = some payload)
    (hfree : ¬ Occupied staged root) :
    Ensures (moveTarget fault staged.pointer.runtimeLockSha256 staged.pointer.packId payload none)
      root
      (fun _ t => Activates fault unreadable staged root ∧ t = placedRoot staged root)
      (fun _ t => ¬ Activates fault unreadable staged root ∧
        ¬ Displaces fault unreadable staged root ∧ t = root) := by
  apply moveTarget_exact.imp
  · rintro _ t ⟨rfl, hfault⟩
    refine ⟨fun _ => ⟨fun hoccupied => absurd hoccupied hfree, hfault⟩, ?_⟩
    simp [placedRoot, hstaged]
  · rintro _ t ⟨hfault, ⟨-, rfl⟩ | ⟨hsome, -⟩⟩
    · refine ⟨fun h => hfault (h (by simp [hstaged])).2, ?_, rfl⟩
      rintro ⟨-, -, hmoved | ⟨hoccupied, -⟩⟩
      · exact hfault hmoved
      · exact hfree hoccupied
    · cases hsome

/-- An occupied place that is seen is cleared first, and put back if the move fails. -/
theorem moveIntoPlace_occupied {payload : Payload β} (hstaged : staged.payload = some payload)
    (hoccupied : Occupied staged root) (hseen : unreadable .targetExists = false) :
    Ensures (moveIntoPlace fault staged.pointer.runtimeLockSha256 staged.pointer.packId payload)
      root
      (fun _ t => Activates fault unreadable staged root ∧ t = placedRoot staged root)
      (fun _ t => ¬ Activates fault unreadable staged root ∧
        (¬ Displaces fault unreadable staged root ∧ t = root ∨
          Displaces fault unreadable staged root ∧
            t = root.setPayload staged.pointer.runtimeLockSha256 staged.pointer.packId none)) := by
  have hsome : staged.payload.isSome = true := by simp [hstaged]
  unfold moveIntoPlace
  apply ensures_bind.mpr
  apply ensures_state.mpr
  have hthere : (root.payloads staged.pointer.runtimeLockSha256 staged.pointer.packId).isSome =
      true := hoccupied
  simp only [hthere, if_true]
  apply fileOp_exact.bind
  · rintro _ t ⟨rfl, hfault⟩
    refine ⟨fun h => hfault ((h hsome).1 hoccupied).2, .inl ⟨?_, rfl⟩⟩
    rintro ⟨-, hway, -⟩
    exact hfault (hway hoccupied).2
  · rintro _ t ⟨rfl, hmoved⟩
    have hway : MakesWay fault unreadable staged root := fun _ => ⟨hseen, hmoved⟩
    apply moveTarget_exact.imp
    · rintro _ t ⟨rfl, hfault⟩
      refine ⟨fun _ => ⟨hway, hfault⟩, ?_⟩
      rw [PackRoot.setPayload_setPayload]
      simp [placedRoot, hstaged]
    · rintro _ t ⟨hfault, ⟨hnone | hrestore, rfl⟩ | ⟨-, hrestore, rfl⟩⟩
      · rw [hnone] at hthere
        cases hthere
      · exact ⟨fun h => hfault (h hsome).2,
          .inr ⟨⟨hsome, hway, .inr ⟨hoccupied, hrestore⟩⟩, rfl⟩⟩
      · refine ⟨fun h => hfault (h hsome).2, .inl ⟨?_, ?_⟩⟩
        · rintro ⟨-, -, hmoved | ⟨-, hlost⟩⟩
          · exact hfault hmoved
          · exact hlost hrestore
        · rw [PackRoot.setPayload_setPayload]
          exact setPayload_self rfl

/-- Putting the payload into place either gets to the pointers, or leaves the directory as it
was, or leaves none. -/
theorem moveStaged_spec :
    Ensures (moveStaged fault unreadable staged) root
      (fun _ t => Activates fault unreadable staged root ∧ t = placedRoot staged root)
      (fun _ t => ¬ Activates fault unreadable staged root ∧
        (¬ Displaces fault unreadable staged root ∧ t = root ∨
          Displaces fault unreadable staged root ∧
            t = root.setPayload staged.pointer.runtimeLockSha256 staged.pointer.packId none)) := by
  unfold moveStaged
  cases hstaged : staged.payload with
  | none =>
    refine ensures_pure.mpr ⟨fun hsome => ?_, ?_⟩
    · rw [hstaged] at hsome
      cases hsome
    · simp [placedRoot, hstaged]
  | some payload =>
    have hsome : staged.payload.isSome = true := by simp [hstaged]
    unfold moveIntoPlaceReading
    apply ensures_bind.mpr
    apply ensures_state.mpr
    by_cases hoccupied : Occupied staged root
    · by_cases hseen : unreadable .targetExists = true
      · have hthere : (root.payloads staged.pointer.runtimeLockSha256
            staged.pointer.packId).isSome = true := hoccupied
        simp only [hseen, hthere, if_true]
        have hway : ¬ MakesWay fault unreadable staged root := fun hway =>
          Bool.noConfusion (hseen.symm.trans (hway hoccupied).1)
        exact ensures_fail.mpr ⟨fun h => hway (h hsome).1, .inl ⟨fun h => hway h.2.1, rfl⟩⟩
      · rw [if_neg hseen]
        exact moveIntoPlace_occupied hstaged hoccupied (Bool.not_eq_true _ ▸ hseen)
    · have hnone : root.payloads staged.pointer.runtimeLockSha256 staged.pointer.packId = none :=
        Option.not_isSome_iff_eq_none.mp hoccupied
      have hmove : Ensures (moveTarget fault staged.pointer.runtimeLockSha256
          staged.pointer.packId payload none) root
          (fun _ t => Activates fault unreadable staged root ∧ t = placedRoot staged root)
          (fun _ t => ¬ Activates fault unreadable staged root ∧
            (¬ Displaces fault unreadable staged root ∧ t = root ∨
              Displaces fault unreadable staged root ∧
                t = root.setPayload staged.pointer.runtimeLockSha256 staged.pointer.packId
                  none)) :=
        (moveTarget_free hstaged hoccupied).imp (fun _ _ h => h) fun _ _ h => ⟨h.1, .inl h.2⟩
      by_cases hseen : unreadable .targetExists = true
      · rw [if_pos hseen, hnone]
        exact hmove
      · rw [if_neg hseen]
        unfold moveIntoPlace
        apply ensures_bind.mpr
        apply ensures_state.mpr
        simp only [hnone]
        exact hmove

theorem pointers_placedRoot (staged : Staged β) (root : PackRoot β) :
    (placedRoot staged root).pointers = root.pointers := by
  unfold placedRoot
  cases staged.payload <;> rfl

/-- The file that is not read is moved aside, and then the new pointer is written. -/
theorem moveCurrent_spec
    (hdisplaces : staged.payload.isSome = true → Displaces fault unreadable staged root)
    (hoverwrites : ¬ Overwrites env fault unreadable staged root)
    (haside : fault .moveCurrent = none → SetsAside env fault unreadable staged root) :
    Ensures (do
      fileOp fault .moveCurrent fun root => root.setPointer staged.pointer.packId false none
      fileOp fault .writeCurrent fun root =>
        root.setPointer staged.pointer.packId false (some (env.pointerBytes staged.pointer)))
      (placedRoot staged root) (fun _ _ => True)
      (fun _ t => Failed env fault unreadable staged root t) := by
  apply fileOp_exact.bind
  · rintro _ t ⟨rfl, hfault⟩
    exact .placed hdisplaces hoverwrites fun haside => hfault haside.2.2.2.2
  · rintro _ t ⟨rfl, hfault⟩
    apply fileOp_exact.imp (fun _ _ _ => trivial)
    rintro _ t ⟨rfl, -⟩
    exact .setAside hdisplaces hoverwrites (haside hfault)

/-- Writing the pointers fails with the payload in its place. -/
theorem activatePointerReading_spec (hactivates : Activates fault unreadable staged root) :
    Ensures (activatePointerReading env fault unreadable staged.pointer) (placedRoot staged root)
      (fun _ _ => True) (fun _ t => Failed env fault unreadable staged root t) := by
  have hdisplaces : staged.payload.isSome = true → Displaces fault unreadable staged root :=
    fun hsome => ⟨hsome, (hactivates hsome).1, .inl (hactivates hsome).2⟩
  unfold activatePointerReading
  apply ensures_bind.mpr
  apply ensures_state.mpr
  rw [pointers_placedRoot]
  split
  · next hexists =>
    obtain ⟨hthere, hseen⟩ := hexists
    unfold readAt
    by_cases hread : unreadable .readCurrent = true
    · rw [if_pos hread]
      apply moveCurrent_spec hdisplaces
      · rintro ⟨-, -, hreads, -⟩
        rw [hread] at hreads
        cases hreads
      · exact fun hfault => ⟨hactivates, hseen, hthere, .inl hread, hfault⟩
    · rw [if_neg hread]
      cases hold : readPointer env (placedRoot staged root) staged.pointer.packId false with
      | error e =>
        have hnone : ¬ ∃ old, readPointer env (placedRoot staged root) staged.pointer.packId false =
            .ok old := by
          rw [hold]
          rintro ⟨old, h⟩
          cases h
        apply moveCurrent_spec hdisplaces
        · exact fun hoverwrites => hnone hoverwrites.2.2.2.1
        · exact fun hfault => ⟨hactivates, hseen, hthere, .inr hnone, hfault⟩
      | ok old =>
        have haside : ¬ SetsAside env fault unreadable staged root := by
          rintro ⟨-, -, -, hunread | hnone, -⟩
          · exact hread hunread
          · exact hnone ⟨old, hold⟩
        apply fileOp_exact.bind
        · rintro _ t ⟨rfl, hfault⟩
          exact .placed hdisplaces (fun hoverwrites => hfault hoverwrites.2.2.2.2) haside
        · rintro _ t ⟨rfl, hfault⟩
          apply fileOp_exact.imp (fun _ _ _ => trivial)
          rintro _ t ⟨rfl, -⟩
          exact .overwritten hdisplaces
            ⟨hactivates, hseen, Bool.not_eq_true _ ▸ hread, ⟨old, hold⟩, hfault⟩ haside old hold
  · next habsent =>
    apply fileOp_exact.imp (fun _ _ _ => trivial)
    rintro _ t ⟨rfl, -⟩
    apply Failed.placed hdisplaces
    · rintro ⟨-, hseen, -, ⟨old, hold⟩, -⟩
      obtain ⟨-, ⟨bytes, hbytes, -⟩, -⟩ := readPointer_eq_ok.mp hold
      rw [pointers_placedRoot] at hbytes
      exact habsent ⟨by rw [hbytes]; rfl, hseen⟩
    · rintro ⟨-, hseen, hthere, -⟩
      exact habsent ⟨hthere, hseen⟩

/-- A failed activation leaves one of the roots behind. -/
theorem activateStaged_spec :
    Ensures (activateStaged env fault unreadable staged) root (fun _ _ => True)
      (fun _ t => Failed env fault unreadable staged root t) := by
  unfold activateStaged
  apply moveStaged_spec.bind
  · rintro _ t ⟨hactivates, ⟨hdisplaces, rfl⟩ | ⟨hdisplaces, rfl⟩⟩
    · exact .unmoved hdisplaces (fun h => hactivates h.1) fun h => hactivates h.1
    · exact .lost hdisplaces (fun h => hactivates h.1) fun h => hactivates h.1
  · rintro _ t ⟨hactivates, rfl⟩
    apply (activatePointerReading_spec hactivates).bind (fun _ _ => id)
    exact fun _ _ _ => ensures_pure.mpr trivial

variable [LT V] [DecidableLT V] {input : InstallInput β}

/-- What is staged: a payload that is all right but not active, or one that was prepared because
there is none. -/
structure StagedFrom (env : External β K V) (input : InstallInput β) (root : PackRoot β)
    (staged : Staged β) : Prop where
  verified : ∃ verified, verifyPack env input = .ok verified ∧
    staged.pointer = installPointer env input verified.manifest ∧
    ∀ payload, staged.payload = some payload →
      preparePayload env input verified = .ok payload ∧
        validateInstalledPayload env root staged.pointer ≠ .ok ()
  inactive : staged.payload = none → ∀ current,
    readPointer env root staged.pointer.packId false = .ok current →
      current.relativePath ≠ staged.pointer.relativePath

/-- Staging changes nothing. -/
theorem stagePack_spec :
    Ensures (stagePack env fault input) root
      (fun staged t => t = root ∧ StagedFrom env input root staged) (fun _ t => t = root) := by
  unfold stagePack
  apply ensures_bind.mpr
  apply ensures_ofExcept.mpr
  refine ⟨?_, fun _ _ => rfl⟩
  intro verified hverified
  apply skip_exact.bind (fun _ _ => id)
  intro _ t ht
  rw [ht]
  apply skip_exact.bind (fun _ _ => id)
  intro _ t ht
  rw [ht]
  apply ensures_bind.mpr
  apply ensures_state.mpr
  by_cases intact : validateInstalledPayload env root
      (installPointer env input verified.manifest) = .ok ()
  · rw [if_pos intact]
    apply ensures_bind.mpr
    apply ensures_ofExcept.mpr
    refine ⟨?_, fun _ _ => rfl⟩
    intro _ hinactive
    refine ensures_pure.mpr ⟨rfl, ⟨verified, hverified, rfl, by rintro _ ⟨⟩⟩, ?_⟩
    intro _ current hcurrent hpath
    have hread : readPointer env root verified.manifest.packId false = .ok current := hcurrent
    have hsame : current.relativePath =
        (installPointer env input verified.manifest).relativePath := hpath
    simp only [failIf_eq_ok, hread, hsame, beq_self_eq_true, not_true] at hinactive
  · rw [if_neg intact]
    apply skip_exact.bind (fun _ _ => id)
    intro _ t ht
    rw [ht]
    apply skip_exact.bind (fun _ _ => id)
    intro _ t ht
    rw [ht]
    apply ensures_bind.mpr
    apply ensures_ofExcept.mpr
    refine ⟨?_, fun _ _ => rfl⟩
    intro payload hpayload
    apply skip_exact.bind (fun _ _ => id)
    intro _ t ht
    rw [ht]
    apply skip_exact.bind (fun _ _ => id)
    intro _ t ht
    rw [ht]
    apply skip_exact.bind (fun _ _ => id)
    intro _ t ht
    rw [ht]
    refine ensures_pure.mpr ⟨rfl, ⟨verified, hverified, rfl, ?_⟩, by rintro ⟨⟩⟩
    rintro _ ⟨rfl⟩
    exact ⟨hpayload, intact⟩

end Failing

/-! ## What a failed install keeps -/

section Keeping

variable {β K V : Type} (env : External β K V) (fault : PackSite → Option String)
  (unreadable : PackRead → Bool)

/-- A pointer that resolved to an intact payload resolves to the same one. -/
def Survives (packId : String) (before after : PackRoot β) : Prop :=
  ∀ previous lock payload, resolve env before packId previous = some (lock, payload) →
    resolve env after packId previous = some (lock, payload)

/-- The current pointer resolves to the pack of a runtime lock, and the previous one to what the
current one resolved to. -/
def Replaced (packId lock : String) (before after : PackRoot β) : Prop :=
  ∃ old payload, resolve env before packId false = some old ∧
    resolve env after packId false = some (lock, payload) ∧
    resolve env after packId true = some old

/-- A failed activation takes from no pointer the payload that it resolves to. A current pointer
that resolves is not set aside, and its payload not displaced. A previous one that resolves is
written over only by one that resolves to the same payload, and if it is not written over, its
payload is not displaced. -/
structure Harmless (staged : Staged β) (root : PackRoot β) : Prop where
  current : ∀ lock payload, resolve env root staged.pointer.packId false = some (lock, payload) →
    ¬ SetsAside env fault unreadable staged root ∧
      (Displaces fault unreadable staged root → lock ≠ staged.pointer.runtimeLockSha256)
  overwritten : ∀ lock payload,
    resolve env root staged.pointer.packId true = some (lock, payload) →
    Overwrites env fault unreadable staged root →
    resolve env root staged.pointer.packId false = some (lock, payload)
  previous : ∀ lock payload, resolve env root staged.pointer.packId true = some (lock, payload) →
    ¬ Overwrites env fault unreadable staged root → Displaces fault unreadable staged root →
    lock ≠ staged.pointer.runtimeLockSha256

variable {env fault unreadable} {staged : Staged β} {root root' : PackRoot β}

theorem Survives.refl (packId : String) (root : PackRoot β) : Survives env packId root root :=
  fun _ _ _ h => h

/-- The check of a payload looks at lock, pack and key of the pointer. -/
theorem validateInstalledPayload_of_same {pointer pointer' : CurrentPointer}
    (hlock : pointer'.runtimeLockSha256 = pointer.runtimeLockSha256)
    (hid : pointer'.packId = pointer.packId)
    (hkey : pointer'.mediaPackPublicKeyFingerprint = pointer.mediaPackPublicKeyFingerprint) :
    validateInstalledPayload env root pointer' = validateInstalledPayload env root pointer := by
  unfold validateInstalledPayload readInstalledManifest
  rw [hlock, hid, hkey]

theorem payloads_placedRoot_of_ne {lock : String} (h : lock ≠ staged.pointer.runtimeLockSha256) :
    (placedRoot staged root).payloads lock = root.payloads lock := by
  unfold placedRoot
  cases staged.payload with
  | none => rfl
  | some payload => exact PackRoot.payloads_setPayload_of_ne h root _ _

theorem payloads_placedRoot_self {payload : Payload β} (h : staged.payload = some payload) :
    (placedRoot staged root).payloads staged.pointer.runtimeLockSha256 staged.pointer.packId =
      some payload := by
  unfold placedRoot
  rw [h]
  exact PackRoot.payloads_setPayload_self _ _ _ _

theorem placedRoot_of_none (h : staged.payload = none) : placedRoot staged root = root := by
  unfold placedRoot
  rw [h]

/-- Payloads that are not displaced stay where they are. -/
theorem payloads_placedRoot {lock : String}
    (hdisplaces : staged.payload.isSome = true → Displaces fault unreadable staged root)
    (hlock : Displaces fault unreadable staged root → lock ≠ staged.pointer.runtimeLockSha256) :
    (placedRoot staged root).payloads lock = root.payloads lock := by
  cases hstaged : staged.payload with
  | none => rw [placedRoot_of_none hstaged]
  | some payload =>
    exact payloads_placedRoot_of_ne (hlock (hdisplaces (by rw [hstaged]; rfl)))

/-- A root with other payloads and pointers only where they do not matter keeps a pointer. -/
theorem resolve_of_payloads {packId lock : String} {previous : Bool} {payload : Payload β}
    (hfile : root'.pointers packId previous = root.pointers packId previous)
    (hplace : root'.payloads lock = root.payloads lock)
    (h : resolve env root packId previous = some (lock, payload)) :
    resolve env root' packId previous = some (lock, payload) :=
  resolve_of_same hfile (congrFun hplace packId) h

variable [LT V] [DecidableLT V] {input : InstallInput β}

/-- No pointer resolves to the payload that was prepared, before it is in its place. -/
theorem resolve_ne_prepared (hlawful : env.Lawful) (hstaged : StagedFrom env input root staged)
    {payload held : Payload β} {previous : Bool} (hpayload : staged.payload = some payload)
    (h : resolve env root staged.pointer.packId previous =
      some (staged.pointer.runtimeLockSha256, held)) : held ≠ payload := by
  rintro rfl
  obtain ⟨verified, -, hpointer, hprepared⟩ := hstaged.verified
  obtain ⟨hprepared, hbroken⟩ := hprepared _ hpayload
  obtain ⟨pointer, hread, hvalid, hlock, hheld⟩ := resolve_eq_some.mp h
  have hid := packId_of_isCurrentPointer (readPointer_eq_ok.mp hread).2.2.1
  have hplace : root.payloads pointer.runtimeLockSha256 pointer.packId = some held := by
    rw [hlock, hid]
    exact hheld
  have hkey := fingerprint_of_prepared hlawful hprepared hplace hvalid
  apply hbroken
  rw [← hvalid]
  apply validateInstalledPayload_of_same hlock.symm hid.symm
  rw [hkey, hpointer]
  rfl

/-- Payloads that are not displaced are where they were. Where one was displaced, there is none
or the one that was prepared. -/
structure Moved (fault : PackSite → Option String) (unreadable : PackRead → Bool)
    (staged : Staged β) (root root' : PackRoot β) : Prop where
  kept : ∀ lock, (Displaces fault unreadable staged root →
    lock ≠ staged.pointer.runtimeLockSha256) → root'.payloads lock = root.payloads lock
  gone : Displaces fault unreadable staged root →
    root'.payloads staged.pointer.runtimeLockSha256 staged.pointer.packId = none ∨
      root'.payloads staged.pointer.runtimeLockSha256 staged.pointer.packId = staged.payload

omit [LT V] [DecidableLT V] in
theorem moved_placedRoot
    (hdisplaces : staged.payload.isSome = true → Displaces fault unreadable staged root) :
    Moved fault unreadable staged root (placedRoot staged root) := by
  refine ⟨fun lock hlock => payloads_placedRoot hdisplaces hlock, ?_⟩
  rintro ⟨hsome, -⟩
  obtain ⟨payload, hpayload⟩ := Option.isSome_iff_exists.mp hsome
  exact .inr ((payloads_placedRoot_self hpayload).trans hpayload.symm)

omit [LT V] [DecidableLT V] in
theorem Failed.moved (h : Failed env fault unreadable staged root root') :
    Moved fault unreadable staged root root' := by
  cases h with
  | unmoved hdisplaces => exact ⟨fun _ _ => rfl, fun h => absurd h hdisplaces⟩
  | lost hdisplaces =>
    refine ⟨fun lock hlock => ?_, fun _ => .inl (PackRoot.payloads_setPayload_self _ _ _ _)⟩
    exact PackRoot.payloads_setPayload_of_ne (hlock hdisplaces) root _ _
  | placed hdisplaces => exact moved_placedRoot hdisplaces
  | overwritten hdisplaces =>
    have hmoved : Moved fault unreadable staged root (placedRoot staged root) :=
      moved_placedRoot hdisplaces
    exact ⟨hmoved.kept, hmoved.gone⟩
  | setAside hdisplaces =>
    have hmoved : Moved fault unreadable staged root (placedRoot staged root) :=
      moved_placedRoot hdisplaces
    exact ⟨hmoved.kept, hmoved.gone⟩

/-- Where a payload was displaced, no pointer resolves to it any more. -/
theorem displaced_of_resolve (hlawful : env.Lawful) (hstaged : StagedFrom env input root staged)
    (hmoved : Moved fault unreadable staged root root')
    (hdisplaces : Displaces fault unreadable staged root) {previous previous' : Bool}
    {held : Payload β}
    (h : resolve env root staged.pointer.packId previous =
      some (staged.pointer.runtimeLockSha256, held)) :
    resolve env root' staged.pointer.packId previous' ≠
      some (staged.pointer.runtimeLockSha256, held) := by
  intro hresolves
  obtain ⟨-, -, -, -, hheld⟩ := resolve_eq_some.mp hresolves
  rcases hmoved.gone hdisplaces with hnone | hsame
  · rw [hnone] at hheld
    cases hheld
  · rw [hsame] at hheld
    exact resolve_ne_prepared hlawful hstaged hheld h rfl

/-- A pointer whose file stays resolves as before unless its payload is displaced. -/
theorem resolve_iff_of_file (hlawful : env.Lawful) (hstaged : StagedFrom env input root staged)
    (hmoved : Moved fault unreadable staged root root') {previous : Bool} {lock : String}
    {held : Payload β}
    (hfile : root'.pointers staged.pointer.packId previous =
      root.pointers staged.pointer.packId previous)
    (h : resolve env root staged.pointer.packId previous = some (lock, held)) :
    resolve env root' staged.pointer.packId previous = some (lock, held) ↔
      (Displaces fault unreadable staged root → lock ≠ staged.pointer.runtimeLockSha256) := by
  constructor
  · rintro hresolves hdisplaces rfl
    exact displaced_of_resolve hlawful hstaged hmoved hdisplaces h hresolves
  · intro hlock
    exact resolve_of_payloads hfile (hmoved.kept lock hlock) h

omit [LT V] [DecidableLT V] in
/-- The pointer files that a failed activation leaves alone. -/
theorem Failed.current_file (h : Failed env fault unreadable staged root root')
    (haside : ¬ SetsAside env fault unreadable staged root) :
    root'.pointers staged.pointer.packId false = root.pointers staged.pointer.packId false := by
  cases h with
  | unmoved => rfl
  | lost => rfl
  | placed => rw [pointers_placedRoot]
  | overwritten =>
    rw [← pointers_placedRoot staged root]
    simp [PackRoot.setPointer]
  | setAside _ _ haside' => exact absurd haside' haside

omit [LT V] [DecidableLT V] in
theorem Failed.previous_file (h : Failed env fault unreadable staged root root')
    (hoverwrites : ¬ Overwrites env fault unreadable staged root) :
    root'.pointers staged.pointer.packId true = root.pointers staged.pointer.packId true := by
  cases h with
  | unmoved => rfl
  | lost => rfl
  | placed => rw [pointers_placedRoot]
  | overwritten _ hoverwrites' => exact absurd hoverwrites' hoverwrites
  | setAside =>
    rw [← pointers_placedRoot staged root]
    simp [PackRoot.setPointer]

omit [LT V] [DecidableLT V] in
/-- A current pointer that was set aside resolves to nothing. -/
theorem Failed.current_aside (h : Failed env fault unreadable staged root root')
    (haside : SetsAside env fault unreadable staged root) :
    resolve env root' staged.pointer.packId false = none := by
  cases h with
  | unmoved _ _ haside' => exact absurd haside haside'
  | lost _ _ haside' => exact absurd haside haside'
  | placed _ _ haside' => exact absurd haside haside'
  | overwritten _ _ haside' => exact absurd haside haside'
  | setAside =>
    unfold resolve readPointer
    rw [PackRoot.pointers_setPointer_self]
    cases validatePackId staged.pointer.packId <;> rfl

omit [LT V] [DecidableLT V] in
/-- A previous pointer that was written over resolves like the current one. -/
theorem Failed.previous_overwritten (hlawful : env.Lawful)
    (h : Failed env fault unreadable staged root root')
    (hoverwrites : Overwrites env fault unreadable staged root) :
    resolve env root' staged.pointer.packId true =
      resolve env root' staged.pointer.packId false := by
  cases h with
  | unmoved _ hoverwrites' => exact absurd hoverwrites hoverwrites'
  | lost _ hoverwrites' => exact absurd hoverwrites hoverwrites'
  | placed _ hoverwrites' => exact absurd hoverwrites hoverwrites'
  | setAside _ hoverwrites' => exact absurd hoverwrites hoverwrites'
  | overwritten _ _ _ old hread =>
    have hprevious : readPointer env ((placedRoot staged root).setPointer staged.pointer.packId true
        (some (env.pointerBytes old))) staged.pointer.packId true = .ok old :=
      readPointer_of_pointerBytes hlawful hread rfl (PackRoot.pointers_setPointer_self _ _ _ _)
    have hcurrent : readPointer env ((placedRoot staged root).setPointer staged.pointer.packId true
        (some (env.pointerBytes old))) staged.pointer.packId false = .ok old := by
      obtain ⟨hid, hbytes, hform, htarget⟩ := readPointer_eq_ok.mp hread
      refine readPointer_eq_ok.mpr ⟨hid, ?_, hform, htarget⟩
      simpa [PackRoot.setPointer] using hbytes
    unfold resolve
    rw [hprevious, hcurrent]

/-- What survives a failed activation is told beforehand. -/
theorem survives_iff (hlawful : env.Lawful) (hstaged : StagedFrom env input root staged)
    (h : Failed env fault unreadable staged root root') :
    Survives env staged.pointer.packId root root' ↔
      Harmless env fault unreadable staged root := by
  constructor
  · intro hsurvives
    refine ⟨fun lock held hresolves => ?_, fun lock held hresolves hoverwrites => ?_,
      fun lock held hresolves hoverwrites => ?_⟩
    · have hafter := hsurvives false lock held hresolves
      have haside : ¬ SetsAside env fault unreadable staged root := by
        intro haside
        rw [h.current_aside haside] at hafter
        cases hafter
      exact ⟨haside, (resolve_iff_of_file hlawful hstaged h.moved (h.current_file haside)
        hresolves).mp hafter⟩
    · have hafter := hsurvives true lock held hresolves
      have hlock : Displaces fault unreadable staged root →
          lock ≠ staged.pointer.runtimeLockSha256 := by
        rintro hdisplaces rfl
        exact displaced_of_resolve hlawful hstaged h.moved hdisplaces hresolves hafter
      rw [h.previous_overwritten hlawful hoverwrites] at hafter
      have haside : ¬ SetsAside env fault unreadable staged root := by
        intro haside
        rw [h.current_aside haside] at hafter
        cases hafter
      exact resolve_of_payloads (h.current_file haside).symm (h.moved.kept lock hlock).symm hafter
    · have hafter := hsurvives true lock held hresolves
      exact (resolve_iff_of_file hlawful hstaged h.moved (h.previous_file hoverwrites)
        hresolves).mp hafter
  · intro hharmless
    have hcurrent : ∀ lock held,
        resolve env root staged.pointer.packId false = some (lock, held) →
          resolve env root' staged.pointer.packId false = some (lock, held) := by
      intro lock held hresolves
      obtain ⟨haside, hlock⟩ := hharmless.current lock held hresolves
      exact (resolve_iff_of_file hlawful hstaged h.moved (h.current_file haside) hresolves).mpr hlock
    intro previous lock held hresolves
    cases previous with
    | false => exact hcurrent lock held hresolves
    | true =>
      by_cases hoverwrites : Overwrites env fault unreadable staged root
      · rw [h.previous_overwritten hlawful hoverwrites]
        exact hcurrent lock held (hharmless.overwritten lock held hresolves hoverwrites)
      · exact (resolve_iff_of_file hlawful hstaged h.moved (h.previous_file hoverwrites)
          hresolves).mpr (hharmless.previous lock held hresolves hoverwrites)

/-- Where a failed activation has replaced the pack, nothing has changed. -/
theorem survives_of_replaced (hlawful : env.Lawful) (hstaged : StagedFrom env input root staged)
    (h : Failed env fault unreadable staged root root')
    (hreplaced : Replaced env staged.pointer.packId staged.pointer.runtimeLockSha256 root root') :
    Survives env staged.pointer.packId root root' := by
  obtain ⟨⟨lock, held⟩, payload, hbefore, hcurrent, hprevious⟩ := hreplaced
  have haside : ¬ SetsAside env fault unreadable staged root := by
    intro haside
    rw [h.current_aside haside] at hcurrent
    cases hcurrent
  obtain rfl := lock_unique (h.current_file haside) hbefore hcurrent
  have hdisplaces : ¬ Displaces fault unreadable staged root := fun hdisplaces =>
    displaced_of_resolve hlawful hstaged h.moved hdisplaces hbefore hprevious
  have hnone : (staged.payload.isSome = true → Displaces fault unreadable staged root) →
      staged.payload = none := by
    intro hsome
    by_contra hpayload
    exact hdisplaces (hsome (Option.isSome_iff_ne_none.mpr hpayload))
  cases h with
  | unmoved => exact .refl _ root
  | lost hdisplaces' => exact absurd hdisplaces' hdisplaces
  | placed hsome =>
    rw [placedRoot_of_none (hnone hsome)]
    exact .refl _ root
  | setAside _ _ haside' => exact absurd haside' haside
  | overwritten hsome =>
    obtain ⟨verified, -, hpointer, -⟩ := hstaged.verified
    obtain ⟨current, hread, -, hlock, -⟩ := resolve_eq_some.mp hbefore
    have hinactive := hstaged.inactive (hnone hsome) current hread
    rw [relativePath_of_isCurrentPointer (readPointer_eq_ok.mp hread).2.2.1, hlock,
      hpointer] at hinactive
    exact absurd rfl hinactive

/-- After a failed install every pointer resolves to the payload that it resolved to before, or
the pack is replaced. -/
def Kept (env : External β K V) (input : InstallInput β) (before after : PackRoot β) : Prop :=
  Survives env input.pack.id before after ∨ ∃ verified, verifyPack env input = .ok verified ∧
    Replaced env input.pack.id verified.manifest.runtimeLockSha256 before after

theorem packId_of_verifyPack {verified : VerifiedPack} (h : verifyPack env input = .ok verified) :
    verified.manifest.packId = input.pack.id := by
  simp only [verifyPack, bind_eq_ok, mapError_eq_ok, pure_eq_ok, validateManifest,
    failIf_eq_ok, not_or, not_not] at h
  obtain ⟨_, -, _, -, _, -, _, -, _, -, _, -, statement, -, manifest, -, _, -, _,
    ⟨_, ⟨-, -, -, hpackId, -⟩, -⟩, _, -, _, -, _, -, rfl⟩ := h
  exact hpackId

theorem kept_iff (hlawful : env.Lawful) (hstaged : StagedFrom env input root staged)
    (h : Failed env fault unreadable staged root root') :
    Kept env input root root' ↔ Harmless env fault unreadable staged root := by
  rw [← survives_iff hlawful hstaged h]
  obtain ⟨verified, hverified, hpointer, -⟩ := hstaged.verified
  have hid : staged.pointer.packId = input.pack.id := by
    rw [hpointer]
    exact packId_of_verifyPack hverified
  unfold Kept
  rw [← hid]
  constructor
  · rintro (hsurvives | ⟨verified', hverified', hreplaced⟩)
    · exact hsurvives
    · obtain rfl := Except.ok.inj (hverified.symm.trans hverified')
      have hlock : staged.pointer.runtimeLockSha256 = verified.manifest.runtimeLockSha256 := by
        rw [hpointer]
        rfl
      rw [← hlock] at hreplaced
      exact survives_of_replaced hlawful hstaged h hreplaced
  · exact .inl

omit [LT V] [DecidableLT V] in
theorem rollbackReading_spec {packId : String} :
    Ensures (rollbackReading env fault unreadable packId) root (fun _ _ => True)
      (fun _ t => t = root) := by
  unfold rollbackReading
  apply ensures_bind.mpr
  apply ensures_state.mpr
  apply ensures_bind.mpr
  apply ensures_ofExcept.mpr
  refine ⟨fun previous _ => ?_, fun _ _ => rfl⟩
  apply ensures_bind.mpr
  apply ensures_ofExcept.mpr
  refine ⟨fun _ _ => ?_, fun _ _ => rfl⟩
  apply ensures_bind.mpr
  apply ensures_ofExcept.mpr
  refine ⟨fun _ _ => ?_, fun _ _ => rfl⟩
  apply fileOp_exact.bind (fun _ _ h => h.1)
  exact fun _ _ _ => ensures_pure.mpr trivial

/-- A failed install keeps what the pointers resolve to exactly when its activation, if it gets
to one, is harmless. A failed rollback always does. -/
theorem failed_activation_kept_iff (hlawful : env.Lawful) :
    (∀ input root root' e,
      installVerifiedPackReading env fault unreadable input root = (.error e, root') →
      (Kept env input root root' ↔ ∀ staged root'',
        stagePack env fault input root = (.ok staged, root'') →
          Harmless env fault unreadable staged root)) ∧
    ∀ packId root root' e, rollbackReading env fault unreadable packId root = (.error e, root') →
      ∀ id, Survives env id root root' := by
  constructor
  · intro input root root' e hrun
    rcases hstage : stagePack env fault input root with ⟨e' | staged, t⟩
    · have hsame : installVerifiedPackReading env fault unreadable input root = (.error e', t) := by
        simp only [installVerifiedPackReading, bind, hstage]
      rw [hsame, stagePack_spec.of_eq_error hstage] at hrun
      cases hrun
      refine ⟨fun _ _ _ h => ?_, fun _ => .inl (.refl _ root)⟩
      cases h
    · obtain ⟨rfl, hstaged⟩ := stagePack_spec.of_eq_ok hstage
      have hactivate : activateStaged env fault unreadable staged t = (.error e, root') := by
        simpa only [installVerifiedPackReading, bind, hstage] using hrun
      rw [kept_iff hlawful hstaged (activateStaged_spec.of_eq_error hactivate)]
      constructor
      · rintro hharmless _ _ ⟨rfl, rfl⟩
        exact hharmless
      · exact fun hharmless => hharmless staged t rfl
  · intro packId root root' e hrun id
    rw [rollbackReading_spec.of_eq_error hrun]
    exact .refl id root

end Keeping

/-! ## Activating a payload that is there -/

section Reactivating

variable {β K V : Type} {env : External β K V} {fault : PackSite → Option String}
  {unreadable : PackRead → Bool} {root root' : PackRoot β} {e : MediaPackError}

theorem fileOp_of_none {site : PackSite} {f : PackRoot β → PackRoot β} (h : fault site = none) :
    fileOp fault site f root = (.ok (), f root) := by
  unfold fileOp
  rw [h]
  rfl

theorem fileOp_of_some {site : PackSite} {f : PackRoot β → PackRoot β} {text : String}
    (h : fault site = some text) : fileOp fault site f root = (.error (.io text), root) := by
  unfold fileOp
  rw [h]
  rfl

/-- The previous pointer cannot be written. -/
theorem activatePointer_previous_fails {pointer old : CurrentPointer} {text : String}
    (hold : readPointer env root pointer.packId false = .ok old)
    (hfault : fault .writePrevious = some text) :
    activatePointer env fault pointer root = (.error (.io text), root) := by
  obtain ⟨-, ⟨bytes, hbytes, -⟩, -⟩ := readPointer_eq_ok.mp hold
  unfold activatePointer
  rw [Program.bind_of_eq_ok (show state root = (.ok root, root) from rfl)]
  simp only [hbytes, Option.isSome_some, if_true, hold]
  exact Program.bind_of_eq_error (fileOp_of_some hfault)

/-- The previous pointer is written, the current one cannot be. -/
theorem activatePointer_current_fails {pointer old : CurrentPointer} {text : String}
    (hold : readPointer env root pointer.packId false = .ok old)
    (hprevious : fault .writePrevious = none) (hfault : fault .writeCurrent = some text) :
    activatePointer env fault pointer root =
      (.error (.io text), root.setPointer pointer.packId true (some (env.pointerBytes old))) := by
  obtain ⟨-, ⟨bytes, hbytes, -⟩, -⟩ := readPointer_eq_ok.mp hold
  unfold activatePointer
  rw [Program.bind_of_eq_ok (show state root = (.ok root, root) from rfl)]
  simp only [hbytes, Option.isSome_some, if_true, hold]
  rw [Program.bind_of_eq_ok (fileOp_of_none hprevious)]
  exact fileOp_of_some hfault

variable [LT V] [DecidableLT V] {input : InstallInput β} {verified : VerifiedPack}

/-- A payload that is all right and not active is only to be activated. -/
theorem stagePack_of_intact (hverified : verifyPack env input = .ok verified)
    (hroot : fault .ensureInstallRoot = none) (hlock : fault .ensureLockRoot = none)
    (hintact : validateInstalledPayload env root (installPointer env input verified.manifest) =
      .ok ()) {current : CurrentPointer}
    (hcurrent : readPointer env root verified.manifest.packId false = .ok current)
    (hinactive : current.relativePath ≠ (installPointer env input verified.manifest).relativePath) :
    stagePack env fault input root =
      (.ok ⟨installPointer env input verified.manifest, none⟩, root) := by
  have hverify : Program.ofExcept (verifyPack env input) root = (.ok verified, root) := by
    rw [hverified]
    rfl
  have hpath : (current.relativePath ==
      (installPointer env input verified.manifest).relativePath) = false :=
    beq_eq_false_iff_ne.mpr hinactive
  unfold stagePack
  rw [Program.bind_of_eq_ok hverify]
  dsimp only
  rw [Program.bind_of_eq_ok (fileOp_of_none hroot), Program.bind_of_eq_ok (fileOp_of_none hlock),
    Program.bind_of_eq_ok (show state (id (id root)) = (.ok root, root) from rfl), if_pos hintact]
  simp only [hcurrent, hpath]
  rfl

/-- Where there is nothing to move, an install fails with its pointers. -/
theorem install_of_activatePointer {pointer : CurrentPointer}
    (hstage : stagePack env fault input root = (.ok ⟨pointer, none⟩, root))
    (hactivate : activatePointer env fault pointer root = (.error e, root')) :
    installVerifiedPackReading env fault allReadable input root = (.error e, root') := by
  unfold installVerifiedPackReading
  rw [Program.bind_of_eq_ok hstage]
  unfold activateStaged moveStaged
  rw [Program.pure_bind, activatePointerReading_allReadable]
  exact Program.bind_of_eq_error hactivate

end Reactivating

/-! ## Writing pointers to a full disk -/

namespace Sample

theorem env_lawful : env.Lawful where
  parsePointer_pointerBytes _ := rfl
  parseReceipt_receiptBytes _ := rfl
  length_pointerBytes _ _ _ _ := ⟨by simp [env], by simp [env, maxPointerBytes]⟩

/-- One file operation fails. -/
def failsAt (site : PackSite) : PackSite → Option String := fun s =>
  if s = site then some "disk full" else none

theorem payloads_afterSecond (second : Bool) :
    afterSecond.payloads (lock second) "preview" = some (installed second) := by
  unfold afterSecond
  rw [payloads_activated]
  cases second with
  | true => exact PackRoot.payloads_setPayload_self _ _ _ _
  | false =>
    rw [PackRoot.payloads_setPayload_of_ne lock_ne]
    exact payloads_afterFirst.2

theorem resolve_pointer {root : PackRoot Content} {previous second : Bool}
    (hfile : root.pointers "preview" previous = some (.pointer (pointer second)))
    (hplace : root.payloads (lock second) "preview" = some (installed second)) :
    resolve env root "preview" previous = some (lock second, installed second) :=
  resolve_eq_some.mpr ⟨_, readPointer_pointer hfile hplace, intact_installed hplace, rfl, hplace⟩

theorem resolve_afterSecond (previous : Bool) :
    resolve env afterSecond "preview" previous =
      some (lock (!previous), installed (!previous)) := by
  cases previous with
  | false => exact resolve_pointer current_broken (payloads_afterSecond true)
  | true => exact resolve_pointer previous_broken (payloads_afterSecond false)

/-- The first release is intact and not active, so that it is only to be activated. -/
def staged : Staged Content := ⟨pointer false, none⟩

theorem readPointer_afterSecond :
    readPointer env afterSecond "preview" false = .ok (pointer true) :=
  readPointer_pointer current_broken (payloads_afterSecond true)

theorem stagePack_input {fault : PackSite → Option String} (hroot : fault .ensureInstallRoot = none)
    (hlock : fault .ensureLockRoot = none) :
    stagePack env fault (input false) afterSecond = (.ok staged, afterSecond) :=
  stagePack_of_intact (verifyPack_input false) hroot hlock
    (intact_installed (payloads_afterSecond false)) readPointer_afterSecond
    fun h => lock_ne (relativePath_injective "preview" h).symm

/-- The root after the previous pointer was written over. -/
def overwritten : PackRoot Content :=
  afterSecond.setPointer "preview" true (some (.pointer (pointer true)))

theorem not_displaces {fault : PackSite → Option String} :
    ¬ Displaces fault allReadable staged afterSecond :=
  fun h => Bool.noConfusion h.1

/-- The previous pointer cannot be written: it stays what it was, and so does the current one. -/
theorem failed_activation_kept_iff_previous :
    installVerifiedPackReading env (failsAt .writePrevious) allReadable (input false) afterSecond =
      (.error (.io "disk full"), afterSecond) ∧
    Kept env (input false) afterSecond afterSecond := by
  have hactivate : activatePointer env (failsAt .writePrevious) (pointer false) afterSecond =
      (.error (.io "disk full"), afterSecond) :=
    activatePointer_previous_fails readPointer_afterSecond rfl
  have hrun := install_of_activatePointer (stagePack_input rfl rfl) hactivate
  refine ⟨hrun, ((failed_activation_kept_iff env_lawful).1 _ _ _ _ hrun).mpr ?_⟩
  intro found root hstage
  rw [stagePack_input rfl rfl] at hstage
  cases hstage
  have hread : readPointer env (placedRoot staged afterSecond) "preview" false = .ok (pointer true) :=
    readPointer_pointer current_broken (payloads_afterSecond true)
  refine ⟨fun _ _ _ => ⟨?_, fun h => absurd h not_displaces⟩, fun _ _ _ h => ?_,
    fun _ _ _ _ h => absurd h not_displaces⟩
  · rintro ⟨-, -, -, hunread | hnone, -⟩
    · cases hunread
    · exact hnone ⟨_, hread⟩
  · cases h.2.2.2.2

/-- The previous pointer is written over, and then the current one cannot be written: what the
previous one resolved to is lost. -/
theorem history_lost_on_failure :
    installVerifiedPackReading env (failsAt .writeCurrent) allReadable (input false) afterSecond =
      (.error (.io "disk full"), overwritten) ∧
    resolve env afterSecond "preview" true = some (lock false, installed false) ∧
    resolve env overwritten "preview" true = some (lock true, installed true) ∧
    ¬ Kept env (input false) afterSecond overwritten := by
  have hplace : overwritten.payloads (lock true) "preview" = some (installed true) :=
    payloads_afterSecond true
  have hprevious : resolve env overwritten "preview" true = some (lock true, installed true) :=
    resolve_pointer (PackRoot.pointers_setPointer_self _ _ _ _) hplace
  have hcurrent : resolve env overwritten "preview" false = some (lock true, installed true) := by
    apply resolve_pointer _ hplace
    rw [← current_broken]
    simp [overwritten, PackRoot.setPointer, broken]
  have hactivate : activatePointer env (failsAt .writeCurrent) (pointer false) afterSecond =
      (.error (.io "disk full"), overwritten) :=
    activatePointer_current_fails readPointer_afterSecond rfl rfl
  refine ⟨install_of_activatePointer (stagePack_input rfl rfl) hactivate, resolve_afterSecond true,
    hprevious, ?_⟩
  rintro (hsurvives | ⟨verified, hverified, old, payload, -, hafter, -⟩)
  · have hlost := (hsurvives true _ _ (resolve_afterSecond true)).symm.trans hprevious
    exact lock_ne (Prod.mk.inj (Option.some.inj hlost)).1
  · rw [verifyPack_input] at hverified
    cases hverified
    have hsame := hcurrent.symm.trans hafter
    exact lock_ne (Prod.mk.inj (Option.some.inj hsame)).1.symm

end Sample

end Useful.Media
