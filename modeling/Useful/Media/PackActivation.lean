/-
# Activating media packs

What an install and a rollback do. An install succeeds in two ways: it activates an
intact payload, or it puts one into place and activates that. Either way the current
pointer, if it can be read, becomes the previous one.
-/

import Useful.Media.PackStore

namespace Useful.Media

open Useful.Math Useful.Math.Program

section Reading

variable {β K V : Type} {env : External β K V} {root : PackRoot β}

theorem validatePointer_eq_ok {pointer : CurrentPointer} {packId : String} {r : Unit} :
    validatePointer root pointer packId = .ok r ↔ isCurrentPointer pointer packId = true ∧
      ∃ target, root.payloads pointer.runtimeLockSha256 packId = some target ∧
        isFile target "INSTALLED.json" = true := by
  simp only [validatePointer, bind_eq_ok, failIf_eq_ok, orFail_eq_ok, exists_const,
    Bool.not_eq_false]

/-- A pointer is read when the file holds one, of the right form, and its target has a
receipt. -/
theorem readPointer_eq_ok {packId : String} {previous : Bool} {pointer : CurrentPointer} :
    readPointer env root packId previous = .ok pointer ↔
      validatePackId packId = .ok () ∧
      (∃ bytes, root.pointers packId previous = some bytes ∧
        parsePointerFile env bytes = .ok pointer) ∧
      isCurrentPointer pointer packId = true ∧
      ∃ target, root.payloads pointer.runtimeLockSha256 packId = some target ∧
        isFile target "INSTALLED.json" = true := by
  simp only [readPointer, bind_eq_ok, orFail_eq_ok, pure_eq_ok, validatePointer_eq_ok]
  constructor
  · intro h
    obtain ⟨_, hid, bytes, hbytes, pointer', hparse, _, ⟨hform, htarget⟩, rfl⟩ := h
    exact ⟨hid, ⟨bytes, hbytes, hparse⟩, hform, htarget⟩
  · intro h
    obtain ⟨hid, ⟨bytes, hbytes, hparse⟩, hform, htarget⟩ := h
    exact ⟨⟨⟩, hid, bytes, hbytes, pointer, hparse, ⟨⟩, ⟨hform, htarget⟩, rfl⟩

/-- A payload whose files are all right has a receipt. -/
theorem isFile_of_validateInstalledPayload {pointer : CurrentPointer}
    (h : validateInstalledPayload env root pointer = .ok ()) :
    ∃ target, root.payloads pointer.runtimeLockSha256 pointer.packId = some target ∧
      isFile target "INSTALLED.json" = true := by
  simp only [validateInstalledPayload, readInstalledManifest, bind_eq_ok, orFail_eq_ok] at h
  obtain ⟨_, ⟨target, htarget, _, -, _, -, _, -, _, -, _, -, receipt, hreceipt, -⟩, -⟩ := h
  refine ⟨target, htarget, ?_⟩
  unfold readFile at hreceipt
  split at hreceipt
  · rename_i content hfile
    simp [isFile, hfile]
  · cases hreceipt
  · cases hreceipt

theorem relativePath_injective (packId : String) :
    Function.Injective fun lock => relativePath lock packId := by
  intro lock lock' heq
  have hlist := congrArg String.toList heq
  simp only [relativePath, toString, String.toList_append, List.append_assoc,
    List.append_cancel_right_eq] at hlist
  exact String.toList_inj.mp hlist

/-- The path of a pointer of the right form is that of its runtime lock. -/
theorem relativePath_of_isCurrentPointer {packId : String} {pointer : CurrentPointer}
    (h : isCurrentPointer pointer packId = true) :
    pointer.relativePath = relativePath pointer.runtimeLockSha256 packId := by
  simp only [isCurrentPointer, Bool.and_eq_true, beq_iff_eq] at h
  exact h.2

end Reading

/-! ## What successful calls do -/

section Calls

variable {β K V : Type} (env : External β K V)

/-- The root after an activation: the current pointer, if it is read, becomes the
previous one. -/
def activated (root : PackRoot β) (pointer : CurrentPointer) : PackRoot β :=
  (match readPointer env root pointer.packId false with
    | .ok old => root.setPointer pointer.packId true (some (env.pointerBytes old))
    | .error _ => root).setPointer pointer.packId false (some (env.pointerBytes pointer))

variable {env} {fault : PackSite → Option String} {root : PackRoot β}

theorem payloads_activated (root : PackRoot β) (pointer : CurrentPointer) :
    (activated env root pointer).payloads = root.payloads := by
  unfold activated
  cases readPointer env root pointer.packId false <;> rfl

/-- The retired pointer becomes the previous one; without one, the previous stays. -/
theorem previous_activated (root : PackRoot β) (pointer : CurrentPointer) :
    (activated env root pointer).pointers pointer.packId true =
      match readPointer env root pointer.packId false with
      | .ok old => some (env.pointerBytes old)
      | .error _ => root.pointers pointer.packId true := by
  unfold activated
  cases readPointer env root pointer.packId false <;> simp

theorem previous_of_readPointer (pointer : CurrentPointer) {old : CurrentPointer}
    (h : readPointer env root pointer.packId false = .ok old) :
    (activated env root pointer).pointers pointer.packId true = some (env.pointerBytes old) := by
  rw [previous_activated, h]

theorem current_activated (root : PackRoot β) (pointer : CurrentPointer) :
    (activated env root pointer).pointers pointer.packId false = some (env.pointerBytes pointer) :=
  PackRoot.pointers_setPointer_self _ _ _ _

/-- A prepared payload has a receipt. -/
theorem isFile_of_preparePayload {input : InstallInput β} {verified : VerifiedPack} {payload : Payload β}
    (h : preparePayload env input verified = .ok payload) :
    isFile payload "INSTALLED.json" = true := by
  simp only [preparePayload, bind_eq_ok, pure_eq_ok] at h
  obtain ⟨extracted, -, rfl⟩ := h
  simp [isFile]

/-- Some file operation fails. -/
def Faulty (fault : PackSite → Option String) : Prop := ∃ site text, fault site = some text

theorem fileOp_spec {site : PackSite} {f : PackRoot β → PackRoot β} :
    Ensures (fileOp fault site f) root (fun _ t => t = f root) (fun _ _ => Faulty fault) := by
  unfold fileOp
  split
  · rename_i text hfault
    exact ensures_fail.mpr ⟨site, text, hfault⟩
  · exact ensures_modify.mpr rfl

theorem skip_spec {site : PackSite} :
    Ensures (fileOp fault site id) root (fun _ t => t = root) (fun _ _ => Faulty fault) :=
  fileOp_spec

theorem activatePointer_spec {pointer : CurrentPointer} :
    Ensures (activatePointer env fault pointer) root (fun _ t => t = activated env root pointer)
      (fun _ _ => Faulty fault) := by
  unfold activatePointer activated
  apply ensures_bind.mpr
  apply ensures_state.mpr
  by_cases hexists : (root.pointers pointer.packId false).isSome = true
  · rw [if_pos hexists]
    cases readPointer env root pointer.packId false with
    | ok old =>
        apply Ensures.bind fileOp_spec fun _ _ => id
        intro _ t ht
        rw [ht]
        exact fileOp_spec
    | error e =>
        apply Ensures.bind fileOp_spec fun _ _ => id
        intro _ t ht
        rw [ht]
        apply fileOp_spec.imp _ fun _ _ => id
        intro _ t ht
        rw [ht, PackRoot.setPointer_setPointer]
  · rw [if_neg hexists]
    have hnone : root.pointers pointer.packId false = none := by
      simpa using hexists
    cases hread : readPointer env root pointer.packId false with
    | ok old =>
        obtain ⟨-, ⟨bytes, hbytes, -⟩, -⟩ := readPointer_eq_ok.mp hread
        rw [hnone] at hbytes
        cases hbytes
    | error e => exact fileOp_spec

theorem moveTarget_spec {lock packId : String} {payload : Payload β}
    {damaged : Option (Payload β)} :
    Ensures (moveTarget fault lock packId payload damaged) root
      (fun _ t => t = root.setPayload lock packId (some payload)) (fun _ _ => Faulty fault) := by
  unfold moveTarget
  apply ensures_bind.mpr
  apply ensures_attempt.mpr
  apply fileOp_spec.imp
  · intro _ t ht
    exact ensures_pure.mpr ht
  · intro error t hfaulty
    cases damaged with
    | none => exact ensures_fail.mpr hfaulty
    | some damaged =>
        apply ensures_bind.mpr
        apply ensures_attempt.mpr
        exact fileOp_spec.imp (fun _ _ _ => hfaulty) fun _ _ _ => hfaulty

theorem moveIntoPlace_spec {lock packId : String} {payload : Payload β} :
    Ensures (moveIntoPlace fault lock packId payload) root
      (fun _ t => t = root.setPayload lock packId (some payload)) (fun _ _ => Faulty fault) := by
  unfold moveIntoPlace
  apply ensures_bind.mpr
  apply ensures_state.mpr
  by_cases hexists : (root.payloads lock packId).isSome = true
  · rw [if_pos hexists]
    apply Ensures.bind fileOp_spec fun _ _ => id
    intro _ t ht
    rw [ht]
    apply moveTarget_spec.imp _ fun _ _ => id
    intro _ t ht
    rw [ht, PackRoot.setPayload_setPayload]
  · rw [if_neg hexists]
    exact moveTarget_spec

/-- A rollback to the pack that is active already finds no previous one. -/
theorem rollback_eq_noPrevious {packId : String} {previous current : CurrentPointer}
    (hprevious : readPointer env root packId true = .ok previous)
    (hcurrent : readPointer env root packId false = .ok current)
    (hsame : current.relativePath = previous.relativePath) :
    rollback env fault packId root = (.error (.noPrevious packId), root) := by
  have hactive : (current.relativePath == previous.relativePath) = true := by
    rw [hsame]
    exact beq_self_eq_true _
  simp only [rollback, hprevious, hcurrent, hactive, bind, state, Except.mapError, Program.ofExcept,
    failIf]
  cases validateInstalledPayload env root previous <;> rfl

variable [LT V] [DecidableLT V]

/-- The two ways an install succeeds: an intact payload that is not active is activated
again, or a payload is put into place and activated. -/
inductive Installs (env : External β K V) (input : InstallInput β) (root : PackRoot β) :
    CurrentPointer → PackRoot β → Prop
  | reactivate (verified : VerifiedPack) (hverified : verifyPack env input = .ok verified)
      (intact : validateInstalledPayload env root
        (installPointer env input verified.manifest) = .ok ())
      (inactive : ∀ current, readPointer env root verified.manifest.packId false = .ok current →
        current.relativePath ≠ (installPointer env input verified.manifest).relativePath) :
      Installs env input root (installPointer env input verified.manifest)
        (activated env root (installPointer env input verified.manifest))
  | replace (verified : VerifiedPack) (hverified : verifyPack env input = .ok verified)
      (payload : Payload β) (prepared : preparePayload env input verified = .ok payload) :
      Installs env input root (installPointer env input verified.manifest)
        (activated env (root.setPayload verified.manifest.runtimeLockSha256
          verified.manifest.packId (some payload))
          (installPointer env input verified.manifest))

variable {input : InstallInput β} {verified : VerifiedPack}

/-- An intact payload is only activated, unless it is active already. -/
theorem installVerifiedPack_intact (hverified : verifyPack env input = .ok verified)
    (intact : validateInstalledPayload env root
      (installPointer env input verified.manifest) = .ok ()) :
    Ensures (installVerifiedPack env fault input) root (Installs env input root)
      (fun _ _ => True) := by
  unfold installVerifiedPack
  rw [hverified]
  apply ensures_bind.mpr
  apply ensures_pure.mpr
  apply Ensures.bind skip_spec fun _ _ _ => trivial
  intro _ t ht
  rw [ht]
  apply Ensures.bind skip_spec fun _ _ _ => trivial
  intro _ t ht
  rw [ht]
  apply ensures_bind.mpr
  apply ensures_state.mpr
  rw [if_pos intact]
  apply ensures_bind.mpr
  apply ensures_ofExcept.mpr
  refine ⟨?_, fun _ _ => trivial⟩
  intro _ hinactive
  apply Ensures.bind activatePointer_spec fun _ _ _ => trivial
  intro _ t ht
  apply ensures_pure.mpr
  rw [ht]
  apply Installs.reactivate verified hverified intact
  intro current hcurrent heq
  simp only [failIf_eq_ok, hcurrent, heq, beq_self_eq_true, not_true] at hinactive

/-- Anything else is replaced, if the archive holds the payload and no file operation
fails. -/
theorem installVerifiedPack_broken (hverified : verifyPack env input = .ok verified)
    (broken : validateInstalledPayload env root
      (installPointer env input verified.manifest) ≠ .ok ()) :
    Ensures (installVerifiedPack env fault input) root (Installs env input root)
      (fun _ _ => Faulty fault ∨ ∃ e, preparePayload env input verified = .error e) := by
  have hfaulty : ∀ (e : MediaPackError) (t : PackRoot β), Faulty fault →
      Faulty fault ∨ ∃ e, preparePayload env input verified = .error e := fun _ _ => .inl
  unfold installVerifiedPack
  rw [hverified]
  apply ensures_bind.mpr
  apply ensures_pure.mpr
  apply Ensures.bind skip_spec hfaulty
  intro _ t ht
  rw [ht]
  apply Ensures.bind skip_spec hfaulty
  intro _ t ht
  rw [ht]
  apply ensures_bind.mpr
  apply ensures_state.mpr
  rw [if_neg broken]
  apply Ensures.bind skip_spec hfaulty
  intro _ t ht
  rw [ht]
  apply Ensures.bind skip_spec hfaulty
  intro _ t ht
  rw [ht]
  apply ensures_bind.mpr
  apply ensures_ofExcept.mpr
  refine ⟨?_, fun e he => .inr ⟨e, he⟩⟩
  intro payload hprepared
  apply Ensures.bind skip_spec hfaulty
  intro _ t ht
  rw [ht]
  apply Ensures.bind skip_spec hfaulty
  intro _ t ht
  rw [ht]
  apply Ensures.bind skip_spec hfaulty
  intro _ t ht
  rw [ht]
  apply Ensures.bind moveIntoPlace_spec hfaulty
  intro _ t ht
  rw [ht]
  apply Ensures.bind activatePointer_spec hfaulty
  intro _ t ht
  apply ensures_pure.mpr
  rw [ht]
  exact Installs.replace verified hverified payload hprepared

theorem installVerifiedPack_spec :
    Ensures (installVerifiedPack env fault input) root (Installs env input root)
      (fun _ _ => True) := by
  cases hverified : verifyPack env input with
  | error e =>
      unfold installVerifiedPack
      rw [hverified]
      exact ensures_bind.mpr (ensures_fail.mpr trivial)
  | ok verified =>
      by_cases intact : validateInstalledPayload env root
          (installPointer env input verified.manifest) = .ok ()
      · exact installVerifiedPack_intact hverified intact
      · exact (installVerifiedPack_broken hverified intact).imp (fun _ _ => id)
          fun _ _ _ => trivial

end Calls

end Useful.Media
