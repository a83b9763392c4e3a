/-
# Histories of accepted TUF state

The write lock makes the store's interleavings harmless: while a connection is
inside `accept_trp_tuf_state`, its working copy belongs to the table it began
with and nobody else can publish. From what one step keeps follows, for whole
histories, that stored versions never decrease and never change their digests,
that a failed call changes nothing, and that a successful one replaces an enabled
row of the expected identity by the candidate.
-/

import Useful.Core.TufState

namespace Useful.Core

open Useful.Math

namespace Store

/-! ## The lock -/

theorem workingOf_moveTo (s : Store) (c d : Nat) (p : Phase) :
    (s.moveTo c p).workingOf d = s.workingOf d :=
  rfl

theorem workingOf_eq_none {s : Store} (free : s.writer = none) (d : Nat) :
    s.workingOf d = none := by
  rw [workingOf, free]

/-- Only one connection holds the lock. -/
theorem workingOf_eq_none_of_ne {s : Store} {c d : Nat} {working : Sources}
    (holds : s.workingOf c = some working) (hne : d ≠ c) : s.workingOf d = none := by
  unfold workingOf at holds ⊢
  cases hwriter : s.writer with
  | none => rfl
  | some writer =>
      rw [hwriter] at holds
      by_cases hc : writer.1 = c
      · exact if_neg fun hd => hne (hd.symm.trans hc)
      · exact absurd holds (by simp [hc])

/-! ## The invariant -/

/-- How a connection's working copy relates to the committed table in each phase. -/
def Agrees (committed : Sources) : Phase → Option Sources → Prop
  | .idle, none => True
  | .inTransaction, some working => committed.Advances working
  | .accepting _, some working => working = committed
  | .closing call (.ok ()), some working => committed.Accepts call working
  | .closing _ (.error _), some working => working = committed
  | _, _ => False

/-- Every connection agrees with the committed table. -/
def Valid (s : Store) : Prop :=
  ∀ c, Agrees s.committed (s.phase c) (s.workingOf c)

theorem Initial.valid {s : Store} (h : s.Initial) : s.Valid := by
  intro c
  rw [h.idle c, workingOf_eq_none h.free c]
  trivial

/-- A connection without the lock is idle. -/
theorem Valid.idle_of_none {s : Store} (hs : s.Valid) {d : Nat}
    (hnone : s.workingOf d = none) : s.phase d = .idle := by
  have hagrees := hs d
  rw [hnone] at hagrees
  unfold Agrees at hagrees
  split at hagrees
  · assumption
  all_goals simp_all

/-- While one connection holds the lock, the others are idle. -/
theorem Valid.idle_of_ne {s : Store} (hs : s.Valid) {c d : Nat} {working : Sources}
    (holds : s.workingOf c = some working) (hne : d ≠ c) : s.phase d = .idle :=
  hs.idle_of_none (workingOf_eq_none_of_ne holds hne)

/-- If only one connection moves, and no other has or gets the lock, it is enough
that this one agrees afterwards. -/
theorem Valid.of_one {s t : Store} (hs : s.Valid) (c : Nat)
    (hbefore : ∀ d, d ≠ c → s.workingOf d = none)
    (hphase : ∀ d, d ≠ c → t.phase d = s.phase d)
    (hafter : ∀ d, d ≠ c → t.workingOf d = none)
    (hc : Agrees t.committed (t.phase c) (t.workingOf c)) : t.Valid := by
  intro d
  by_cases hd : d = c
  · exact hd ▸ hc
  · rw [hphase d hd, hafter d hd, hs.idle_of_none (hbefore d hd)]
    trivial

/-- The agreement of a connection that holds the lock. -/
theorem Valid.agrees {s : Store} (hs : s.Valid) {c : Nat} {p : Phase} {working : Sources}
    (hphase : s.phase c = p) (holds : s.workingOf c = some working) :
    Agrees s.committed p (some working) := by
  rw [← hphase, ← holds]
  exact hs c

/-- A connection that is not idle holds the lock. -/
theorem Valid.holds {s : Store} (hs : s.Valid) {c : Nat} (hphase : s.phase c ≠ .idle) :
    ∃ working, s.workingOf c = some working := by
  cases hworking : s.workingOf c with
  | none => exact absurd (hs.idle_of_none hworking) hphase
  | some working => exact ⟨working, rfl⟩

theorem Valid.beginImmediate {s : Store} (hs : s.Valid) (free : s.writer = none) (c : Nat)
    {p : Phase} (hc : Agrees s.committed p (some s.committed)) :
    (s.beginImmediate c p).Valid := by
  apply hs.of_one c
  · intro d _
    exact workingOf_eq_none free d
  · intro d hd
    exact Function.update_of_ne hd _ _
  · intro d hd
    exact if_neg (Ne.symm hd)
  · simpa [workingOf, Store.beginImmediate] using hc

theorem Valid.write {s : Store} (hs : s.Valid) {c : Nat} {working : Sources}
    (holds : s.workingOf c = some working) {working' : Sources}
    (hc : Agrees s.committed (s.phase c) (some working')) : (s.write c working').Valid := by
  apply hs.of_one c
  · intro d hd
    exact workingOf_eq_none_of_ne holds hd
  · intro d _
    rfl
  · intro d hd
    exact if_neg (Ne.symm hd)
  · simpa [workingOf, Store.write] using hc

theorem Valid.writeMove {s : Store} (hs : s.Valid) {c : Nat} {working : Sources}
    (holds : s.workingOf c = some working) {working' : Sources} {p : Phase}
    (hc : Agrees s.committed p (some working')) : ((s.write c working').moveTo c p).Valid := by
  apply hs.of_one c
  · intro d hd
    exact workingOf_eq_none_of_ne holds hd
  · intro d hd
    exact Function.update_of_ne hd _ _
  · intro d hd
    exact if_neg (Ne.symm hd)
  · simpa [workingOf, Store.write, Store.moveTo] using hc

/-- Releasing the lock leaves every connection idle, whatever table is committed. -/
theorem Valid.release {s : Store} (hs : s.Valid) {c : Nat} {working : Sources}
    (holds : s.workingOf c = some working) (rows : Sources) : (s.commit c rows).Valid := by
  apply hs.of_one c
  · intro d hd
    exact workingOf_eq_none_of_ne holds hd
  · intro d hd
    exact Function.update_of_ne hd _ _
  · intro d _
    rfl
  · simp [Store.commit, workingOf, Agrees]

theorem Valid.rollback {s : Store} (hs : s.Valid) {c : Nat} (hphase : s.phase c ≠ .idle) :
    (s.rollback c).Valid := by
  obtain ⟨working, holds⟩ := hs.holds hphase
  exact hs.release holds s.committed

end Store

open Store

/-- Every step keeps the invariant. -/
theorem valid_step {s t : Store} {e : Event} (hs : s.Valid) (h : Step s e t) : t.Valid := by
  cases h with
  | begin_ idle free => exact hs.beginImmediate free _ (.refl _)
  | acceptInTransaction inside holds accepted =>
      have hadvances : s.committed.Advances _ := hs.agrees inside holds
      have haccepts := (acceptTrpTufStateInTransaction_eq_ok.mp accepted).2.2
      apply hs.write holds
      rw [inside]
      exact hadvances.trans haccepts.advances
  | refuseInTransaction _ _ _ => exact hs
  | commit _ holds => exact hs.release holds _
  | rollback inside => exact hs.rollback (by simp [inside])
  | accept _ free => exact hs.beginImmediate free _ rfl
  | acceptBusy _ => exact hs
  | acceptBody inside holds accepted =>
      have hsame : _ = s.committed := hs.agrees inside holds
      have haccepts := (acceptTrpTufStateInTransaction_eq_ok.mp accepted).2.2
      apply hs.writeMove holds
      exact hsame ▸ haccepts
  | @refuseBody c call _ working e inside holds _ =>
      have hsame : working = s.committed := hs.agrees inside holds
      apply hs.of_one c
      · intro d hd
        exact workingOf_eq_none_of_ne holds hd
      · intro d hd
        exact Function.update_of_ne hd _ _
      · intro d hd
        exact workingOf_eq_none_of_ne holds hd
      · rw [workingOf_moveTo, holds]
        simpa [moveTo, Agrees] using hsame
  | closeCommit _ holds => exact hs.release holds _
  | closeFault inside => exact hs.rollback (by simp [inside])
  | closeError inside => exact hs.rollback (by simp [inside])
  | @setEnabled c sourceId enabled _ free =>
      apply hs.of_one c
      · intro d _
        exact workingOf_eq_none free d
      · intro d _
        rfl
      · intro d _
        exact workingOf_eq_none free d
      · have hnone : s.workingOf c = none := workingOf_eq_none free c
        show Agrees _ (s.phase c) (s.workingOf c)
        rw [hs.idle_of_none hnone, hnone]
        trivial
  | setEnabledInTransaction inside holds =>
      have hadvances : s.committed.Advances _ := hs.agrees inside holds
      apply hs.write holds
      rw [inside]
      exact hadvances.trans (setEnabled_advances _ _ _)
  | refused => exact hs

theorem valid_of_reachable {s : Store} (hs : Reachable Store.Initial Step s) : s.Valid :=
  hs.invariant (fun _ hinit => hinit.valid) fun _ _ _ hvalid hstep => valid_step hvalid hstep

/-- Every step advances the committed table. -/
theorem committed_step {s t : Store} {e : Event} (hs : s.Valid) (h : Step s e t) :
    s.committed.Advances t.committed := by
  cases h with
  | commit inside holds =>
      have hadvances : s.committed.Advances _ := hs.agrees inside holds
      exact hadvances
  | closeCommit inside holds =>
      have haccepts : s.committed.Accepts _ _ := hs.agrees inside holds
      exact haccepts.advances
  | setEnabled _ _ => exact setEnabled_advances _ _ _
  | _ => exact .refl _

/-- Over a whole run, stored versions never decrease and keep their digests. -/
theorem committed_run {s t : Store} {labels : List Event} (hs : s.Valid)
    (h : Run Step s labels t) : s.committed.Advances t.committed :=
  Run.forward Store.Valid (fun s t => s.committed.Advances t.committed) (fun _ => .refl _)
    (fun _ _ _ => .trans) (fun _ _ _ => valid_step) (fun _ _ _ => committed_step) h hs

/-! ## One call -/

/-- The connection is inside a call of `accept_trp_tuf_state`. -/
def Store.InCall (s : Store) (c : Nat) (call : AcceptCall) : Prop :=
  s.phase c = .accepting call ∨ ∃ result, s.phase c = .closing call result

/-- The event ends the call of a connection. -/
def Event.Closes (c : Nat) : Event → Prop
  | .acceptClose c' _ _ => c' = c
  | _ => False

theorem Store.InCall.ne_idle {s : Store} {c : Nat} {call : AcceptCall} (h : s.InCall c call) :
    s.phase c ≠ .idle := by
  obtain hphase | ⟨result, hphase⟩ := h <;> simp [hphase]

theorem Store.InCall.ne_inTransaction {s : Store} {c : Nat} {call : AcceptCall}
    (h : s.InCall c call) : s.phase c ≠ .inTransaction := by
  obtain hphase | ⟨result, hphase⟩ := h <;> simp [hphase]

/-- Until a call ends, its connection stays in it and the committed table stays. -/
theorem inCall_step {s t : Store} {e : Event} {c : Nat} {call : AcceptCall} (hs : s.Valid)
    (hcall : s.InCall c call) (h : Step s e t) (hopen : ¬ e.Closes c) :
    t.InCall c call ∧ t.committed = s.committed := by
  obtain ⟨working, holds⟩ := hs.holds hcall.ne_idle
  -- The lock is taken, and whoever is in another phase is another connection.
  have hlocked : s.writer ≠ none := by
    intro free
    rw [workingOf_eq_none free] at holds
    cases holds
  have hsame : ∀ {d : Nat} {p : Phase}, s.phase d = p → p ≠ .idle → d = c := by
    intro d p hphase hbusy
    by_contra hne
    exact hbusy (hphase ▸ hs.idle_of_ne holds hne)
  cases h with
  | begin_ _ free => exact absurd free hlocked
  | accept _ free => exact absurd free hlocked
  | setEnabled _ free => exact absurd free hlocked
  | refuseInTransaction _ _ _ => exact ⟨hcall, rfl⟩
  | acceptBusy _ => exact ⟨hcall, rfl⟩
  | refused => exact ⟨hcall, rfl⟩
  | acceptInTransaction inside _ _ =>
      cases hsame inside nofun
      exact absurd inside hcall.ne_inTransaction
  | commit inside _ =>
      cases hsame inside nofun
      exact absurd inside hcall.ne_inTransaction
  | rollback inside =>
      cases hsame inside nofun
      exact absurd inside hcall.ne_inTransaction
  | setEnabledInTransaction inside _ =>
      cases hsame inside nofun
      exact absurd inside hcall.ne_inTransaction
  | acceptBody inside _ _ =>
      cases hsame inside nofun
      obtain hphase | ⟨_, hphase⟩ := hcall
      · rw [inside] at hphase
        cases hphase
        exact ⟨.inr ⟨.ok (), by simp [moveTo]⟩, rfl⟩
      · rw [inside] at hphase
        cases hphase
  | @refuseBody _ _ _ _ e inside _ _ =>
      cases hsame inside nofun
      obtain hphase | ⟨_, hphase⟩ := hcall
      · rw [inside] at hphase
        cases hphase
        exact ⟨.inr ⟨.error e, by simp [moveTo]⟩, rfl⟩
      · rw [inside] at hphase
        cases hphase
  | closeCommit inside _ => exact absurd (hsame inside nofun) hopen
  | closeFault inside => exact absurd (hsame inside nofun) hopen
  | closeError inside => exact absurd (hsame inside nofun) hopen

/-- A call of `accept_trp_tuf_state` that gets the lock: its `BEGIN`, whatever
happens until it returns, and its return. -/
structure CallRun (s : Store) (c : Nat) (call : AcceptCall) (result : Except CoreError Unit)
    (t : Store) : Prop where
  run : ∃ begun ended call' labels, Step s (.accept c call) begun ∧
    Run Step begun labels ended ∧ (∀ e ∈ labels, ¬ e.Closes c) ∧
    Step ended (.acceptClose c call' result) t

/-- At the end of a call its connection is still in it, over the table it began with. -/
theorem CallRun.ended {s t : Store} {c : Nat} {call : AcceptCall}
    {result : Except CoreError Unit} (hs : s.Valid) (h : CallRun s c call result t) :
    ∃ ended call', ended.Valid ∧ ended.InCall c call ∧ ended.committed = s.committed ∧
      Step ended (.acceptClose c call' result) t := by
  obtain ⟨begun, ended, call', labels, hbegin, hrun, hopen, hclose⟩ := h.run
  have hbegun : begun.Valid ∧ begun.InCall c call ∧ begun.committed = s.committed := by
    refine ⟨valid_step hs hbegin, ?_⟩
    cases hbegin
    exact ⟨.inl (by simp [Store.beginImmediate]), rfl⟩
  have hstep : ∀ u, ∀ e ∈ labels, ∀ u',
      u.Valid ∧ u.InCall c call ∧ u.committed = s.committed → Step u e u' →
      u'.Valid ∧ u'.InCall c call ∧ u'.committed = s.committed := by
    intro u e hmem u' hu hstep
    obtain ⟨hvalid, hcall, hsame⟩ := hu
    obtain ⟨hcall', hsame'⟩ := inCall_step hvalid hcall hstep (hopen e hmem)
    exact ⟨valid_step hvalid hstep, hcall', hsame'.trans hsame⟩
  have hended := Run.invariant_of_labels _ hrun hstep hbegun
  exact ⟨ended, call', hended.1, hended.2.1, hended.2.2, hclose⟩

/-- A call that returns an error leaves the committed table as it found it. -/
theorem CallRun.committed_eq {s t : Store} {c : Nat} {call : AcceptCall} {e : CoreError}
    (hs : s.Valid) (h : CallRun s c call (.error e) t) : t.committed = s.committed := by
  obtain ⟨ended, call', -, -, hsame, hclose⟩ := h.ended hs
  cases hclose <;> exact hsame

/-- A call that returns a success replaces an enabled row by the candidate. -/
theorem CallRun.accepts {s t : Store} {c : Nat} {call : AcceptCall} (hs : s.Valid)
    (h : CallRun s c call (.ok ()) t) : s.committed.Accepts call t.committed := by
  obtain ⟨ended, call', hvalid, hcall, hsame, hclose⟩ := h.ended hs
  cases hclose with
  | closeCommit inside holds =>
      obtain hphase | ⟨result, hphase⟩ := hcall
      · rw [inside] at hphase
        cases hphase
      · rw [inside] at hphase
        cases hphase
        have haccepts : ended.committed.Accepts call _ := hvalid.agrees inside holds
        exact hsame ▸ haccepts

/-- A call inside a caller's transaction that returns an error changes nothing;
one that returns a success replaces an enabled row of the working copy. -/
theorem acceptInTransaction_result {s t : Store} {c : Nat} {call : AcceptCall}
    {result : Except CoreError Unit} (h : Step s (.acceptInTransaction c call result) t) :
    match result with
    | .error _ => t = s
    | .ok () => t.committed = s.committed ∧ ∃ working working', s.workingOf c = some working ∧
        t.workingOf c = some working' ∧ working.Accepts call working' := by
  cases h with
  | refuseInTransaction _ _ _ => rfl
  | acceptInTransaction inside holds accepted =>
      exact ⟨rfl, _, _, holds, if_pos rfl,
        (acceptTrpTufStateInTransaction_eq_ok.mp accepted).2.2⟩

/-- From any reachable state: over every run the committed versions never
decrease and keep their digests; a call that returns an error changes no column;
a call that succeeds found the row enabled under the expected identity and
stores exactly the candidate. -/
theorem accepted_state_is_monotone {s : Store} (hs : Reachable Store.Initial Step s) :
    (∀ labels t, Run Step s labels t → s.committed.Advances t.committed) ∧
      (∀ c call e t, CallRun s c call (.error e) t → t.committed = s.committed) ∧
      (∀ c call e t, Step s (.acceptBusy c call e) t → t = s) ∧
      (∀ c call t, CallRun s c call (.ok ()) t → s.committed.Accepts call t.committed) ∧
      (∀ c call e t, Step s (.acceptInTransaction c call (.error e)) t → t = s) ∧
      ∀ c call t, Step s (.acceptInTransaction c call (.ok ())) t →
        t.committed = s.committed ∧ ∃ working working', s.workingOf c = some working ∧
          t.workingOf c = some working' ∧ working.Accepts call working' := by
  have hvalid := valid_of_reachable hs
  refine ⟨?_, ?_, ?_, ?_, ?_, ?_⟩
  · intro labels t hrun
    exact committed_run hvalid hrun
  · intro c call e t hcall
    exact hcall.committed_eq hvalid
  · intro c call e t hstep
    cases hstep
    rfl
  · intro c call t hcall
    exact hcall.accepts hvalid
  · intro c call e t hstep
    exact acceptInTransaction_result hstep
  · intro c call t hstep
    exact acceptInTransaction_result hstep

/-- A state with one version and one digest everywhere. -/
def uniformState (version : Nat) (digit : Char) : TrpTufState :=
  let digest := String.ofList (List.replicate 64 digit)
  ⟨⟨version, version, version, version⟩, digest, digest, digest, digest⟩

/-- A database with one enabled source that has accepted nothing yet. -/
def oneSource : Store where
  committed sourceId :=
    if sourceId = "source.test" then
      some ⟨"https://example.test/discovery", "aa", true, ⟨⟨0, 0, 0, 0⟩, "", "", "", ""⟩⟩
    else none
  writer := none
  phase _ := .idle

def firstCall : AcceptCall :=
  ⟨"source.test", "https://example.test/discovery", "aa", uniformState 2 'a'⟩

theorem oneSource_accepts : oneSource.committed.Accepts firstCall
    (Function.update oneSource.committed "source.test"
      (some ⟨"https://example.test/discovery", "aa", true, uniformState 2 'a'⟩)) := by
  refine ⟨_, rfl, rfl, rfl, rfl, ?_, rfl⟩
  intro role
  cases role <;> exact ⟨Nat.zero_le _, fun _ hpos => absurd rfl hpos⟩

theorem oneSource_callRun : ∃ t, CallRun oneSource 0 firstCall (.ok ()) t := by
  have hdigest : isCanonicalDigest (String.ofList (List.replicate 64 'a')) = true := by
    simp only [isCanonicalDigest, String.toList_ofList]
    decide
  have hwellFormed : firstCall.candidate.WellFormed := by
    intro role
    cases role <;> exact ⟨by decide, hdigest⟩
  have haccepted := acceptTrpTufStateInTransaction_eq_ok.mpr
    ⟨rfl, hwellFormed, oneSource_accepts⟩
  let begun := oneSource.beginImmediate 0 (.accepting firstCall)
  have hbegin : Step oneSource (.accept 0 firstCall) begun := .accept rfl rfl
  have hbody : Step begun (.acceptBody 0) _ := .acceptBody rfl rfl haccepted
  exact ⟨_, ⟨begun, _, _, _, hbegin, .single hbody, by simp [Event.Closes], .closeCommit rfl rfl⟩⟩

/-- The first call on that database stores its candidate. -/
theorem accepted_state_is_monotone_oneSource :
    ∃ t, CallRun oneSource 0 firstCall (.ok ()) t ∧
      oneSource.committed.Accepts firstCall t.committed := by
  obtain ⟨t, hcall⟩ := oneSource_callRun
  have hreachable : Reachable Store.Initial Step oneSource :=
    .of_init ⟨rfl, fun _ => rfl⟩
  exact ⟨t, hcall, (accepted_state_is_monotone hreachable).2.2.2.1 0 firstCall t hcall⟩

end Useful.Core
