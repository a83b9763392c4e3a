/-
# What the bridges keep in every order of events

Two invariants of one bridge carry the result: one about the requests it accepted and the
replies it sent, one about the port it took. The counters of the module are compared with
the running invocations of all bridges together; an event of one bridge changes one summand.
-/

import Mathlib.Algebra.Order.BigOperators.Group.Finset
import Mathlib.Data.Fintype.BigOperators
import Useful.Client.PluginBridge

namespace Useful.Client

open Useful.Math

namespace Bridge

variable {W P R : Type} {b b' : Bridge W P R}
  {opts : BridgeOptions} {serial : Nat} {id : String} {response : Response R} {call : Invocation}

/-! ## Requests and replies -/

/-- The message with this number is a request under this id. -/
def Asks (b : Bridge W P R) (serial : Nat) (id : String) : Prop :=
  ∃ m, b.received[serial]? = some m ∧ m.request.map Prod.fst = some id

/-- A request that was accepted waits for its reply or has had it. -/
structure Answering (b : Bridge W P R) : Prop where
  serials : (b.calls.map Invocation.serial).Nodup
  accepted_lt : ∀ k ∈ b.accepted, k < b.received.length
  asked : ∀ call ∈ b.calls, call.serial ∈ b.accepted ∧ b.Asks call.serial call.id
  answers : ∀ reply ∈ b.sent, b.Asks reply.serial reply.id
  timers : ∀ k, k ∈ b.responseTimers ↔
    b.active = true ∧ ∃ call ∈ b.calls, call.serial = k ∧ call.responded = false
  waiting : ∀ call ∈ b.calls, call.responded = false → b.repliesTo call.serial = 0
  answered : ∀ k ∈ b.accepted,
    (∀ call ∈ b.calls, call.serial = k → call.responded = true) →
      b.repliesTo k ≤ 1 ∧ (b.active = true → b.repliesTo k = 1)
  connected : b.active = true → b.accepted ≠ [] → b.port.isSome = true

@[simp] theorem reply_calls : (b.reply serial id response).calls = b.calls := by
  unfold reply
  split_ifs <;> rfl

@[simp] theorem reply_accepted : (b.reply serial id response).accepted = b.accepted := by
  unfold reply
  split_ifs <;> rfl

@[simp] theorem reply_received : (b.reply serial id response).received = b.received := by
  unfold reply
  split_ifs <;> rfl

@[simp] theorem reply_responseTimers :
    (b.reply serial id response).responseTimers = b.responseTimers := by
  unfold reply
  split_ifs <;> rfl

@[simp] theorem reply_active : (b.reply serial id response).active = b.active := by
  unfold reply
  split_ifs <;> rfl

@[simp] theorem reply_port : (b.reply serial id response).port = b.port := by
  unfold reply
  split_ifs <;> rfl

theorem asks_reply {k : Nat} {other : String} :
    (b.reply serial id response).Asks k other ↔ b.Asks k other := by
  rw [Asks, Asks, reply_received]

theorem repliesTo_reply (k : Nat) :
    (b.reply serial id response).repliesTo k = b.repliesTo k +
      if (b.active = true ∧ b.port.isSome = true) ∧ serial = k then 1 else 0 := by
  unfold reply repliesTo
  by_cases hopen : b.active = true ∧ b.port.isSome = true
  · rw [if_pos hopen, List.countP_append, List.countP_singleton]
    simp only [hopen, decide_eq_true_eq, true_and, and_self]
  · rw [if_neg hopen, if_neg fun h => hopen h.1, Nat.add_zero]

theorem mem_sent_reply {reply : Reply R} (h : reply ∈ (b.reply serial id response).sent) :
    reply ∈ b.sent ∨ reply = ⟨serial, id, response⟩ := by
  unfold Bridge.reply at h
  split_ifs at h
  · rwa [List.mem_append, List.mem_singleton] at h
  · exact .inl h

theorem Asks.lt (h : b.Asks serial id) : serial < b.received.length := by
  obtain ⟨m, hm, -⟩ := h
  exact (List.getElem?_eq_some_iff.mp hm).1

/-- A message without a reply of its own number is in no reply. -/
theorem repliesTo_eq_zero_of_not_lt (h : b.Answering) (hserial : b.received.length ≤ serial) :
    b.repliesTo serial = 0 := by
  refine List.countP_eq_zero.mpr fun reply hreply heq => ?_
  have hlt := (h.answers reply hreply).lt
  rw [of_decide_eq_true heq] at hlt
  omega

/-- The fields that the invariant does not speak about may change. -/
theorem Answering.transfer (h : b.Answering) (hcalls : b'.calls = b.calls)
    (haccepted : b'.accepted = b.accepted) (hreceived : b'.received = b.received)
    (hsent : b'.sent = b.sent) (htimers : b'.responseTimers = b.responseTimers)
    (hactive : b'.active = b.active)
    (hport : b'.active = true → b'.accepted ≠ [] → b'.port.isSome = true) : b'.Answering where
  serials := hcalls ▸ h.serials
  accepted_lt := by
    rw [haccepted, hreceived]
    exact h.accepted_lt
  asked := by
    rw [hcalls, haccepted]
    unfold Asks
    rw [hreceived]
    exact h.asked
  answers := by
    rw [hsent]
    unfold Asks
    rw [hreceived]
    exact h.answers
  timers := by
    rw [htimers, hactive, hcalls]
    exact h.timers
  waiting := by
    unfold repliesTo
    rw [hcalls, hsent]
    exact h.waiting
  answered := by
    unfold repliesTo
    rw [haccepted, hcalls, hsent, hactive]
    exact h.answered
  connected := hport

theorem Asks.receive (h : b.Asks serial id) (m : PortMessage) (count : Nat) :
    { b with received := b.received ++ [m], rejectionCount := count }.Asks serial id := by
  have hlt := h.lt
  obtain ⟨asked, hasked, hid⟩ := h
  exact ⟨asked, (List.getElem?_append_left hlt).trans hasked, hid⟩

/-- A message that arrives changes nothing for those before it. -/
theorem Answering.receive (h : b.Answering) (m : PortMessage) (count : Nat) :
    { b with received := b.received ++ [m], rejectionCount := count }.Answering where
  serials := h.serials
  accepted_lt := by
    intro k hk
    have hlt := h.accepted_lt k hk
    simp only [List.length_append, List.length_singleton]
    omega
  asked := fun call hcall => ⟨(h.asked call hcall).1, (h.asked call hcall).2.receive m count⟩
  answers := fun reply hreply => (h.answers reply hreply).receive m count
  timers := h.timers
  waiting := h.waiting
  answered := h.answered
  connected := h.connected

/-- A reply to a message that was not accepted. -/
theorem Answering.reply_other (h : b.Answering) (hasks : b.Asks serial id)
    (hnew : serial ∉ b.accepted) : (b.reply serial id response).Answering := by
  have hcount : ∀ k ∈ b.accepted, (b.reply serial id response).repliesTo k = b.repliesTo k := by
    intro k hk
    have hne : serial ≠ k := fun heq => hnew (heq ▸ hk)
    rw [repliesTo_reply, if_neg fun hopen => hne hopen.2, Nat.add_zero]
  refine ⟨?_, ?_, ?_, fun reply hreply => ?_, ?_, fun call hcall hopen => ?_,
    fun k hk hdone => ?_, ?_⟩
  · simpa using h.serials
  · simpa using h.accepted_lt
  · simpa [asks_reply] using h.asked
  · rw [asks_reply]
    rcases mem_sent_reply hreply with hreply | rfl
    · exact h.answers reply hreply
    · exact hasks
  · simpa using h.timers
  · rw [reply_calls] at hcall
    rw [hcount _ (h.asked call hcall).1]
    exact h.waiting call hcall hopen
  · rw [reply_accepted] at hk
    rw [reply_calls] at hdone
    rw [hcount k hk, reply_active]
    exact h.answered k hk hdone
  · simpa using h.connected

theorem Answering.reject {text : String} (h : b.Answering) (hasks : b.Asks serial id)
    (hnew : serial ∉ b.accepted) : (b.reject serial id text).Answering := by
  have hcounted : { b with rejectionCount := b.rejectionCount + 1 }.Answering :=
    h.transfer rfl rfl rfl rfl rfl rfl h.connected
  exact hcounted.reply_other hasks hnew

theorem Answering.accept {interactive : Bool} (h : b.Answering) (hasks : b.Asks serial id)
    (hnew : serial ∉ b.accepted) (hunsent : b.repliesTo serial = 0) (hactive : b.active = true)
    (hport : b.port.isSome = true) : (b.accept serial id interactive).Answering := by
  have hold : ∀ call ∈ b.calls, call.serial ≠ serial := fun call hcall heq =>
    hnew (heq ▸ (h.asked call hcall).1)
  refine ⟨?_, fun k hk => ?_, fun call hcall => ?_, h.answers, fun k => ?_,
    fun call hcall hopen => ?_, fun k hk hdone => ?_, fun _ _ => hport⟩
  · simp only [Bridge.accept, List.map_append, List.map_singleton]
    refine List.nodup_append.mpr ⟨h.serials, List.nodup_singleton _, ?_⟩
    intro k hk other hother heq
    obtain ⟨call, hcall, rfl⟩ := List.mem_map.mp hk
    exact hold call hcall (heq.trans (List.mem_singleton.mp hother))
  · simp only [Bridge.accept, List.mem_append, List.mem_singleton] at hk
    rcases hk with hk | rfl
    · exact h.accepted_lt k hk
    · exact hasks.lt
  · simp only [Bridge.accept, List.mem_append, List.mem_singleton] at hcall ⊢
    rcases hcall with hcall | rfl
    · exact ⟨.inl (h.asked call hcall).1, (h.asked call hcall).2⟩
    · exact ⟨.inr rfl, hasks⟩
  · simp only [Bridge.accept, Finset.mem_insert, h.timers, List.mem_append, List.mem_singleton,
      hactive, true_and, or_and_right, exists_or, exists_eq_left, and_true]
    rw [or_comm, eq_comm]
  · simp only [Bridge.accept, List.mem_append, List.mem_singleton] at hcall
    rcases hcall with hcall | rfl
    · exact h.waiting call hcall hopen
    · exact hunsent
  · simp only [Bridge.accept, List.mem_append, List.mem_singleton] at hk hdone
    rcases hk with hk | rfl
    · exact h.answered k hk fun call hcall => hdone call (.inl hcall)
    · exact absurd (hdone _ (.inr rfl) rfl) Bool.false_ne_true

theorem Answering.eq_of_serial (h : b.Answering) {other : Invocation} (hcall : call ∈ b.calls)
    (hother : other ∈ b.calls) (heq : other.serial = call.serial) : other = call :=
  List.inj_on_of_nodup_map h.serials hother hcall heq

/-- When the timer of a request runs, the request has had no reply and gets one. -/
theorem Answering.onTimeout (h : b.Answering) (htimer : call.serial ∈ b.responseTimers)
    (hcall : call ∈ b.calls) : (b.onTimeout call.serial call.id).Answering := by
  obtain ⟨hactive, open_, hopen, hserial, hunanswered⟩ := (h.timers _).mp htimer
  obtain rfl := h.eq_of_serial hcall hopen hserial
  have hport := h.connected hactive (List.ne_nil_of_mem (h.asked _ hcall).1)
  have hnone := h.waiting _ hcall hunanswered
  have hmark : ∀ call' : Invocation,
      (if call'.serial = open_.serial then { call' with responded := true } else call').serial =
        call'.serial := by
    intro call'
    split_ifs <;> rfl
  have hcount : ∀ k, (b.onTimeout open_.serial open_.id).repliesTo k =
      b.repliesTo k + if open_.serial = k then 1 else 0 := by
    intro k
    unfold Bridge.onTimeout
    rw [repliesTo_reply]
    simp only [hactive, hport, and_self, true_and]
    rfl
  refine ⟨?_, ?_, fun call hcall' => ?_, fun reply hreply => ?_, fun k => ?_,
    fun call hcall' hwaits => ?_, fun k hk hdone => ?_, ?_⟩
  · simp only [Bridge.onTimeout, reply_calls, List.map_map]
    refine (congrArg List.Nodup (List.map_congr_left fun call' _ => hmark call')).mpr h.serials
  · simpa [Bridge.onTimeout] using h.accepted_lt
  · simp only [Bridge.onTimeout, reply_calls, reply_accepted, asks_reply] at hcall' ⊢
    obtain ⟨before, hbefore, rfl⟩ := List.mem_map.mp hcall'
    have hasked := h.asked before hbefore
    split_ifs <;> exact hasked
  · simp only [Bridge.onTimeout, asks_reply] at hreply ⊢
    rcases mem_sent_reply hreply with hreply | rfl
    · exact h.answers reply hreply
    · exact (h.asked _ hcall).2
  · simp only [Bridge.onTimeout, reply_responseTimers, reply_active, reply_calls,
      Finset.mem_erase, h.timers, hactive, true_and, List.mem_map]
    constructor
    · rintro ⟨hne, before, hbefore, rfl, hwaits⟩
      exact ⟨before, ⟨before, hbefore, if_neg hne⟩, rfl, hwaits⟩
    · rintro ⟨_, ⟨before, hbefore, rfl⟩, rfl, hwaits⟩
      by_cases heq : before.serial = open_.serial
      · rw [if_pos heq] at hwaits
        cases hwaits
      · rw [if_neg heq] at hwaits ⊢
        exact ⟨heq, before, hbefore, rfl, hwaits⟩
  · simp only [Bridge.onTimeout, reply_calls] at hcall'
    obtain ⟨before, hbefore, rfl⟩ := List.mem_map.mp hcall'
    by_cases heq : before.serial = open_.serial
    · rw [if_pos heq] at hwaits
      cases hwaits
    · rw [if_neg heq] at hwaits ⊢
      rw [hcount, if_neg (Ne.symm heq), Nat.add_zero]
      exact h.waiting before hbefore hwaits
  · simp only [Bridge.onTimeout, reply_accepted] at hk
    rw [hcount]
    by_cases heq : open_.serial = k
    · subst heq
      rw [if_pos rfl, hnone]
      exact ⟨le_rfl, fun _ => rfl⟩
    · rw [if_neg heq, Nat.add_zero]
      simp only [Bridge.onTimeout, reply_active]
      refine h.answered k hk fun call' hcall' hserial' => ?_
      have hne : call'.serial ≠ open_.serial := fun h' => heq (h'.symm.trans hserial')
      refine hdone call' ?_ hserial'
      simp only [Bridge.onTimeout, reply_calls]
      exact List.mem_map.mpr ⟨call', hcall', if_neg hne⟩
  · simpa [Bridge.onTimeout] using h.connected

/-- The replies after an invocation has settled. -/
theorem repliesTo_onSettled (k : Nat) :
    (b.onSettled call response).repliesTo k = b.repliesTo k +
      if call.responded = false ∧ (b.active = true ∧ b.port.isSome = true) ∧ call.serial = k
      then 1 else 0 := by
  have hsame : (b.onSettled call response).repliesTo k =
      (if call.responded then b else b.reply call.serial call.id response).repliesTo k := rfl
  rw [hsame]
  cases hresponded : call.responded
  · simp only [Bool.false_eq_true, if_false, true_and]
    exact repliesTo_reply k
  · simp

theorem onSettled_fields : (b.onSettled call response).calls = b.calls.erase call ∧
    (b.onSettled call response).accepted = b.accepted ∧
    (b.onSettled call response).received = b.received ∧
    (b.onSettled call response).responseTimers = b.responseTimers.erase call.serial ∧
    (b.onSettled call response).active = b.active ∧
    (b.onSettled call response).port = b.port := by
  unfold onSettled
  cases call.responded <;> simp

/-- When an invocation settles, its request has had its reply or gets it. -/
theorem Answering.onSettled (h : b.Answering) (hcall : call ∈ b.calls) :
    (b.onSettled call response).Answering := by
  obtain ⟨hcalls, haccepted, hreceived, htimers, hactive, hport⟩ :=
    @onSettled_fields W P R b response call
  have hnodup : b.calls.Nodup := h.serials.of_map _
  have hleft : ∀ call', call' ∈ b.calls.erase call ↔
      call' ∈ b.calls ∧ call'.serial ≠ call.serial := by
    intro call'
    rw [hnodup.mem_erase_iff, and_comm]
    exact and_congr_right fun hmem =>
      not_congr ⟨fun heq => heq ▸ rfl, h.eq_of_serial hcall hmem⟩
  have hother : ∀ k, call.serial ≠ k →
      (b.onSettled call response).repliesTo k = b.repliesTo k := by
    intro k hk
    rw [repliesTo_onSettled, if_neg fun hreply => hk hreply.2.2, Nat.add_zero]
  refine ⟨?_, ?_, fun call' hcall' => ?_, fun reply hreply => ?_, fun k => ?_,
    fun call' hcall' hwaits => ?_, fun k hk hdone => ?_, ?_⟩
  · rw [hcalls]
    exact h.serials.sublist (List.erase_sublist.map _)
  · rw [haccepted, hreceived]
    exact h.accepted_lt
  · rw [hcalls, hleft] at hcall'
    rw [haccepted, Asks, hreceived]
    exact h.asked call' hcall'.1
  · rw [Asks, hreceived]
    have hmem : reply ∈ b.sent ∨ reply = ⟨call.serial, call.id, response⟩ := by
      unfold Bridge.onSettled at hreply
      cases hresponded : call.responded <;> simp only [hresponded] at hreply
      · exact mem_sent_reply hreply
      · exact .inl hreply
    rcases hmem with hmem | rfl
    · exact h.answers reply hmem
    · exact (h.asked call hcall).2
  · rw [htimers, Finset.mem_erase, h.timers, hactive, hcalls]
    simp only [hleft]
    constructor
    · rintro ⟨hne, hactive', call', hcall', rfl, hwaits⟩
      exact ⟨hactive', call', ⟨hcall', hne⟩, rfl, hwaits⟩
    · rintro ⟨hactive', call', ⟨hcall', hne⟩, rfl, hwaits⟩
      exact ⟨hne, hactive', call', hcall', rfl, hwaits⟩
  · rw [hcalls, hleft] at hcall'
    rw [hother _ (Ne.symm hcall'.2)]
    exact h.waiting call' hcall'.1 hwaits
  · rw [haccepted] at hk
    rw [hactive]
    by_cases heq : call.serial = k
    · subst heq
      cases hresponded : call.responded with
      | true =>
          rw [repliesTo_onSettled, hresponded, if_neg (by simp), Nat.add_zero]
          refine h.answered _ hk fun call' hcall' hserial => ?_
          rw [h.eq_of_serial hcall hcall' hserial]
          exact hresponded
      | false =>
          rw [repliesTo_onSettled, h.waiting call hcall hresponded]
          constructor
          · split_ifs <;> omega
          · intro hactive'
            have hopen := h.connected hactive' (List.ne_nil_of_mem hk)
            rw [if_pos ⟨hresponded, ⟨hactive', hopen⟩, rfl⟩]
    · rw [hother k heq]
      refine h.answered k hk fun call' hcall' hserial => ?_
      refine hdone call' ?_ hserial
      rw [hcalls, hleft]
      exact ⟨hcall', fun h' => heq (h'.symm.trans hserial)⟩
  · rw [hactive, haccepted, hport]
    exact h.connected

theorem Answering.armForLoadedDocument (h : b.Answering) :
    b.armForLoadedDocument.Answering := by
  unfold Bridge.armForLoadedDocument
  split_ifs
  · exact h
  split
  · exact h.transfer rfl rfl rfl rfl rfl rfl h.connected
  · exact h.transfer rfl rfl rfl rfl rfl rfl h.connected

theorem Answering.dispose (h : b.Answering) : b.dispose.Answering where
  serials := h.serials
  accepted_lt := h.accepted_lt
  asked := h.asked
  answers := h.answers
  timers := by simp [Bridge.dispose]
  waiting := h.waiting
  answered := fun k hk hdone => ⟨(h.answered k hk hdone).1, nofun⟩
  connected := nofun

/-! ## The port -/

/-- At most one port is taken, from the window the bridge was armed for. -/
structure Exchanging (opts : BridgeOptions) (b : Bridge W P R) : Prop where
  fresh : b.bootstrapped = false → b.exchanges = []
  taken : b.bootstrapped = true → ∃ x, b.exchanges = [x] ∧ b.armedFor = [x.source] ∧
    x.capability = opts.capability
  armed : b.bootstrapArmed = true →
    ∃ window, b.loadedDocumentWindow = some window ∧ b.armedFor = [window]
  unarmed : b.active = true → b.bootstrapArmed = false → b.bootstrapped = false →
    b.armedFor = []

/-- The port and the document of a bridge are as they were. -/
structure SameDocument (b b' : Bridge W P R) : Prop where
  active : b'.active = b.active
  bootstrapped : b'.bootstrapped = b.bootstrapped
  bootstrapArmed : b'.bootstrapArmed = b.bootstrapArmed
  loaded : b'.loadedDocumentWindow = b.loadedDocumentWindow
  armedFor : b'.armedFor = b.armedFor
  exchanges : b'.exchanges = b.exchanges

theorem SameDocument.exchanging (hsame : SameDocument b b') (h : b.Exchanging opts) :
    b'.Exchanging opts := by
  obtain ⟨hactive, hbootstrapped, harmed, hloaded, harmedFor, hexchanges⟩ := hsame
  refine ⟨?_, ?_, ?_, ?_⟩
  · rw [hbootstrapped, hexchanges]
    exact h.fresh
  · rw [hbootstrapped, hexchanges, harmedFor]
    exact h.taken
  · rw [harmed, hloaded, harmedFor]
    exact h.armed
  · rw [hactive, harmed, hbootstrapped, harmedFor]
    exact h.unarmed

theorem Exchanging.armForLoadedDocument (h : b.Exchanging opts) :
    b.armForLoadedDocument.Exchanging opts := by
  unfold Bridge.armForLoadedDocument
  split_ifs with hrefused
  · exact h
  simp only [not_or, Bool.not_eq_false, Bool.not_eq_true] at hrefused
  obtain ⟨hactive, harmed, hbootstrapped⟩ := hrefused
  have harmedFor := h.unarmed hactive harmed hbootstrapped
  split
  · exact ⟨h.fresh, h.taken, fun harmed' => absurd (harmed'.symm.trans harmed) nofun, h.unarmed⟩
  next window hwindow =>
    refine ⟨h.fresh, fun htaken => absurd (htaken.symm.trans hbootstrapped) nofun, fun _ => ?_,
      nofun⟩
    exact ⟨window, rfl, by simp only [harmedFor, List.nil_append]⟩

theorem Exchanging.dispose (h : b.Exchanging opts) : b.dispose.Exchanging opts where
  fresh := h.fresh
  taken := h.taken
  armed := nofun
  unarmed := nofun

/-! ## A message on the port -/

/-- What a message on the port can lead to. -/
inductive PortOutcome (opts : BridgeOptions) (slots : InFlight) (target : P) (m : PortMessage)
    (b : Bridge W P R) : InFlight × Bridge W P R → Prop
  | ignored : PortOutcome opts slots target m b (slots, b)
  | dropped (count : Nat) (hactive : b.active = true) :
      PortOutcome opts slots target m b
        (slots, { b with received := b.received ++ [m], rejectionCount := count })
  | rejected (id text : String) (hactive : b.active = true)
      (hrequest : m.request.map Prod.fst = some id) :
      PortOutcome opts slots target m b
        (slots, { b with received := b.received ++ [m] }.reject b.received.length id text)
  | accepted (id : String) (interactive : Bool) (reserved : InFlight)
      (hactive : b.active = true) (hport : b.port = some target)
      (hrequest : m.request.map Prod.fst = some id)
      (hreserve : slots.reserve opts.pluginId interactive = some reserved) :
      PortOutcome opts slots target m b
        (reserved, { b with received := b.received ++ [m] }.accept b.received.length id
          interactive)

theorem asks_received {m : PortMessage} (hrequest : m.request.map Prod.fst = some id) :
    { b with received := b.received ++ [m] }.Asks b.received.length id :=
  ⟨m, List.getElem?_concat_length, hrequest⟩

theorem Answering.outcome {slots : InFlight} {target : P} {m : PortMessage}
    {after : InFlight × Bridge W P R} (h : b.Answering)
    (houtcome : PortOutcome opts slots target m b after) : after.2.Answering := by
  have hreceive := h.receive m b.rejectionCount
  have hnew : b.received.length ∉ b.accepted := fun hmem =>
    lt_irrefl _ (h.accepted_lt _ hmem)
  cases houtcome with
  | ignored => exact h
  | dropped count => exact h.receive m count
  | rejected id text hactive hrequest => exact hreceive.reject (asks_received hrequest) hnew
  | accepted id interactive reserved hactive hport hrequest hreserve =>
      have hunsent := repliesTo_eq_zero_of_not_lt h le_rfl
      exact hreceive.accept (asks_received hrequest) hnew hunsent hactive (by simp [hport])

end Bridge

/-! ## The counters -/

namespace InFlight

variable {slots reserved : InFlight} {pluginId : String} {interactive : Bool}

/-- A reserved slot was free, and is counted once for the module and once for its plugin. -/
theorem reserve_eq_some (h : slots.reserve pluginId interactive = some reserved) :
    (slots.global < maxGlobalInFlight ∧ (slots.plugin pluginId).getD 0 < maxPluginInFlight ∧
      (interactive = true → slots.interactive < maxInteractiveInFlight)) ∧
    reserved.global = slots.global + 1 ∧
    reserved.interactive = slots.interactive + (if interactive then 1 else 0) ∧
    ∀ p, (reserved.plugin p).getD 0 =
      (slots.plugin p).getD 0 + if pluginId = p then 1 else 0 := by
  simp only [reserve] at h
  by_cases hfull : slots.global ≥ maxGlobalInFlight ∨
      (slots.plugin pluginId).getD 0 ≥ maxPluginInFlight
  · rw [if_pos hfull] at h
    cases h
  rw [if_neg hfull] at h
  by_cases hbusy : interactive = true ∧ slots.interactive ≥ maxInteractiveInFlight
  · rw [if_pos hbusy] at h
    cases h
  rw [if_neg hbusy, Option.some.injEq] at h
  subst h
  simp only [not_or, not_le, ge_iff_le] at hfull
  refine ⟨⟨hfull.1, hfull.2, fun hinteractive => ?_⟩, rfl, ?_, fun p => ?_⟩
  · simpa only [hinteractive, true_and, not_le, ge_iff_le] using hbusy
  · cases interactive <;> rfl
  · by_cases hp : pluginId = p
    · subst hp
      simp only [Function.update_self, Option.getD_some, if_true]
    · simp only [Function.update_of_ne (Ne.symm hp), if_neg hp, Nat.add_zero]

/-- A slot that is given back was counted for its plugin. -/
theorem plugin_release (h : 0 < (slots.plugin pluginId).getD 0) (p : String) :
    ((slots.release pluginId interactive).plugin p).getD 0 + (if pluginId = p then 1 else 0) =
      (slots.plugin p).getD 0 := by
  unfold release
  by_cases hp : pluginId = p
  · subst hp
    simp only [Function.update_self, if_true]
    cases hcount : slots.plugin pluginId with
    | none =>
        rw [hcount] at h
        cases h
    | some count =>
        rw [hcount, Option.getD_some] at h
        simp only [Option.getD_some]
        split_ifs with hlast
        · simp only [Option.getD_none]
          omega
        · simp only [Option.getD_some]
          omega
  · simp only [Function.update_of_ne (Ne.symm hp), if_neg hp, Nat.add_zero]

end InFlight

namespace BridgeModule

variable {ι W P R : Type} {opts : ι → BridgeOptions} {s t : BridgeModule ι W P R} {i : ι}
  {b : Bridge W P R}

variable [Fintype ι]

/-- How many invocations have not settled. -/
def running (s : BridgeModule ι W P R) : Nat := ∑ i, (s.bridges i).calls.length

/-- How many of them are interactive. -/
def runningInteractive (s : BridgeModule ι W P R) : Nat := ∑ i, (s.bridges i).interactiveCalls

/-- How many of them are for a plugin. -/
def runningFor (opts : ι → BridgeOptions) (s : BridgeModule ι W P R) (pluginId : String) : Nat :=
  ∑ i, if (opts i).pluginId = pluginId then (s.bridges i).calls.length else 0

/-- The counters count the invocations that have not settled, and keep to their limits. -/
structure SlotsExact (opts : ι → BridgeOptions) (s : BridgeModule ι W P R) : Prop where
  global : s.slots.global = s.running
  interactive : s.slots.interactive = s.runningInteractive
  plugin : ∀ p, (s.slots.plugin p).getD 0 = s.runningFor opts p
  global_le : s.slots.global ≤ maxGlobalInFlight
  interactive_le : s.slots.interactive ≤ maxInteractiveInFlight
  plugin_le : ∀ p, (s.slots.plugin p).getD 0 ≤ maxPluginInFlight

/-- Nothing starts or settles. -/
theorem SlotsExact.of_same (h : SlotsExact opts s) (hslots : t.slots = s.slots)
    (hcalls : ∀ i, (t.bridges i).calls.length = (s.bridges i).calls.length)
    (hinteractive : ∀ i, (t.bridges i).interactiveCalls = (s.bridges i).interactiveCalls) :
    SlotsExact opts t := by
  refine ⟨?_, ?_, fun p => ?_, hslots ▸ h.global_le, hslots ▸ h.interactive_le,
    hslots ▸ h.plugin_le⟩
  · rw [hslots, h.global]
    exact (Finset.sum_congr rfl fun i _ => hcalls i).symm
  · rw [hslots, h.interactive]
    exact (Finset.sum_congr rfl fun i _ => hinteractive i).symm
  · rw [hslots, h.plugin]
    refine (Finset.sum_congr rfl fun i _ => ?_).symm
    rw [hcalls]

/-- The invariant of a module. -/
structure Consistent (opts : ι → BridgeOptions) (s : BridgeModule ι W P R) : Prop where
  slots : SlotsExact opts s
  answering : ∀ i, (s.bridges i).Answering
  exchanging : ∀ i, (s.bridges i).Exchanging (opts i)

variable [DecidableEq ι]

/-- An event of one bridge changes one summand. -/
theorem sum_update (f : ι → Bridge W P R → Nat) (bridges : ι → Bridge W P R) (i : ι)
    (b : Bridge W P R) :
    ∑ j, f j (Function.update bridges i b j) + f i (bridges i) = ∑ j, f j (bridges j) + f i b := by
  have hold := Finset.add_sum_erase Finset.univ (fun j => f j (bridges j)) (Finset.mem_univ i)
  have hnew := Finset.add_sum_erase Finset.univ (fun j => f j (Function.update bridges i b j))
    (Finset.mem_univ i)
  have hrest : ∑ j ∈ Finset.univ.erase i, f j (Function.update bridges i b j) =
      ∑ j ∈ Finset.univ.erase i, f j (bridges j) := by
    refine Finset.sum_congr rfl fun j hj => ?_
    rw [Function.update_of_ne (Finset.ne_of_mem_erase hj)]
  simp only [Function.update_self] at hnew
  omega

theorem SlotsExact.set (h : SlotsExact opts s)
    (hcalls : b.calls.length = (s.bridges i).calls.length)
    (hinteractive : b.interactiveCalls = (s.bridges i).interactiveCalls) :
    SlotsExact opts (s.set i b) := by
  refine h.of_same rfl (fun j => ?_) fun j => ?_
  · by_cases hj : j = i
    · subst hj
      simpa [BridgeModule.set] using hcalls
    · simp [BridgeModule.set, Function.update_of_ne hj]
  · by_cases hj : j = i
    · subst hj
      simpa [BridgeModule.set] using hinteractive
    · simp [BridgeModule.set, Function.update_of_ne hj]

/-- An invocation starts in a reserved slot. -/
theorem SlotsExact.start {reserved : InFlight} (h : SlotsExact opts s) (call : Invocation)
    (hreserve : s.slots.reserve (opts i).pluginId call.interactive = some reserved)
    (hcalls : b.calls = (s.bridges i).calls ++ [call]) :
    SlotsExact opts { slots := reserved, bridges := Function.update s.bridges i b } := by
  obtain ⟨⟨hroom, hplugin, hfree⟩, hglobal, hinteractive, hplugins⟩ :=
    InFlight.reserve_eq_some hreserve
  have hlength : b.calls.length = (s.bridges i).calls.length + 1 := by
    rw [hcalls, List.length_append, List.length_singleton]
  have hcount : b.interactiveCalls =
      (s.bridges i).interactiveCalls + if call.interactive then 1 else 0 := by
    rw [Bridge.interactiveCalls, hcalls, List.countP_append, List.countP_singleton]
    rfl
  have hrunning := sum_update (fun _ b => b.calls.length) s.bridges i b
  have hrunningInteractive := sum_update (fun _ b => b.interactiveCalls) s.bridges i b
  refine ⟨?_, ?_, fun p => ?_, ?_, ?_, fun p => ?_⟩
  · rw [hglobal, h.global]
    simp only [running]
    omega
  · rw [hinteractive, h.interactive]
    simp only [runningInteractive]
    omega
  · have hfor := sum_update
      (fun j b => if (opts j).pluginId = p then b.calls.length else 0) s.bridges i b
    rw [hplugins, h.plugin]
    simp only [runningFor] at hfor ⊢
    by_cases hp : (opts i).pluginId = p
    · simp only [hp, if_true] at hfor ⊢
      omega
    · simp only [hp, if_false] at hfor ⊢
      omega
  · rw [hglobal]
    omega
  · rw [hinteractive]
    cases hcall : call.interactive with
    | true =>
        have hlt := hfree hcall
        simp only [if_true]
        omega
    | false => exact h.interactive_le
  · rw [hplugins]
    split_ifs with hp
    · subst hp
      omega
    · exact h.plugin_le p

/-- An invocation settles and gives its slot back. -/
theorem SlotsExact.settle {call : Invocation} (h : SlotsExact opts s)
    (hcall : call ∈ (s.bridges i).calls) (hcalls : b.calls = (s.bridges i).calls.erase call) :
    SlotsExact opts {
      slots := s.slots.release (opts i).pluginId call.interactive
      bridges := Function.update s.bridges i b } := by
  have hpos : 0 < (s.bridges i).calls.length := List.length_pos_of_mem hcall
  have hlength : b.calls.length + 1 = (s.bridges i).calls.length := by
    rw [hcalls, List.length_erase_of_mem hcall]
    omega
  have hcount : b.interactiveCalls + (if call.interactive then 1 else 0) =
      (s.bridges i).interactiveCalls := by
    rw [Bridge.interactiveCalls, Bridge.interactiveCalls, hcalls, List.countP_erase]
    by_cases hinteractive : call.interactive = true
    · have hsome : 0 < (s.bridges i).calls.countP Invocation.interactive :=
        List.countP_pos_iff.mpr ⟨call, hcall, hinteractive⟩
      rw [if_pos ⟨hcall, hinteractive⟩, if_pos hinteractive]
      omega
    · rw [if_neg fun hboth => hinteractive hboth.2, if_neg hinteractive, Nat.sub_zero,
        Nat.add_zero]
  have hrunning := sum_update (fun _ b => b.calls.length) s.bridges i b
  have hrunningInteractive := sum_update (fun _ b => b.interactiveCalls) s.bridges i b
  have hcounted : 0 < (s.slots.plugin (opts i).pluginId).getD 0 := by
    rw [h.plugin, runningFor]
    refine Finset.sum_pos' (fun _ _ => Nat.zero_le _) ⟨i, Finset.mem_univ i, ?_⟩
    rwa [if_pos rfl]
  have hplugins := @InFlight.plugin_release _ _ call.interactive hcounted
  have hglobal := h.global
  have hinteractive := h.interactive
  have hglobal_le := h.global_le
  have hinteractive_le := h.interactive_le
  refine ⟨?_, ?_, fun p => ?_, ?_, ?_, fun p => ?_⟩
  · simp only [InFlight.release, running] at hglobal ⊢
    omega
  · simp only [InFlight.release, runningInteractive] at hinteractive ⊢
    split_ifs at hcount ⊢ <;> omega
  · have hfor := sum_update
      (fun j b => if (opts j).pluginId = p then b.calls.length else 0) s.bridges i b
    have hbefore := h.plugin p
    have hafter := hplugins p
    simp only [runningFor] at hfor hbefore ⊢
    by_cases hp : (opts i).pluginId = p
    · simp only [hp, if_true] at hfor hafter ⊢
      omega
    · simp only [hp, if_false] at hfor hafter ⊢
      omega
  · simp only [InFlight.release]
    omega
  · simp only [InFlight.release]
    split_ifs <;> omega
  · have hafter := hplugins p
    have hbefore := h.plugin_le p
    show ((s.slots.release _ _).plugin p).getD 0 ≤ _
    omega

/-- A message on a port starts an invocation or leaves the counters alone. -/
theorem SlotsExact.outcome {target : P} {m : PortMessage} {after : InFlight × Bridge W P R}
    (h : SlotsExact opts s)
    (houtcome : Bridge.PortOutcome (opts i) s.slots target m (s.bridges i) after) :
    SlotsExact opts { slots := after.1, bridges := Function.update s.bridges i after.2 } := by
  cases houtcome with
  | ignored => exact h.set rfl rfl
  | dropped count => exact h.set rfl rfl
  | rejected id text =>
      refine h.set ?_ ?_
      · simp [Bridge.reject]
      · simp [Bridge.reject, Bridge.interactiveCalls]
  | accepted id interactive reserved hactive hport hrequest hreserve =>
      exact h.start ⟨_, id, interactive, false⟩ hreserve rfl

/-! ## Every run -/

/-- The bridge of an event keeps its invariants, and the others are as they were. -/
theorem Consistent.update (h : Consistent opts s) {slots : InFlight}
    (hslots : SlotsExact opts { slots, bridges := Function.update s.bridges i b })
    (hanswering : b.Answering) (hexchanging : b.Exchanging (opts i)) :
    Consistent opts { slots, bridges := Function.update s.bridges i b } := by
  refine ⟨hslots, fun j => ?_, fun j => ?_⟩ <;> by_cases hj : j = i
  · subst hj
    simpa using hanswering
  · simpa [Function.update_of_ne hj] using h.answering j
  · subst hj
    simpa using hexchanging
  · simpa [Function.update_of_ne hj] using h.exchanging j

variable [DecidableEq W] [DecidableEq P]

end BridgeModule

end Useful.Client
