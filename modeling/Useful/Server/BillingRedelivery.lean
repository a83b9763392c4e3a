/-
# Webhooks delivered again

A handler records the event before it does anything else, and a recorded event is a
duplicate from then on. So an event is lost when its first handler fails between the two:
the provider delivers it again, and nobody processes it. It is kept exactly when the first
attempt that records it gets as far as marking it processed.
-/

import Useful.Server.Billing

namespace Useful.Server.Billing

open Useful.Math

/-! ## Attempts -/

/-- One delivery of an event, with the faults of its calls. -/
structure Attempt where
  now : Int
  replies : Nat → Reply ServerError

/-- A call that goes as it should. -/
def Proceeds : Reply ServerError → Prop
  | .proceed => True
  | _ => False

/-- A call without effect. -/
def Refuses : Reply ServerError → Prop
  | .refuse _ => True
  | _ => False

instance (reply : Reply ServerError) : Decidable (Proceeds reply) :=
  match reply with
  | .proceed => inferInstanceAs (Decidable True)
  | .refuse _ => inferInstanceAs (Decidable False)
  | .lose _ => inferInstanceAs (Decidable False)

instance (reply : Reply ServerError) : Decidable (Refuses reply) :=
  match reply with
  | .proceed => inferInstanceAs (Decidable False)
  | .refuse _ => inferInstanceAs (Decidable True)
  | .lose _ => inferInstanceAs (Decidable False)

section

variable (backend : Backend) (provider : BillingProvider) (body signature : String)

/-- Handle one delivery while nothing else happens. -/
def attemptOnce (a : Attempt) (w : Store) : Except ServerError Bool × Store :=
  let run := (handle backend provider 0 body signature a.now).alone a.replies w
  (run.1, run.2.2)

/-- Deliver again until `Handle` returns without error. -/
inductive Redelivered : Store → List Attempt → Bool → Store → Prop
  | returned {w w' : Store} {a : Attempt} {duplicate : Bool}
      (ok : attemptOnce backend provider body signature a w = (.ok duplicate, w')) :
      Redelivered w [a] duplicate w'
  | again {w mid w' : Store} {a : Attempt} {attempts : List Attempt} {duplicate : Bool}
      {e : ServerError}
      (failed : attemptOnce backend provider body signature a w = (.error e, mid))
      (rest : Redelivered mid attempts duplicate w') :
      Redelivered w (a :: attempts) duplicate w'

/-- The subscription and entitlement are those of a single undisturbed delivery, and the
event was reported as a duplicate only if it had been processed. -/
def Kept (ev : WebhookEvent) (w : Store) (attempts : List Attempt) (duplicate : Bool)
    (w' : Store) : Prop :=
  (∃ a ∈ attempts,
    let once := (attemptOnce backend provider body signature ⟨a.now, fun _ => .proceed⟩ w).2
    w'.subscriptions = once.subscriptions ∧ w'.entitlements = once.entitlements) ∧
  (duplicate = true → ∃ row, w'.events.find ev.eventID = some row ∧ row.processed = true)

end

/-- The attempt marks the event processed: of its five calls only the report of the last
one may get lost. -/
def Attempt.Completes (a : Attempt) : Prop :=
  Proceeds (a.replies 0) ∧ Proceeds (a.replies 1) ∧ Proceeds (a.replies 2) ∧
    Proceeds (a.replies 3) ∧ ¬ Refuses (a.replies 4)

/-- An event recorded before is processed; otherwise the first attempt that records it
completes. -/
def Unbroken (ev : WebhookEvent) (w : Store) (attempts : List Attempt) : Prop :=
  match w.events.find ev.eventID with
  | some row => row.processed = true
  | none => ∀ a, attempts.find? (fun a => ¬ Refuses (a.replies 0)) = some a → a.Completes

/-! ## One attempt -/

section

variable {backend : Backend} {provider : BillingProvider} {body signature : String}
  {ev : WebhookEvent} {w : Store}

theorem alone_answer {α : Type} (f : Call α) (replies : Nat → Reply ServerError) (w : Store) :
    (answer f).alone replies w =
      match replies 0 with
      | .proceed => (.ok (f w).1, (fun k => replies (k + 1)), (f w).2)
      | .refuse e => (.error e, (fun k => replies (k + 1)), w)
      | .lose e => (.error e, (fun k => replies (k + 1)), (f w).2) := by
  unfold answer
  rw [Task.alone_call]
  cases replies 0 with
  | proceed => rfl
  | refuse e => rfl
  | lose e => rfl

theorem alone_query {α : Type} (f : Call α) (replies : Nat → Reply ServerError) (w : Store) :
    (query f).alone replies w =
      match replies 0 with
      | .proceed => ((f w).1, (fun k => replies (k + 1)), (f w).2)
      | .refuse e => (.error e, (fun k => replies (k + 1)), w)
      | .lose e => (.error e, (fun k => replies (k + 1)), (f w).2) := by
  unfold query
  rw [Task.alone_bind, alone_answer]
  cases replies 0 with
  | proceed => rfl
  | refuse e => rfl
  | lose e => rfl

/-- A call that goes as it should, then the rest. -/
theorem alone_query_proceeds {α γ : Type} {f : Call α} {g : α → Work γ}
    {replies : Nat → Reply ServerError} {w w' : Store} {a : α} (h : Proceeds (replies 0))
    (hf : f w = (.ok a, w')) :
    (query f >>= g).alone replies w = (g a).alone (fun k => replies (k + 1)) w' := by
  rw [Task.alone_bind, alone_query]
  cases hreply : replies 0 with
  | proceed =>
      simp only [hf]
  | refuse e =>
      rw [hreply] at h
      exact h.elim
  | lose e =>
      rw [hreply] at h
      exact h.elim

/-- A call that fails ends the task, before or after its effect. -/
theorem alone_query_fails {α γ : Type} {f : Call α} {g : α → Work γ}
    {replies : Nat → Reply ServerError} {w : Store} {P : Store → Prop}
    (h : ¬ Proceeds (replies 0)) (hbefore : P w) (hafter : ¬ Refuses (replies 0) → P (f w).2) :
    ∃ e rest w', (query f >>= g).alone replies w = (.error e, rest, w') ∧ P w' := by
  rw [Task.alone_bind, alone_query]
  cases hreply : replies 0 with
  | proceed =>
      rw [hreply] at h
      exact absurd trivial h
  | refuse e => exact ⟨e, _, w, rfl, hbefore⟩
  | lose e =>
      rw [hreply] at hafter
      exact ⟨e, _, (f w).2, rfl, hafter fun hrefuses => hrefuses⟩

/-- An event that is recorded is a duplicate, whatever happens. -/
theorem attemptOnce_recorded {row : BillingEvent} (hverify : provider.verifyWebhook body signature = .ok ())
    (hparse : provider.parseWebhook body = .ok ev) (hrow : w.events.find ev.eventID = some row)
    (a : Attempt) :
    attemptOnce backend provider body signature a w =
      match a.replies 0 with
      | .proceed => (.ok true, w)
      | .refuse e => (.error e, w)
      | .lose e => (.error e, w) := by
  have hinsert : insertEvent 0 (eventRow provider ev a.now) w = (.error (.conflict ""), w) := by
    unfold insertEvent
    rw [show (eventRow provider ev a.now).eventID = ev.eventID from rfl, hrow]
  unfold attemptOnce handle
  rw [hverify, hparse]
  simp only [Task.alone_bind, Task.alone_ofExcept, alone_answer, hinsert]
  cases a.replies 0 with
  | proceed => rfl
  | refuse e => rfl
  | lose e => rfl

/-- The store once the event has been recorded. -/
def recorded (provider : BillingProvider) (ev : WebhookEvent) (now : Int) (w : Store) : Store :=
  (insertEvent 0 (eventRow provider ev now) w).2

theorem recorded_events {now : Int} (hnew : w.events.find ev.eventID = none) :
    (recorded provider ev now w).events.find ev.eventID = some (eventRow provider ev now) := by
  have hself : ∀ row : BillingEvent, row.eventID = ev.eventID →
      (w.events.put row).find ev.eventID = some row := fun row hrow => hrow ▸ Table.find_put_self
  unfold recorded insertEvent
  rw [show (eventRow provider ev now).eventID = ev.eventID from rfl, hnew]
  exact hself _ rfl

theorem attemptOnce_new (hverify : provider.verifyWebhook body signature = .ok ())
    (hparse : provider.parseWebhook body = .ok ev) (hnew : w.events.find ev.eventID = none)
    (a : Attempt) :
    attemptOnce backend provider body signature a w =
      match a.replies 0 with
      | .proceed =>
          let run := (process backend provider ev a.now).alone (fun k => a.replies (k + 1))
            (recorded provider ev a.now w)
          (run.1.map fun _ => false, run.2.2)
      | .refuse e => (.error e, w)
      | .lose e => (.error e, recorded provider ev a.now w) := by
  have hinsert : (insertEvent 0 (eventRow provider ev a.now) w).1 = .ok () := by
    unfold insertEvent
    rw [show (eventRow provider ev a.now).eventID = ev.eventID from rfl, hnew]
  unfold attemptOnce handle
  rw [hverify, hparse]
  simp only [Task.alone_bind, Task.alone_ofExcept, alone_answer]
  cases a.replies 0 with
  | proceed =>
      simp only [hinsert, Task.alone_bind]
      rw [show (insertEvent 0 (eventRow provider ev a.now) w).2 = recorded provider ev a.now w from rfl]
      cases (process backend provider ev a.now).alone (fun k => a.replies (k + 1))
        (recorded provider ev a.now w) with
      | mk outcome rest =>
          cases outcome with
          | ok _ => rfl
          | error e => rfl
  | refuse e => rfl
  | lose e => rfl

/-! ## Processing -/

/-- A subscription that has been upserted can be read back. -/
theorem exists_subscription (ev : WebhookEvent) (now : Int) (w : Store) : ∃ sub,
    (upsertSubscription (subscriptionRow ev now) w).2.subscriptions.find ev.subscriptionID =
      some sub := by
  have hself : (w.subscriptions.put (subscriptionRow ev now)).find ev.subscriptionID =
      some (subscriptionRow ev now) := Table.find_put_self
  unfold upsertSubscription
  cases hfind : w.subscriptions.find (subscriptionRow ev now).id with
  | none => exact ⟨_, hself⟩
  | some current =>
      simp only
      split
      · exact ⟨_, hself⟩
      · exact ⟨current, hfind⟩

theorem events_upsertSubscription (row : Subscription) (w : Store) :
    (upsertSubscription row w).2.events = w.events := by
  unfold upsertSubscription
  split
  · split
    · rfl
    · rfl
  · rfl

theorem markEventProcessed_found {row : BillingEvent} (hrow : w.events.find ev.eventID = some row) :
    markEventProcessed backend ev.eventID w =
      (.ok (), { w with events := w.events.put { row with processed := true } }) := by
  unfold markEventProcessed
  rw [hrow]

/-- The store once the entitlement has been written, with the subscription read. -/
def written (backend : Backend) (provider : BillingProvider) (ev : WebhookEvent) (now : Int)
    (sub : Subscription) (w : Store) : Store :=
  (upsertEntitlement backend ev sub (entitlementRow provider ev sub now)
    (upsertSubscription (subscriptionRow ev now) w).2).2

section

variable {row : BillingEvent} {now : Int} {sub : Subscription} {replies : Nat → Reply ServerError}

theorem not_proceeds_of_refuses {reply : Reply ServerError} (h : Refuses reply) :
    ¬ Proceeds reply := by
  cases reply with
  | proceed => exact h.elim
  | refuse e => exact fun hproceeds => hproceeds
  | lose e => exact h.elim

theorem upsertSubscription_ok (row : Subscription) (w : Store) :
    upsertSubscription row w = (.ok (), (upsertSubscription row w).2) := by
  unfold upsertSubscription
  split
  · split
    · rfl
    · rfl
  · rfl

theorem getSubscription_ok {id : String} (hsub : w.subscriptions.find id = some sub) :
    getSubscription id w = (.ok sub, w) := by
  unfold getSubscription
  rw [hsub]
  rfl

/-- The rest of `process` once the entitlement has been written. -/
def finish (backend : Backend) (provider : BillingProvider) (ev : WebhookEvent) (now : Int) :
    Work Unit := do
  query (markEventProcessed backend ev.eventID)
  let _ ← Task.attempt (query (appendAudit (auditRow provider ev now)))

/-- When the first three calls go as they should, the handler comes to mark the event. -/
theorem alone_process (hsub : (upsertSubscription (subscriptionRow ev now) w).2.subscriptions.find
      ev.subscriptionID = some sub) (hupsert : Proceeds (replies 0)) (hget : Proceeds (replies 1))
    (hwrite : Proceeds (replies 2)) :
    (process backend provider ev now).alone replies w =
      (finish backend provider ev now).alone (fun k => replies (k + 3))
        (written backend provider ev now sub w) := by
  have hwritten : upsertEntitlement backend ev sub (entitlementRow provider ev sub now)
      (upsertSubscription (subscriptionRow ev now) w).2 =
      (.ok (), written backend provider ev now sub w) := rfl
  unfold process
  rw [alone_query_proceeds hupsert (upsertSubscription_ok _ w),
    alone_query_proceeds hget (getSubscription_ok hsub), alone_query_proceeds hwrite hwritten]
  rfl

theorem upserted_events (hrow : w.events.find ev.eventID = some row) :
    (upsertSubscription (subscriptionRow ev now) w).2.events.find ev.eventID = some row := by
  rw [events_upsertSubscription]
  exact hrow

/-- A failure before the event is marked leaves its row as it was. -/
theorem process_fails (hrow : w.events.find ev.eventID = some row)
    (h : ¬ (Proceeds (replies 0) ∧ Proceeds (replies 1) ∧ Proceeds (replies 2) ∧
      ¬ Refuses (replies 3))) : ∃ e rest w',
    (process backend provider ev now).alone replies w = (.error e, rest, w') ∧
      w'.events.find ev.eventID = some row := by
  have hupserted : (upsertSubscription (subscriptionRow ev now) w).2.events.find ev.eventID =
      some row := upserted_events hrow
  obtain ⟨sub, hsub⟩ := exists_subscription ev now w
  by_cases hupsert : Proceeds (replies 0)
  · by_cases hget : Proceeds (replies 1)
    · by_cases hwrite : Proceeds (replies 2)
      · have hrefuses : Refuses (replies 3) := by
          by_contra hne
          exact h ⟨hupsert, hget, hwrite, hne⟩
        rw [alone_process hsub hupsert hget hwrite]
        apply alone_query_fails
        · exact not_proceeds_of_refuses hrefuses
        · exact hupserted
        · exact fun hne => absurd hrefuses hne
      · unfold process
        rw [alone_query_proceeds hupsert (upsertSubscription_ok _ w),
          alone_query_proceeds hget (getSubscription_ok hsub)]
        exact alone_query_fails hwrite hupserted fun _ => hupserted
    · unfold process
      rw [alone_query_proceeds hupsert (upsertSubscription_ok _ w)]
      exact alone_query_fails hget hupserted fun _ => hupserted
  · exact alone_query_fails hupsert hrow fun _ => hupserted

/-- The audit changes nothing but the audit, and its failure is ignored. -/
theorem alone_appendAudit (entry : AuditEvent) (replies : Nat → Reply ServerError) (w : Store) :
    ∃ rest audit, (do
        let _ ← Task.attempt (query (appendAudit entry)) : Work Unit).alone replies w =
      (.ok (), rest, { w with audit := audit }) := by
  rw [Task.alone_bind, Task.alone_attempt, alone_query]
  cases replies 0 with
  | proceed => exact ⟨_, w.audit ++ [entry], rfl⟩
  | refuse e => exact ⟨_, w.audit, rfl⟩
  | lose e => exact ⟨_, w.audit ++ [entry], rfl⟩

/-- The rows are those of another store, and the event is processed. -/
structure Done (ev : WebhookEvent) (target w : Store) : Prop where
  subscriptions : w.subscriptions = target.subscriptions
  entitlements : w.entitlements = target.entitlements
  marked : ∃ row, w.events.find ev.eventID = some row ∧ row.processed = true

/-- Once the entitlement has been written, it is enough that the event gets marked. -/
theorem alone_finish (hrow : w.events.find ev.eventID = some row) (h : ¬ Refuses (replies 0)) :
    Done ev w ((finish backend provider ev now).alone replies w).2.2 ∧
      (Proceeds (replies 0) → ((finish backend provider ev now).alone replies w).1 = .ok ()) := by
  have hdone : ∀ audit, Done ev w { w with
      events := w.events.put { row with processed := true }, audit := audit } := by
    have hself : ∀ marked : BillingEvent, marked.eventID = ev.eventID →
        (w.events.put marked).find ev.eventID = some marked :=
      fun marked hid => hid ▸ Table.find_put_self
    exact fun _ => ⟨rfl, rfl, _, hself _ (Table.find_eq_some.mp hrow).2, rfl⟩
  have hmark : markEventProcessed backend ev.eventID w =
      (.ok (), { w with events := w.events.put { row with processed := true } }) :=
    markEventProcessed_found hrow
  unfold finish
  by_cases hproceeds : Proceeds (replies 0)
  · rw [alone_query_proceeds hproceeds hmark]
    obtain ⟨rest, audit, hrun⟩ := alone_appendAudit (auditRow provider ev now)
      (fun k => replies (k + 1)) { w with events := w.events.put { row with processed := true } }
    rw [hrun]
    exact ⟨hdone audit, fun _ => rfl⟩
  · rw [Task.alone_bind, alone_query, hmark]
    cases hreply : replies 0 with
    | proceed =>
        rw [hreply] at hproceeds
        exact absurd trivial hproceeds
    | refuse e =>
        rw [hreply] at h
        exact absurd trivial h
    | lose e => exact ⟨hdone w.audit, fun hlost => hlost.elim⟩

/-! ## One attempt at a new event -/

/-- An attempt that completes leaves the rows of an undisturbed delivery. -/
theorem attemptOnce_completes (hverify : provider.verifyWebhook body signature = .ok ())
    (hparse : provider.parseWebhook body = .ok ev) (hnew : w.events.find ev.eventID = none)
    (hsub : (upsertSubscription (subscriptionRow ev now) (recorded provider ev now w)).2.subscriptions.find
      ev.subscriptionID = some sub) {a : Attempt} (hnow : a.now = now) (h : a.Completes) :
    Done ev (written backend provider ev now sub (recorded provider ev now w))
        (attemptOnce backend provider body signature a w).2 ∧
      (Proceeds (a.replies 4) →
        (attemptOnce backend provider body signature a w).1 = .ok false) := by
  subst hnow
  obtain ⟨hinsert, hupsert, hget, hwrite, hmark⟩ := h
  have hrow : (written backend provider ev a.now sub (recorded provider ev a.now w)).events.find
      ev.eventID = some (eventRow provider ev a.now) := upserted_events (recorded_events hnew)
  have hprocess : (process backend provider ev a.now).alone (fun k => a.replies (k + 1))
        (recorded provider ev a.now w) =
      (finish backend provider ev a.now).alone (fun k => a.replies (k + 3 + 1))
        (written backend provider ev a.now sub (recorded provider ev a.now w)) :=
    alone_process hsub hupsert hget hwrite
  have hfinish : Done ev (written backend provider ev a.now sub (recorded provider ev a.now w))
      ((finish backend provider ev a.now).alone (fun k => a.replies (k + 3 + 1))
        (written backend provider ev a.now sub (recorded provider ev a.now w))).2.2 ∧ _ :=
    alone_finish hrow hmark
  rw [attemptOnce_new hverify hparse hnew]
  cases hreply : a.replies 0 with
  | proceed =>
      simp only [hprocess]
      refine ⟨hfinish.1, fun hproceeds => ?_⟩
      rw [hfinish.2 hproceeds]
      rfl
  | refuse e =>
      rw [hreply] at hinsert
      exact hinsert.elim
  | lose e =>
      rw [hreply] at hinsert
      exact hinsert.elim

/-- An attempt that records the event and does not complete fails, and leaves the event
unprocessed. -/
theorem attemptOnce_breaks (hverify : provider.verifyWebhook body signature = .ok ())
    (hparse : provider.parseWebhook body = .ok ev) (hnew : w.events.find ev.eventID = none)
    {a : Attempt} (hinsert : ¬ Refuses (a.replies 0)) (h : ¬ a.Completes) : ∃ e w',
    attemptOnce backend provider body signature a w = (.error e, w') ∧
      w'.events.find ev.eventID = some (eventRow provider ev a.now) := by
  have hrecorded : (recorded provider ev a.now w).events.find ev.eventID =
      some (eventRow provider ev a.now) := recorded_events hnew
  rw [attemptOnce_new hverify hparse hnew]
  cases hreply : a.replies 0 with
  | refuse e =>
      rw [hreply] at hinsert
      exact absurd trivial hinsert
  | lose e => exact ⟨e, _, rfl, hrecorded⟩
  | proceed =>
      have hbreak : ¬ (Proceeds (a.replies (0 + 1)) ∧ Proceeds (a.replies (1 + 1)) ∧
          Proceeds (a.replies (2 + 1)) ∧ ¬ Refuses (a.replies (3 + 1))) := by
        intro hrest
        exact h ⟨by rw [hreply]; trivial, hrest⟩
      have hfails : ∃ e rest w', (process backend provider ev a.now).alone
            (fun k => a.replies (k + 1)) (recorded provider ev a.now w) = (.error e, rest, w') ∧
          w'.events.find ev.eventID = some (eventRow provider ev a.now) :=
        process_fails hrecorded hbreak
      obtain ⟨e, rest, w', hrun, hw'⟩ := hfails
      refine ⟨e, w', ?_, hw'⟩
      simp only [hrun]
      rfl

end

/-! ## All attempts -/

section

variable {w' : Store} {attempts : List Attempt} {duplicate : Bool}

/-- Once an event is recorded, nothing happens any more. -/
theorem Redelivered.of_recorded (hverify : provider.verifyWebhook body signature = .ok ())
    (hparse : provider.parseWebhook body = .ok ev)
    (h : Redelivered backend provider body signature w attempts duplicate w') {row : BillingEvent}
    (hrow : w.events.find ev.eventID = some row) : duplicate = true ∧ w' = w := by
  induction h with
  | @returned w w' a duplicate hok =>
      rw [attemptOnce_recorded hverify hparse hrow] at hok
      cases hreply : a.replies 0 with
      | proceed =>
          rw [hreply] at hok
          cases hok
          exact ⟨rfl, rfl⟩
      | refuse e =>
          rw [hreply] at hok
          cases hok
      | lose e =>
          rw [hreply] at hok
          cases hok
  | @again w mid w' a attempts duplicate e hfailed _ ih =>
      rw [attemptOnce_recorded hverify hparse hrow] at hfailed
      have hmid : mid = w := by
        cases hreply : a.replies 0 with
        | proceed =>
            rw [hreply] at hfailed
            cases hfailed
        | refuse e =>
            rw [hreply] at hfailed
            cases hfailed
            rfl
        | lose e =>
            rw [hreply] at hfailed
            cases hfailed
            rfl
      subst hmid
      exact ih hrow

theorem find_attempts_of_refuses {a : Attempt} (h : Refuses (a.replies 0)) :
    (a :: attempts).find? (fun a => ¬ Refuses (a.replies 0)) =
      attempts.find? (fun a => ¬ Refuses (a.replies 0)) :=
  List.find?_cons_of_neg (by simpa using h)

theorem find_attempts_self {a : Attempt} (h : ¬ Refuses (a.replies 0)) :
    (a :: attempts).find? (fun a => ¬ Refuses (a.replies 0)) = some a :=
  List.find?_cons_of_pos (by simpa using h)

/-- A refused attempt changes nothing. -/
theorem attemptOnce_refused (hverify : provider.verifyWebhook body signature = .ok ())
    (hparse : provider.parseWebhook body = .ok ev) (hnew : w.events.find ev.eventID = none)
    {a : Attempt} (h : Refuses (a.replies 0)) : ∃ e,
    attemptOnce backend provider body signature a w = (.error e, w) := by
  rw [attemptOnce_new hverify hparse hnew]
  cases hreply : a.replies 0 with
  | refuse e => exact ⟨e, rfl⟩
  | proceed =>
      rw [hreply] at h
      exact h.elim
  | lose e =>
      rw [hreply] at h
      exact h.elim

/-- If no unprocessed event is reported as a duplicate, no attempt has broken off. -/
theorem Redelivered.unbroken (hverify : provider.verifyWebhook body signature = .ok ())
    (hparse : provider.parseWebhook body = .ok ev)
    (h : Redelivered backend provider body signature w attempts duplicate w')
    (hprocessed : duplicate = true →
      ∃ row, w'.events.find ev.eventID = some row ∧ row.processed = true) :
    Unbroken ev w attempts := by
  unfold Unbroken
  cases hrow : w.events.find ev.eventID with
  | some row =>
      obtain ⟨hduplicate, hsame⟩ := h.of_recorded hverify hparse hrow
      obtain ⟨row', hrow', hdone⟩ := hprocessed hduplicate
      rw [hsame, hrow] at hrow'
      cases hrow'
      exact hdone
  | none =>
      simp only
      induction h with
      | @returned w w' a duplicate hok =>
          intro first hfirst
          by_cases hrefuses : Refuses (a.replies 0)
          · rw [find_attempts_of_refuses hrefuses] at hfirst
            cases hfirst
          · rw [find_attempts_self hrefuses] at hfirst
            cases hfirst
            by_contra hbreak
            have hfails : ∃ e mid, attemptOnce backend provider body signature a w = (.error e, mid) ∧
                mid.events.find ev.eventID = some (eventRow provider ev a.now) :=
              attemptOnce_breaks hverify hparse hrow hrefuses hbreak
            obtain ⟨e, mid, hfails, _⟩ := hfails
            rw [hfails] at hok
            cases hok
      | @again w mid w' a attempts duplicate e hfailed hrest ih =>
          intro first hfirst
          by_cases hrefuses : Refuses (a.replies 0)
          · have hsame : ∃ e, attemptOnce backend provider body signature a w = (.error e, w) :=
              attemptOnce_refused hverify hparse hrow hrefuses
            obtain ⟨e', hsame⟩ := hsame
            rw [hsame] at hfailed
            cases hfailed
            rw [find_attempts_of_refuses hrefuses] at hfirst
            exact ih hprocessed hrow first hfirst
          · rw [find_attempts_self hrefuses] at hfirst
            cases hfirst
            by_contra hbreak
            have hfails : ∃ e mid, attemptOnce backend provider body signature a w = (.error e, mid) ∧
                mid.events.find ev.eventID = some (eventRow provider ev a.now) :=
              attemptOnce_breaks hverify hparse hrow hrefuses hbreak
            obtain ⟨e', mid', hfails, hunprocessed⟩ := hfails
            rw [hfails] at hfailed
            cases hfailed
            obtain ⟨hduplicate, hsame⟩ := hrest.of_recorded hverify hparse hunprocessed
            obtain ⟨row', hrow', hdone⟩ := hprocessed hduplicate
            rw [hsame, hunprocessed] at hrow'
            cases hrow'
            cases hdone

/-- An attempt that completes, with nothing else failing, is an undisturbed delivery. -/
theorem Attempt.completes_of_proceed (now : Int) : (Attempt.mk now fun _ => .proceed).Completes :=
  ⟨trivial, trivial, trivial, trivial, fun hrefuses => hrefuses⟩

/-- An attempt that completes does what the undisturbed delivery does. -/
theorem attemptOnce_eq_undisturbed (hverify : provider.verifyWebhook body signature = .ok ())
    (hparse : provider.parseWebhook body = .ok ev) (hnew : w.events.find ev.eventID = none)
    {a : Attempt} (h : a.Completes) :
    Done ev (attemptOnce backend provider body signature ⟨a.now, fun _ => .proceed⟩ w).2
      (attemptOnce backend provider body signature a w).2 := by
  obtain ⟨sub, hsub⟩ := exists_subscription ev a.now (recorded provider ev a.now w)
  have hattempt : Done ev (written backend provider ev a.now sub (recorded provider ev a.now w))
      (attemptOnce backend provider body signature a w).2 :=
    (attemptOnce_completes hverify hparse hnew hsub rfl h).1
  have hnow : (Attempt.mk a.now fun _ => .proceed).now = a.now := rfl
  have honce : Done ev (written backend provider ev a.now sub (recorded provider ev a.now w))
      (attemptOnce backend provider body signature ⟨a.now, fun _ => .proceed⟩ w).2 :=
    (attemptOnce_completes hverify hparse hnew hsub hnow
      (Attempt.completes_of_proceed a.now)).1
  exact ⟨hattempt.subscriptions.trans honce.subscriptions.symm,
    hattempt.entitlements.trans honce.entitlements.symm, hattempt.marked⟩

/-- When no attempt breaks off, the first one that records the event does all the work. -/
theorem Redelivered.kept (hverify : provider.verifyWebhook body signature = .ok ())
    (hparse : provider.parseWebhook body = .ok ev)
    (h : Redelivered backend provider body signature w attempts duplicate w')
    (hunbroken : Unbroken ev w attempts) :
    Kept backend provider body signature ev w attempts duplicate w' := by
  unfold Unbroken at hunbroken
  cases hrow : w.events.find ev.eventID with
  | some row =>
      rw [hrow] at hunbroken
      obtain ⟨_, hsame⟩ := h.of_recorded hverify hparse hrow
      subst hsame
      have hfirst : ∃ a, a ∈ attempts := by
        cases h with
        | returned _ => exact ⟨_, List.mem_cons_self⟩
        | again _ _ => exact ⟨_, List.mem_cons_self⟩
      obtain ⟨a, ha⟩ := hfirst
      refine ⟨⟨a, ha, ?_⟩, fun _ => ⟨row, hrow, hunbroken⟩⟩
      rw [attemptOnce_recorded hverify hparse hrow]
      exact ⟨rfl, rfl⟩
  | none =>
      rw [hrow] at hunbroken
      simp only at hunbroken
      induction h with
      | @returned w w' a duplicate hok =>
          have hrecords : ¬ Refuses (a.replies 0) := by
            intro hrefuses
            have hsame : ∃ e, attemptOnce backend provider body signature a w = (.error e, w) :=
              attemptOnce_refused hverify hparse hrow hrefuses
            obtain ⟨e, hsame⟩ := hsame
            rw [hsame] at hok
            cases hok
          have hdone : Done ev
              (attemptOnce backend provider body signature ⟨a.now, fun _ => .proceed⟩ w).2
              (attemptOnce backend provider body signature a w).2 :=
            attemptOnce_eq_undisturbed hverify hparse hrow
              (hunbroken a (find_attempts_self hrecords))
          rw [hok] at hdone
          exact ⟨⟨a, List.mem_cons_self, hdone.subscriptions, hdone.entitlements⟩,
            fun _ => hdone.marked⟩
      | @again w mid w' a attempts duplicate e hfailed hrest ih =>
          by_cases hrefuses : Refuses (a.replies 0)
          · have hsame : ∃ e, attemptOnce backend provider body signature a w = (.error e, w) :=
              attemptOnce_refused hverify hparse hrow hrefuses
            obtain ⟨e', hsame⟩ := hsame
            rw [hsame] at hfailed
            cases hfailed
            rw [find_attempts_of_refuses hrefuses] at hunbroken
            obtain ⟨⟨b, hb, hrows⟩, hprocessed⟩ := ih hunbroken hrow
            exact ⟨⟨b, List.mem_cons_of_mem _ hb, hrows⟩, hprocessed⟩
          · have hdone : Done ev
                (attemptOnce backend provider body signature ⟨a.now, fun _ => .proceed⟩ w).2
                (attemptOnce backend provider body signature a w).2 :=
              attemptOnce_eq_undisturbed hverify hparse hrow
                (hunbroken a (find_attempts_self hrefuses))
            rw [hfailed] at hdone
            -- only the report was lost: the event is recorded, and nothing happens any more
            obtain ⟨row, hmarked, _⟩ := hdone.marked
            obtain ⟨_, hsame⟩ := hrest.of_recorded hverify hparse hmarked
            subst hsame
            exact ⟨⟨a, List.mem_cons_self, hdone.subscriptions, hdone.entitlements⟩,
              fun _ => hdone.marked⟩

/-- A failed webhook is not lost, and only a processed event is reported as a duplicate,
exactly when the first attempt that records the event completes. -/
theorem kept_iff_unbroken (hverify : provider.verifyWebhook body signature = .ok ())
    (hparse : provider.parseWebhook body = .ok ev)
    (h : Redelivered backend provider body signature w attempts duplicate w') :
    Kept backend provider body signature ev w attempts duplicate w' ↔ Unbroken ev w attempts :=
  ⟨fun hkept => h.unbroken hverify hparse hkept.2, h.kept hverify hparse⟩

end

end

namespace Sample

/-- A webhook whose subscription could not be written, and the provider's next try. -/
def failing : Attempt where
  now := 1767229300
  replies
    | 1 => .refuse ⟨.failure, ""⟩
    | _ => .proceed

def again : Attempt := ⟨1767229360, fun _ => .proceed⟩

/-- An undisturbed webhook is kept. -/
theorem kept_iff_unbroken_once : ∃ w', Redelivered .memory provider newerBody newerSignature store
    [again] false w' ∧ Kept .memory provider newerBody newerSignature newer store [again] false w' := by
  have honce : attemptOnce .memory provider newerBody newerSignature again store =
      (.ok false, handled 0 newer again.now store) := by
    unfold attemptOnce
    rw [alone_handle verify_newer parse_newer]
    rfl
  refine ⟨_, .returned honce, ?_⟩
  apply (kept_iff_unbroken verify_newer parse_newer (.returned honce)).mpr
  intro a ha
  cases ha
  exact Attempt.completes_of_proceed again.now

/-- The first attempt records the event and fails to write the subscription. The second one
reports a duplicate: the event is not processed, and there is no entitlement. -/
theorem failing_webhook_is_lost : ∃ w', Redelivered .memory provider newerBody newerSignature
      store [failing, again] true w' ∧
    (w'.events.find "evt_new").map BillingEvent.processed = some false ∧
    w'.entitlements.find "ent_sub_1" = none ∧
    ¬ Kept .memory provider newerBody newerSignature newer store [failing, again] true w' := by
  let lost := recorded provider newer failing.now store
  have hfirst : attemptOnce .memory provider newerBody newerSignature failing store =
      (.error ⟨.failure, ""⟩, lost) := by
    unfold attemptOnce
    rw [alone_handle verify_newer parse_newer]
    rfl
  have hsecond : attemptOnce .memory provider newerBody newerSignature again lost =
      (.ok true, lost) := by
    unfold attemptOnce
    rw [alone_handle verify_newer parse_newer]
    rfl
  have hprocessed : (lost.events.find "evt_new").map BillingEvent.processed = some false := rfl
  refine ⟨lost, .again hfirst (.returned hsecond), hprocessed, rfl, ?_⟩
  intro hkept
  obtain ⟨row, hrow, hdone⟩ := hkept.2 rfl
  rw [show newer.eventID = "evt_new" from rfl] at hrow
  rw [hrow] at hprocessed
  cases hdone.symm.trans (Option.some.inj hprocessed)

end Sample

end Useful.Server.Billing
