/-
# Billing webhooks

`Processor.Handle` of `services/internal/billing/billing.go` as a task over the tables of
the repository, in memory or in Postgres. An infrastructure error is no `ErrConflict`:
that a row is there already is a result of the call.

A log records for each write of an entitlement what it was made from, and each recorded
event remembers the task that recorded it; no call looks at either.
-/

import Useful.Math.Table
import Useful.Math.Tasks
import Useful.Server.Domain

namespace Useful.Server.Billing

open Useful.Math

/-! ## Rows -/

inductive EntitlementStatus
  | active
  | trialing
  | grace
  | pastDue
  | canceled
  | expired
  | revoked
  deriving DecidableEq, Repr

structure Entitlement where
  id : String
  subjectID : String
  productID : String
  planID : String
  toolScope : String
  status : EntitlementStatus
  startsAt : Int
  expiresAt : Option Int
  graceUntil : Option Int
  updatedAt : Int
  deriving DecidableEq

structure BillingEvent where
  eventID : String
  provider : String
  kind : String
  objectTime : Int
  processed : Bool
  receivedAt : Int
  deriving DecidableEq

structure Subscription where
  id : String
  customerID : String
  productID : String
  planID : String
  status : String
  objectTime : Int
  updatedAt : Int
  deriving DecidableEq

structure AuditEvent where
  atTime : Int
  actor : String
  action : String
  detail : String
  deriving DecidableEq

structure WebhookEvent where
  eventID : String
  kind : String
  subscriptionID : String
  customerID : String
  productID : String
  planID : String
  status : String
  objectTime : Int
  deriving DecidableEq

/-! ## Providers -/

/-- What `Processor` uses of a `BillingProvider`. -/
structure BillingProvider where
  name : String
  verifyWebhook : String → String → Except ServerError Unit
  parseWebhook : String → Except ServerError WebhookEvent
  normalizeSubscriptionState : String → EntitlementStatus

/-- `Fake.NormalizeSubscriptionState`. -/
def normalizeFake (providerStatus : String) : EntitlementStatus :=
  if providerStatus = "active" then .active
  else if providerStatus = "trialing" then .trialing
  else if providerStatus = "past_due" then .pastDue
  else if providerStatus = "canceled" then .canceled
  else if providerStatus = "revoked" then .revoked
  else .expired

/-- `Fake`, over the HMAC of a body in lower-case digits and `json.Unmarshal`. -/
def fake (hmacHex : String → String) (unmarshal : String → Option WebhookEvent) :
    BillingProvider where
  name := "fake"
  verifyWebhook body signature :=
    failIf (signature.toLower ≠ hmacHex body) (.forbidden "webhook 签名无效")
  parseWebhook body :=
    match unmarshal body with
    | none => .error (.invalidInput "webhook 体解析失败")
    | some ev => do
        failIf (ev.eventID = "" ∨ ev.subscriptionID = "") (.invalidInput "webhook 缺少必需字段")
        return ev
  normalizeSubscriptionState := normalizeFake

/-- Characters that are their own lower-case letters. -/
theorem toLower_ofList {chars : List Char} (h : chars.map Char.toLower = chars) :
    (String.ofList chars).toLower = String.ofList chars := by
  apply String.toList_inj.mp
  refine String.toList_map.trans ?_
  rw [String.toList_ofList, h]

section

variable {hmacHex : String → String} {unmarshal : String → Option WebhookEvent}
  {body signature : String} {ev : WebhookEvent}

theorem verify_fake (h : signature.toLower = hmacHex body) :
    (fake hmacHex unmarshal).verifyWebhook body signature = .ok () :=
  failIf_eq_ok.mpr (not_not.mpr h)

theorem parse_fake (h : unmarshal body = some ev)
    (hfields : ¬ (ev.eventID = "" ∨ ev.subscriptionID = "")) :
    (fake hmacHex unmarshal).parseWebhook body = .ok ev := by
  unfold fake
  simp only [h]
  exact bind_eq_ok.mpr ⟨⟨⟩, failIf_eq_ok.mpr hfields, rfl⟩

end

/-! ## The repository -/

inductive Backend
  | memory
  | postgres
  deriving DecidableEq, Repr

/-- What a write of an entitlement was made from: the event, the subscription it has
read, and the rows of the subscription and the entitlement at the time of the write. -/
structure EntitlementWrite where
  event : WebhookEvent
  read : Subscription
  current : Option Subscription
  previous : Option Entitlement
  now : Int

structure Store where
  events : Table BillingEvent BillingEvent.eventID
  subscriptions : Table Subscription Subscription.id
  entitlements : Table Entitlement Entitlement.id
  audit : List AuditEvent
  /-- The task that has recorded an event. -/
  recorder : String → Option Nat
  writes : List EntitlementWrite

abbrev Call (α : Type) := Store → Except ServerError α × Store

/-- `InsertEvent`. -/
def insertEvent (task : Nat) (row : BillingEvent) : Call Unit := fun w =>
  match w.events.find row.eventID with
  | some _ => (.error (.conflict ""), w)
  | none => (.ok (), { w with
      events := w.events.put row
      recorder := Function.update w.recorder row.eventID (some task) })

/-- `UpsertSubscription`: an older state never replaces a newer one. -/
def upsertSubscription (row : Subscription) : Call Unit := fun w =>
  match w.subscriptions.find row.id with
  | some current =>
      if row.objectTime > current.objectTime then
        (.ok (), { w with subscriptions := w.subscriptions.put row })
      else (.ok (), w)
  | none => (.ok (), { w with subscriptions := w.subscriptions.put row })

/-- `GetSubscription`. -/
def getSubscription (id : String) : Call Subscription := fun w =>
  (orFail (.notFound "") (w.subscriptions.find id), w)

/-- The row after `Entitlements().Upsert`: Postgres keeps the subject, product, plan,
scope and start of a row that is there. -/
def mergeEntitlement (backend : Backend) (previous : Option Entitlement) (ent : Entitlement) :
    Entitlement :=
  match backend, previous with
  | .postgres, some old => { old with
      status := ent.status
      expiresAt := ent.expiresAt
      graceUntil := ent.graceUntil
      updatedAt := ent.updatedAt }
  | _, _ => ent

/-- `Entitlements().Upsert`. -/
def upsertEntitlement (backend : Backend) (ev : WebhookEvent) (sub : Subscription)
    (ent : Entitlement) : Call Unit := fun w =>
  let previous := w.entitlements.find ent.id
  (.ok (), { w with
    entitlements := w.entitlements.put (mergeEntitlement backend previous ent)
    writes := ⟨ev, sub, w.subscriptions.find ev.subscriptionID, previous, ent.updatedAt⟩ ::
      w.writes })

/-- `MarkEventProcessed`. -/
def markEventProcessed (backend : Backend) (eventID : String) : Call Unit := fun w =>
  match w.events.find eventID with
  | some row => (.ok (), { w with events := w.events.put { row with processed := true } })
  | none =>
      match backend with
      | .memory => (.error (.notFound ""), w)
      | .postgres => (.ok (), w)

/-- `Audit().Append`. -/
def appendAudit (row : AuditEvent) : Call Unit := fun w =>
  (.ok (), { w with audit := w.audit ++ [row] })

/-! ## `Processor.Handle` -/

abbrev Work (α : Type) := Task Unit Store ServerError α

/-- A call with what the repository answers; the errors of the infrastructure end the
task. -/
def answer {α : Type} (f : Call α) : Work (Except ServerError α) :=
  Task.call () fun w => (.ok (f w).1, (f w).2)

/-- A call whose errors all end the task. -/
def query {α : Type} (f : Call α) : Work α := do
  let result ← answer f
  Task.ofExcept result

def eventRow (provider : BillingProvider) (ev : WebhookEvent) (now : Int) : BillingEvent where
  eventID := ev.eventID
  provider := provider.name
  kind := ev.kind
  objectTime := ev.objectTime
  processed := false
  receivedAt := now

def subscriptionRow (ev : WebhookEvent) (now : Int) : Subscription where
  id := ev.subscriptionID
  customerID := ev.customerID
  productID := ev.productID
  planID := ev.planID
  status := ev.status
  objectTime := ev.objectTime
  updatedAt := now

def entitlementID (subscriptionID : String) : String := "ent_" ++ subscriptionID

/-- The entitlement derived from the event and the subscription read back. -/
def entitlementRow (provider : BillingProvider) (ev : WebhookEvent) (sub : Subscription)
    (now : Int) : Entitlement :=
  let status := provider.normalizeSubscriptionState sub.status
  { id := entitlementID ev.subscriptionID
    subjectID := ev.customerID
    productID := ev.productID
    planID := ev.planID
    toolScope := "*"
    status := status
    startsAt := now
    expiresAt := none
    graceUntil := if status = .grace ∨ status = .pastDue then some (now + 7 * 24 * 3600) else none
    updatedAt := now }

def auditRow (provider : BillingProvider) (ev : WebhookEvent) (now : Int) : AuditEvent where
  atTime := now
  actor := "webhook:" ++ provider.name
  action := "billing." ++ ev.kind
  detail := "subscription=" ++ ev.subscriptionID

section

variable (backend : Backend) (provider : BillingProvider)

/-- What `Handle` does with an event it has just recorded. -/
def process (ev : WebhookEvent) (now : Int) : Work Unit := do
  query (upsertSubscription (subscriptionRow ev now))
  let sub ← query (getSubscription ev.subscriptionID)
  query (upsertEntitlement backend ev sub (entitlementRow provider ev sub now))
  query (markEventProcessed backend ev.eventID)
  let _ ← Task.attempt (query (appendAudit (auditRow provider ev now)))

/-- `Processor.Handle`: whether the event is a duplicate. -/
def handle (task : Nat) (body signature : String) (now : Int) : Work Bool := do
  Task.ofExcept (provider.verifyWebhook body signature)
  let ev ← Task.ofExcept (provider.parseWebhook body)
  match ← answer (insertEvent task (eventRow provider ev now)) with
  | .error e => if e.kind = .conflict then return true else Task.fail e
  | .ok _ => do
      process backend provider ev now
      return false

structure Delivery where
  body : String
  signature : String
  now : Int

/-- Any number of deliveries over one repository. -/
def processor : Machine Unit Store ServerError Delivery where
  start task delivery := do
    let _ ← handle backend provider task delivery.body delivery.signature delivery.now
  abandon _ w := w

end

/-- A delivery that the provider lets through records its event first. -/
theorem alone_handle {backend : Backend} {provider : BillingProvider} {body signature : String}
    {ev : WebhookEvent} (hverify : provider.verifyWebhook body signature = .ok ())
    (hparse : provider.parseWebhook body = .ok ev) (task : Nat) (now : Int)
    (replies : Nat → Reply ServerError) (w : Store) :
    (handle backend provider task body signature now).alone replies w =
      (do
        match ← answer (insertEvent task (eventRow provider ev now)) with
        | .error e => if e.kind = .conflict then return true else Task.fail e
        | .ok _ => do
            process backend provider ev now
            return false : Work Bool).alone replies w := by
  unfold handle
  rw [hverify, hparse]
  rfl

/-! ## Two webhooks of one subscription -/

namespace Sample

/-- Canceled on a yearly plan. -/
def newer : WebhookEvent where
  eventID := "evt_new"
  kind := "subscription.updated"
  subscriptionID := "sub_1"
  customerID := "cus_1"
  productID := "prod_pro"
  planID := "plan_year"
  status := "canceled"
  objectTime := 1767229200

/-- Active on a monthly plan, an hour before. -/
def older : WebhookEvent where
  eventID := "evt_old"
  kind := "subscription.updated"
  subscriptionID := "sub_1"
  customerID := "cus_1"
  productID := "prod_pro"
  planID := "plan_month"
  status := "active"
  objectTime := 1767225600

@[irreducible] def newerBody : String :=
  "\x7b\"eventId\":\"evt_new\",\"kind\":\"subscription.updated\",\"subscriptionId\":\"sub_1\",\"customerId\":\"cus_1\",\"productId\":\"prod_pro\",\"planId\":\"plan_year\",\"status\":\"canceled\",\"objectTime\":\"2026-01-01T01:00:00Z\"\x7d"

@[irreducible] def olderBody : String :=
  "\x7b\"eventId\":\"evt_old\",\"kind\":\"subscription.updated\",\"subscriptionId\":\"sub_1\",\"customerId\":\"cus_1\",\"productId\":\"prod_pro\",\"planId\":\"plan_month\",\"status\":\"active\",\"objectTime\":\"2026-01-01T00:00:00Z\"\x7d"

def newerSignature : String :=
  "70125b25762e5b09c5ed79f4c0a2aa37db5580ee25232876aa634e3c5c9f290f"

def olderSignature : String :=
  "78471d617c01b516eb7607dd5557194ced427263eca166831b0430787da92b02"

/-- HMAC-SHA256 of the two bodies under the secret `test-secret`. -/
def hmacHex (body : String) : String :=
  if body = newerBody then newerSignature else if body = olderBody then olderSignature else ""

/-- `json.Unmarshal` of the two bodies. -/
def unmarshal (body : String) : Option WebhookEvent :=
  if body = newerBody then some newer else if body = olderBody then some older else none

abbrev provider : BillingProvider := fake hmacHex unmarshal

theorem olderBody_ne_newerBody : olderBody ≠ newerBody := by
  simp [olderBody, newerBody]

theorem toLower_newerSignature : newerSignature.toLower = newerSignature := by
  apply toLower_ofList
  decide

theorem toLower_olderSignature : olderSignature.toLower = olderSignature := by
  apply toLower_ofList
  decide

theorem verify_newer : provider.verifyWebhook newerBody newerSignature = .ok () := by
  have hhmac : hmacHex newerBody = newerSignature := if_pos rfl
  exact verify_fake (toLower_newerSignature.trans hhmac.symm)

theorem verify_older : provider.verifyWebhook olderBody olderSignature = .ok () := by
  have hhmac : hmacHex olderBody = olderSignature :=
    (if_neg olderBody_ne_newerBody).trans (if_pos rfl)
  exact verify_fake (toLower_olderSignature.trans hhmac.symm)

theorem parse_newer : provider.parseWebhook newerBody = .ok newer := by
  have hunmarshal : unmarshal newerBody = some newer := if_pos rfl
  have hfields : ¬ (newer.eventID = "" ∨ newer.subscriptionID = "") := by simp [newer]
  unfold provider
  exact parse_fake hunmarshal hfields

theorem parse_older : provider.parseWebhook olderBody = .ok older := by
  have hunmarshal : unmarshal olderBody = some older :=
    (if_neg olderBody_ne_newerBody).trans (if_pos rfl)
  have hfields : ¬ (older.eventID = "" ∨ older.subscriptionID = "") := by simp [older]
  unfold provider
  exact parse_fake hunmarshal hfields

def newerDelivery : Delivery := ⟨newerBody, newerSignature, 1767229300⟩

def olderDelivery : Delivery := ⟨olderBody, olderSignature, 1767229400⟩

/-- A repository without rows. -/
def store : Store where
  events := ∅
  subscriptions := ∅
  entitlements := ∅
  audit := []
  recorder _ := none
  writes := []

/-- The store, in memory, once an event has been handled that was not recorded. -/
def handled (task : Nat) (ev : WebhookEvent) (now : Int) (w : Store) : Store :=
  let inserted := (insertEvent task (eventRow provider ev now) w).2
  let stored := (upsertSubscription (subscriptionRow ev now) inserted).2
  let entitled := match stored.subscriptions.find ev.subscriptionID with
    | some sub => (upsertEntitlement .memory ev sub (entitlementRow provider ev sub now) stored).2
    | none => stored
  let marked := (markEventProcessed .memory ev.eventID entitled).2
  (appendAudit (auditRow provider ev now) marked).2

end Sample

end Useful.Server.Billing
