/-
# Where billing webhooks converge

The row of a subscription always ends up as the newest event has it, in whatever order
events come and however the calls of their handlers interleave. The entitlement does not:
it is written from the handled event and from a row read earlier, and the last write
wins. It agrees with the subscription exactly when that write was made from the customer,
product and plan of the row as it was then, and from a status that means the same.
-/

import Useful.Server.Billing

namespace Useful.Server.Billing

open Useful.Math Discipline

section

variable {backend : Backend} {provider : BillingProvider} {S : String} {evs : List WebhookEvent}
  {w w' : Store} {i : Nat} {ev : WebhookEvent}

/-! ## Progress and the invariant -/

/-- What a task may rely on: states only get newer, and nobody records in its name. -/
structure Progress (S : String) (i : Nat) (w w' : Store) : Prop where
  events : ∀ row ∈ w.events.rows, ∃ later ∈ w'.events.rows, later.eventID = row.eventID ∧
    (row.processed = true → later.processed = true)
  recorder : ∀ id, w'.recorder id = some i → w.recorder id = some i
  subscription : ∀ row, w.subscriptions.find S = some row →
    ∃ later, w'.subscriptions.find S = some later ∧ row.objectTime ≤ later.objectTime
  writes : ∀ write ∈ w.writes, write ∈ w'.writes

theorem Progress.refl (S : String) (i : Nat) (w : Store) : Progress S i w w where
  events row hrow := ⟨row, hrow, rfl, fun h => h⟩
  recorder _ h := h
  subscription row h := ⟨row, h, Int.le_refl _⟩
  writes _ h := h

theorem Progress.trans {u v w : Store} (huv : Progress S i u v) (hvw : Progress S i v w) :
    Progress S i u w where
  events row hrow := by
    obtain ⟨mid, hmid, hid, hprocessed⟩ := huv.events row hrow
    obtain ⟨later, hlater, hid', hprocessed'⟩ := hvw.events mid hmid
    exact ⟨later, hlater, hid'.trans hid, fun h => hprocessed' (hprocessed h)⟩
  recorder id h := huv.recorder id (hvw.recorder id h)
  subscription row h := by
    obtain ⟨mid, hmid, hle⟩ := huv.subscription row h
    obtain ⟨later, hlater, hle'⟩ := hvw.subscription mid hmid
    exact ⟨later, hlater, Int.le_trans hle hle'⟩
  writes write h := hvw.writes write (huv.writes write h)

/-- A row that one of the events has left. -/
def FromEvents (evs : List WebhookEvent) (row : Subscription) : Prop :=
  ∃ ev ∈ evs, ∃ now, row = subscriptionRow ev now

/-- A write of the entitlement that knew a state at least as new as some time. -/
def WrittenAfter (w : Store) (time : Int) : Prop :=
  ∃ write ∈ w.writes, ∃ cur, write.current = some cur ∧ time ≤ cur.objectTime

/-- What the last write has left. -/
def EntitlementWrite.row (backend : Backend) (provider : BillingProvider)
    (write : EntitlementWrite) : Entitlement :=
  mergeEntitlement backend write.previous
    (entitlementRow provider write.event write.read write.now)

/-- The store after any steps of handlers of the events of one subscription. -/
structure Consistent (backend : Backend) (provider : BillingProvider) (S : String)
    (evs : List WebhookEvent) (w : Store) : Prop where
  events : ∀ row ∈ w.events.rows, ∀ ev ∈ evs, row.eventID = ev.eventID →
    row.objectTime = ev.objectTime ∧ (∃ i, w.recorder row.eventID = some i) ∧
      (row.processed = true → WrittenAfter w row.objectTime)
  subscription : ∀ row, w.subscriptions.find S = some row → FromEvents evs row
  writes : ∀ write ∈ w.writes, ∃ cur, write.current = some cur ∧ FromEvents evs cur ∧
    ∃ row, w.subscriptions.find S = some row ∧ cur.objectTime ≤ row.objectTime
  sorted : w.writes.Pairwise fun later earlier => ∀ a b, later.current = some a →
    earlier.current = some b → b.objectTime ≤ a.objectTime
  entitlement : ∀ write, w.writes.head? = some write →
    w.entitlements.find (entitlementID S) = some (write.row backend provider)

/-- The discipline of handlers: no step needs a guard. -/
def converging (backend : Backend) (provider : BillingProvider) (S : String)
    (evs : List WebhookEvent) : Discipline Unit Store where
  inv := Consistent backend provider S evs
  rely := Progress S
  guard _ _ := True
  refl := Progress.refl S
  trans _ _ _ _ := Progress.trans

/-- The task has recorded nothing. -/
def Unrecorded (i : Nat) (w : Store) : Prop := ∀ id, w.recorder id ≠ some i

/-- The event is recorded, and all the task has recorded is processed. -/
def Handled (i : Nat) (ev : WebhookEvent) (w : Store) : Prop :=
  (∃ row ∈ w.events.rows, row.eventID = ev.eventID) ∧
    ∀ id, w.recorder id = some i → ∃ row ∈ w.events.rows, row.eventID = id ∧ row.processed = true

/-- The event is recorded, and the task has recorded no other. -/
def Recording (i : Nat) (ev : WebhookEvent) (w : Store) : Prop :=
  (∃ row ∈ w.events.rows, row.eventID = ev.eventID) ∧
    ∀ id, w.recorder id = some i → id = ev.eventID

/-- The subscription is at least as new as the event. -/
def Stored (S : String) (ev : WebhookEvent) (w : Store) : Prop :=
  ∃ row, w.subscriptions.find S = some row ∧ ev.objectTime ≤ row.objectTime

/-! ## What is known stays known -/

theorem Unrecorded.mono (h : Unrecorded i w) (hprogress : Progress S i w w') : Unrecorded i w' :=
  fun id hid => h id (hprogress.recorder id hid)

theorem Handled.mono (h : Handled i ev w) (hprogress : Progress S i w w') : Handled i ev w' := by
  obtain ⟨⟨row, hrow, hid⟩, hprocessed⟩ := h
  obtain ⟨later, hlater, hlaterId, _⟩ := hprogress.events row hrow
  refine ⟨⟨later, hlater, hlaterId.trans hid⟩, ?_⟩
  intro id hid
  obtain ⟨row, hrow, hrowId, hdone⟩ := hprocessed id (hprogress.recorder id hid)
  obtain ⟨later, hlater, hlaterId, hlaterDone⟩ := hprogress.events row hrow
  exact ⟨later, hlater, hlaterId.trans hrowId, hlaterDone hdone⟩

theorem Recording.mono (h : Recording i ev w) (hprogress : Progress S i w w') :
    Recording i ev w' := by
  obtain ⟨⟨row, hrow, hid⟩, honly⟩ := h
  obtain ⟨later, hlater, hlaterId, _⟩ := hprogress.events row hrow
  exact ⟨⟨later, hlater, hlaterId.trans hid⟩, fun id hid => honly id (hprogress.recorder id hid)⟩

theorem Stored.mono (h : Stored S ev w) (hprogress : Progress S i w w') : Stored S ev w' := by
  obtain ⟨row, hrow, hle⟩ := h
  obtain ⟨later, hlater, hle'⟩ := hprogress.subscription row hrow
  exact ⟨later, hlater, Int.le_trans hle hle'⟩

theorem WrittenAfter.mono {time : Int} (h : WrittenAfter w time) (hprogress : Progress S i w w') :
    WrittenAfter w' time := by
  obtain ⟨write, hwrite, hcur⟩ := h
  exact ⟨write, hprogress.writes write hwrite, hcur⟩

/-! ## What each call keeps -/

/-- Events with different identifiers, of one subscription. -/
structure OneSubscription (S : String) (evs : List WebhookEvent) : Prop where
  subscription : ∀ ev ∈ evs, ev.subscriptionID = S
  ids : ∀ a ∈ evs, ∀ b ∈ evs, a.eventID = b.eventID → a = b

theorem keeps_insertEvent {row : BillingEvent} (hevs : OneSubscription S evs) (hev : ev ∈ evs)
    (hid : row.eventID = ev.eventID) (htime : row.objectTime = ev.objectTime)
    (hprocessed : row.processed = false) (h : Consistent backend provider S evs w) :
    (converging backend provider S evs).Keeps i w (insertEvent i row w).2 := by
  unfold insertEvent
  cases hfind : w.events.find row.eventID with
  | some existing => exact keeps_refl h
  | none =>
      have hnew := Table.find_eq_none.mp hfind
      simp only
      constructor
      · refine ⟨?_, h.subscription, h.writes, h.sorted, h.entitlement⟩
        intro row' hmem ev' hev' hid'
        cases Table.mem_put.mp hmem with
        | inl heq =>
            rw [heq] at hid' ⊢
            have hsame : ev' = ev := hevs.ids ev' hev' ev hev (hid'.symm.trans hid)
            refine ⟨hsame ▸ htime, ⟨i, Function.update_self _ _ _⟩, ?_⟩
            intro hdone
            rw [hprocessed] at hdone
            cases hdone
        | inr hold =>
            obtain ⟨htime', hrecorder, hdone⟩ := h.events row' hold.1 ev' hev' hid'
            refine ⟨htime', ?_, hdone⟩
            simp only [Function.update_of_ne hold.2]
            exact hrecorder
      · intro j hj
        refine ⟨?_, ?_, fun row' hrow' => ⟨row', hrow', Int.le_refl _⟩, fun _ hmem => hmem⟩
        · intro row' hmem
          exact ⟨row', Table.mem_put.mpr (.inr ⟨hmem, hnew row' hmem⟩), rfl, fun hdone => hdone⟩
        · intro id hid'
          have hrecorder : Function.update w.recorder row.eventID (some i) id = some j := hid'
          by_cases heq : id = row.eventID
          · rw [heq, Function.update_self] at hrecorder
            exact absurd (Option.some.inj hrecorder).symm hj
          · rw [Function.update_of_ne heq] at hrecorder
            exact hrecorder

/-- Changes that nothing here depends on. -/
theorem keeps_of_eq (h : Consistent backend provider S evs w) (hevents : w'.events = w.events)
    (hrecorder : w'.recorder = w.recorder) (hsubscriptions : w'.subscriptions = w.subscriptions)
    (hentitlements : w'.entitlements = w.entitlements) (hwrites : w'.writes = w.writes) :
    (converging backend provider S evs).Keeps i w w' := by
  constructor
  · constructor
    · unfold WrittenAfter
      rw [hevents, hrecorder, hwrites]
      exact h.events
    · rw [hsubscriptions]
      exact h.subscription
    · rw [hsubscriptions, hwrites]
      exact h.writes
    · rw [hwrites]
      exact h.sorted
    · rw [hwrites, hentitlements]
      exact h.entitlement
  · intro j _
    constructor
    · rw [hevents]
      exact fun row hrow => ⟨row, hrow, rfl, fun hdone => hdone⟩
    · rw [hrecorder]
      exact fun _ hid => hid
    · rw [hsubscriptions]
      exact fun row hrow => ⟨row, hrow, Int.le_refl _⟩
    · rw [hwrites]
      exact fun _ hmem => hmem

/-- A newer row of the subscription. -/
theorem keeps_putSubscription {row : Subscription} (hid : row.id = S) (hrow : FromEvents evs row)
    (hnewer : ∀ current, w.subscriptions.find S = some current →
      current.objectTime ≤ row.objectTime) (h : Consistent backend provider S evs w) :
    (converging backend provider S evs).Keeps i w
      { w with subscriptions := w.subscriptions.put row } := by
  have hfind : (w.subscriptions.put row).find S = some row := hid ▸ Table.find_put_self
  constructor
  · refine ⟨h.events, ?_, ?_, h.sorted, h.entitlement⟩
    · intro row' hrow'
      cases hfind.symm.trans hrow'
      exact hrow
    · intro write hwrite
      obtain ⟨cur, hcur, hfrom, current, hcurrent, hle⟩ := h.writes write hwrite
      exact ⟨cur, hcur, hfrom, row, hfind, Int.le_trans hle (hnewer current hcurrent)⟩
  · intro j _
    refine ⟨fun row' hrow' => ⟨row', hrow', rfl, fun hdone => hdone⟩, fun _ hid' => hid', ?_,
      fun _ hmem => hmem⟩
    exact fun current hcurrent => ⟨row, hfind, hnewer current hcurrent⟩

theorem upsertSubscription_spec (now : Int) (hevs : OneSubscription S evs) (hev : ev ∈ evs)
    (h : Consistent backend provider S evs w) :
    (converging backend provider S evs).Keeps i w
        (upsertSubscription (subscriptionRow ev now) w).2 ∧
      Stored S ev (upsertSubscription (subscriptionRow ev now) w).2 := by
  have hid : (subscriptionRow ev now).id = S := hevs.subscription ev hev
  have hput : Stored S ev { w with
      subscriptions := w.subscriptions.put (subscriptionRow ev now) } :=
    ⟨subscriptionRow ev now, hid ▸ Table.find_put_self, Int.le_refl _⟩
  unfold upsertSubscription
  rw [hid]
  cases hfind : w.subscriptions.find S with
  | none =>
      refine ⟨keeps_putSubscription hid ⟨ev, hev, now, rfl⟩ ?_ h, hput⟩
      intro current hcurrent
      rw [hfind] at hcurrent
      cases hcurrent
  | some current =>
      simp only
      by_cases hnewer : (subscriptionRow ev now).objectTime > current.objectTime
      · rw [if_pos hnewer]
        refine ⟨keeps_putSubscription hid ⟨ev, hev, now, rfl⟩ ?_ h, hput⟩
        intro current' hcurrent'
        cases hfind.symm.trans hcurrent'
        exact Int.le_of_lt hnewer
      · rw [if_neg hnewer]
        exact ⟨keeps_refl h, current, hfind, Int.not_lt.mp hnewer⟩

theorem mergeEntitlement_id {previous : Option Entitlement} {ent : Entitlement}
    (h : ∀ old, previous = some old → old.id = ent.id) :
    (mergeEntitlement backend previous ent).id = ent.id := by
  unfold mergeEntitlement
  split
  · rename_i old
    exact h old rfl
  · rfl

theorem upsertEntitlement_spec (sub : Subscription) (now : Int) (hevs : OneSubscription S evs)
    (hev : ev ∈ evs) (hstored : Stored S ev w) (h : Consistent backend provider S evs w) :
    (converging backend provider S evs).Keeps i w
        (upsertEntitlement backend ev sub (entitlementRow provider ev sub now) w).2 ∧
      WrittenAfter (upsertEntitlement backend ev sub (entitlementRow provider ev sub now) w).2
        ev.objectTime := by
  obtain ⟨cur, hcur, hle⟩ := hstored
  have hS := hevs.subscription ev hev
  have hentID : (entitlementRow provider ev sub now).id = entitlementID S := by
    rw [← hS]
    rfl
  unfold upsertEntitlement
  simp only [hS, hentID, hcur]
  generalize hwrite : EntitlementWrite.mk ev sub (some cur) (w.entitlements.find (entitlementID S))
    (entitlementRow provider ev sub now).updatedAt = write
  have hcurrent : write.current = some cur := by
    rw [← hwrite]
  have hafter : WrittenAfter { w with
      entitlements := w.entitlements.put (mergeEntitlement backend
        (w.entitlements.find (entitlementID S)) (entitlementRow provider ev sub now))
      writes := write :: w.writes } ev.objectTime :=
    ⟨write, List.mem_cons_self, cur, hcurrent, hle⟩
  have hmono : ∀ time, WrittenAfter w time → WrittenAfter { w with
      entitlements := w.entitlements.put (mergeEntitlement backend
        (w.entitlements.find (entitlementID S)) (entitlementRow provider ev sub now))
      writes := write :: w.writes } time := by
    intro time hwritten
    obtain ⟨old, hold, hcur'⟩ := hwritten
    exact ⟨old, List.mem_cons_of_mem _ hold, hcur'⟩
  refine ⟨⟨⟨?_, h.subscription, ?_, ?_, ?_⟩, ?_⟩, hafter⟩
  · intro row hrow ev' hev' hid
    obtain ⟨htime, hrecorder, hdone⟩ := h.events row hrow ev' hev' hid
    exact ⟨htime, hrecorder, fun hprocessed => hmono _ (hdone hprocessed)⟩
  · intro old hold
    cases List.mem_cons.mp hold with
    | inl heq =>
        rw [heq]
        exact ⟨cur, hcurrent, h.subscription cur hcur, cur, hcur, Int.le_refl _⟩
    | inr hold => exact h.writes old hold
  · refine List.pairwise_cons.mpr ⟨?_, h.sorted⟩
    intro old hold a b ha hb
    cases hcurrent.symm.trans ha
    obtain ⟨cur', hcur', _, row, hrow, hle'⟩ := h.writes old hold
    cases hcur'.symm.trans hb
    cases hcur.symm.trans hrow
    exact hle'
  · intro head hhead
    cases Option.some.inj hhead
    have hid : (mergeEntitlement backend (w.entitlements.find (entitlementID S))
        (entitlementRow provider ev sub now)).id = entitlementID S := by
      rw [mergeEntitlement_id, hentID]
      intro old hold
      rw [hentID]
      exact (Table.find_eq_some.mp hold).2
    have hrow : write.row backend provider = mergeEntitlement backend
        (w.entitlements.find (entitlementID S)) (entitlementRow provider ev sub now) := by
      rw [← hwrite]
      rfl
    rw [hrow]
    have hself : ∀ merged : Entitlement, merged.id = entitlementID S →
        (w.entitlements.put merged).find (entitlementID S) = some merged :=
      fun merged hmerged => hmerged ▸ Table.find_put_self
    exact hself _ hid
  · intro j _
    exact ⟨fun row' hrow' => ⟨row', hrow', rfl, fun hdone => hdone⟩, fun _ hid' => hid',
      fun row' hrow' => ⟨row', hrow', Int.le_refl _⟩, fun _ hmem => List.mem_cons_of_mem _ hmem⟩

theorem markEventProcessed_spec (hevs : OneSubscription S evs) (hev : ev ∈ evs)
    (hrecording : Recording i ev w) (hwritten : WrittenAfter w ev.objectTime)
    (h : Consistent backend provider S evs w) :
    (converging backend provider S evs).Keeps i w (markEventProcessed backend ev.eventID w).2 ∧
      Handled i ev (markEventProcessed backend ev.eventID w).2 := by
  obtain ⟨⟨row, hrow, hid⟩, honly⟩ := hrecording
  have hfind : w.events.find ev.eventID = some row := Table.find_eq_some.mpr ⟨hrow, hid⟩
  unfold markEventProcessed
  rw [hfind]
  simp only
  refine ⟨⟨⟨?_, h.subscription, h.writes, h.sorted, h.entitlement⟩, ?_⟩, ?_⟩
  · intro row' hrow' ev' hev' hid'
    cases Table.mem_put.mp hrow' with
    | inl heq =>
        rw [heq] at hid' ⊢
        obtain ⟨htime, hrecorder, _⟩ := h.events row hrow ev' hev' hid'
        have hsame : ev' = ev := hevs.ids ev' hev' ev hev (hid'.symm.trans hid)
        refine ⟨htime, hrecorder, fun _ => ?_⟩
        show WrittenAfter w row.objectTime
        rw [htime, hsame]
        exact hwritten
    | inr hold => exact h.events row' hold.1 ev' hev' hid'
  · intro j _
    refine ⟨?_, fun _ hid' => hid', fun row' hrow' => ⟨row', hrow', Int.le_refl _⟩,
      fun _ hmem => hmem⟩
    intro row' hrow'
    by_cases hsame : row'.eventID = row.eventID
    · exact ⟨{ row with processed := true }, Table.mem_put.mpr (.inl rfl), hsame.symm, fun _ => rfl⟩
    · exact ⟨row', Table.mem_put.mpr (.inr ⟨hrow', hsame⟩), rfl, fun hdone => hdone⟩
  · refine ⟨⟨{ row with processed := true }, Table.mem_put.mpr (.inl rfl), hid⟩, ?_⟩
    intro id hrecorder
    exact ⟨{ row with processed := true }, Table.mem_put.mpr (.inl rfl),
      hid.trans (honly id hrecorder).symm, rfl⟩

/-! ## Handlers -/

section

variable {α : Type} {s : Store}

/-- A call that ends the task with an error makes no promise. -/
theorem ensures_answer {f : Call α} {Q : Except ServerError α → Store → Prop}
    (h : ∀ t, Progress S i s t → Consistent backend provider S evs t →
      (converging backend provider S evs).Keeps i t (f t).2 ∧ Q (f t).1 (f t).2) :
    (converging backend provider S evs).Ensures i (answer f) s Q fun _ _ => True := by
  apply ensures_call
  · exact fun t hrely ht _ => (h t hrely ht).1
  · intro t result hrely ht _ hresult
    cases hresult
    exact (h t hrely ht).2
  · exact fun _ _ _ _ _ => trivial
  · exact fun _ _ _ _ => trivial

theorem ensures_query {f : Call α} {Q : α → Store → Prop}
    (h : ∀ t, Progress S i s t → Consistent backend provider S evs t →
      (converging backend provider S evs).Keeps i t (f t).2 ∧
        ∀ a, (f t).1 = .ok a → Q a (f t).2) :
    (converging backend provider S evs).Ensures i (query f) s Q fun _ _ => True := by
  have hanswer : (converging backend provider S evs).Ensures i (answer f) s
      (fun result t => ∀ a, result = .ok a → Q a t) fun _ _ => True :=
    ensures_answer h
  apply hanswer.bind (fun _ _ => id)
  intro result t hresult
  exact ensures_ofExcept hresult fun _ _ => trivial

end

/-- The own steps of a task that record nothing keep what it knows. -/
theorem Recording.of_keeps (h : Recording i ev w)
    (hkeeps : (converging backend provider S evs).Keeps i w w')
    (hrecorder : w'.recorder = w.recorder) : Recording i ev w' := by
  obtain ⟨⟨row, hrow, hid⟩, honly⟩ := h
  obtain ⟨later, hlater, hlaterId, _⟩ := (hkeeps.2 (i + 1) (Nat.succ_ne_self i)).events row hrow
  exact ⟨⟨later, hlater, hlaterId.trans hid⟩, fun id hid' => honly id (hrecorder ▸ hid')⟩

theorem Stored.of_keeps (h : Stored S ev w)
    (hkeeps : (converging backend provider S evs).Keeps i w w') : Stored S ev w' :=
  h.mono (hkeeps.2 (i + 1) (Nat.succ_ne_self i))

theorem recorder_upsertSubscription (row : Subscription) (w : Store) :
    (upsertSubscription row w).2.recorder = w.recorder := by
  unfold upsertSubscription
  split
  · split
    · rfl
    · rfl
  · rfl

/-- The audit may fail: nothing depends on it. -/
theorem ensures_appendAudit {row : AuditEvent} {s : Store} (hs : Handled i ev s) :
    (converging backend provider S evs).Ensures i (Task.attempt (query (appendAudit row))) s
      (fun _ => Handled i ev) fun _ _ => True := by
  have hanswer : (converging backend provider S evs).Ensures i (answer (appendAudit row)) s
      (fun _ => Handled i ev) fun _ => Handled i ev := by
    apply ensures_call
    · exact fun t _ ht _ => keeps_of_eq ht rfl rfl rfl rfl rfl
    · exact fun t _ hrely _ _ _ => (hs.mono hrely : Handled i ev t)
    · exact fun t _ hrely _ _ => (hs.mono hrely : Handled i ev t)
    · exact fun t _ hrely _ => hs.mono hrely
  have hquery : (converging backend provider S evs).Ensures i (query (appendAudit row)) s
      (fun _ => Handled i ev) fun _ => Handled i ev :=
    hanswer.bind (fun _ _ => id) fun _ _ ht => ensures_ofExcept (fun _ _ => ht) fun _ _ => ht
  exact hquery.attempt (fun _ _ => id) fun _ _ => id

theorem ensures_process (hevs : OneSubscription S evs) (hev : ev ∈ evs) {now : Int} {s : Store}
    (hrecording : Recording i ev s) :
    (converging backend provider S evs).Ensures i (process backend provider ev now) s
      (fun _ => Handled i ev) fun _ _ => True := by
  have hstore : (converging backend provider S evs).Ensures i
      (query (upsertSubscription (subscriptionRow ev now))) s
      (fun _ t => Stored S ev t ∧ Recording i ev t) fun _ _ => True := by
    apply ensures_query
    intro t hrely ht
    have hspec := upsertSubscription_spec (i := i) now hevs hev ht
    refine ⟨hspec.1, fun _ _ => ⟨hspec.2, ?_⟩⟩
    exact (hrecording.mono hrely).of_keeps hspec.1 (recorder_upsertSubscription _ t)
  apply hstore.bind (fun _ _ => id)
  intro _ t ht
  have hget : (converging backend provider S evs).Ensures i
      (query (getSubscription ev.subscriptionID)) t
      (fun _ u => Stored S ev u ∧ Recording i ev u) fun _ _ => True := by
    apply ensures_query
    intro u hrely hu
    exact ⟨keeps_refl hu, fun _ _ => ⟨ht.1.mono hrely, ht.2.mono hrely⟩⟩
  apply hget.bind (fun _ _ => id)
  intro sub u hu
  have hwrite : (converging backend provider S evs).Ensures i
      (query (upsertEntitlement backend ev sub (entitlementRow provider ev sub now))) u
      (fun _ v => WrittenAfter v ev.objectTime ∧ Recording i ev v) fun _ _ => True := by
    apply ensures_query
    intro v hrely hv
    have hspec := upsertEntitlement_spec (i := i) sub now hevs hev
      (hu.1.mono hrely) hv
    exact ⟨hspec.1, fun _ _ => ⟨hspec.2, (hu.2.mono hrely).of_keeps hspec.1 rfl⟩⟩
  apply hwrite.bind (fun _ _ => id)
  intro _ v hv
  have hmark : (converging backend provider S evs).Ensures i
      (query (markEventProcessed backend ev.eventID)) v (fun _ => Handled i ev)
      fun _ _ => True := by
    apply ensures_query
    intro x hrely hx
    have hspec := markEventProcessed_spec (i := i) hevs hev (hv.2.mono hrely)
      (hv.1.mono hrely) hx
    exact ⟨hspec.1, fun _ _ => hspec.2⟩
  apply hmark.bind (fun _ _ => id)
  intro _ x hx
  exact (ensures_appendAudit hx).bind (fun _ _ _ => trivial) fun _ _ hhandled => hhandled

/-- A delivery that the provider lets through. -/
def Delivery.Valid (provider : BillingProvider) (d : Delivery) (ev : WebhookEvent) : Prop :=
  provider.verifyWebhook d.body d.signature = .ok () ∧ provider.parseWebhook d.body = .ok ev

theorem ensures_handle (hevs : OneSubscription S evs) (hev : ev ∈ evs) {d : Delivery} {s : Store}
    (hvalid : d.Valid provider ev) (hs : Unrecorded i s) :
    (converging backend provider S evs).Ensures i
      (handle backend provider i d.body d.signature d.now) s (fun _ => Handled i ev)
      fun _ _ => True := by
  unfold handle
  rw [hvalid.1, hvalid.2]
  have hinsert : (converging backend provider S evs).Ensures i
      (answer (insertEvent i (eventRow provider ev d.now))) s
      (fun result t =>
        match result with
        | .ok _ => Recording i ev t
        | .error _ => Handled i ev t) fun _ _ => True := by
    apply ensures_answer
    intro t hrely ht
    refine ⟨keeps_insertEvent hevs hev rfl rfl rfl ht, ?_⟩
    have hunrecorded := hs.mono hrely
    unfold insertEvent
    cases hfind : t.events.find (eventRow provider ev d.now).eventID with
    | some existing =>
        have hexisting := Table.find_eq_some.mp hfind
        exact ⟨⟨existing, hexisting.1, hexisting.2⟩, fun id hid => absurd hid (hunrecorded id)⟩
    | none =>
        refine ⟨⟨_, Table.mem_put.mpr (.inl rfl), rfl⟩, ?_⟩
        intro id hid
        have hrecorder : Function.update t.recorder ev.eventID (some i) id = some i := hid
        by_contra hne
        rw [Function.update_of_ne hne] at hrecorder
        exact hunrecorded id hrecorder
  refine ensures_ofExcept_bind (fun _ _ => trivial) fun _ _ => ?_
  refine ensures_ofExcept_bind (fun _ _ => trivial) fun ev' hev' => ?_
  cases hev'
  apply hinsert.bind (fun _ _ => id)
  intro result t ht
  cases result with
  | error e =>
      simp only
      split
      · exact ensures_pure ht
      · exact ensures_fail trivial
  | ok _ =>
      apply (ensures_process hevs hev ht).bind (fun _ _ => id)
      exact fun _ _ hhandled => ensures_pure hhandled

/-! ## Runs -/

/-- Nothing is known of the events and their subscription. -/
structure Fresh (S : String) (evs : List WebhookEvent) (w : Store) : Prop where
  events : ∀ row ∈ w.events.rows, ∀ ev ∈ evs, row.eventID ≠ ev.eventID
  subscription : w.subscriptions.find S = none
  recorder : ∀ id, w.recorder id = none
  writes : w.writes = []

theorem Fresh.consistent (h : Fresh S evs w) : Consistent backend provider S evs w := by
  constructor
  · exact fun row hrow ev hev hid => absurd hid (h.events row hrow ev hev)
  · intro row hrow
    rw [h.subscription] at hrow
    cases hrow
  · rw [h.writes]
    exact fun write hwrite => absurd hwrite List.not_mem_nil
  · rw [h.writes]
    exact List.Pairwise.nil
  · rw [h.writes]
    intro write hwrite
    cases hwrite

/-- The entitlement and the subscription carry what an event says. -/
def Converged (provider : BillingProvider) (ev : WebhookEvent) (w : Store) : Prop :=
  ∃ row ent, w.subscriptions.find ev.subscriptionID = some row ∧
    w.entitlements.find (entitlementID ev.subscriptionID) = some ent ∧
    row.customerID = ev.customerID ∧ row.productID = ev.productID ∧ row.planID = ev.planID ∧
    row.status = ev.status ∧ row.objectTime = ev.objectTime ∧
    ent.subjectID = ev.customerID ∧ ent.productID = ev.productID ∧ ent.planID = ev.planID ∧
    ent.status = provider.normalizeSubscriptionState ev.status

/-- The subject, product and plan an entitlement has after a write: in Postgres those of
the row that is there. -/
def EntitlementWrite.identity (backend : Backend) (write : EntitlementWrite) :
    String × String × String :=
  match backend, write.previous with
  | .postgres, some old => (old.subjectID, old.productID, old.planID)
  | _, _ => (write.event.customerID, write.event.productID, write.event.planID)

/-- The write was made from the customer, product and plan of the subscription as it was
then, and from a status that means the same as the one it had then. -/
def EntitlementWrite.UpToDate (backend : Backend) (provider : BillingProvider)
    (write : EntitlementWrite) : Prop :=
  ∃ cur, write.current = some cur ∧
    write.identity backend = (cur.customerID, cur.productID, cur.planID) ∧
    provider.normalizeSubscriptionState write.read.status =
      provider.normalizeSubscriptionState cur.status

theorem EntitlementWrite.row_identity (write : EntitlementWrite) :
    ((write.row backend provider).subjectID, (write.row backend provider).productID,
      (write.row backend provider).planID) = write.identity backend := by
  unfold EntitlementWrite.row EntitlementWrite.identity mergeEntitlement
  cases backend with
  | memory => rfl
  | postgres =>
      cases write.previous with
      | none => rfl
      | some old => rfl

theorem EntitlementWrite.row_status (write : EntitlementWrite) :
    (write.row backend provider).status =
      provider.normalizeSubscriptionState write.read.status := by
  unfold EntitlementWrite.row mergeEntitlement
  cases backend with
  | memory => rfl
  | postgres =>
      cases write.previous with
      | none => rfl
      | some old => rfl

/-- The events of the deliveries a run may start. -/
abbrev DeliversOf (backend : Backend) (provider : BillingProvider) (evs : List WebhookEvent) :=
  Guarded (fun _ event => event.Lets fun d : Delivery => ∃ ev ∈ evs, d.Valid provider ev)
    (processor backend provider).Step

/-- A handler that has returned has handled its event. -/
def Settled (provider : BillingProvider) (evs : List WebhookEvent) (i : Nat) (d : Delivery)
    (w : Store) : Prop :=
  ∃ ev ∈ evs, d.Valid provider ev ∧ Handled i ev w

theorem tracked_of_run (hevs : OneSubscription S evs) (hfresh : Fresh S evs w)
    {events : List (SystemEvent ServerError Delivery)} {sys : System Unit Store ServerError}
    (hrun : Run (DeliversOf backend provider evs) ⟨w, []⟩ events sys) :
    Machine.Tracked (converging backend provider S evs) Unrecorded (Settled provider evs) sys
      (events.filterMap SystemEvent.op?) := by
  have hstart : ∀ i (d : Delivery) s, (∃ ev ∈ evs, d.Valid provider ev) →
      Consistent backend provider S evs s → Unrecorded i s →
      (converging backend provider S evs).Ensures i ((processor backend provider).start i d) s
        (fun _ => Settled provider evs i d) fun _ _ => True := by
    intro i d s hallowed _ hunrecorded
    obtain ⟨ev, hev, hvalid⟩ := hallowed
    apply (ensures_handle hevs hev hvalid hunrecorded).bind (fun _ _ => id)
    exact fun _ t ht => ⟨ev, hev, hvalid, ht⟩
  have hsettled : ∀ i (d : Delivery) s t, Progress S i s t → Settled provider evs i d s →
      Settled provider evs i d t := by
    intro i d s t hrely h
    obtain ⟨ev, hev, hvalid, hhandled⟩ := h
    exact ⟨ev, hev, hvalid, hhandled.mono hrely⟩
  have hinit : Machine.Tracked (converging backend provider S evs) Unrecorded
      (Settled provider evs) (⟨w, []⟩ : System Unit Store ServerError) [] := by
    refine ⟨hfresh.consistent, rfl, ?_, ?_⟩
    · intro i _ id
      rw [hfresh.recorder id]
      simp
    · intro i d task hop
      cases hop
  have hguarded : ∀ sys event sys', DeliversOf backend provider evs sys event sys' →
      Guarded (fun sys event => Machine.Meets (converging backend provider S evs).guard sys event ∧
        event.Lets fun d : Delivery => ∃ ev ∈ evs, d.Valid provider ev)
        (processor backend provider).Step sys event sys' := by
    intro sys event sys' hstep
    refine ⟨⟨?_, hstep.1⟩, hstep.2⟩
    cases event with
    | step i reply => exact fun _ _ _ _ _ => trivial
    | start d => exact trivial
    | stop i => exact trivial
  have htracked := Machine.post_of_run (fun i s t hrely h => h.mono hrely) hsettled hstart
    (hrun.mono hguarded) hinit
  simpa using htracked

/-- When every handler has returned, each delivered event has been written. -/
theorem writtenAfter_of_run (hevs : OneSubscription S evs) (hfresh : Fresh S evs w)
    {events : List (SystemEvent ServerError Delivery)} {sys : System Unit Store ServerError}
    (hrun : Run (DeliversOf backend provider evs) ⟨w, []⟩ events sys)
    (hdone : ∀ task ∈ sys.tasks, task = .done (.ok ())) (hev : ev ∈ evs) {d : Delivery}
    (hd : d ∈ events.filterMap SystemEvent.op?) (hvalid : d.Valid provider ev) :
    WrittenAfter sys.shared ev.objectTime := by
  have htracked := tracked_of_run hevs hfresh hrun
  have hreturned : ∀ i, i < sys.tasks.length → ∃ d, (events.filterMap SystemEvent.op?)[i]? = some d ∧
      Settled provider evs i d sys.shared := by
    intro i hi
    have htask : sys.tasks[i]? = some (.done (.ok ())) := by
      rw [List.getElem?_eq_getElem hi, hdone _ (List.getElem_mem hi)]
    have hop := List.getElem?_eq_getElem (htracked.length.symm ▸ hi)
    exact ⟨_, hop, htracked.returned hop htask⟩
  obtain ⟨i, hi, hop⟩ := List.getElem_of_mem hd
  obtain ⟨d', hop', ev', _, hvalid', ⟨row, hrow, hid⟩, _⟩ := hreturned i (htracked.length ▸ hi)
  rw [List.getElem?_eq_getElem hi, hop] at hop'
  cases hop'
  cases hvalid.2.symm.trans hvalid'.2
  obtain ⟨htime, ⟨j, hrecorder⟩, hwritten⟩ := htracked.inv.events row hrow ev hev hid
  -- the task that has recorded the event has returned, so the event is processed
  have hj : j < sys.tasks.length := by
    by_contra hge
    exact htracked.fresh j (Nat.le_of_not_lt hge) _ hrecorder
  obtain ⟨_, _, _, _, _, _, hprocessed⟩ := hreturned j hj
  obtain ⟨row', hrow', hid', hdone'⟩ := hprocessed _ hrecorder
  rw [Table.eq_of_key_eq hrow' hrow hid'] at hdone'
  rw [← htime]
  exact hwritten hdone'

/-- The entitlement ends up as the newest event has it exactly when its last write was up
to date. -/
theorem converged_iff_upToDate (hevs : OneSubscription S evs)
    (htimes : ∀ a ∈ evs, ∀ b ∈ evs, a.objectTime = b.objectTime → a = b) {newest : WebhookEvent}
    (hnewest : newest ∈ evs) (hmax : ∀ ev ∈ evs, ev.objectTime ≤ newest.objectTime)
    (hfresh : Fresh S evs w) {events : List (SystemEvent ServerError Delivery)}
    {sys : System Unit Store ServerError}
    (hrun : Run (DeliversOf backend provider evs) ⟨w, []⟩ events sys)
    (hall : ∀ ev ∈ evs, ∃ d ∈ events.filterMap SystemEvent.op?, d.Valid provider ev)
    (hdone : ∀ task ∈ sys.tasks, task = .done (.ok ())) :
    Converged provider newest sys.shared ↔
      ∃ write, sys.shared.writes.head? = some write ∧ write.UpToDate backend provider := by
  have hinv := (tracked_of_run hevs hfresh hrun).inv
  obtain ⟨d, hd, hvalid⟩ := hall newest hnewest
  obtain ⟨old, hold, cur, hcur, hle⟩ := writtenAfter_of_run hevs hfresh hrun hdone hnewest hd hvalid
  obtain ⟨last, rest, hwrites⟩ := List.exists_cons_of_ne_nil (List.ne_nil_of_mem hold)
  have hhead : sys.shared.writes.head? = some last := by
    rw [hwrites]
    rfl
  obtain ⟨lastCur, hlastCur, hfrom, row, hrow, hrowLe⟩ :=
    hinv.writes last (hwrites ▸ List.mem_cons_self)
  -- a row no older than the newest event is the one of the newest event
  have hunique : ∀ r : Subscription, FromEvents evs r → newest.objectTime ≤ r.objectTime →
      ∃ now, r = subscriptionRow newest now := by
    intro r hr hler
    obtain ⟨ev, hev, now, heq⟩ := hr
    have htime : ev.objectTime = newest.objectTime := by
      apply Int.le_antisymm (hmax ev hev)
      rw [heq] at hler
      exact hler
    exact ⟨now, htimes ev hev newest hnewest htime ▸ heq⟩
  have hlastLe : newest.objectTime ≤ lastCur.objectTime := by
    have hsorted := hinv.sorted
    rw [hwrites] at hold hsorted
    cases List.mem_cons.mp hold with
    | inl heq =>
        rw [heq] at hcur
        cases hcur.symm.trans hlastCur
        exact hle
    | inr hmem =>
        exact Int.le_trans hle ((List.pairwise_cons.mp hsorted).1 old hmem _ _ hlastCur hcur)
  obtain ⟨lastNow, hlast⟩ := hunique lastCur hfrom hlastLe
  obtain ⟨now, hnow⟩ := hunique row (hinv.subscription row hrow) (Int.le_trans hlastLe hrowLe)
  have hS := hevs.subscription newest hnewest
  have hent := hinv.entitlement last hhead
  have hidentity : ((last.row backend provider).subjectID, (last.row backend provider).productID,
      (last.row backend provider).planID) = last.identity backend := last.row_identity
  have hstatus : (last.row backend provider).status =
      provider.normalizeSubscriptionState last.read.status := last.row_status
  constructor
  · intro h
    obtain ⟨_, ent, _, hent', _, _, _, _, _, hsubject, hproduct, hplan, hnormal⟩ := h
    rw [hS, hent] at hent'
    cases hent'
    refine ⟨last, hhead, lastCur, hlastCur, ?_, ?_⟩
    · rw [← hidentity, hsubject, hproduct, hplan, hlast]
      rfl
    · rw [← hstatus, hnormal, hlast]
      rfl
  · intro h
    obtain ⟨write, hwrite, cur', hcur', hsame, hnormal⟩ := h
    cases hhead.symm.trans hwrite
    cases hlastCur.symm.trans hcur'
    rw [hlast] at hsame hnormal
    rw [← hidentity] at hsame
    simp only [Prod.mk.injEq] at hsame
    refine ⟨row, last.row backend provider, hS ▸ hrow, hS ▸ hent, ?_⟩
    rw [hnow]
    exact ⟨rfl, rfl, rfl, rfl, rfl, hsame.1, hsame.2.1, hsame.2.2, hstatus.trans hnormal⟩

/-- A delivery that is handled without disturbance. -/
theorem Delivery.Valid.run {d : Delivery} (hvalid : d.Valid provider ev) (hev : ev ∈ evs)
    (tasks : List (Work Unit)) (i : Nat) (hi : tasks.length = i) {duplicate : Bool}
    {rest : Nat → Reply ServerError} (h : (handle backend provider i d.body d.signature d.now).alone
      (fun _ => .proceed) w = (.ok duplicate, rest, w')) : ∃ n,
    Run (DeliversOf backend provider evs) ⟨w, tasks⟩
      (.start d :: List.replicate n (.step i .proceed)) ⟨w', tasks ++ [.done (.ok ())]⟩ := by
  subst hi
  have hadvance : Advance (fun _ _ => True)
      (handle backend provider tasks.length d.body d.signature d.now) w
      (.done ((handle backend provider tasks.length d.body d.signature d.now).alone
        (fun _ => .proceed) w).1) _ := Advance.of_alone fun _ => rfl
  rw [h] at hadvance
  have hstart : ∃ n, Run (Guarded (fun sys event => Machine.Meets (fun _ _ => True) sys event ∧
      event.Lets fun d : Delivery => ∃ ev ∈ evs, d.Valid provider ev)
      (processor backend provider).Step) ⟨w, tasks⟩
      (.start d :: List.replicate n (.step tasks.length .proceed))
      ⟨w', tasks ++ [.done (.ok ())]⟩ :=
    Advance.run_start ⟨ev, hev, hvalid⟩ (hadvance.seq (.refl _ _))
  obtain ⟨n, hrun⟩ := hstart
  exact ⟨n, hrun.mono fun _ _ _ hstep => ⟨hstep.1.2, hstep.2⟩⟩

end

namespace Sample

theorem newer_valid : newerDelivery.Valid provider newer := by
  unfold Delivery.Valid newerDelivery
  exact ⟨verify_newer, parse_newer⟩

theorem older_valid : olderDelivery.Valid provider older := by
  unfold Delivery.Valid olderDelivery
  exact ⟨verify_older, parse_older⟩

theorem fresh_store : Fresh "sub_1" [newer, older] store :=
  ⟨fun _ hrow => absurd hrow List.not_mem_nil, rfl, fun _ => rfl, rfl⟩

theorem oneSubscription : OneSubscription "sub_1" [newer, older] := by
  constructor
  · decide
  · decide

theorem times_differ : ∀ a ∈ [newer, older], ∀ b ∈ [newer, older],
    a.objectTime = b.objectTime → a = b := by
  decide

theorem newer_is_newest : ∀ ev ∈ [newer, older], ev.objectTime ≤ newer.objectTime := by
  decide

theorem newer_mem : newer ∈ [newer, older] := List.mem_cons_self

theorem older_mem : older ∈ [newer, older] := List.mem_cons_of_mem _ List.mem_cons_self

/-- Both deliveries, the older event first. -/
theorem in_order_run : ∃ m n, Run (DeliversOf .memory provider [newer, older]) ⟨store, []⟩
    ((.start olderDelivery :: List.replicate m (.step 0 .proceed)) ++
      (.start newerDelivery :: List.replicate n (.step 1 .proceed)))
    ⟨handled 1 newer newerDelivery.now (handled 0 older olderDelivery.now store),
      [.done (.ok ()), .done (.ok ())]⟩ := by
  have hfirst : (handle .memory provider 0 olderDelivery.body olderDelivery.signature
      olderDelivery.now).alone (fun _ => .proceed) store =
      (.ok false, fun _ => .proceed, handled 0 older olderDelivery.now store) := by
    unfold olderDelivery
    rw [alone_handle verify_older parse_older]
    rfl
  have hsecond : (handle .memory provider 1 newerDelivery.body newerDelivery.signature
      newerDelivery.now).alone (fun _ => .proceed) (handled 0 older olderDelivery.now store) =
      (.ok false, fun _ => .proceed,
        handled 1 newer newerDelivery.now (handled 0 older olderDelivery.now store)) := by
    unfold newerDelivery
    rw [alone_handle verify_newer parse_newer]
    rfl
  obtain ⟨m, hm⟩ := older_valid.run older_mem [] 0 rfl hfirst
  obtain ⟨n, hn⟩ := newer_valid.run newer_mem [.done (.ok ())] 1 rfl hsecond
  exact ⟨m, n, hm.append hn⟩

/-- Both deliveries, the newer event first. -/
theorem out_of_order_run : ∃ m n, Run (DeliversOf .memory provider [newer, older]) ⟨store, []⟩
    ((.start newerDelivery :: List.replicate m (.step 0 .proceed)) ++
      (.start olderDelivery :: List.replicate n (.step 1 .proceed)))
    ⟨handled 1 older olderDelivery.now (handled 0 newer newerDelivery.now store),
      [.done (.ok ()), .done (.ok ())]⟩ := by
  have hfirst : (handle .memory provider 0 newerDelivery.body newerDelivery.signature
      newerDelivery.now).alone (fun _ => .proceed) store =
      (.ok false, fun _ => .proceed, handled 0 newer newerDelivery.now store) := by
    unfold newerDelivery
    rw [alone_handle verify_newer parse_newer]
    rfl
  have hsecond : (handle .memory provider 1 olderDelivery.body olderDelivery.signature
      olderDelivery.now).alone (fun _ => .proceed) (handled 0 newer newerDelivery.now store) =
      (.ok false, fun _ => .proceed,
        handled 1 older olderDelivery.now (handled 0 newer newerDelivery.now store)) := by
    unfold olderDelivery
    rw [alone_handle verify_older parse_older]
    rfl
  obtain ⟨m, hm⟩ := newer_valid.run newer_mem [] 0 rfl hfirst
  obtain ⟨n, hn⟩ := older_valid.run older_mem [.done (.ok ())] 1 rfl hsecond
  exact ⟨m, n, hm.append hn⟩

theorem ops_two (m n : Nat) (first second : Delivery) :
    ((.start first :: List.replicate m (.step 0 .proceed)) ++
      (.start second :: List.replicate n (.step 1 .proceed)) :
        List (SystemEvent ServerError Delivery)).filterMap SystemEvent.op? = [first, second] := by
  simp only [List.filterMap_append, List.filterMap_cons, SystemEvent.op?, Advance.ops_replicate]
  rfl

/-- In the order of their times, the events converge. -/
theorem converged_iff_upToDate_in_order : ∃ events sys,
    Run (DeliversOf .memory provider [newer, older]) ⟨store, []⟩ events sys ∧
      Converged provider newer sys.shared := by
  obtain ⟨m, n, hrun⟩ := in_order_run
  refine ⟨_, _, hrun, ?_⟩
  apply (converged_iff_upToDate oneSubscription times_differ List.mem_cons_self newer_is_newest
    fresh_store hrun ?_ ?_).mpr
  · exact ⟨_, rfl, _, rfl, rfl, rfl⟩
  · rw [ops_two]
    intro ev hev
    cases List.mem_cons.mp hev with
    | inl heq => exact ⟨newerDelivery, by simp, heq ▸ newer_valid⟩
    | inr hev =>
        rw [List.mem_singleton.mp hev]
        exact ⟨olderDelivery, by simp, older_valid⟩
  · intro task htask
    simpa using htask

/-- The newer event first: then the entitlement ends up with the plan of the older one,
although the subscription keeps the plan of the newer. -/
theorem older_plan_wins : OneSubscription "sub_1" [newer, older] ∧
    newer.objectTime > older.objectTime ∧ Fresh "sub_1" [newer, older] store ∧
    ∃ events sys, Run (DeliversOf .memory provider [newer, older]) ⟨store, []⟩ events sys ∧
      events.filterMap SystemEvent.op? = [newerDelivery, olderDelivery] ∧
      (∀ task ∈ sys.tasks, task = .done (.ok ())) ∧
      (sys.shared.subscriptions.find "sub_1").map Subscription.planID = some "plan_year" ∧
      (sys.shared.entitlements.find "ent_sub_1").map Entitlement.planID = some "plan_month" ∧
      ¬ Converged provider newer sys.shared := by
  obtain ⟨m, n, hrun⟩ := out_of_order_run
  have hplan : ((handled 1 older olderDelivery.now (handled 0 newer newerDelivery.now
      store)).entitlements.find "ent_sub_1").map Entitlement.planID = some "plan_month" := rfl
  refine ⟨oneSubscription, by decide, fresh_store, _, _, hrun, ops_two m n _ _, ?_, ?_, hplan, ?_⟩
  · intro task htask
    simpa using htask
  · rfl
  · intro h
    obtain ⟨_, ent, _, hent, _, _, _, _, _, _, _, hentPlan, _⟩ := h
    have hsame : ("plan_month" : String) = newer.planID := by
      rw [← hentPlan]
      rw [show entitlementID newer.subscriptionID = "ent_sub_1" from rfl] at hent
      rw [hent] at hplan
      exact (Option.some.inj hplan).symm
    simp [newer] at hsame

end Sample

end Useful.Server.Billing
