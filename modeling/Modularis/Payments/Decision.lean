import Modularis.Payments.CallbackRun
import Modularis.Payments.Lifecycle
import Modularis.Shared.Tolerance

namespace Modularis.Payments.Decision

open Modularis.Foundation
open Modularis.Foundation.GoInt
open Modularis.Foundation.GoTime
open Modularis.Foundation.Program
open Modularis.Shared.Durations
open Modularis.Shared.Messaging
open Modularis.Shared.Tolerance
open Modularis.Payments.Models
open Modularis.Payments.Repository
open Modularis.Payments.Operations
open Modularis.Payments.Handlers
open Modularis.Payments.Effects
open Modularis.Payments.Aggregate
open Modularis.Payments.Changes
open Modularis.Payments.CallbackRun
open Modularis.Payments.Lifecycle (sampleService)

/-- What becomes of a payment by a callback. -/
inductive Verdict where
  | ignored
  | expired
  | completed
deriving DecidableEq, Repr

/-- The status that a payment has after a verdict. -/
def Verdict.status (before : PaymentStatus) : Verdict → PaymentStatus
  | .ignored => before
  | .expired => .expired
  | .completed => .completed

/-- The callback is about the payment and the payment is not settled yet. -/
def Applies (payment : Payment) (payload : PaymentCallbackConfirmedPayload) : Prop :=
  payment.amount = payload.amount ∧ payment.currency = payload.currency ∧
    isOpen payment = true

instance (payment : Payment) (payload : PaymentCallbackConfirmedPayload) :
    Decidable (Applies payment payload) :=
  inferInstanceAs (Decidable (_ ∧ _ ∧ _))

/-- What becomes of a payment when the callback is taken for `fresh`. -/
def verdict (fresh : Prop) [Decidable fresh] (payment : Payment)
    (payload : PaymentCallbackConfirmedPayload) (eventTime : Int) : Verdict :=
  if fresh ∧ Applies payment payload then
    if payment.expiresAt < eventTime then .expired else .completed
  else .ignored

/-- The payment after a verdict.  `kept` is what is stored of the time of the
event. -/
inductive Settles (kept : Int → Int) (payment : Payment)
    (payload : PaymentCallbackConfirmedPayload) (eventTime : Int) :
    Verdict → Payment → Prop
  | ignored : Settles kept payment payload eventTime .ignored payment
  | expired (message : PendingMessage) (updatedAt : Int) :
      Announces payment .expired payment.deliveryStatus message →
      Settles kept payment payload eventTime .expired
        { payment with
          paymentStatus := .expired
          processingStartedAt := none
          updatedAt := updatedAt
          pendingMessages := payment.pendingMessages ++ [message] }
  | completed (message delivery : PendingMessage) (updatedAt : Int) :
      Announces payment .completed payment.deliveryStatus message →
      RequestsDelivery payment delivery →
      Settles kept payment payload eventTime .completed
        { payment with
          paymentStatus := .completed
          confirmedAt := some (kept eventTime)
          processingStartedAt := none
          paymentFailureReason := ""
          updatedAt := updatedAt
          webhookEventIds :=
            if payload.eventId ∈ payment.webhookEventIds then
              payment.webhookEventIds
            else payment.webhookEventIds ++ [payload.eventId]
          pendingMessages := payment.pendingMessages ++ [message, delivery] }

instance (now t tolerance : Int) : Decidable (Near now t tolerance) :=
  inferInstanceAs (Decidable (_ ≤ _))

/-- The handler decides as it should. -/
def Decides (kept : Int → Int) (s : Service) (i : String)
    (envelope : Envelope PaymentCallbackConfirmedPayload) (turns : Nat → Turn)
    (store : Store) (payment : Payment) (eventTime : Int) : Prop :=
  ∃ q, (runCallback s i envelope turns store).2.payments.row payment.id = some q ∧
    Settles kept payment envelope.payload eventTime
      (verdict (Near (turns 1).1.now eventTime s.config.webhookTolerance) payment
        envelope.payload eventTime) q

theorem status_injective {before : PaymentStatus}
    (h : before ∈ [.pending, .processing, .failed]) :
    Function.Injective (Verdict.status before) := by
  intro v v' hsame
  cases before <;> cases v <;> cases v' <;> simp_all [Verdict.status]

section Verdicts

variable {kept : Int → Int} {payment q : Payment}
  {payload : PaymentCallbackConfirmedPayload} {eventTime : Int} {v v' : Verdict}

theorem Settles.status (h : Settles kept payment payload eventTime v q) :
    q.paymentStatus = v.status payment.paymentStatus := by
  cases h with
  | _ => rfl

theorem Settles.unique {kept' : Int → Int} (hopen : isOpen payment = true)
    (h : Settles kept payment payload eventTime v q)
    (h' : Settles kept' payment payload eventTime v' q) : v = v' :=
  status_injective (isOpen_iff.mp hopen) (h.status.symm.trans h'.status)

theorem Settles.confirmedAt (h : Settles kept payment payload eventTime .completed q) :
    q.confirmedAt = some (kept eventTime) := by
  cases h
  rfl

theorem Settles.congr {kept' : Int → Int}
    (hkept : v = .completed → kept eventTime = kept' eventTime)
    (h : Settles kept payment payload eventTime v q) :
    Settles kept' payment payload eventTime v q := by
  cases h with
  | ignored => exact .ignored
  | expired message updatedAt hmessage => exact .expired message updatedAt hmessage
  | completed message delivery updatedAt hmessage hdelivery =>
      rw [hkept rfl]
      exact .completed message delivery updatedAt hmessage hdelivery

theorem verdict_congr {fresh fresh' : Prop} [Decidable fresh] [Decidable fresh']
    (h : Applies payment payload → (fresh ↔ fresh')) :
    verdict fresh payment payload eventTime =
      verdict fresh' payment payload eventTime := by
  unfold verdict
  by_cases happlies : Applies payment payload
  · simp only [h happlies]
  · simp only [happlies, and_false]

end Verdicts

section Run

variable {s : Service} {i : String} {store : Store} {payment : Payment}
  {turns : Nat → Turn} {envelope : Envelope PaymentCallbackConfirmedPayload}
  {eventTime : Int}

/-- The program leaves a payment that meets `post`. -/
def Leaves {α : Type} (i : String) (request : Request) (paymentId : String)
    (post : Payment → Prop) (p : Program α) (turns : Nat → Turn) (store : Store) :
    Prop :=
  ∃ q, (p.run (disturbed (act i request)) turns store).2.payments.row paymentId =
    some q ∧ post q

theorem leaves_of_quiet {α β : Type} {request : Request} {post : Payment → Prop}
    {mid : α → Prop} {p : Program α} {f : α → Program β}
    (hp : p.Quiet (act i request) mid) (hturns : Undisturbed turns payment.id)
    (hrow : store.payments.row payment.id = some payment)
    (h : ∀ value k t, mid value → Undisturbed (fun n => turns (n + k)) payment.id →
      t.payments.row payment.id = some payment →
      Leaves i request payment.id post (f value) (fun n => turns (n + k)) t) :
    Leaves i request payment.id post (p >>= f) turns store := by
  obtain ⟨value, k, t, hvalue, ht, hrun⟩ := hp.run_bind f
    (fun n store h => (hturns.leaves n store).trans h) hrow
  rw [Leaves, hrun]
  exact h value k t hvalue (hturns.shift k) ht

theorem row_transition {request : Request} {choice : Choice} {update : Update}
    (hchoice : choice.failure = none)
    (hrow : store.payments.row payment.id = some payment) :
    (transition i request store choice payment.id update).2.payments.row payment.id =
      some (if update.filter payment = true then update.apply payment else payment) := by
  simp only [transition, writeCall, hchoice]
  by_cases hfilter : update.filter payment = true
  · rw [findOneAndUpdate_of_filter hrow hfilter, if_pos hfilter]
    exact (row_updated hrow payment.id).trans (if_pos rfl)
  · rw [findOneAndUpdate_of_not_filter hrow (Bool.not_eq_true _ ▸ hfilter), record_none,
      if_neg hfilter, hrow]

theorem leaves_transition {α : Type} {request : Request} {post : Payment → Prop}
      {op : Op} {f : Reply op → Program α} (update : Int → Update)
    (hact : ∀ store choice, (act i request store op choice).2 =
      (transition i request store choice payment.id (update choice.now)).2)
    (hturns : Undisturbed turns payment.id)
    (hrow : store.payments.row payment.id = some payment)
    (hf : ∀ reply, ∃ value, f reply = pure value)
    (hpost : ∀ now, post (if (update now).filter payment = true then
      (update now).apply payment else payment)) :
    Leaves i request payment.id post (call op >>= f) turns store := by
  obtain ⟨value, hvalue⟩ := hf (act i request store op (turns 0).1).1
  have hturn : disturbed (act i request) store op (turns 0) =
      ((act i request store op (turns 0).1).1,
        (turns 0).2 (act i request store op (turns 0).1).2) := rfl
  rw [Leaves, run_perform_bind hturn, hvalue]
  refine ⟨_, (hturns.leaves 0 _).trans ?_, hpost (turns 0).1.now⟩
  rw [hact]
  exact row_transition (hturns.succeeds 0) hrow

theorem settles_measured (hturns : Undisturbed turns payment.id)
    (hfound : findByReference store.payments envelope.payload.paymentReference =
      some payment)
    (hparse : parseRFC3339Nano envelope.payload.occurredAt = some eventTime) :
    ∃ q, (runCallback s i envelope turns store).2.payments.row payment.id = some q ∧
      Settles date payment envelope.payload eventTime
        (verdict (absDuration (sub (turns 1).1.now eventTime) ≤
          s.config.webhookTolerance) payment envelope.payload eventTime) q := by
  have hrow := (store.payments.mem_rows_iff payment).mp
    (List.mem_of_find?_eq_some hfound)
  have hread : disturbed (act i (.callbackConfirmed envelope)) store
      (.findByReference envelope.payload.paymentReference) (turns 0) =
        (.ok (some payment), (turns 0).2 store) := by
    simp only [disturbed, act, readCall, hturns.succeeds, hfound]
  have hclock : disturbed (act i (.callbackConfirmed envelope)) ((turns 0).2 store)
      .timeNow (turns (0 + 1)) =
        ((turns 1).1.now, (turns 1).2 ((turns 0).2 store)) := rfl
  have hkept : ((turns 1).2 ((turns 0).2 store)).payments.row payment.id =
      some payment := by
    rw [hturns.leaves, hturns.leaves, hrow]
  rw [runCallback, handleCallbackConfirmed, run_perform_bind hread]
  simp only [hparse]
  rw [run_perform_bind hclock]
  by_cases hfresh : absDuration (sub (turns 1).1.now eventTime) ≤
      s.config.webhookTolerance
  · rw [if_neg (not_lt.mpr hfresh)]
    by_cases hdiffer : payment.amount ≠ envelope.payload.amount ∨
        payment.currency ≠ envelope.payload.currency
    · have happlies : ¬ Applies payment envelope.payload := by
        rintro ⟨hamount, hcurrency, _⟩
        simp [hamount, hcurrency] at hdiffer
      rw [if_pos hdiffer, verdict, if_neg fun h => happlies h.2]
      exact ⟨payment, hkept, .ignored⟩
    · have happlies : Applies payment envelope.payload ↔ isOpen payment = true := by
        simp only [not_or, not_not] at hdiffer
        simp [Applies, hdiffer]
      rw [if_neg hdiffer]
      by_cases hexpired : payment.expiresAt < eventTime
      · rw [if_pos hexpired]
        refine leaves_of_quiet (quiet_statusMessages (fun _ _ => rfl) (fun _ _ => rfl)
          _ _ _ _ _) (hturns.shift 2) hkept ?_
        rintro _ k t ⟨message, rfl, hmessage⟩ hturns hkept
        refine leaves_transition (expiredUpdate [message]) (fun _ _ => rfl)
          hturns hkept (fun reply => ?_) fun now => ?_
        · cases reply <;> exact ⟨_, rfl⟩
        · change Settles _ _ _ _ _ (if isOpen payment = true then _ else _)
          by_cases hopen : isOpen payment = true
          · rw [if_pos hopen, verdict, if_pos ⟨hfresh, happlies.mpr hopen⟩,
              if_pos hexpired]
            exact .expired (PendingMessage.stored message) _ hmessage
          · rw [if_neg hopen, verdict, if_neg fun h => hopen (happlies.mp h.2)]
            exact .ignored
      · rw [if_neg hexpired]
        refine leaves_of_quiet (quiet_statusMessages (fun _ _ => rfl) (fun _ _ => rfl)
          _ _ _ _ _) (hturns.shift 2) hkept ?_
        rintro _ k t ⟨message, rfl, hmessage⟩ hturns hkept
        refine leaves_of_quiet (quiet_pendingMessage (fun _ _ => rfl) (fun _ _ => rfl)
          _ _) hturns hkept fun delivery l t hdelivery hturns hkept => ?_
        refine leaves_transition
          (completedUpdate envelope.payload.eventId eventTime ([message] ++ [delivery]))
          (fun _ _ => rfl) hturns hkept (fun reply => ?_) fun now => ?_
        · cases reply <;> exact ⟨_, rfl⟩
        · change Settles _ _ _ _ _ (if isOpen payment = true then _ else _)
          by_cases hopen : isOpen payment = true
          · rw [if_pos hopen, verdict, if_pos ⟨hfresh, happlies.mpr hopen⟩,
              if_neg hexpired]
            exact .completed (PendingMessage.stored message)
              (PendingMessage.stored delivery) _ hmessage
              ⟨hdelivery.1, _, hdelivery.2, rfl, rfl⟩
          · rw [if_neg hopen, verdict, if_neg fun h => hopen (happlies.mp h.2)]
            exact .ignored
  · rw [if_pos (not_le.mp hfresh), verdict, if_neg fun h => hfresh h.1]
    exact ⟨payment, hkept, .ignored⟩

end Run

/-- The time of the event is so far that the handler takes it for a recent one,
and the payment could change. -/
def Misjudged (s : Service) (now eventTime : Int) (payment : Payment)
    (payload : PaymentCallbackConfirmedPayload) : Prop :=
  Applies payment payload ∧ Masked now eventTime s.config.webhookTolerance

section Decides

variable {s : Service} {payment : Payment} {now eventTime : Int}
  {payload : PaymentCallbackConfirmedPayload}

theorem verdict_of_not_misjudged (hzero : 0 ≤ s.config.webhookTolerance)
    (hmax : s.config.webhookTolerance ≤ maxInt64)
    (h : ¬ Misjudged s now eventTime payment payload) :
    verdict (absDuration (sub now eventTime) ≤ s.config.webhookTolerance) payment
        payload eventTime =
      verdict (Near now eventTime s.config.webhookTolerance) payment payload
        eventTime := by
  refine verdict_congr fun happlies => (exact_iff_not_masked hzero hmax).mpr ?_
  exact fun hmasked => h ⟨happlies, hmasked⟩

theorem verdict_of_misjudged (hzero : 0 ≤ s.config.webhookTolerance)
    (hmax : s.config.webhookTolerance ≤ maxInt64)
    (h : Misjudged s now eventTime payment payload) :
    verdict (absDuration (sub now eventTime) ≤ s.config.webhookTolerance) payment
        payload eventTime ≠
      verdict (Near now eventTime s.config.webhookTolerance) payment payload
        eventTime := by
  have hfresh := (absDuration_sub_le_iff hzero hmax).mpr (.inr h.2)
  have hfar : ¬ (Near now eventTime s.config.webhookTolerance ∧
      Applies payment payload) := fun hnear => h.2.not_near hmax hnear.1
  simp only [verdict, if_pos (And.intro hfresh h.1), if_neg hfar]
  split <;> simp

end Decides

section Handler

variable {s : Service} {i : String} {store : Store} {payment : Payment}
  {turns : Nat → Turn} {envelope : Envelope PaymentCallbackConfirmedPayload}
  {eventTime : Int} {kept : Int → Int}

theorem not_misjudged_of_decides (hzero : 0 ≤ s.config.webhookTolerance)
    (hmax : s.config.webhookTolerance ≤ maxInt64)
    (hturns : Undisturbed turns payment.id)
    (hfound : findByReference store.payments envelope.payload.paymentReference =
      some payment)
    (hparse : parseRFC3339Nano envelope.payload.occurredAt = some eventTime)
    (hdecides : Decides kept s i envelope turns store payment eventTime) :
    ¬ Misjudged s (turns 1).1.now eventTime payment envelope.payload := by
  intro hmisjudged
  obtain ⟨q, hq, hsettles⟩ := settles_measured (s := s) (i := i) hturns hfound hparse
  obtain ⟨q', hq', hsettles'⟩ := hdecides
  obtain rfl : q = q' := Option.some.inj (hq.symm.trans hq')
  refine verdict_of_misjudged hzero hmax hmisjudged ?_
  exact hsettles.unique hmisjudged.1.2.2 hsettles'

theorem settles_of_not_misjudged (hzero : 0 ≤ s.config.webhookTolerance)
    (hmax : s.config.webhookTolerance ≤ maxInt64)
    (hturns : Undisturbed turns payment.id)
    (hfound : findByReference store.payments envelope.payload.paymentReference =
      some payment)
    (hparse : parseRFC3339Nano envelope.payload.occurredAt = some eventTime)
    (hnot : ¬ Misjudged s (turns 1).1.now eventTime payment envelope.payload) :
    Decides date s i envelope turns store payment eventTime := by
  obtain ⟨q, hq, hsettles⟩ := settles_measured (s := s) (i := i) hturns hfound hparse
  exact ⟨q, hq, verdict_of_not_misjudged hzero hmax hnot ▸ hsettles⟩

theorem Decides.congr {kept' : Int → Int}
    (hdecides : Decides kept s i envelope turns store payment eventTime)
    (hkept : verdict (Near (turns 1).1.now eventTime s.config.webhookTolerance)
      payment envelope.payload eventTime = .completed →
      kept eventTime = kept' eventTime) :
    Decides kept' s i envelope turns store payment eventTime := by
  obtain ⟨q, hq, hsettles⟩ := hdecides
  exact ⟨q, hq, hsettles.congr hkept⟩

theorem kept_of_decides {kept' : Int → Int}
    (hdecides : Decides kept s i envelope turns store payment eventTime)
    (hdecides' : Decides kept' s i envelope turns store payment eventTime)
    (hcompleted : verdict (Near (turns 1).1.now eventTime s.config.webhookTolerance)
      payment envelope.payload eventTime = .completed) :
    kept eventTime = kept' eventTime := by
  obtain ⟨q, hq, hsettles⟩ := hdecides
  obtain ⟨q', hq', hsettles'⟩ := hdecides'
  obtain rfl : q = q' := Option.some.inj (hq.symm.trans hq')
  rw [hcompleted] at hsettles hsettles'
  exact Option.some.inj (hsettles.confirmedAt.symm.trans hsettles'.confirmedAt)

end Handler

/-- The handler decides as it should exactly if it does not misjudge the time of
the event, where BSON keeps milliseconds of the time; it keeps all of the time
exactly if that has no more. -/
theorem decides_iff (s : Service) (i : String) (store : Store) {payment : Payment}
    {turns : Nat → Turn} {envelope : Envelope PaymentCallbackConfirmedPayload}
    {eventTime : Int} (hzero : 0 ≤ s.config.webhookTolerance)
    (hmax : s.config.webhookTolerance ≤ maxInt64)
    (hturns : Undisturbed turns payment.id)
    (hfound : findByReference store.payments envelope.payload.paymentReference =
      some payment)
    (hparse : parseRFC3339Nano envelope.payload.occurredAt = some eventTime) :
    (Decides date s i envelope turns store payment eventTime ↔
      ¬ Misjudged s (turns 1).1.now eventTime payment envelope.payload) ∧
    (Decides id s i envelope turns store payment eventTime ↔
      ¬ Misjudged s (turns 1).1.now eventTime payment envelope.payload ∧
        (verdict (Near (turns 1).1.now eventTime s.config.webhookTolerance) payment
          envelope.payload eventTime = .completed → date eventTime = eventTime)) := by
  have hjudged : ∀ {kept}, Decides kept s i envelope turns store payment eventTime →
      ¬ Misjudged s (turns 1).1.now eventTime payment envelope.payload :=
    not_misjudged_of_decides hzero hmax hturns hfound hparse
  have hdate := settles_of_not_misjudged (i := i) hzero hmax hturns hfound hparse
  refine ⟨⟨hjudged, hdate⟩, ?_, ?_⟩
  · intro hdecides
    exact ⟨hjudged hdecides, kept_of_decides (hdate (hjudged hdecides)) hdecides⟩
  · rintro ⟨hnot, hkept⟩
    exact (hdate hnot).congr hkept

section Sample

def samplePayment : Payment :=
  newPayment
    { idempotencyKey := "key-1"
      requestHash := "hash-1"
      userId := "user-1"
      customerName := "Ada"
      customerEmail := "ada@modularis.dev"
      customerCellphone := ""
      customerTaxId := ""
      amount := 100
      currency := "BRL" }
    "payment-1" "ref-1" "BRL" (31 * minute)

def sampleStore : Store where
  payments := Table.empty.insertIfAbsent samplePayment
  history := []

/-- Nobody else acts and the clock shows one minute past the start of 1970. -/
def sampleTurns : Nat → Turn := fun _ =>
  ({ now := minute
     newId := "message-1"
     failure := none
     intent := .error ""
     processed := .error (.other "") }, id)

def sampleCallback (occurredAt : String) : Envelope PaymentCallbackConfirmedPayload :=
  newEnvelopeWithMetadata "payment.callback.confirmed" "pcb:ref-1" "c-1" "event-1"
    occurredAt "webhook-service"
    { eventId := "event-1"
      paymentReference := "ref-1"
      amount := 100
      currency := "BRL"
      occurredAt := occurredAt }

theorem undisturbed_sample : Undisturbed sampleTurns samplePayment.id where
  succeeds := fun _ => rfl
  leaves := fun _ _ => rfl

theorem decides_iff_sample :
    (Decides date sampleService "i-1" (sampleCallback "1970-01-01T00:01:00Z")
        sampleTurns sampleStore samplePayment minute ↔
      ¬ Misjudged sampleService minute minute samplePayment
        (sampleCallback "1970-01-01T00:01:00Z").payload) ∧
    (Decides id sampleService "i-1" (sampleCallback "1970-01-01T00:01:00Z")
        sampleTurns sampleStore samplePayment minute ↔
      ¬ Misjudged sampleService minute minute samplePayment
          (sampleCallback "1970-01-01T00:01:00Z").payload ∧
        (verdict (Near minute minute (5 * minute)) samplePayment
          (sampleCallback "1970-01-01T00:01:00Z").payload minute = .completed →
          date minute = minute)) :=
  decides_iff sampleService "i-1" sampleStore (by decide) (by decide)
    undisturbed_sample rfl rfl

/-- A callback of the year 2300 is taken for a recent one in 1970: the payment
expires. -/
theorem expired_by_far_future :
    ¬ Decides date sampleService "i-1" (sampleCallback "2300-01-01T00:00:00Z")
        sampleTurns sampleStore samplePayment 10413792000000000000 ∧
    ¬ Decides id sampleService "i-1" (sampleCallback "2300-01-01T00:00:00Z")
        sampleTurns sampleStore samplePayment 10413792000000000000 := by
  have hmisjudged : Misjudged sampleService minute 10413792000000000000
      samplePayment (sampleCallback "2300-01-01T00:00:00Z").payload :=
    ⟨by decide, .inl (by decide)⟩
  have hnot : ∀ kept, ¬ Decides kept sampleService "i-1"
      (sampleCallback "2300-01-01T00:00:00Z") sampleTurns sampleStore samplePayment
      10413792000000000000 := fun kept hdecides =>
    not_misjudged_of_decides (by decide) (by decide) undisturbed_sample rfl rfl
      hdecides hmisjudged
  exact ⟨hnot date, hnot id⟩

end Sample

end Modularis.Payments.Decision
