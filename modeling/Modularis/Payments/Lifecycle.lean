import Modularis.Payments.Conduct

namespace Modularis.Payments.Lifecycle

open Modularis.Foundation
open Modularis.Foundation.GoTime
open Modularis.Shared.Messaging
open Modularis.Payments.Models
open Modularis.Payments.Operations
open Modularis.Payments.Handlers
open Modularis.Payments.Effects
open Modularis.Payments.Aggregate
open Modularis.Payments.Ledger
open Modularis.Payments.Interleaving
open Modularis.Payments.Conduct

variable {s : Service}

/-- A pool in which every payment agrees with its ledger and every invocation is
safe from where it stands. -/
abbrev Sound (world : World) : Prop :=
  Pool.Orderly rules (fun _ _ _ _ => True) world

theorem sound_of_reachable {world : World} (h : Reachable s world) : Sound world :=
  Pool.orderly_of_reachable (fun _ request _ hok hunused => keeps_program hok hunused request)
    storeOk_empty (fun _ _ hcommit => absurd hcommit List.not_mem_nil) h

theorem storeOk_of_reachable {world : World} (h : Reachable s world) :
    StoreOk world.shared := (sound_of_reachable h).inv

theorem moved_of_step {world next : World} {event : Event}
    (h : Reachable s world) (hstep : step s world event = some next) :
    Pool.Moved rules world next.shared :=
  ((sound_of_reachable h).step
    (fun _ request _ hok hunused => keeps_program hok hunused request) hstep).2

theorem moves_of_step {world next : World} {event : Event}
    (h : Reachable s world) (hstep : step s world event = some next)
    {paymentId : String} {p : Payment}
    (hp : world.shared.payments.row paymentId = some p) :
    ∃ q, next.shared.payments.row paymentId = some q ∧ Moves p q := by
  cases moved_of_step h hstep with
  | kept hsame => exact ⟨p, by rw [hsame, hp], .refl p⟩
  | acted _ _ _ heffect => exact moves_of_effect heffect hp

theorem fresh_of_step {world next : World} {event : Event}
    (h : Reachable s world) (hstep : step s world event = some next)
    {paymentId : String} {q : Payment}
    (hworld : world.shared.payments.row paymentId = none)
    (hnext : next.shared.payments.row paymentId = some q) : Fresh q := by
  cases moved_of_step h hstep with
  | kept hsame =>
      rw [hsame, hworld] at hnext
      cases hnext
  | acted _ _ _ heffect => exact fresh_of_effect heffect hworld hnext

theorem grows_of_run {world later : World} {trace : List (World × Event)}
    (h : Reachable s world) (hrun : StepSystem.Run (step s) world trace later) :
    Grows world.shared later.shared := by
  induction hrun with
  | nil => exact .refl _
  | snoc hbefore hstep ih =>
      refine ih.trans fun paymentId p hp => ?_
      obtain ⟨q, hq, hmoves⟩ := moves_of_step (h.run hbefore) hstep hp
      exact ⟨q, hq, hmoves.later⟩

/-- The life of a payment: its fields hang together, it enters as `CreatePayment`
makes it, each step keeps its identity and moves its status along `StatusMove` if
at all, and `COMPLETED` and `EXPIRED` are final. -/
theorem payment_aggregate_invariant (s : Service) {world : World}
    (h : Reachable s world) :
    (∀ paymentId p, world.shared.payments.row paymentId = some p →
      AggregateOk p) ∧
    (∀ event next, step s world event = some next → ∀ paymentId,
      (∀ q, world.shared.payments.row paymentId = none →
        next.shared.payments.row paymentId = some q → Fresh q) ∧
      (∀ p, world.shared.payments.row paymentId = some p →
        ∃ q, next.shared.payments.row paymentId = some q ∧ Moves p q)) ∧
    (∀ trace later, StepSystem.Run (step s) world trace later → ∀ paymentId p,
      world.shared.payments.row paymentId = some p →
      ∃ q, later.shared.payments.row paymentId = some q ∧ SameIdentity p q ∧
        (p.paymentStatus = .completed ∨ p.paymentStatus = .expired →
          q.paymentStatus = p.paymentStatus)) := by
  refine ⟨fun paymentId p hp => ?_, fun event next hstep paymentId => ⟨?_, ?_⟩, ?_⟩
  · exact ((storeOk_of_reachable h).payment paymentId p hp).1
  · exact fun q => fresh_of_step h hstep
  · exact fun p => moves_of_step h hstep
  · intro trace later hrun paymentId p hp
    obtain ⟨q, hq, hlater⟩ := grows_of_run h hrun paymentId p hp
    exact ⟨q, hq, hlater.same, eq_of_final hlater.path⟩

/-- The effects of a payment among the messages ever added to its outbox. -/
structure EnqueuedOnce (payment : Payment) (store : Store) : Prop where
  deliveryRequested :
    countKey "payment.delivery.requested" (enqueued store payment.id) =
      if payment.paymentStatus = .completed then 1 else 0
  confirmed : countKey "payment.confirmed" (enqueued store payment.id) =
    if payment.deliveryStatus = .delivered then 1 else 0
  statusUpdated : (statusIds (enqueued store payment.id)).Nodup
  completed : payment.paymentStatus = .completed →
    CompletedBy payment (commits store payment.id)

/-- In every state that any interleaving of the handlers reaches, whichever of
their calls were cut off or failed. -/
theorem payment_effects_enqueued_once (s : Service) {world : World}
    (h : Reachable s world) {paymentId : String} {payment : Payment}
    (hrow : world.shared.payments.row paymentId = some payment) :
    EnqueuedOnce payment world.shared := by
  have hledger := ((storeOk_of_reachable h).payment paymentId payment hrow).2
  rw [← world.shared.payments.key_row paymentId payment hrow] at hledger
  exact
    { deliveryRequested := hledger.requested
      confirmed := hledger.confirmed
      statusUpdated := hledger.nodup
      completed := hledger.completed }

section Sample

def sampleService : Service where
  config :=
    { eventExchange := "modularis.events"
      webhookTolerance := 5 * minute
      allowedCurrencies := ["BRL"]
      paymentExpiration := 30 * minute
      processingAttempts := 3
      processingDelay := second
      processingBackoff := 2
      simulateWebhookConfirmation := false }
  unicodeToUpper := id

def sampleCreate : Request :=
  .createPayment (newEnvelopeWithMetadata "payment.intent.create" "m-1" "c-1" ""
    "" "onboarding-service"
    { idempotencyKey := "key-1"
      requestHash := "hash-1"
      userId := "user-1"
      customerName := "Ada"
      customerEmail := "ada@modularis.dev"
      customerCellphone := ""
      customerTaxId := ""
      amount := 100
      currency := "BRL" })

def sampleCallback : Request :=
  .callbackConfirmed (newEnvelopeWithMetadata "payment.callback.confirmed"
    "pcb:ref-1" "c-1" "event-1" "1970-01-01T00:01:00Z" "webhook-service"
    { eventId := "event-1"
      paymentReference := "ref-1"
      amount := 100
      currency := "BRL"
      occurredAt := "1970-01-01T00:01:00Z" })

def sampleChoice : Choice where
  now := minute
  newId := "payment-1"
  failure := none
  intent := .ok
    { reference := "ref-1"
      qrCode := ""
      qrCodeImageUrl := "" }
  processed := .error (.other "")

/-- `CreatePayment` to its end, then `HandleCallbackConfirmed` to its end. -/
def sampleEvents : List Event :=
  .start "i-1" sampleCreate :: List.replicate 11 (.act "i-1" sampleChoice) ++
    .start "i-2" sampleCallback :: List.replicate 8 (.act "i-2" sampleChoice)

theorem sample_completed : ∃ world payment, Reachable sampleService world ∧
    world.shared.payments.row "payment-1" = some payment ∧
    payment.paymentStatus = .completed := by
  have hreplay : ((StepSystem.replay (step sampleService) World.init sampleEvents).bind
      fun world => world.shared.payments.row "payment-1").map Payment.paymentStatus =
        some .completed := rfl
  obtain ⟨payment, hpayment, hstatus⟩ := Option.map_eq_some_iff.mp hreplay
  obtain ⟨world, hworld, hrow⟩ := Option.bind_eq_some_iff.mp hpayment
  exact ⟨world, payment, ⟨_, StepSystem.run_of_replay hworld⟩, hrow, hstatus⟩

theorem payment_aggregate_invariant_sample : ∃ (world : World) (payment : Payment),
    world.shared.payments.row "payment-1" = some payment ∧
    payment.paymentStatus = .completed ∧ AggregateOk payment := by
  obtain ⟨world, payment, hreach, hrow, hstatus⟩ := sample_completed
  exact ⟨world, payment, hrow, hstatus,
    (payment_aggregate_invariant sampleService hreach).1 "payment-1" payment hrow⟩

theorem payment_effects_enqueued_once_sample : ∃ (world : World) (payment : Payment),
    world.shared.payments.row "payment-1" = some payment ∧
    payment.paymentStatus = .completed ∧ EnqueuedOnce payment world.shared := by
  obtain ⟨world, payment, hreach, hrow, hstatus⟩ := sample_completed
  exact ⟨world, payment, hrow, hstatus,
    payment_effects_enqueued_once sampleService hreach hrow⟩

end Sample

end Modularis.Payments.Lifecycle
