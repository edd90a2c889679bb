import Modularis.Membership.Activation
import Modularis.Payments.Provenance

namespace Modularis.EndToEnd.Upgrade

open Modularis.Foundation
open Modularis.Foundation.GoTime (minute)
open Modularis.Shared.Messaging
open Modularis.Shared.Uuid
open Modularis.Membership.Service
open Modularis.Membership.Activation (Premium sampleCalls)
open Modularis.Payments.Models
open Modularis.Payments.Operations (Request Commit)
open Modularis.Payments.Handlers (Service)
open Modularis.Payments.Lifecycle (sampleService sampleCallback sampleChoice)
open Modularis.Payments.Effects (commits)
open Modularis.Payments.Ledger (completes)
open Modularis.Payments.Outbox (Publication Log publishAct publishPending)
open Modularis.Payments.Settlement (Settles)
open Modularis.Payments.Provenance (Accounted publications_subset)

/-- What Jackson reads of an envelope. -/
def readEnvelope {T : Type} (envelope : Envelope T) (paymentId userId : String) :
    PaymentConfirmedEventMessage where
  messageId := envelope.messageId
  correlationId := envelope.correlationId
  type := envelope.type
  payload :=
    { paymentId := paymentId
      userId := userId }

/-- `none` where the payload has no user id: the transaction ends in an exception. -/
def readBody : Body → Option PaymentConfirmedEventMessage
  | .processRequested _ | .callbackConfirmed _ => none
  | .deliveryRequested envelope =>
      some (readEnvelope envelope envelope.payload.paymentId envelope.payload.userId)
  | .statusUpdated envelope | .confirmed envelope =>
      some (readEnvelope envelope envelope.payload.paymentId envelope.payload.userId)

/-- What arrives in the queue that is bound to `payment.confirmed`. -/
def received (publication : Publication) : Option PaymentConfirmedEventMessage :=
  if publication.routingKey = "payment.confirmed" then readBody publication.body
  else none

/-- The broker may deliver the message. -/
def Deliverable (log : Log) (message : PaymentConfirmedEventMessage) : Prop :=
  ∃ publication ∈ log.publications, received publication = some message

instance (log : Log) (message : PaymentConfirmedEventMessage) :
    Decidable (Deliverable log message) :=
  inferInstanceAs (Decidable (∃ publication ∈ log.publications, _))

/-- The payment service and the membership service. -/
structure World where
  payment : Payments.Outbox.World
  membership : Membership.Activation.World

/-- Nothing has happened in either. -/
def World.init : World where
  payment := .init
  membership := .init

/-- A step of one of the two. -/
inductive Event where
  | payment (event : Payments.Outbox.Event)
  | membership (event : Membership.Activation.Event)

/-- Only what was published is delivered. -/
def admits (log : Log) : Membership.Activation.Event → Bool
  | .start _ message => decide (Deliverable log message)
  | _ => true

/-- The broker delivers what was published under `payment.confirmed`, any number of times
and in any order, whether or not `Publish` reported an error. -/
def step (s : Service) (world : World) : Event → Option World
  | .payment event =>
      (Payments.Outbox.step s world.payment event).map fun payment =>
        { world with payment := payment }
  | .membership event =>
      if admits world.payment.log event then
        (Membership.Activation.step world.membership event).map fun membership =>
          { world with membership := membership }
      else none

abbrev Run (s : Service) := StepSystem.Run (step s) World.init

abbrev Reachable (s : Service) := StepSystem.Reachable (step s) World.init

/-- `HandleCallbackConfirmed` processed the callback and completed the payment. -/
def Processed (world : World) (paymentId : String)
    (envelope : Envelope PaymentCallbackConfirmedPayload) : Prop :=
  ∃ commit ∈ commits world.payment.payments.shared paymentId,
    commit.request = .callbackConfirmed envelope ∧ completes commit = true ∧
    ∃ rest, world.payment.payments.invocations commit.invocation =
      some { request := .callbackConfirmed envelope, rest := rest }

/-- Both services, and what is on its way between them. -/
structure Sound (world : World) : Prop where
  accounted : Accounted world.payment
  membership : Membership.Activation.Sound world.membership
  delivered : ∀ i invocation, world.membership.invocations i = some invocation →
    Deliverable world.payment.log invocation.request
  committed : ∀ event ∈ world.membership.shared.committed,
    Deliverable world.payment.log event

section Steps

variable {s : Service} {world next : World}

theorem sound_init : Sound World.init where
  accounted := Payments.Provenance.accounted_init
  membership := Membership.Activation.sound_of_reachable (.refl _)
  delivered := nofun
  committed := nofun

theorem Deliverable.mono {log log' : Log} {message : PaymentConfirmedEventMessage}
    (h : Deliverable log message) (hlog : log.publications ⊆ log'.publications) :
    Deliverable log' message := by
  obtain ⟨publication, hmem, hreceived⟩ := h
  exact ⟨publication, hlog hmem, hreceived⟩

theorem publications_of_step {payment later : Payments.Outbox.World}
    {event : Payments.Outbox.Event}
    (hstep : Payments.Outbox.step s payment event = some later) :
    payment.log.publications ⊆ later.log.publications := by
  cases event with
  | handler event =>
      obtain ⟨payments, _, rfl⟩ := Option.map_eq_some_iff.mp hstep
      exact List.Subset.refl _
  | publisher event =>
      obtain ⟨publishing, hpublishing, rfl⟩ := Option.map_eq_some_iff.mp hstep
      change payment.publishing.shared.log.publications ⊆
        publishing.shared.log.publications
      by_cases hact : ∃ run choice, event = .act run choice
      · obtain ⟨run, choice, rfl⟩ := hact
        obtain ⟨request, op, after, _, hshared⟩ := Pool.step_act hpublishing
        rw [hshared]
        exact publications_subset run payment.publishing.shared op choice
      · rw [Pool.shared_of_step (fun run choice he => hact ⟨run, choice, he⟩) hpublishing]
        exact List.Subset.refl _

theorem committed_of_effect {event : PaymentConfirmedEventMessage} {σ τ : Store}
    (h : Membership.Activation.Effect event σ τ) :
    ∀ other ∈ τ.committed, other ∈ σ.committed ∨ other = event := by
  intro other hother
  cases h with
  | kept => exact .inl hother
  | seen | activated =>
      rcases List.mem_append.mp hother with hold | hnew
      · exact .inl hold
      · exact .inr (List.mem_singleton.mp hnew)

theorem sound_of_membership {event : Membership.Activation.Event}
    {membership : Membership.Activation.World} (h : Sound world)
    (hadmits : admits world.payment.log event = true)
    (hstep : Membership.Activation.step world.membership event = some membership) :
    Sound { world with membership := membership } := by
  obtain ⟨hmembership, hmoved⟩ := h.membership.step
    (fun _ _ _ _ _ => Membership.Activation.keeps_handlePaymentConfirmed) hstep
  refine ⟨h.accounted, hmembership, fun i invocation hinvocation => ?_, ?_⟩
  · rcases Pool.started_of_step hstep hinvocation with rfl | ⟨rest, hbefore⟩
    · exact of_decide_eq_true hadmits
    · have hdelivered := h.delivered i { request := invocation.request, rest := rest }
      exact hdelivered hbefore
  · intro event hevent
    cases hmoved with
    | kept hsame =>
        refine h.committed event ?_
        rw [← hsame]
        exact hevent
    | acted i invocation hinvocation heffect =>
        rcases committed_of_effect heffect event hevent with hold | rfl
        · exact h.committed event hold
        · exact h.delivered i invocation hinvocation

theorem sound_of_step {event : Event} (h : Sound world)
    (hstep : step s world event = some next) : Sound next := by
  cases event with
  | payment event =>
      obtain ⟨payment, hpayment, rfl⟩ := Option.map_eq_some_iff.mp hstep
      have hlog := publications_of_step hpayment
      exact
        { accounted := Payments.Provenance.accounted_of_step h.accounted hpayment
          membership := h.membership
          delivered := fun i invocation hi => (h.delivered i invocation hi).mono hlog
          committed := fun event hevent => (h.committed event hevent).mono hlog }
  | membership event =>
      obtain ⟨hadmits, hstep⟩ := Option.ite_none_right_eq_some.mp hstep
      obtain ⟨membership, hmembership, rfl⟩ := Option.map_eq_some_iff.mp hstep
      exact sound_of_membership h hadmits hmembership

theorem sound_of_reachable (h : Reachable s world) : Sound world :=
  h.invariant sound_init fun _ _ _ => sound_of_step

end Steps

/-- Whatever was lost, delayed, repeated or cut off, a premium user has paid: one of
the payments of the user is completed and delivered, and a callback that names it
with its amount and in time was processed. -/
theorem premium_was_paid (s : Service) {world : World} (h : Reachable s world)
    {userId : UUID} (hpremium : Premium world.membership.shared.db userId) :
    ∃ payment envelope,
      world.payment.payments.shared.payments.row payment.id = some payment ∧
      UUID.fromString payment.userId = some userId ∧
      payment.paymentStatus = .completed ∧ payment.deliveryStatus = .delivered ∧
      Processed world payment.id envelope ∧ Settles envelope.payload payment := by
  have hsound := sound_of_reachable h
  obtain ⟨event, hevent, huser⟩ :=
    (hsound.membership.inv.published.premium_iff userId).mp hpremium
  obtain ⟨publication, hmem, hreceived⟩ := hsound.committed event hevent
  obtain ⟨hkey, hbody⟩ := Option.ite_none_right_eq_some.mp hreceived
  obtain ⟨payment, confirmation, hpaid, hconfirmed, hsame⟩ :=
    Payments.Provenance.paid_of_published hsound.accounted hmem hkey
  rw [hconfirmed] at hbody
  obtain rfl := Option.some.inj hbody
  obtain ⟨commit, hcommit, envelope, hrequest, hcompletes, hsettles⟩ := hpaid.callback
  obtain ⟨rest, hinvocation⟩ :=
    hsound.accounted.recorded commit (List.mem_filter.mp hcommit).1
  rw [hrequest] at hinvocation
  refine ⟨payment, envelope, hpaid.stored, ?_, hpaid.completed, hpaid.delivered,
    ⟨commit, hcommit, hrequest, hcompletes, rest, hinvocation⟩, hsettles⟩
  rw [← hsame]
  exact huser

section Sample

def sampleUser : String := "00000000-0000-0000-0000-000000000000"

def sampleCreate : Request :=
  .createPayment (newEnvelopeWithMetadata "payment.intent.create" "m-1" "c-1" "" ""
    "onboarding-service"
    { idempotencyKey := "key-1"
      requestHash := "hash-1"
      userId := sampleUser
      customerName := "Ada"
      customerEmail := "ada@modularis.dev"
      customerCellphone := ""
      customerTaxId := ""
      amount := 100
      currency := "BRL" })

def sampleDelivery : Request :=
  .deliveryRequested (newEnvelopeWithMetadata "payment.delivery.requested" "m-2" "c-1"
    "" "" "payment-service"
    { paymentId := "payment-1"
      userId := sampleUser })

/-- A delivery to the payment service, to its end. -/
def sampleHandled (i : String) (request : Request) (calls : Nat) : List Event :=
  .payment (.handler (.start i request)) ::
    List.replicate calls (.payment (.handler (.act i sampleChoice)))

def samplePublishing (calls : Nat) : List Event :=
  .payment (.publisher (.start "run-1" ())) ::
    (List.range calls).map fun n =>
      .payment (.publisher (.act "run-1"
        { now := minute
          newId := String.ofList (List.replicate (n + 1) 't')
          document := ""
          failure := none
          applied := true }))

def sampleMessage : PaymentConfirmedEventMessage where
  messageId := "pcf:payment-1"
  correlationId := "c-1"
  type := "payment.confirmed"
  payload :=
    { paymentId := "payment-1"
      userId := sampleUser }

/-- `CreatePayment`, the callback and the delivery request are handled, and the run
that publishes what they left is cut off after `payment.confirmed`. -/
def sampleEvents : List Event :=
  (sampleHandled "i-1" sampleCreate 11 ++ sampleHandled "i-2" sampleCallback 8 ++
    sampleHandled "i-3" sampleDelivery 7) ++ samplePublishing 22 ++
    (.start 0 sampleMessage :: sampleCalls 0 10).map .membership

theorem premium_was_paid_sample : ∃ world payment envelope,
    Reachable sampleService world ∧
    Premium world.membership.shared.db (.ofDigit 0) ∧
    world.payment.payments.shared.payments.row payment.id = some payment ∧
    Processed world payment.id envelope ∧ Settles envelope.payload payment := by
  obtain ⟨world, hworld, hpremium⟩ : ∃ world,
      StepSystem.replay (step sampleService) World.init sampleEvents = some world ∧
      Premium world.membership.shared.db (.ofDigit 0) :=
    ⟨_, StepSystem.replay_append
      (StepSystem.replay_append (StepSystem.replay_append rfl rfl) rfl) rfl, rfl⟩
  have hreach := (StepSystem.run_of_replay hworld).reachable
  obtain ⟨payment, envelope, hpayment, _, _, _, hprocessed, hsettles⟩ :=
    premium_was_paid sampleService hreach hpremium
  exact ⟨world, payment, envelope, hreach, hpremium, hpayment, hprocessed, hsettles⟩

end Sample

end Modularis.EndToEnd.Upgrade
