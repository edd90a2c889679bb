import Modularis.EndToEnd.Customers
import Modularis.Gateway.EventStreamController
import Modularis.Membership.Relay
import Modularis.Payments.Broadcasts

/-!
What a client hears on `GET /events`: the services behind an account and its payment, the
two outboxes that announce what became of them, and any number of gateways that hand the
announcements to the streams of their users.  The broker may lose a message, be late with
it or bring it twice.
-/

namespace Modularis.EndToEnd.Streams

open Modularis.Foundation
open Modularis.Shared.Messaging (Envelope)
open Modularis.Shared.RabbitBus (Json)
open Modularis.Shared.Uuid
open Modularis.Onboarding.CommandConsumer (object)
open Modularis.Onboarding.Repository (AccountCreationSaga)
open Modularis.Identity.Database (UserEntity)
open Modularis.Membership.Activation (Premium)
open Modularis.Membership.Relay (Announces Message ReadsBack messageJson payloadJson)
open Modularis.Payments.Models
open Modularis.Payments.Outbox (Publication Log)
open Modularis.Payments.Uniqueness (Stored)
open Modularis.Payments.Broadcasts (Had)
open Modularis.Gateway.AuthGuard (AuthService Signs Presents)
open Modularis.Gateway.UserEventStream (StreamEvent JsonParser Consistent
  isMessageEnvelopeRecord published)
open Modularis.Gateway.EventStreamController
open Modularis.EndToEnd.Compensation (paymentStatusText deliveryStatusText omitempty)
open Modularis.EndToEnd.Customers (Customer)

section Bodies

/-- `MarshalJSON`, with the fields under their second names. -/
def envelopeJson {T : Type} (envelope : Envelope T) (payload : Json) : Json :=
  object
    [("schemaVersion", some (.string envelope.schemaVersion)),
      ("messageId", some (.string envelope.messageId)),
      ("correlationId", some (.string envelope.correlationId)),
      ("causationId", (omitempty envelope.causationId).map Json.string),
      ("occurredAt", some (.string envelope.occurredAt)),
      ("type", some (.string envelope.type)),
      ("source", (omitempty envelope.source).map Json.string), ("payload", some payload),
      ("eventVersion", some (.string envelope.schemaVersion)),
      ("id", some (.string envelope.messageId)),
      ("timestamp", some (.string envelope.occurredAt)),
      ("eventType", some (.string envelope.type))]

/-- The payload of an update, as it is sent. -/
def statusJson (payload : PaymentStatusUpdatedPayload) : Json :=
  .object
    [("paymentId", .string payload.paymentId),
      ("paymentReference", .string payload.paymentReference),
      ("userId", .string payload.userId),
      ("paymentStatus", .string (paymentStatusText payload.paymentStatus)),
      ("deliveryStatus", .string (deliveryStatusText payload.deliveryStatus)),
      ("confirmedAt", .string payload.confirmedAt),
      ("expiresAt", .string payload.expiresAt)]

/-- A body, as it is sent. -/
def bodyJson : Body → Json
  | .processRequested envelope =>
      envelopeJson envelope (.object
        [("paymentId", .string envelope.payload.paymentId),
          ("paymentReference", .string envelope.payload.paymentReference)])
  | .callbackConfirmed envelope =>
      envelopeJson envelope (.object
        [("eventId", .string envelope.payload.eventId),
          ("paymentReference", .string envelope.payload.paymentReference),
          ("amount", .number envelope.payload.amount),
          ("currency", .string envelope.payload.currency),
          ("occurredAt", .string envelope.payload.occurredAt)])
  | .deliveryRequested envelope =>
      envelopeJson envelope (.object
        [("paymentId", .string envelope.payload.paymentId),
          ("userId", .string envelope.payload.userId)])
  | .statusUpdated envelope | .confirmed envelope =>
      envelopeJson envelope (statusJson envelope.payload)

end Bodies

section System

/-- `marshal` makes the texts that the payment service sends of a value.  `convert` is the
message converter of the membership service, on the tree that `convertAndSend` gets: what it
makes of a tree, if anything, is left open. -/
structure Setting where
  account : Account.Setting
  relay : Membership.Relay.Setting
  auth : AuthService
  http : Gateway.AccountController.Environment
  eventExchange : String
  membershipExchange : String
  marshal : Json → List UInt8
  convert : Json → Option (List UInt8)
  parseJson : JsonParser

/-- The keys that the queue of a gateway is bound to. -/
def boundKeys : List String := ["payment.status-updated", "user.premium-updated"]

/-- `opened` are the responses to `GET /events`, with the gateways that give them. -/
structure World where
  customers : Customers.World
  outbox : Membership.OutboxPublisher.World
  sent : List Message
  gateways : String → Gateway.UserEventStream.World
  opened : List (String × Opening)

/-- Nothing has happened anywhere, and nobody listens. -/
def World.init : World where
  customers := .init
  outbox := .init
  sent := []
  gateways := fun _ => .init
  opened := []

/-- The membership service: its listeners and its publishers. -/
def World.relay (world : World) : Membership.Relay.World where
  listeners := world.customers.membership
  outbox := world.outbox
  sent := world.sent

/-- The membership service and its outbox have moved on. -/
def World.withRelay (world : World) (relay : Membership.Relay.World) : World :=
  { world with
    customers := { world.customers with membership := relay.listeners }
    outbox := relay.outbox
    sent := relay.sent }

/-- The streams of a gateway have moved on. -/
def World.setGateway (world : World) (gateway : String)
    (service : Gateway.UserEventStream.World) : World :=
  { world with gateways := Function.update world.gateways gateway service }

/-- A message arrives at a gateway. -/
def World.hear (world : World) (S : Setting) (gateway : String) (deliveryTag : Nat)
    (content : List UInt8) : World :=
  world.setGateway gateway
    (Gateway.UserEventStream.step S.parseJson (world.gateways gateway)
      (.message (some { deliveryTag := deliveryTag, content := content })))

/-- A message of the payment service or of the membership service, by its number. -/
inductive Arrival where
  | status (n : Nat)
  | premium (n : Nat)

/-- What the queue of a gateway gets of the message. -/
def arrives (S : Setting) (world : World) : Arrival → Option (List UInt8)
  | .status n =>
      world.customers.log.publications[n]?.bind fun publication =>
        if publication.exchange = S.eventExchange ∧ publication.routingKey ∈ boundKeys then
          some (S.marshal (bodyJson publication.body))
        else none
  | .premium n =>
      world.sent[n]?.bind fun message =>
        if S.membershipExchange = S.eventExchange ∧ message.event.routingKey ∈ boundKeys then
          S.convert message.payload
        else none

/-- A step of a service, a client that asks for its events, or a message that a gateway
hears. -/
inductive Event where
  | customers (event : Customers.Event)
  | relay (event : Membership.Relay.Event)
  | events (gateway : String) (now : Int) (request : Gateway.AuthGuard.Request)
  | hear (arrival : Arrival) (gateway : String) (deliveryTag : Nat)

/-- The event is one of the membership service, whose steps are those of its relay here.
-/
def isMembership : Customers.Event → Bool
  | .membership _ => true
  | _ => false

/-- Listeners are delivered what was published. -/
def admits (log : Log) : Membership.Relay.Event → Bool
  | .listener event _ _ => Upgrade.admits log event
  | .publisher _ => true

/-- Gateways hear what was handed to the broker. -/
def step (S : Setting) (world : World) : Event → Option World
  | .customers event =>
      if isMembership event then none
      else
        (Customers.step S.account world.customers event).map fun customers =>
          { world with customers := customers }
  | .relay event =>
      if admits world.customers.log event then
        (Membership.Relay.step S.relay world.relay event).map world.withRelay
      else none
  | .events gateway now request =>
      (events S.auth S.http S.parseJson now request (world.gateways gateway)).map
        fun (opening, service) =>
          { world.setGateway gateway service with
            opened := world.opened ++ [(gateway, opening)] }
  | .hear arrival gateway deliveryTag =>
      (arrives S world arrival).map (world.hear S gateway deliveryTag)

abbrev Reachable (S : Setting) := StepSystem.Reachable (step S) World.init

end System

section Views

variable {S : Setting} {world next : World}

theorem membership_of_step {T : Account.Setting} {before after : Customers.World}
    {event : Customers.Event} (hevent : isMembership event ≠ true)
    (hstep : Customers.step T before event = some after) :
    after.membership = before.membership := by
  cases event with
  | account event =>
      obtain ⟨account, _, rfl⟩ := Option.map_eq_some_iff.mp hstep
      rfl
  | publisher event =>
      obtain ⟨payment, _, rfl⟩ := Option.map_eq_some_iff.mp hstep
      rfl
  | membership event => exact absurd rfl hevent

theorem publications_of_step {T : Account.Setting} {before after : Customers.World}
    {event : Customers.Event} (hstep : Customers.step T before event = some after) :
    before.log.publications ⊆ after.log.publications := by
  rcases Customers.upgrade_of_step hstep with hsame | ⟨event, hupgrade⟩
  · have hlog : after.log = before.log :=
      congrArg (fun upgrade : Upgrade.World => upgrade.payment.log) hsame
    rw [hlog]
    exact List.Subset.refl _
  · cases event with
    | payment event =>
        obtain ⟨payment, hpayment, hafter⟩ := Option.map_eq_some_iff.mp hupgrade
        have hlog : after.log = payment.log :=
          congrArg (fun upgrade : Upgrade.World => upgrade.payment.log) hafter.symm
        rw [hlog]
        exact Upgrade.publications_of_step hpayment
    | membership event =>
        obtain ⟨_, hsome⟩ := Option.ite_none_right_eq_some.mp hupgrade
        obtain ⟨membership, _, hafter⟩ := Option.map_eq_some_iff.mp hsome
        have hlog : after.log = before.log :=
          congrArg (fun upgrade : Upgrade.World => upgrade.payment.log) hafter.symm
        rw [hlog]
        exact List.Subset.refl _

theorem customers_of_relay {event : Membership.Relay.Event}
    (hstep : step S world (.relay event) = some next) :
    next.customers = world.customers ∨ ∃ event,
      Customers.step S.account world.customers event = some next.customers := by
  obtain ⟨hadmits, hsome⟩ := Option.ite_none_right_eq_some.mp hstep
  obtain ⟨relay, hrelay, rfl⟩ := Option.map_eq_some_iff.mp hsome
  cases event with
  | listener event nextAttemptAt createdAt =>
      obtain ⟨listeners, hlisteners, hstored⟩ := Option.bind_eq_some_iff.mp hrelay
      obtain ⟨outbox, _, rfl⟩ := Option.map_eq_some_iff.mp hstored
      refine .inr ⟨.membership event, Option.ite_none_right_eq_some.mpr ⟨hadmits, ?_⟩⟩
      exact Option.map_eq_some_iff.mpr ⟨listeners, hlisteners, rfl⟩
  | publisher event =>
      obtain ⟨_, hsome⟩ := Option.ite_none_right_eq_some.mp hrelay
      obtain ⟨outbox, _, rfl⟩ := Option.map_eq_some_iff.mp hsome
      exact .inl rfl

theorem customers_of_step {event : Event} (hstep : step S world event = some next) :
    next.customers = world.customers ∨ ∃ event,
      Customers.step S.account world.customers event = some next.customers := by
  cases event with
  | customers event =>
      obtain ⟨_, hsome⟩ := Option.ite_none_left_eq_some.mp hstep
      obtain ⟨customers, hcustomers, rfl⟩ := Option.map_eq_some_iff.mp hsome
      exact .inr ⟨event, hcustomers⟩
  | relay event => exact customers_of_relay hstep
  | events gateway now request =>
      obtain ⟨⟨opening, service⟩, _, rfl⟩ := Option.map_eq_some_iff.mp hstep
      exact .inl rfl
  | hear arrival gateway deliveryTag =>
      obtain ⟨content, _, rfl⟩ := Option.map_eq_some_iff.mp hstep
      exact .inl rfl

theorem relay_of_step {event : Event} (hstep : step S world event = some next) :
    next.relay = world.relay ∨ ∃ event,
      Membership.Relay.step S.relay world.relay event = some next.relay := by
  cases event with
  | customers event =>
      obtain ⟨hevent, hsome⟩ := Option.ite_none_left_eq_some.mp hstep
      obtain ⟨customers, hcustomers, rfl⟩ := Option.map_eq_some_iff.mp hsome
      refine .inl ?_
      simp only [World.relay, membership_of_step hevent hcustomers]
  | relay event =>
      obtain ⟨_, hsome⟩ := Option.ite_none_right_eq_some.mp hstep
      obtain ⟨relay, hrelay, rfl⟩ := Option.map_eq_some_iff.mp hsome
      exact .inr ⟨event, hrelay⟩
  | events gateway now request =>
      obtain ⟨⟨opening, service⟩, _, rfl⟩ := Option.map_eq_some_iff.mp hstep
      exact .inl rfl
  | hear arrival gateway deliveryTag =>
      obtain ⟨content, _, rfl⟩ := Option.map_eq_some_iff.mp hstep
      exact .inl rfl

theorem customers_of_reachable (h : Reachable S world) :
    Customers.Reachable S.account world.customers :=
  h.map World.customers fun _ _ _ => customers_of_step

theorem relay_of_reachable (h : Reachable S world) :
    Membership.Relay.Reachable S.relay world.relay :=
  h.map World.relay fun _ _ _ => relay_of_step

end Views

section Invariant

variable {S : Setting} {world next : World}

/-- A text that the services have sent to the queues of the gateways. -/
inductive Sent (S : Setting) (world : World) : List UInt8 → Prop
  | status {publication : Publication} :
      publication ∈ world.customers.log.publications →
      publication.routingKey ∈ boundKeys →
      Sent S world (S.marshal (bodyJson publication.body))
  | premium {message : Message} {content : List UInt8} :
      message ∈ world.sent → message.event.routingKey ∈ boundKeys →
      S.convert message.payload = some content → Sent S world content

/-- A message for the user brought the event. -/
def Heard (S : Setting) (world : World) (userId : String) (event : StreamEvent) : Prop :=
  ∃ content, Sent S world content ∧ published S.parseJson userId content = some event

/-- The gateways, their responses, and what these have received. -/
structure Linked (S : Setting) (world : World) : Prop where
  consistent : ∀ gateway, ∃ calls, Consistent calls (world.gateways gateway).service
  opens : ∀ gateway opening, (gateway, opening) ∈ world.opened →
    Opens S.auth S.http (world.gateways gateway) opening
  heard : ∀ gateway opening, (gateway, opening) ∈ world.opened →
    ∀ event ∈ (world.gateways gateway).service.received opening.subscription,
      Heard S world opening.userId event

theorem linked_init (S : Setting) : Linked S World.init where
  consistent := fun _ => ⟨[], Gateway.UserEventStream.consistent_run S.parseJson []⟩
  opens := by simp [World.init]
  heard := by simp [World.init]

theorem sent_of_arrives {arrival : Arrival} {content : List UInt8}
    (h : arrives S world arrival = some content) : Sent S world content := by
  cases arrival with
  | status n =>
      obtain ⟨publication, hget, hsome⟩ := Option.bind_eq_some_iff.mp h
      obtain ⟨⟨_, hkey⟩, hcontent⟩ := Option.ite_none_right_eq_some.mp hsome
      obtain rfl := Option.some.inj hcontent
      exact .status (List.mem_of_getElem? hget) hkey
  | premium n =>
      obtain ⟨message, hget, hsome⟩ := Option.bind_eq_some_iff.mp h
      obtain ⟨⟨_, hkey⟩, hcontent⟩ := Option.ite_none_right_eq_some.mp hsome
      exact .premium (List.mem_of_getElem? hget) hkey hcontent

theorem Heard.mono {userId : String} {event : StreamEvent} (h : Heard S world userId event)
    (hlog : world.customers.log.publications ⊆ next.customers.log.publications)
    (hsent : world.sent ⊆ next.sent) : Heard S next userId event := by
  obtain ⟨content, hcontent, hpublished⟩ := h
  refine ⟨content, ?_, hpublished⟩
  cases hcontent with
  | status hmem hkey => exact .status (hlog hmem) hkey
  | premium hmem hkey hcontent => exact .premium (hsent hmem) hkey hcontent

theorem sent_of_relay {T : Membership.Relay.Setting} {before after : Membership.Relay.World}
    {event : Membership.Relay.Event}
    (hstep : Membership.Relay.step T before event = some after) :
    before.sent ⊆ after.sent := by
  cases event with
  | listener event nextAttemptAt createdAt =>
      obtain ⟨listeners, _, hstored⟩ := Option.bind_eq_some_iff.mp hstep
      obtain ⟨outbox, _, rfl⟩ := Option.map_eq_some_iff.mp hstored
      exact List.Subset.refl _
  | publisher event =>
      obtain ⟨_, hsome⟩ := Option.ite_none_right_eq_some.mp hstep
      obtain ⟨outbox, _, rfl⟩ := Option.map_eq_some_iff.mp hsome
      exact List.subset_append_left _ _

theorem sent_of_step {event : Event} (hstep : step S world event = some next) :
    world.customers.log.publications ⊆ next.customers.log.publications ∧
      world.sent ⊆ next.sent := by
  constructor
  · rcases customers_of_step hstep with hsame | ⟨event, hcustomers⟩
    · rw [hsame]
      exact List.Subset.refl _
    · exact publications_of_step hcustomers
  · rcases relay_of_step hstep with hsame | ⟨event, hrelay⟩
    · have hsent : next.sent = world.sent := congrArg Membership.Relay.World.sent hsame
      rw [hsent]
      exact List.Subset.refl _
    · exact sent_of_relay hrelay

theorem Linked.behind (h : Linked S world)
    (hgateways : next.gateways = world.gateways) (hopened : next.opened = world.opened)
    (hlog : world.customers.log.publications ⊆ next.customers.log.publications)
    (hsent : world.sent ⊆ next.sent) : Linked S next where
  consistent := hgateways ▸ h.consistent
  opens := by
    rw [hgateways, hopened]
    exact h.opens
  heard := by
    rw [hgateways, hopened]
    intro gateway opening hmem event hevent
    exact (h.heard gateway opening hmem event hevent).mono hlog hsent

/-- One gateway goes on: its responses are in order, those of the others are as they were. -/
theorem Linked.set (h : Linked S world) {gateway : String}
    {service : Gateway.UserEventStream.World} {opened : List (String × Opening)}
    (hservice : ∃ calls, Consistent calls service.service)
    (hothers : ∀ other ≠ gateway, ∀ opening, (other, opening) ∈ opened →
      (other, opening) ∈ world.opened)
    (hown : ∀ opening, (gateway, opening) ∈ opened →
      Opens S.auth S.http service opening ∧
        ∀ event ∈ service.service.received opening.subscription,
          Heard S world opening.userId event) :
    Linked S { world.setGateway gateway service with opened := opened } := by
  have hheard : ∀ {userId event}, Heard S world userId event →
      Heard S { world.setGateway gateway service with opened := opened } userId event :=
    fun hbefore => hbefore.mono (List.Subset.refl _) (List.Subset.refl _)
  constructor
  · intro other
    by_cases hother : other = gateway
    · subst hother
      simp only [World.setGateway, Function.update_self]
      exact hservice
    · simp only [World.setGateway, Function.update_of_ne hother]
      exact h.consistent other
  · intro other opening hmem
    by_cases hother : other = gateway
    · subst hother
      simp only [World.setGateway, Function.update_self]
      exact (hown opening hmem).1
    · simp only [World.setGateway, Function.update_of_ne hother]
      exact h.opens other opening (hothers other hother opening hmem)
  · intro other opening hmem event hevent
    by_cases hother : other = gateway
    · subst hother
      simp only [World.setGateway, Function.update_self] at hevent
      exact hheard ((hown opening hmem).2 event hevent)
    · simp only [World.setGateway, Function.update_of_ne hother] at hevent
      exact hheard (h.heard other opening (hothers other hother opening hmem) event hevent)

theorem linked_of_events (h : Linked S world) {gateway : String} {now : Int}
    {request : Gateway.AuthGuard.Request}
    (hstep : step S world (.events gateway now request) = some next) : Linked S next := by
  obtain ⟨⟨opening, service⟩, hevents, rfl⟩ := Option.map_eq_some_iff.mp hstep
  obtain ⟨calls, hcalls⟩ := h.consistent gateway
  obtain ⟨hopens, hnothing, hnext⟩ := opens_of_events hcalls hevents
  refine h.set hnext (fun other hother old hmem => ?_) fun old hmem => ?_
  · rcases List.mem_append.mp hmem with hold | hnew
    · exact hold
    · exact absurd (Prod.mk.inj (List.mem_singleton.mp hnew)).1 hother
  · rcases List.mem_append.mp hmem with hold | hnew
    · obtain ⟨hkept, hsame⟩ := kept_of_events hcalls hevents (h.opens gateway old hold)
      rw [hsame]
      exact ⟨hkept, h.heard gateway old hold⟩
    · obtain ⟨_, rfl⟩ := Prod.mk.inj (List.mem_singleton.mp hnew)
      rw [hnothing]
      exact ⟨hopens, fun _ hevent => absurd hevent List.not_mem_nil⟩

theorem linked_of_hear (h : Linked S world) {arrival : Arrival} {gateway : String}
    {deliveryTag : Nat}
    (hstep : step S world (.hear arrival gateway deliveryTag) = some next) :
    Linked S next := by
  obtain ⟨content, hcontent, rfl⟩ := Option.map_eq_some_iff.mp hstep
  obtain ⟨calls, hcalls⟩ := h.consistent gateway
  refine h.set ⟨_, hcalls.step S.parseJson _⟩ (fun _ _ _ hmem => hmem) fun opening hmem => ?_
  have hopens := h.opens gateway opening hmem
  obtain ⟨stream, hsubscribed⟩ := hopens.subscribed
  refine ⟨hopens.step _, fun event hevent => ?_⟩
  rw [Gateway.UserEventStream.received_step hcalls.separate hsubscribed] at hevent
  rcases List.mem_append.mp hevent with hold | hnew
  · exact h.heard gateway opening hmem event hold
  · exact ⟨content, sent_of_arrives hcontent, Option.mem_toList.mp hnew⟩

theorem linked_of_reachable (h : Reachable S world) : Linked S world := by
  refine h.invariant (linked_init S) fun before event after hbefore hstep => ?_
  obtain ⟨hlog, hsent⟩ := sent_of_step hstep
  cases event with
  | customers event =>
      obtain ⟨_, hsome⟩ := Option.ite_none_left_eq_some.mp hstep
      obtain ⟨customers, _, rfl⟩ := Option.map_eq_some_iff.mp hsome
      exact hbefore.behind rfl rfl hlog hsent
  | relay event =>
      obtain ⟨_, hsome⟩ := Option.ite_none_right_eq_some.mp hstep
      obtain ⟨relay, _, rfl⟩ := Option.map_eq_some_iff.mp hsome
      exact hbefore.behind rfl rfl hlog hsent
  | events gateway now request => exact linked_of_events hbefore hstep
  | hear arrival gateway deliveryTag => exact linked_of_hear hbefore hstep

end Invariant

section Readings

variable {S : Setting} {world : World} {userId : String} {event : StreamEvent}

theorem envelope_of_envelopeJson {T : Type} (envelope : Envelope T)
    (members : List (String × Json)) :
    isMessageEnvelopeRecord (envelopeJson envelope (.object members)) = some
      { messageId := envelope.messageId
        correlationId := envelope.correlationId
        occurredAt := envelope.occurredAt
        type := envelope.type
        eventType := some (.string envelope.type)
        payload := .object members } := by
  unfold envelopeJson
  cases omitempty envelope.causationId <;> cases omitempty envelope.source <;> rfl

theorem envelope_of_messageJson (message : Membership.Database.PremiumMessage) :
    isMessageEnvelopeRecord (messageJson message) = some
      { messageId := message.messageId
        correlationId := message.correlationId
        occurredAt := message.occurredAt
        type := message.type
        eventType := some (.string message.type)
        payload := payloadJson message.payload } := rfl

theorem event_of_published {content : List UInt8} {json : Json}
    {envelope : Gateway.UserEventStream.Envelope} (hparse : S.parseJson content = .ok json)
    (hrecord : isMessageEnvelopeRecord json = some envelope)
    (h : published S.parseJson userId content = some event) :
    envelope.BelongsTo userId ∧ event = envelope.event := by
  rw [Gateway.UserEventStream.published_eq] at h
  obtain ⟨_, hevent⟩ := Option.ite_none_right_eq_some.mp h
  obtain ⟨read, hread, rfl⟩ := Option.map_eq_some_iff.mp hevent
  obtain ⟨henvelope, hbelongs⟩ := Option.filter_eq_some_iff.mp hread
  have hsame : Gateway.UserEventStream.envelopeOf S.parseJson content = some envelope := by
    simp only [Gateway.UserEventStream.envelopeOf, Gateway.UserEventStream.parseEventEnvelope,
      hparse, bind, Except.bind, hrecord, Except.toOption]
  obtain rfl := Option.some.inj (hsame.symm.trans henvelope)
  exact ⟨of_decide_eq_true hbelongs, rfl⟩

/-- The texts of the payment service are read back. -/
def Legible (S : Setting) (world : World) : Prop :=
  ∀ publication ∈ world.customers.log.publications, publication.routingKey ∈ boundKeys →
    S.parseJson (S.marshal (bodyJson publication.body)) = .ok (bodyJson publication.body)

/-- The event states a status that the payment had. -/
structure States (world : World) (payment : Payment) (event : StreamEvent)
    (status : PaymentStatusUpdatedPayload) : Prop where
  type : event.type = "payment.status-updated"
  payload : event.payload = statusJson status
  paymentId : status.paymentId = payment.id
  userId : status.userId = payment.userId
  had : Had world.customers.account.payments.shared payment.id status.paymentStatus
    status.deliveryStatus

/-- A message that announces a premium user brought the event.  Where the converter has
written the message so that it is read back, the user is the one of the stream, and the event
says that this user is premium. -/
structure Tells (S : Setting) (world : World) (userId : String) (event : StreamEvent)
    (row : Membership.Database.OutboxEventEntity) (id : UUID) : Prop where
  sent : S.relay.message row ∈ world.sent
  announces : Announces world.customers.membership.shared.db id row
  heard : ∃ content, S.convert (messageJson row.payloadJson) = some content ∧
    published S.parseJson userId content = some event ∧
    (S.parseJson content = .ok (messageJson row.payloadJson) → id.toString = userId ∧
      event.type = "user.premium-updated" ∧
      event.payload = payloadJson { id := userId, isPremium := true })

theorem payment_of_reachable {s : Payments.Handlers.Service} {upgrade : Upgrade.World}
    (h : Upgrade.Reachable s upgrade) :
    StepSystem.Reachable (Payments.Outbox.step s) .init upgrade.payment := by
  refine h.map Upgrade.World.payment fun before event after hstep => ?_
  cases event with
  | payment event =>
      obtain ⟨payment, hpayment, rfl⟩ := Option.map_eq_some_iff.mp hstep
      exact .inr ⟨event, hpayment⟩
  | membership event =>
      obtain ⟨_, hsome⟩ := Option.ite_none_right_eq_some.mp hstep
      obtain ⟨membership, _, rfl⟩ := Option.map_eq_some_iff.mp hsome
      exact .inl rfl

theorem userId_of_stored {T : Account.Setting} {account : Account.World}
    (h : Account.Sound T account) (htrimmed : Account.Trimmed account) {payment : Payment}
    (hstored : Stored account.payments.shared payment) :
    ∃ id : UUID, payment.userId = id.toString := by
  obtain ⟨key, row, user, owner, _, _, howner, _, hpayment⟩ :=
    Customers.owner_of_stored h htrimmed hstored
  exact ⟨owner.id, hpayment.userId.trans howner.shown.id⟩

theorem states_of_status (hcustomers : Customers.Reachable S.account world.customers)
    (hlegible : Legible S world) {publication : Publication}
    (hmem : publication ∈ world.customers.log.publications)
    (hkey : publication.routingKey ∈ boundKeys)
    (hpublished : published S.parseJson userId (S.marshal (bodyJson publication.body)) =
      some event) :
    ∃ payment status, Stored world.customers.account.payments.shared payment ∧
      payment.userId = userId ∧ States world payment event status := by
  obtain ⟨haccounted, hnarrated⟩ := Payments.Broadcasts.narrated_of_reachable
    (payment_of_reachable (Customers.upgrade_of_reachable hcustomers))
  have hevents := Payments.Broadcasts.keyed_of_published haccounted hnarrated hmem
  have hstatus : publication.routingKey = "payment.status-updated" := by
    rcases List.mem_pair.mp hkey with hstatus | hpremium
    · exact hstatus
    · rw [hpremium] at hevents
      exact absurd hevents (by decide)
  obtain ⟨payment, envelope, hstored, hbody, hid, huser, hhad⟩ :=
    Payments.Broadcasts.had_of_published haccounted hnarrated hmem hstatus
  have hparse := hlegible publication hmem hkey
  rw [hbody] at hparse hpublished
  obtain ⟨hbelongs, rfl⟩ := event_of_published hparse
    (envelope_of_envelopeJson envelope _) hpublished
  rcases hbelongs with ⟨htype, howner⟩ | ⟨_, hother⟩
  · have hsame : envelope.payload.userId = userId := Option.some.inj howner
    exact ⟨payment, envelope.payload, hstored, huser.symm.trans hsame,
      htype, rfl, hid, huser, hhad⟩
  · -- A status has no member `id`, whatever its type says.
    cases hother

/-- What the membership service has sent is about a premium user, and what is read back of
it about the user of the stream. -/
theorem tells_of_premium (hrelay : Membership.Relay.Reachable S.relay world.relay)
    (hreads : ReadsBack S.relay world.relay) {message : Message} (hmem : message ∈ world.sent)
    {content : List UInt8} (hcontent : S.convert message.payload = some content)
    (hpublished : published S.parseJson userId content = some event) :
    ∃ row id, Tells S world userId event row id := by
  obtain ⟨row, _, rfl, id, hannounces⟩ := Membership.Relay.announces_of_sent
    (Membership.Relay.sound_of_reachable hrelay) hreads hmem
  refine ⟨row, id, hmem, hannounces, content, hcontent, hpublished, fun hparse => ?_⟩
  obtain ⟨hbelongs, rfl⟩ := event_of_published hparse
    (envelope_of_messageJson row.payloadJson) hpublished
  rcases hbelongs with ⟨_, hother⟩ | ⟨htype, howner⟩
  · -- The payload of a premium message has no member `userId`.
    cases hother
  · have huser : row.payloadJson.payload.id = userId := Option.some.inj howner
    have hpayload := hannounces.payload
    have hid : id.toString = userId := by
      rw [← huser, hpayload]
    refine ⟨hid, htype, ?_⟩
    change payloadJson row.payloadJson.payload = _
    rw [hpayload, hid]

end Readings

/-- What is behind an event of the stream of a user. -/
inductive Behind (S : Setting) (world : World) (userId : String) (event : StreamEvent) : Prop
  | status {id : UUID} {key : String} {saga : AccountCreationSaga} {owner : UserEntity}
      {payment : Payment} {status : PaymentStatusUpdatedPayload} :
      id.toString = userId → Customer S.account world.customers id key saga owner payment →
      States world payment event status → Behind S world userId event
  | premium {id : UUID} {key : String} {saga : AccountCreationSaga} {owner : UserEntity}
      {payment : Payment} {row : Membership.Database.OutboxEventEntity} :
      Tells S world userId event row id →
      Customer S.account world.customers id key saga owner payment →
      payment.paymentStatus = .completed → payment.deliveryStatus = .delivered →
      Behind S world userId event

section Sample

open Modularis.Shared.Messaging (newEnvelopeWithMetadata)
open Modularis.Shared.Text (bytes)
open Modularis.Membership.Relay (sampleText sampleRead_of_mem sampleMessages)

def sampleUserId : String := "ffffffff-ffff-ffff-ffff-ffffffffffff"

/-- The two statuses that are published of the payment. -/
def sampleStatus (messageId causationId : String) (delivery : DeliveryStatus) : Body :=
  .statusUpdated (newEnvelopeWithMetadata "payment.status-updated" messageId "c-1"
    causationId "1970-01-01T00:01:00Z" "payment-service"
    { paymentId := "payment-1"
      paymentReference := "ref-1"
      userId := sampleUserId
      paymentStatus := .completed
      deliveryStatus := delivery
      confirmedAt := "1970-01-01T00:01:00Z"
      expiresAt := "1970-01-01T00:31:00Z" })

def sampleBodies : List Body :=
  [sampleStatus "psu:payment-1:c:p" "pcb:ref-1" .pending,
    sampleStatus "psu:payment-1:c:d" "m-2" .delivered]

def sampleValues : List Json := sampleBodies.map bodyJson

@[irreducible] def sampleBytes (value : Json) : List UInt8 := bytes (sampleText value)

def sampleParser : JsonParser := fun content =>
  match sampleValues.find? fun value => sampleBytes value = content with
  | some value => .ok value
  | none => .error "Unexpected token"

def sampleSign : Option Json → Option String
  | some (.string sub) => if sub = sampleUserId then some "token-1" else none
  | _ => none

def sampleAuth : AuthService where
  cookieName := "access_token"
  verifyAsync := fun _ token =>
    if token = "token-1" then some (.object [("sub", .string sampleUserId)]) else none

def sampleSetting : Setting where
  account := Account.sampleSetting
  relay := Membership.Relay.sampleSetting (sampleMessages "pcf:payment-1" sampleUserId)
  auth := sampleAuth
  http :=
    { numberText := fun _ => "10"
      messageOf := fun _ _ => "Http Exception"
      sign := sampleSign }
  eventExchange := "modularis.events"
  membershipExchange := "modularis.events"
  marshal := sampleBytes
  convert := fun _ => none
  parseJson := sampleParser

def sampleRequest : Gateway.AuthGuard.Request where
  cookies := some (.object [("access_token", .string "token-1")])
  authorization := none

/-- The same event among those of this system. -/
def toStreams : Customers.Event → Event
  | .membership event => .relay (.listener event (fun _ => 0) fun _ => 0)
  | event => .customers event

/-- The client listens while its payment is completed and delivered and its account becomes
that of a premium user; both statuses reach it, and the announcements nobody. -/
def sampleEvents : List Event :=
  .events "gateway-1" 0 sampleRequest :: Customers.sampleEvents.map toStreams ++
    [.hear (.status 1) "gateway-1" 1, .relay (.publisher (.begin "first" 1)),
      .relay (.publisher (.publish "first" true 2)),
      .relay (.publisher (.publish "first" true 3)), .hear (.status 3) "gateway-1" 2]

theorem sampleParser_of_mem {value : Json} (h : value ∈ sampleValues) :
    sampleParser (sampleBytes value) = .ok value := by
  have hnodup : (sampleValues.map sampleBytes).Nodup := by decide +kernel
  simp only [sampleParser, Table.find?_key hnodup h]

/-- The request brings the cookie of the sample. -/
def carriesToken (request : Gateway.AuthGuard.Request) : Bool :=
  match (Gateway.AuthGuard.toCookieRecord request.cookies).bind (·.get "access_token") with
  | some (.string cookie) => decide (cookie = "token-1")
  | _ => false

theorem presents_of_carriesToken {request : Gateway.AuthGuard.Request}
    (h : carriesToken request = true) : Presents sampleAuth request "token-1" := by
  unfold carriesToken at h
  split at h
  · rename_i cookie hcookie
    rw [of_decide_eq_true h] at hcookie
    exact hcookie
  · cases h

/-- What can be seen of the run in its last state. -/
def sampleSeen (world : World) : List (String × Bool × List String) × Bool × Bool × Bool :=
  (world.opened.map fun opened =>
      (opened.1, carriesToken opened.2.request,
        (sent (world.gateways opened.1) opened.2).map MessageEvent.type),
    decide (Account.Trimmed world.customers.account),
    world.customers.log.publications.all fun publication =>
      decide (publication.routingKey ∈ boundKeys → publication.body ∈ sampleBodies),
    world.customers.membership.shared.db.outboxEvents.rows.all fun row =>
      decide (row.payloadJson ∈ sampleMessages "pcf:payment-1" sampleUserId))

theorem legible_of_sampleSeen {world : World} (h : (sampleSeen world).2.2.1 = true) :
    Legible sampleSetting world := by
  intro publication hmem hkey
  have hbody := of_decide_eq_true (List.all_eq_true.mp h publication hmem) hkey
  exact sampleParser_of_mem (List.mem_map_of_mem hbody)

theorem readsBack_of_sampleSeen {world : World} (h : (sampleSeen world).2.2.2 = true) :
    ReadsBack sampleSetting.relay world.relay := by
  intro row hrow
  have hmem := of_decide_eq_true (List.all_eq_true.mp h row hrow)
  refine sampleRead_of_mem ?_ (List.mem_map_of_mem hmem)
  decide +kernel

theorem sample_signs : Signs sampleAuth sampleSetting.http where
  plain := by
    intro sub token hsign
    change sampleSign sub = some token at hsign
    unfold sampleSign at hsign
    split at hsign
    · obtain ⟨_, htoken⟩ := Option.ite_none_right_eq_some.mp hsign
      obtain rfl := Option.some.inj htoken
      decide +kernel
    · cases hsign
  subject := by
    intro sub token now claims hsign hverify
    change sampleSign sub = some token at hsign
    obtain ⟨_, hclaims⟩ := Option.ite_none_right_eq_some.mp hverify
    obtain rfl := Option.some.inj hclaims
    unfold sampleSign at hsign
    split at hsign
    · obtain ⟨rfl, _⟩ := Option.ite_none_right_eq_some.mp hsign
      rfl
    · cases hsign

end Sample

end Modularis.EndToEnd.Streams
