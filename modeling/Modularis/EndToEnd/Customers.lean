import Modularis.EndToEnd.Account
import Modularis.EndToEnd.Upgrade

namespace Modularis.EndToEnd.Customers

open Modularis.Foundation
open Modularis.Shared.Uuid
open Modularis.Onboarding.Repository (AccountCreationSaga)
open Modularis.Onboarding.Service
open Modularis.Identity.Database (UserEntity)
open Modularis.Identity.Owners (Housed)
open Modularis.Identity.Service (toPayload)
open Modularis.Membership.Activation (Premium)
open Modularis.Payments.Models (Payment)
open Modularis.Payments.Handlers (Service)
open Modularis.Payments.Outbox (Log PublishReply PublishEvent publishAct publishPending)
open Modularis.Payments.Provenance (Redrawn redrawn_publishAct)
open Modularis.Payments.Settlement (Settles)
open Modularis.Payments.Uniqueness (Stored UniqueKeys)
open Modularis.EndToEnd.Account (Setting Snapshot Shown Trimmed UserOf PaymentOf readUser)

/-- The services behind an account, with publishers of payments and the membership
service. -/
structure World where
  account : Account.World
  publishers : String → Option (Invocation PublishReply Unit (Except String Unit))
  log : Log
  membership : Membership.Activation.World

/-- Nothing has happened anywhere. -/
def World.init : World where
  account := .init
  publishers := fun _ => none
  log := .empty
  membership := .init

/-- The payment service: its handlers and its runs of `PublishPending`. -/
def World.payment (world : World) : Payments.Outbox.World where
  payments := world.account.payments
  publishers := world.publishers
  log := world.log

/-- The payment service has moved on. -/
def World.withPayment (world : World) (payment : Payments.Outbox.World) : World where
  account := { world.account with payments := payment.payments }
  publishers := payment.publishers
  log := payment.log
  membership := world.membership

/-- What payment and membership see. -/
def World.upgrade (world : World) : Upgrade.World where
  payment := world.payment
  membership := world.membership

/-- A step of one of the services. -/
inductive Event where
  | account (event : Account.Event)
  | publisher (event : PublishEvent)
  | membership (event : Membership.Activation.Event)

/-- The membership service is delivered what was published. -/
def step (S : Setting) (world : World) : Event → Option World
  | .account event =>
      (Account.step S world.account event).map fun account =>
        { world with account := account }
  | .publisher event =>
      (Payments.Outbox.step S.service world.payment (.publisher event)).map
        world.withPayment
  | .membership event =>
      if Upgrade.admits world.log event then
        (Membership.Activation.step world.membership event).map fun membership =>
          { world with membership := membership }
      else none

abbrev Run (S : Setting) := StepSystem.Run (step S) World.init

abbrev Reachable (S : Setting) := StepSystem.Reachable (step S) World.init

section Views

variable {S : Setting} {world next : World}

/-- A step of the account creation is one of the payment handlers, or they do not see it. -/
theorem payments_of_step {account later : Account.World} {event : Account.Event}
    (hstep : Account.step S account event = some later) :
    later.payments = account.payments ∨ ∃ event,
      Payments.Interleaving.step S.service account.payments event = some later.payments := by
  have hworker {event : Onboarding.Workers.Event}
      (hstep : account.stepWorker S event = some later) :
      later.payments = account.payments := by
    obtain ⟨onboarding, _, rfl⟩ := Option.map_eq_some_iff.mp hstep
    rfl
  cases event with
  | worker event => exact .inl (hworker (Option.ite_none_right_eq_some.mp hstep).2)
  | identity event =>
      obtain ⟨_, hstep⟩ := Option.ite_none_right_eq_some.mp hstep
      obtain ⟨identity, _, rfl⟩ := Option.map_eq_some_iff.mp hstep
      exact .inl rfl
  | payment event =>
      obtain ⟨_, hstep⟩ := Option.ite_none_right_eq_some.mp hstep
      obtain ⟨payments, hpayments, rfl⟩ := Option.map_eq_some_iff.mp hstep
      exact .inr ⟨event, hpayments⟩
  | replyUser | replyCompensation | replyPayment =>
      obtain ⟨payload, _, hstep⟩ := Option.bind_eq_some_iff.mp hstep
      obtain ⟨answer, _, hstep⟩ := Option.bind_eq_some_iff.mp hstep
      exact .inl (hworker hstep)

theorem upgrade_of_step {event : Event} (hstep : step S world event = some next) :
    next.upgrade = world.upgrade ∨
      ∃ event, Upgrade.step S.service world.upgrade event = some next.upgrade := by
  cases event with
  | account event =>
      obtain ⟨account, haccount, rfl⟩ := Option.map_eq_some_iff.mp hstep
      rcases payments_of_step haccount with hsame | ⟨event, hpayments⟩
      · refine .inl ?_
        simp only [World.upgrade, World.payment, hsame]
      · refine .inr ⟨.payment (.handler event), ?_⟩
        simp only [Upgrade.step, Payments.Outbox.step, World.upgrade, World.payment,
          hpayments, Option.map_some]
  | publisher event =>
      obtain ⟨payment, hpayment, rfl⟩ := Option.map_eq_some_iff.mp hstep
      refine .inr ⟨.payment (.publisher event), ?_⟩
      exact Option.map_eq_some_iff.mpr ⟨payment, hpayment, rfl⟩
  | membership event =>
      obtain ⟨hadmits, hstep⟩ := Option.ite_none_right_eq_some.mp hstep
      obtain ⟨membership, hmembership, rfl⟩ := Option.map_eq_some_iff.mp hstep
      refine .inr ⟨.membership event, Option.ite_none_right_eq_some.mpr ⟨hadmits, ?_⟩⟩
      exact Option.map_eq_some_iff.mpr ⟨membership, hmembership, rfl⟩

theorem upgrade_of_reachable (h : Reachable S world) :
    Upgrade.Reachable S.service world.upgrade :=
  h.map World.upgrade fun _ _ _ => upgrade_of_step

end Views

section Publishing

variable {S : Setting} {account : Account.World} {store : Payments.Operations.Store}

theorem stored_of_redrawn {σ : Payments.Operations.Store} (h : Redrawn σ store) {q : Payment}
    (hq : Stored store q) : ∃ p, Stored σ p ∧ Payments.Aggregate.SameIdentity p q := by
  obtain ⟨p, hp, hbare⟩ := h.row hq
  have hsame := Payments.Provenance.sameIdentity_of_bare hbare
  rw [hsame.id] at hp
  exact ⟨p, hp, hsame⟩

theorem uniqueKeys_of_redrawn {σ : Payments.Operations.Store} (h : Redrawn σ store)
    (hunique : UniqueKeys σ) : UniqueKeys store := by
  intro p q hp hq hkey
  obtain ⟨p', hp', hsame⟩ := stored_of_redrawn h hp
  obtain ⟨q', hq', hsame'⟩ := stored_of_redrawn h hq
  have hkeys : p'.idempotencyKey = q'.idempotencyKey :=
    hsame.idempotencyKey.symm.trans (hkey.trans hsame'.idempotencyKey)
  obtain rfl := hunique p' q' hp' hq' hkeys
  have hid : p.id = q.id := hsame.id.trans hsame'.id.symm
  rw [Stored, hid, hq] at hp
  exact (Option.some.inj hp).symm

theorem account_of_redrawn (h : Account.Sound S account)
    (hredrawn : Redrawn account.payments.shared store) :
    Account.Sound S
      { account with payments := { account.payments with shared := store } } where
  answers := h.answers
  disciplined := by
    refine Onboarding.Snapshots.disciplined_grows h.disciplined (fun _ _ => id) ?_ rfl
    exact fun _ _ _ => Account.paid_of_kept hredrawn.kept
  sent := h.sent
  identity := h.identity
  refusals := h.refusals.external trivial fun _ => hredrawn.kept
  unique := h.unique.external (uniqueKeys_of_redrawn hredrawn h.unique.inv)
    fun _ => hredrawn.kept
  orders := h.orders.external trivial fun _ => hredrawn.kept
  delivered := h.delivered
  made := by
    intro stored hstored
    obtain ⟨p, hp, hsame⟩ := stored_of_redrawn hredrawn hstored
    obtain ⟨payload, hcommanded, hordered⟩ := h.made p hp
    exact ⟨payload, hcommanded, hordered.same hsame⟩

theorem redrawn_of_step {s : Service} {payment later : Payments.Outbox.World}
    {event : PublishEvent}
    (hstep : Payments.Outbox.step s payment (.publisher event) = some later) :
    later.payments = { payment.payments with shared := later.payments.shared } ∧
      Redrawn payment.payments.shared later.payments.shared := by
  obtain ⟨publishing, hpublishing, rfl⟩ := Option.map_eq_some_iff.mp hstep
  refine ⟨rfl, ?_⟩
  change Redrawn payment.publishing.shared.store publishing.shared.store
  by_cases hact : ∃ run choice, event = .act run choice
  · obtain ⟨run, choice, rfl⟩ := hact
    obtain ⟨request, op, after, _, hshared⟩ := Pool.step_act hpublishing
    rw [hshared]
    exact redrawn_publishAct run payment.publishing.shared op choice
  · rw [Pool.shared_of_step (fun run choice he => hact ⟨run, choice, he⟩) hpublishing]
    exact .refl _

end Publishing

section Agreement

variable {S : Setting} {world next : World}

theorem account_of_step {event : Event} (h : Account.Sound S world.account)
    (hstep : step S world event = some next) : Account.Sound S next.account := by
  cases event with
  | account event =>
      obtain ⟨account, haccount, rfl⟩ := Option.map_eq_some_iff.mp hstep
      exact Account.sound_of_step h haccount
  | publisher event =>
      obtain ⟨payment, hpayment, rfl⟩ := Option.map_eq_some_iff.mp hstep
      obtain ⟨hpayments, hredrawn⟩ := redrawn_of_step hpayment
      simp only [World.withPayment]
      rw [hpayments]
      exact account_of_redrawn h hredrawn
  | membership event =>
      obtain ⟨_, hstep⟩ := Option.ite_none_right_eq_some.mp hstep
      obtain ⟨membership, _, rfl⟩ := Option.map_eq_some_iff.mp hstep
      exact h

theorem account_of_reachable (h : Reachable S world) : Account.Sound S world.account :=
  h.invariant (I := fun world => Account.Sound S world.account) (Account.sound_init S)
    fun _ _ _ => account_of_step

theorem paid_of_premium {world : Upgrade.World} (h : Upgrade.Sound world) {userId : UUID}
    (hpremium : Premium world.membership.shared.db userId) :
    ∃ payment, Payments.Settlement.Paid world.payment.payments.shared payment ∧
      UUID.fromString payment.userId = some userId := by
  obtain ⟨event, hevent, huser⟩ := (h.membership.inv.published.premium_iff userId).mp hpremium
  obtain ⟨publication, hmem, hreceived⟩ := h.committed event hevent
  obtain ⟨hkey, hbody⟩ := Option.ite_none_right_eq_some.mp hreceived
  obtain ⟨payment, envelope, hpaid, hconfirmed, hsame⟩ :=
    Payments.Provenance.paid_of_published h.accounted hmem hkey
  rw [hconfirmed] at hbody
  obtain rfl := Option.some.inj hbody
  refine ⟨payment, hpaid, ?_⟩
  rw [← hsame]
  exact huser

theorem processed_of_paid {world : Upgrade.World} (h : Upgrade.Sound world)
    {payment : Payment}
    (hpaid : Payments.Settlement.Paid world.payment.payments.shared payment) :
    ∃ envelope, Upgrade.Processed world payment.id envelope ∧
      Settles envelope.payload payment := by
  obtain ⟨commit, hcommit, envelope, hrequest, hcompletes, hsettles⟩ := hpaid.callback
  obtain ⟨rest, hinvocation⟩ := h.accounted.recorded commit (List.mem_filter.mp hcommit).1
  rw [hrequest] at hinvocation
  exact ⟨envelope, ⟨commit, hcommit, hrequest, hcompletes, rest, hinvocation⟩, hsettles⟩

end Agreement

/-- Who a user is, and for what the user has paid: the saga of the account, the user that
identity stores for it, and the payment of this saga, which is the only one of the user. -/
structure Customer (S : Setting) (world : World) (userId : UUID) (key : String)
    (row : AccountCreationSaga) (owner : UserEntity) (payment : Payment) : Prop where
  saga : world.account.onboarding.store.sagas.row key = some row
  shown : ∃ user, row.userPayload = some user ∧ Shown row.requestPayload owner user
  id : owner.id = userId
  housed : Housed world.account.identity.db (userStepKey key) owner
  userOf : UserOf row.requestPayload owner
  stored : Stored world.account.payments.shared payment
  paymentOf : PaymentOf S row.requestPayload (readUser (toPayload owner)) payment
  ownSaga : ∀ key' row' user, world.account.onboarding.store.sagas.row key' = some row' →
    row'.userPayload = some user → UUID.fromString user.id = some userId → key' = key
  ownPayment : ∀ other, Stored world.account.payments.shared other →
    UUID.fromString other.userId = some userId → other = payment

section Customers

variable {S : Setting} {world : World}

theorem owner_of_stored {account : Account.World} (h : Account.Sound S account)
    (htrimmed : Trimmed account) {payment : Payment}
    (hstored : Stored account.payments.shared payment) :
    ∃ key row user owner, account.onboarding.store.sagas.row key = some row ∧
      row.userPayload = some user ∧ Snapshot account key row user owner ∧
      Housed account.identity.db (userStepKey key) owner ∧
      PaymentOf S row.requestPayload user payment := by
  obtain ⟨key, row, user, hrow, huser, hnext, hpayment⟩ := Account.saga_of_stored h hstored
  obtain ⟨owner, howner⟩ := Account.snapshot_of_row h htrimmed hrow huser
  rcases Account.housed_of_row h htrimmed hrow howner with hhoused | hcompensates
  · exact ⟨key, row, user, owner, hrow, huser, howner, hhoused, hpayment⟩
  · exact absurd hcompensates hnext

theorem customer_of_stored (h : Account.Sound S world.account)
    (htrimmed : Trimmed world.account) {payment : Payment}
    (hstored : Stored world.account.payments.shared payment) {userId : UUID}
    (hid : UUID.fromString payment.userId = some userId) :
    ∃ key row owner, Customer S world userId key row owner payment := by
  obtain ⟨key, row, user, owner, hrow, huser, howner, hhoused, hpayment⟩ :=
    owner_of_stored h htrimmed hstored
  have howned : owner.id = userId := by
    rw [hpayment.userId, howner.id] at hid
    exact Option.some.inj hid
  have hsaga : ∀ key' row' user', world.account.onboarding.store.sagas.row key' = some row' →
      row'.userPayload = some user' → UUID.fromString user'.id = some userId →
        key' = key := by
    intro key' row' user' hrow' huser' hid'
    obtain ⟨owner', howner'⟩ := Account.snapshot_of_row h htrimmed hrow' huser'
    have hsame : owner'.id = owner.id :=
      (Option.some.inj (howner'.id.symm.trans hid')).trans howned.symm
    refine Account.key_of_user h htrimmed hrow' hrow huser' huser ?_
    rw [howner'.shown.id, howner.shown.id, hsame]
  refine ⟨key, row, owner, hrow, ⟨user, huser, howner.shown⟩, howned, hhoused, howner.userOf,
    hstored, { hpayment with userId := hpayment.userId.trans howner.shown.id }, hsaga, ?_⟩
  intro other hother hid'
  obtain ⟨key', row', user', owner', hrow', huser', howner', _, hpayment'⟩ :=
    owner_of_stored h htrimmed hother
  obtain rfl := hsaga key' row' user' hrow' huser' (hpayment'.userId ▸ hid')
  obtain rfl := Option.some.inj (hrow.symm.trans hrow')
  exact h.unique.inv other payment hother hstored
    (hpayment'.idempotencyKey.trans hpayment.idempotencyKey.symm)

end Customers

/-- A premium user has an account, and has paid for it: through all delays, losses,
repetitions and crashes of five services, whoever is stored as premium is the user of
exactly one saga, is stored by identity with the data of its request, and has exactly one
payment, that of this saga, which is completed and delivered because a callback that names
it with its amount and in time was processed. -/
theorem premium_users_are_customers (S : Setting) {world : World} (h : Reachable S world)
    (htrimmed : Trimmed world.account) {userId : UUID}
    (hpremium : Premium world.membership.shared.db userId) :
    ∃ key row owner payment, Customer S world userId key row owner payment ∧
      payment.paymentStatus = .completed ∧ payment.deliveryStatus = .delivered ∧
      ∃ envelope, Upgrade.Processed world.upgrade payment.id envelope ∧
        Settles envelope.payload payment := by
  have hupgrade := Upgrade.sound_of_reachable (upgrade_of_reachable h)
  obtain ⟨payment, hpaid, hid⟩ := paid_of_premium hupgrade hpremium
  obtain ⟨key, row, owner, hcustomer⟩ :=
    customer_of_stored (account_of_reachable h) htrimmed hpaid.stored hid
  exact ⟨key, row, owner, payment, hcustomer, hpaid.completed, hpaid.delivered,
    processed_of_paid hupgrade hpaid⟩

section Sample

open Modularis.Shared.Messaging (newEnvelopeWithMetadata)
open Modularis.Payments.Lifecycle (sampleChoice)
open Modularis.Identity.Redelivery (sampleId)

def sampleCallback : Payments.Operations.Request :=
  .callbackConfirmed (newEnvelopeWithMetadata "payment.callback.confirmed" "pcb:ref-1"
    "c-1" "event-1" "1970-01-01T00:01:00Z" "webhook-service"
    { eventId := "event-1"
      paymentReference := "ref-1"
      amount := 10
      currency := "BRL"
      occurredAt := "1970-01-01T00:01:00Z" })

def sampleDelivery : Payments.Operations.Request :=
  .deliveryRequested (newEnvelopeWithMetadata "payment.delivery.requested" "m-2" "c-1"
    "" "" "payment-service"
    { paymentId := "payment-1"
      userId := (sampleId (Fin.last 15)).toString })

/-- A delivery to the payment service, to its end. -/
def sampleHandled (i : String) (request : Payments.Operations.Request) (calls : Nat) :
    List Event :=
  .account (.payment (.start i request)) ::
    List.replicate calls (.account (.payment (.act i sampleChoice)))

def samplePublishing (calls : Nat) : List Event :=
  .publisher (.start "run-1" ()) ::
    (List.range calls).map fun n =>
      .publisher (.act "run-1"
        { now := Foundation.GoTime.minute
          newId := String.ofList (List.replicate (n + 1) 't')
          document := ""
          failure := none
          applied := true })

def sampleMessage : Membership.Service.PaymentConfirmedEventMessage where
  messageId := "pcf:payment-1"
  correlationId := "c-1"
  type := "payment.confirmed"
  payload :=
    { paymentId := "payment-1"
      userId := (sampleId (Fin.last 15)).toString }

/-- An account is created, its payment is confirmed and delivered, and the news reach the
membership service. -/
def sampleEvents : List Event :=
  Account.sampleEvents.map .account ++ sampleHandled "i-2" sampleCallback 8 ++
    sampleHandled "i-3" sampleDelivery 7 ++ samplePublishing 22 ++
    (.start 0 sampleMessage :: Membership.Activation.sampleCalls 0 10).map .membership

theorem premium_users_are_customers_sample : ∃ world key row owner payment,
    Reachable Account.sampleSetting world ∧
    Premium world.membership.shared.db (sampleId (Fin.last 15)) ∧
    Customer Account.sampleSetting world (sampleId (Fin.last 15)) key row owner payment ∧
    payment.paymentStatus = .completed := by
  have hreplay : ((StepSystem.replay (step Account.sampleSetting) World.init
      sampleEvents).bind fun world => (world.membership.shared.db.memberships.row
        (sampleId (Fin.last 15))).map fun membership =>
          (membership.premium, decide (Trimmed world.account))) = some (true, true) := by
    decide +kernel
  obtain ⟨world, hworld, hmembership⟩ := Option.bind_eq_some_iff.mp hreplay
  obtain ⟨membership, hrow, hboth⟩ := Option.map_eq_some_iff.mp hmembership
  obtain ⟨hpremium, htrimmed⟩ := Prod.mk.inj hboth
  have hpremium : Premium world.membership.shared.db (sampleId (Fin.last 15)) := by
    rw [Premium, hrow, Option.map_some, hpremium]
  have hreach : Reachable Account.sampleSetting world :=
    (StepSystem.run_of_replay hworld).reachable
  obtain ⟨key, row, owner, payment, hcustomer, hcompleted, _⟩ :=
    premium_users_are_customers Account.sampleSetting hreach (of_decide_eq_true htrimmed)
      hpremium
  exact ⟨world, key, row, owner, payment, hreach, hpremium, hcustomer, hcompleted⟩

end Sample

end Modularis.EndToEnd.Customers
