import Mathlib.Logic.Relation
import Modularis.Payments.Handlers

namespace Modularis.Payments.Effects

open Modularis.Foundation
open Modularis.Shared.Messaging
open Modularis.Payments.Models
open Modularis.Payments.Repository
open Modularis.Payments.Operations
open Modularis.Payments.Handlers

/-- The writes of one payment, oldest first. -/
def commits (store : Store) (paymentId : String) : List Commit :=
  store.history.filter fun commit => commit.write.after.id = paymentId

/-- The messages ever added to the outbox of one payment. -/
def enqueued (store : Store) (paymentId : String) : List PendingMessage :=
  (commits store paymentId).flatMap fun commit => commit.write.pushed

/-- A `payment.status-updated` that announces a status of the payment. -/
def Announces (payment : Payment) (status : PaymentStatus)
    (delivery : DeliveryStatus) (message : PendingMessage) : Prop :=
  message.routingKey = "payment.status-updated" ∧
    ∃ envelope, message.body = .statusUpdated envelope ∧
      envelope.messageId = statusMessageId payment.id status delivery ∧
      envelope.payload.paymentId = payment.id ∧
      envelope.payload.userId = payment.userId ∧
      envelope.payload.paymentStatus = status ∧
      envelope.payload.deliveryStatus = delivery

/-- A `payment.delivery.requested` for the payment. -/
def RequestsDelivery (payment : Payment) (message : PendingMessage) : Prop :=
  message.routingKey = "payment.delivery.requested" ∧
    ∃ envelope, message.body = .deliveryRequested envelope ∧
      envelope.payload.paymentId = payment.id ∧
      envelope.payload.userId = payment.userId

/-- A `payment.confirmed` for the payment. -/
def Confirms (payment : Payment) (message : PendingMessage) : Prop :=
  message.routingKey = "payment.confirmed" ∧
    ∃ envelope, message.body = .confirmed envelope ∧
      envelope.payload.paymentId = payment.id ∧
      envelope.payload.userId = payment.userId

/-- The write took a pending payment into processing. -/
def Reserves (commit : Commit) : Prop :=
  commit.write.before.map Payment.paymentStatus = some .pending ∧
    commit.write.after.paymentStatus = .processing

/-- An invocation that reserved the payment and has added no message yet. -/
structure Holds (store : Store) (invocation paymentId : String) : Prop where
  reserved : ∃ commit ∈ commits store paymentId,
    commit.invocation = invocation ∧ Reserves commit
  silent : ∀ commit ∈ store.history, commit.invocation = invocation →
    commit.write.pushed = []

/-- The update documents of the handlers for a payment whose filter they pass. -/
inductive Permitted (store : Store) (invocation : String) (request : Request)
    (payment : Payment) : Update → Prop
  | reserve (now : Int) : Permitted store invocation request payment
      (reserveUpdate now)
  | announce (now : Int) {message : PendingMessage} :
      Announces payment .processing .pending message →
        Holds store invocation payment.id →
        Permitted store invocation request payment (enqueueUpdate [message] now)
  | simulate (now : Int) {message : PendingMessage} :
      message.routingKey = "payment.callback.confirmed" →
        Permitted store invocation request payment (enqueueUpdate [message] now)
  | fail (reason : String) (now : Int) {message : PendingMessage} :
      Announces payment .failed .pending message →
        Permitted store invocation request payment
          (failedUpdate reason [message] now)
  | expire (now : Int) {message : PendingMessage} :
      Announces payment .expired .pending message →
        Permitted store invocation request payment (expiredUpdate [message] now)
  | complete {envelope : Envelope PaymentCallbackConfirmedPayload}
      (confirmedAt now : Int) {message delivery : PendingMessage} :
      request = .callbackConfirmed envelope →
        Announces payment .completed .pending message →
        RequestsDelivery payment delivery →
        Permitted store invocation request payment
          (completedUpdate envelope.payload.eventId confirmedAt
            [message, delivery] now)
  | deliver (now : Int) {message confirmation : PendingMessage} :
      Announces payment .completed .delivered message →
        Confirms payment confirmation →
        Permitted store invocation request payment
          (deliveryUpdate .delivered "" [message, confirmation] now)

/-- A record as `CreatePayment` inserts it. -/
structure Fresh (payment : Payment) : Prop where
  status : payment.paymentStatus = .pending
  delivery : payment.deliveryStatus = .pending
  attempts : payment.processingAttempts = 0
  started : payment.processingStartedAt = none
  confirmed : payment.confirmedAt = none
  events : payment.webhookEventIds = []
  messages : ∀ message ∈ payment.pendingMessages,
    message.routingKey = "payment.process.requested"

/-- What one call does to the store. -/
inductive Effect (invocation : String) (request : Request) (store : Store) :
    Store → Prop
  | kept : Effect invocation request store store
  | created {payment : Payment} : Fresh payment →
      store.payments.row payment.id = none →
      Effect invocation request store (store.record invocation request
        (some
          { before := none
            after := payment
            pushed := payment.pendingMessages },
          store.payments.insertIfAbsent payment))
  | updated {payment : Payment} {update : Update} :
      store.payments.row payment.id = some payment →
      update.filter payment = true →
      Permitted store invocation request payment update →
      Effect invocation request store (store.record invocation request
        (some
          { before := some payment
            after := update.apply payment
            pushed := update.push.map PendingMessage.stored },
          store.payments.modify payment.id update.apply update.id_apply))

section Records

variable {store : Store} {invocation : String} {request : Request}

theorem record_none :
    store.record invocation request (none, store.payments) = store := by
  simp [Store.record]

theorem commits_record_some (w : Write) (payments : Collection)
    (paymentId : String) :
    commits (store.record invocation request (some w, payments)) paymentId =
      if w.after.id = paymentId then
        commits store paymentId ++
          [{ invocation := invocation, request := request, write := w }]
      else commits store paymentId := by
  by_cases hid : w.after.id = paymentId
  · simp [commits, Store.record, hid]
  · simp [commits, Store.record, hid]

theorem row_created {w : Option Write} {payment : Payment}
    (h : store.payments.row payment.id = none) (paymentId : String) :
    (store.record invocation request
      (w, store.payments.insertIfAbsent payment)).payments.row paymentId =
        if paymentId = payment.id then some payment
        else store.payments.row paymentId :=
  Table.row_insertIfAbsent_of_none h paymentId

theorem row_updated {w : Option Write} {payment : Payment} {update : Update}
    (h : store.payments.row payment.id = some payment) (paymentId : String) :
    (store.record invocation request (w, store.payments.modify payment.id
      update.apply update.id_apply)).payments.row paymentId =
        if paymentId = payment.id then some (update.apply payment)
        else store.payments.row paymentId :=
  Table.row_modify_of_some h update.apply update.id_apply paymentId

theorem Fresh.stored {payment : Payment} (h : Fresh payment) (newId : String)
    (now : Int) : Fresh (Payment.stored (stamped payment newId now)) where
  status := h.status
  delivery := h.delivery
  attempts := h.attempts
  started := congrArg (Option.map date) h.started
  confirmed := congrArg (Option.map date) h.confirmed
  events := h.events
  messages := by
    intro message hmessage
    obtain ⟨original, horiginal, rfl⟩ := List.mem_map.mp hmessage
    exact h.messages original horiginal

theorem effect_create {payment : Payment} (h : Fresh (Payment.stored payment)) :
    Effect invocation request store (store.record invocation request
      (create store.payments payment)) := by
  unfold create
  split
  · rw [record_none]
    exact .kept
  · rename_i hunique
    refine .created h ?_
    simp only [duplicateKey, Bool.or_eq_true, not_or] at hunique
    exact Option.not_isSome_iff_eq_none.mp hunique.1

theorem findOneAndUpdate_of_filter {payments : Collection} {payment : Payment}
    {update : Update} (hrow : payments.row payment.id = some payment)
    (hfilter : update.filter payment = true) :
    findOneAndUpdate payments payment.id update =
      (some
        { before := some payment
          after := update.apply payment
          pushed := update.push.map PendingMessage.stored },
        payments.modify payment.id update.apply update.id_apply) := by
  unfold findOneAndUpdate
  rw [hrow]
  exact if_pos hfilter

theorem findOneAndUpdate_of_not_filter {payments : Collection} {paymentId : String}
    {payment : Payment} {update : Update} (hrow : payments.row paymentId = some payment)
    (hfilter : update.filter payment = false) :
    findOneAndUpdate payments paymentId update = (none, payments) := by
  simp [findOneAndUpdate, hrow, hfilter]

theorem findOneAndUpdate_cases (payments : Collection) (paymentId : String)
    (update : Update) :
    findOneAndUpdate payments paymentId update = (none, payments) ∨
      ∃ payment, payments.row payment.id = some payment ∧ payment.id = paymentId ∧
        update.filter payment = true := by
  unfold findOneAndUpdate
  split
  · rename_i payment hrow
    obtain rfl := payments.key_row paymentId payment hrow
    split
    · rename_i hfilter
      exact .inr ⟨payment, hrow, rfl, hfilter⟩
    · exact .inl rfl
  · exact .inl rfl

/-- What holds of a store and of the store that an update leaves where its filter lets it
through. -/
theorem record_findOneAndUpdate {P : Store → Prop} {paymentId : String} {update : Update}
    (hkept : P store)
    (hupdated : ∀ payment, store.payments.row payment.id = some payment →
      payment.id = paymentId → update.filter payment = true →
      P (store.record invocation request
        (some
          { before := some payment
            after := update.apply payment
            pushed := update.push.map PendingMessage.stored },
          store.payments.modify payment.id update.apply update.id_apply))) :
    P (store.record invocation request
      (findOneAndUpdate store.payments paymentId update)) := by
  rcases findOneAndUpdate_cases store.payments paymentId update with
    hnone | ⟨payment, hrow, rfl, hfilter⟩
  · rw [hnone, record_none]
    exact hkept
  · rw [findOneAndUpdate_of_filter hrow hfilter]
    exact hupdated payment hrow rfl hfilter

theorem effect_findOneAndUpdate {paymentId : String} {update : Update}
    (h : ∀ payment, store.payments.row paymentId = some payment →
      update.filter payment = true →
      Permitted store invocation request payment update) :
    Effect invocation request store (store.record invocation request
      (findOneAndUpdate store.payments paymentId update)) := by
  refine record_findOneAndUpdate .kept ?_
  rintro payment hrow rfl hfilter
  exact .updated hrow hfilter (h payment hrow hfilter)

theorem effect_writeCall {α : Type} {choice : Choice}
    {result : Option Write × Collection}
    {answer : Option Write → Except String α}
    (h : Effect invocation request store
      (store.record invocation request result)) :
    Effect invocation request store
      (writeCall invocation request store choice result answer).2 :=
  writeCall_rule (fun _ => .kept) h

end Records

end Modularis.Payments.Effects
