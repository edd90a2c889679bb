import Modularis.Foundation.Program
import Modularis.Membership.Database

/-!
`handlePaymentConfirmed` as a program over the calls of its transaction.  Each
read sees what is committed by then; the writes wait for the commit, behind the
`catch` of `registerConsumedMessage`.
-/

namespace Modularis.Membership.Service

open Modularis.Foundation
open Modularis.Shared.Uuid
open Modularis.Membership.Database

/-- The payment and the user who has paid. -/
structure PaymentConfirmedEventPayload where
  paymentId : String
  userId : String
deriving DecidableEq, Repr

/-- A delivered `payment.confirmed`. -/
structure PaymentConfirmedEventMessage where
  messageId : String
  correlationId : String
  type : String
  payload : PaymentConfirmedEventPayload
deriving DecidableEq, Repr

/-- What the handler asks of its surroundings. -/
inductive Op where
  | randomUUID
  | now
  | findReceipt (messageId : String)
  | findById (userId : UUID)
  | commit (writes : Writes)

/-- What it is told. -/
abbrev Reply : Op → Type
  | .randomUUID => UUID
  | .now => String
  | .findReceipt _ => Option ConsumedMessageReceiptEntity
  | .findById _ => Option UserEntity
  | .commit _ => Bool

abbrev Program := Foundation.Program Reply

abbrev call (op : Op) : Program (Reply op) := Foundation.Program.perform op

/-- What `onPaymentConfirmed` does with its delivery. -/
inductive Outcome where
  | acknowledged
  | requeued
deriving DecidableEq, Repr

/-- One receipt a payment, whatever the id of the message. -/
def paymentConfirmationReceiptKey (event : PaymentConfirmedEventMessage) : String :=
  "payment-confirmed:" ++ event.payload.paymentId

/-- The receipt of a message. -/
def registerConsumedMessage (messageId eventType correlationId : String) :
    ConsumedMessageReceiptEntity where
  messageId := messageId
  consumerName := "membership-service.payment-confirmed"
  eventType := eventType
  correlationId := correlationId

/-- A message about a user who is premium now. -/
def premiumMessage (type source : String) (user : UserEntity)
    (event : PaymentConfirmedEventMessage) : Program PremiumMessage := do
  let messageId ← call .randomUUID
  let occurredAt ← call .now
  return {
    schemaVersion := "1.0.0"
    messageId := messageId.toString
    correlationId := event.correlationId
    causationId := event.messageId
    occurredAt := occurredAt
    type := type
    source := source
    payload := { id := user.id.toString, isPremium := true } }

/-- The outbox row of a message. -/
def publishOutboxEvent (routingKey : String) (payload : PremiumMessage)
    (event : PaymentConfirmedEventMessage) : Program OutboxEventEntity := do
  let id ← call .randomUUID
  return {
    id := id
    routingKey := routingKey
    correlationId := event.correlationId
    causationId := event.messageId
    payloadJson := payload }

/-- The end of the transaction. -/
def commit (writes : Writes) : Program Outcome := do
  match ← call (.commit writes) with
  | true => return .acknowledged
  | false => return .requeued

/-- The receipt is saved first; a user who is premium already is left alone. -/
def handlePaymentConfirmed (event : PaymentConfirmedEventMessage) :
    Program Outcome := do
  let receipt := registerConsumedMessage (paymentConfirmationReceiptKey event)
    event.type event.correlationId
  let receiptSaved ← merge <$> call (.findReceipt receipt.messageId)
  match UUID.fromString event.payload.userId with
  | none => return .requeued
  | some userId =>
      let found ← call (.findById userId)
      let user := found.getD { id := userId, premium := false }
      if user.premium then commit ⟨receipt, receiptSaved, none, []⟩
      else
        let user := setPremium true user
        let userSaved ←
          match found with
          | some _ => pure .update
          | none => merge <$> call (.findById userId)
        let activated ← premiumMessage "membership.premium-activated"
          "membership-service" user event
        let first ← publishOutboxEvent "membership.premium-activated" activated event
        let updated ← premiumMessage "user.premium-updated" "user-service" user event
        let second ← publishOutboxEvent "user.premium-updated" updated event
        commit ⟨receipt, receiptSaved, some (user, userSaved), [first, second]⟩

/-- What the environment contributes to a call. -/
structure Choice where
  randomUUID : UUID
  now : String

/-- The database and, as a history that no call reads, the deliveries whose
transaction was committed. -/
structure Store where
  db : MembershipDatabase
  committed : List PaymentConfirmedEventMessage

/-- An empty database. -/
def Store.empty : Store where
  db := MembershipDatabase.empty
  committed := []

/-- What a call is answered and what it does; only a commit writes. -/
def act (event : PaymentConfirmedEventMessage) (store : Store) :
    (op : Op) → Choice → Reply op × Store
  | .randomUUID, choice => (choice.randomUUID, store)
  | .now, choice => (choice.now, store)
  | .findReceipt messageId, _ =>
      (store.db.consumedMessageReceipts.row messageId, store)
  | .findById userId, _ => (store.db.memberships.row userId, store)
  | .commit writes, _ =>
      match store.db.flush writes with
      | some db => (true, { db := db, committed := store.committed ++ [event] })
      | none => (false, store)

end Modularis.Membership.Service
