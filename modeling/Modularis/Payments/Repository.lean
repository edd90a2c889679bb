import Modularis.Foundation.Table
import Modularis.Payments.Models

/-!
The Mongo repository of payments.  A write is given by its filter and its update
document and is atomic.  Times are nanoseconds; a BSON date keeps milliseconds.
`now` is the clock that the repository reads for `updatedAt`.
-/

namespace Modularis.Payments.Repository

open Modularis.Foundation
open Modularis.Payments.Models

/-- The collection of payments. -/
abbrev Collection := Table Payment.id

/-- The value that a BSON date keeps of a time. -/
def date (time : Int) : Int := time - time % 1000000

/-- What BSON keeps of a message: dates are whole milliseconds. -/
def PendingMessage.stored (message : PendingMessage) : PendingMessage :=
  { message with
    nextAttemptAt := date message.nextAttemptAt
    claimedUntil := message.claimedUntil.map date }

/-- What BSON keeps of a payment. -/
def Payment.stored (payment : Payment) : Payment :=
  { payment with
    expiresAt := date payment.expiresAt
    processingStartedAt := payment.processingStartedAt.map date
    confirmedAt := payment.confirmedAt.map date
    pendingMessages := payment.pendingMessages.map PendingMessage.stored
    createdAt := date payment.createdAt
    updatedAt := date payment.updatedAt }

/-- What a write did: the document before and after it, and the messages that it
added to the outbox. -/
structure Write where
  before : Option Payment
  after : Payment
  pushed : List PendingMessage
deriving DecidableEq, Repr

/-- A filter besides `_id` with its `$set`, `$inc` and `$addToSet`, which leave
`_id` alone, and the messages of its `$push`. -/
structure Update where
  filter : Payment → Bool
  set : Payment → Payment
  push : List PendingMessage
  id_set : ∀ payment, (set payment).id = payment.id

/-- The payment after the update. -/
def Update.apply (update : Update) (payment : Payment) : Payment :=
  let changed := update.set payment
  { changed with
    pendingMessages :=
      changed.pendingMessages ++ update.push.map PendingMessage.stored }

theorem Update.id_apply (update : Update) (payment : Payment) :
    (update.apply payment).id = payment.id := update.id_set payment

/-- A payment that passes the filter is updated; the write says what was there before. -/
def findOneAndUpdate (payments : Collection) (paymentId : String)
    (update : Update) : Option Write × Collection :=
  match payments.row paymentId with
  | some payment =>
      if update.filter payment then
        (some
          { before := some payment
            after := update.apply payment
            pushed := update.push.map PendingMessage.stored },
          payments.modify paymentId update.apply update.id_apply)
      else (none, payments)
  | none => (none, payments)

/-- The payment of an id. -/
def findById (payments : Collection) (paymentId : String) : Option Payment :=
  payments.row paymentId

/-- The payment of a reference. -/
def findByReference (payments : Collection) (reference : String) :
    Option Payment :=
  payments.rows.find? fun payment => payment.paymentReference = reference

/-- The payment of a key. -/
def findByIdempotencyKey (payments : Collection) (idempotencyKey : String) :
    Option Payment :=
  payments.rows.find? fun payment => payment.idempotencyKey = idempotencyKey

/-- A unique index, or `_id`, forbids the insertion. -/
def duplicateKey (payments : Collection) (payment : Payment) : Bool :=
  (payments.row payment.id).isSome ||
    payments.rows.any fun other =>
      decide (other.idempotencyKey = payment.idempotencyKey ∨
        other.paymentReference = payment.paymentReference)

/-- The record that `Create` inserts and answers, before BSON cuts its times. -/
def stamped (payment : Payment) (newId : String) (now : Int) : Payment :=
  { payment with
    id := if payment.id = "" then newId else payment.id
    createdAt := now
    updatedAt := now }

/-- `none` is a duplicate key error. -/
def create (payments : Collection) (payment : Payment) :
    Option Write × Collection :=
  if duplicateKey payments payment then (none, payments)
  else
    (some
      { before := none
        after := Payment.stored payment
        pushed := (Payment.stored payment).pendingMessages },
      payments.insertIfAbsent (Payment.stored payment))

/-- `ReserveForProcessing`. -/
def reserveUpdate (now : Int) : Update where
  filter := fun payment =>
    decide (payment.paymentStatus = .pending ∧ date now < payment.expiresAt)
  set := fun payment =>
    { payment with
      paymentStatus := .processing
      processingStartedAt := some (date now)
      updatedAt := date now
      paymentFailureReason := ""
      processingAttempts := payment.processingAttempts + 1 }
  push := []
  id_set := fun _ => rfl

/-- `EnqueueMessages`. -/
def enqueueUpdate (messages : List PendingMessage) (now : Int) : Update where
  filter := fun _ => true
  set := fun payment => { payment with updatedAt := date now }
  push := messages
  id_set := fun _ => rfl

/-- `MarkFailed`. -/
def failedUpdate (reason : String) (messages : List PendingMessage)
    (now : Int) : Update where
  filter := fun payment => decide (payment.paymentStatus = .processing)
  set := fun payment =>
    { payment with
      paymentStatus := .failed
      paymentFailureReason := reason
      processingStartedAt := none
      updatedAt := date now }
  push := messages
  id_set := fun _ => rfl

/-- The `$in` of `MarkExpired` and `MarkCompleted`. -/
def isOpen (payment : Payment) : Bool :=
  decide (payment.paymentStatus ∈ [.pending, .processing, .failed])

/-- `MarkExpired`. -/
def expiredUpdate (messages : List PendingMessage) (now : Int) : Update where
  filter := isOpen
  set := fun payment =>
    { payment with
      paymentStatus := .expired
      processingStartedAt := none
      updatedAt := date now }
  push := messages
  id_set := fun _ => rfl

/-- `MarkCompleted`. -/
def completedUpdate (eventId : String) (confirmedAt : Int)
    (messages : List PendingMessage) (now : Int) : Update where
  filter := isOpen
  set := fun payment =>
    { payment with
      paymentStatus := .completed
      confirmedAt := some (date confirmedAt)
      processingStartedAt := none
      paymentFailureReason := ""
      updatedAt := date now
      webhookEventIds :=
        if eventId ∈ payment.webhookEventIds then payment.webhookEventIds
        else payment.webhookEventIds ++ [eventId] }
  push := messages
  id_set := fun _ => rfl

/-- `MarkDelivery`. -/
def deliveryUpdate (status : DeliveryStatus) (reason : String)
    (messages : List PendingMessage) (now : Int) : Update where
  filter := fun payment =>
    decide (payment.paymentStatus = .completed ∧ payment.deliveryStatus = .pending)
  set := fun payment =>
    { payment with
      deliveryStatus := status
      deliveryFailureReason := reason
      updatedAt := date now }
  push := messages
  id_set := fun _ => rfl

/-- `transitionWithMessages`: where no document matches it answers the current
one. -/
def transitionAnswer (payments : Collection) (paymentId : String) :
    Option Write → Option Payment × Bool
  | some write => (some write.after, true)
  | none => (findById payments paymentId, false)

end Modularis.Payments.Repository
