import Modularis.Shared.Messaging

namespace Modularis.Payments.Models

open Modularis.Shared.Messaging

/-- What has become of the money. -/
inductive PaymentStatus where
  | pending
  | processing
  | completed
  | failed
  | expired
deriving DecidableEq, Repr

/-- What has become of what was paid for. -/
inductive DeliveryStatus where
  | pending
  | delivered
  | failed
deriving DecidableEq, Repr

/-- The payload of `payment.intent.create`. -/
structure PaymentCreateCommandPayload where
  idempotencyKey : String
  requestHash : String
  userId : String
  customerName : String
  customerEmail : String
  customerCellphone : String
  customerTaxId : String
  amount : Rat
  currency : String
deriving DecidableEq, Repr

/-- What a client is told of a payment. -/
structure PaymentIntentPayload where
  id : String
  paymentReference : String
  amount : Rat
  currency : String
  paymentStatus : PaymentStatus
  deliveryStatus : DeliveryStatus
  expiresAt : String
  qrCode : String
  qrCodeImageUrl : String
  replayed : Bool
deriving DecidableEq, Repr

/-- The payment that is to be processed. -/
structure PaymentProcessRequestedPayload where
  paymentId : String
  paymentReference : String
deriving DecidableEq, Repr

/-- The payment that is to be delivered, and to whom. -/
structure PaymentDeliveryRequestedPayload where
  paymentId : String
  userId : String
deriving DecidableEq, Repr

/-- The statuses of a payment. -/
structure PaymentStatusUpdatedPayload where
  paymentId : String
  paymentReference : String
  userId : String
  paymentStatus : PaymentStatus
  deliveryStatus : DeliveryStatus
  confirmedAt : String
  expiresAt : String
deriving DecidableEq, Repr

/-- A confirmation says what an update says. -/
abbrev PaymentConfirmedPayload := PaymentStatusUpdatedPayload

/-- The envelopes that the service writes to the outbox. -/
inductive Body where
  | processRequested (envelope : Envelope PaymentProcessRequestedPayload)
  | callbackConfirmed (envelope : Envelope PaymentCallbackConfirmedPayload)
  | statusUpdated (envelope : Envelope PaymentStatusUpdatedPayload)
  | deliveryRequested (envelope : Envelope PaymentDeliveryRequestedPayload)
  | confirmed (envelope : Envelope PaymentConfirmedPayload)
deriving DecidableEq, Repr

/-- The id in the envelope of a body. -/
def Body.messageId : Body → String
  | .processRequested envelope => envelope.messageId
  | .callbackConfirmed envelope => envelope.messageId
  | .statusUpdated envelope => envelope.messageId
  | .deliveryRequested envelope => envelope.messageId
  | .confirmed envelope => envelope.messageId

/-- An entry of the outbox, with its claim. -/
structure PendingMessage where
  id : String
  exchange : String
  routingKey : String
  body : Body
  attempts : Nat
  nextAttemptAt : Int
  claimToken : String
  claimedUntil : Option Int
deriving DecidableEq, Repr

/-- A document of the collection, with its outbox. -/
structure Payment where
  id : String
  idempotencyKey : String
  requestHash : String
  userId : String
  customerName : String
  customerEmail : String
  customerCellphone : String
  customerTaxId : String
  paymentReference : String
  amount : Rat
  currency : String
  paymentStatus : PaymentStatus
  deliveryStatus : DeliveryStatus
  processingAttempts : Nat
  expiresAt : Int
  processingStartedAt : Option Int
  confirmedAt : Option Int
  paymentFailureReason : String
  deliveryFailureReason : String
  webhookEventIds : List String
  pendingMessages : List PendingMessage
  createdAt : Int
  updatedAt : Int
deriving DecidableEq, Repr

/-- What the gateway makes of a new payment. -/
structure PaymentIntent where
  reference : String
  qrCode : String
  qrCodeImageUrl : String
deriving DecidableEq, Repr

/-- What the gateway answers to a processed payment. -/
structure GatewayResult where
  reference : String
  completedAt : Int
deriving DecidableEq, Repr

/-- An error of the gateway: a `GatewayError` or any other. -/
inductive ProcessError where
  | gateway (message : String) (retryable : Bool)
  | other (message : String)
deriving DecidableEq, Repr

/-- The text of an error. -/
def ProcessError.message : ProcessError → String
  | .gateway message _ => message
  | .other message => message

end Modularis.Payments.Models
