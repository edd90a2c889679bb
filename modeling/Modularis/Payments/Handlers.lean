import Modularis.Foundation.GoTime
import Modularis.Payments.Operations
import Modularis.Shared.Durations
import Modularis.Shared.Text

namespace Modularis.Payments.Handlers

open Modularis.Foundation.GoTime
open Modularis.Shared.Durations
open Modularis.Shared.Messaging
open Modularis.Shared.Text
open Modularis.Payments.Models
open Modularis.Payments.Operations

/-- What the service is configured with. -/
structure Config where
  eventExchange : String
  webhookTolerance : Int
  allowedCurrencies : List String
  paymentExpiration : Int
  processingAttempts : Int
  processingDelay : Int
  processingBackoff : Int
  simulateWebhookConfirmation : Bool
deriving DecidableEq, Repr

/-- The configuration and the letter table that `strings.ToUpper` consults. -/
structure Service where
  config : Config
  unicodeToUpper : Char → Char

/-- The id of a message that goes with a transition. -/
def transitionMessageId (tag paymentId : String) : String :=
  tag ++ ":" ++ paymentId

/-- The status in a message id. -/
def paymentStatusCode : PaymentStatus → String
  | .pending => "p"
  | .processing => "pr"
  | .completed => "c"
  | .failed => "f"
  | .expired => "e"

/-- The delivery status in a message id. -/
def deliveryStatusCode : DeliveryStatus → String
  | .pending => "p"
  | .delivered => "d"
  | .failed => "f"

/-- Equal statuses of a payment have one message id. -/
def statusMessageId (paymentId : String) (status : PaymentStatus)
    (delivery : DeliveryStatus) : String :=
  "psu:" ++ paymentId ++ ":" ++ paymentStatusCode status ++ ":" ++
    deliveryStatusCode delivery

/-- A time that may be missing, as text. -/
def safeTime : Option Int → String
  | none => ""
  | some time => formatRFC3339Nano time

/-- A message for the outbox, due at once. -/
def pendingMessage (s : Service) (routingKey : String) (body : Body) :
    Program PendingMessage := do
  let id ← call .newString
  let nextAttemptAt ← call .timeNow
  return {
    id := id
    exchange := s.config.eventExchange
    routingKey := routingKey
    body := body
    attempts := 0
    nextAttemptAt := nextAttemptAt
    claimToken := ""
    claimedUntil := none }

/-- What an update tells of a payment. -/
def statusPayload (payment : Payment) (status : PaymentStatus)
    (delivery : DeliveryStatus) : PaymentStatusUpdatedPayload where
  paymentId := payment.id
  paymentReference := payment.paymentReference
  userId := payment.userId
  paymentStatus := status
  deliveryStatus := delivery
  confirmedAt := safeTime payment.confirmedAt
  expiresAt := formatRFC3339Nano payment.expiresAt

/-- The update of a status, for the event exchange. -/
def statusMessages (s : Service) (payment : Payment) (status : PaymentStatus)
    (delivery : DeliveryStatus) (correlationId causationId : String) :
    Program (List PendingMessage) := do
  let messageId := statusMessageId payment.id status delivery
  let occurredAt ← call .timeNow
  let message ← pendingMessage s "payment.status-updated" (.statusUpdated
    (newEnvelopeWithMetadata "payment.status-updated" messageId correlationId
      causationId (formatRFC3339Nano occurredAt) "payment-service"
      (statusPayload payment status delivery)))
  return [message]

/-- The body of the `for` loop of `retry` from a given attempt on.  `.ok none` is
a `nil` error although the operation was never called. -/
def retryFrom {α : Type} (attempts delay backoff : Int)
    (operation : Nat → Program (Except ProcessError α)) (attempt : Nat) :
    Nat → Program (Except ProcessError (Option α))
  | 0 => pure (.ok none)
  | remaining + 1 => do
      match ← operation attempt with
      | .ok value => pure (.ok (some value))
      | .error (.gateway message true) =>
          if attempt = attempts then pure (.error (.gateway message true))
          else
            call (.sleep (backoffDelay attempt delay backoff))
            retryFrom attempts delay backoff operation (attempt + 1) remaining
      | .error error => pure (.error error)

/-- Attempts with pauses between them, as long as the gateway asks for another. -/
def retry {α : Type} (attempts delay backoff : Int)
    (operation : Nat → Program (Except ProcessError α)) :
    Program (Except ProcessError (Option α)) :=
  retryFrom attempts delay backoff operation 1 attempts.toNat

/-- The zero `GatewayResult`; its time is the first instant of the year 1. -/
def zeroResult : GatewayResult where
  reference := ""
  completedAt := -unixToInternal * second

/-- The payment is reserved and processed. -/
def handleProcessRequested (s : Service)
    (envelope : Envelope PaymentProcessRequestedPayload) :
    Program (Except String Unit) := do
  let now ← call .timeNow
  match ← call (.reserveForProcessing envelope.payload.paymentId now) with
  | .error error => return .error error
  | .ok none =>
      match ← call (.findById envelope.payload.paymentId) with
      | .error error => return .error error
      | .ok none => return .ok ()
      | .ok (some existing) =>
          if existing.paymentStatus = .pending ∧ existing.expiresAt < now then
            let messages ← statusMessages s existing .expired
              existing.deliveryStatus envelope.correlationId envelope.messageId
            match ← call (.markExpired existing.id messages) with
            | .error error => return .error error
            | .ok _ => return .ok ()
          else return .ok ()
  | .ok (some payment) =>
      let messages ← statusMessages s payment .processing payment.deliveryStatus
        envelope.correlationId envelope.messageId
      match ← call (.enqueueMessages payment.id messages) with
      | .error error => return .error error
      | .ok () =>
          match ← retry s.config.processingAttempts s.config.processingDelay
            s.config.processingBackoff
            (fun attempt => call (.process payment attempt)) with
          | .error error =>
              let messages ← statusMessages s payment .failed
                payment.deliveryStatus envelope.correlationId envelope.messageId
              match ← call (.markFailed payment.id error.message messages) with
              | .error error => return .error error
              | .ok _ => return .ok ()
          | .ok result =>
              if s.config.simulateWebhookConfirmation then
                let result := result.getD zeroResult
                let callbackEventId :=
                  transitionMessageId "pcb" payment.paymentReference
                let callbackOccurredAt := formatRFC3339Nano result.completedAt
                let message ← pendingMessage s "payment.callback.confirmed"
                  (.callbackConfirmed (newEnvelopeWithMetadata
                    "payment.callback.confirmed" callbackEventId
                    envelope.correlationId envelope.messageId
                    callbackOccurredAt "payment-service"
                    { eventId := callbackEventId
                      paymentReference := result.reference
                      amount := payment.amount
                      currency := payment.currency
                      occurredAt := callbackOccurredAt }))
                call (.enqueueMessages payment.id [message])
              else return .ok ()

/-- A callback that is fresh and states the right amount completes its payment, or finds
it expired. -/
def handleCallbackConfirmed (s : Service)
    (envelope : Envelope PaymentCallbackConfirmedPayload) :
    Program (Except String Unit) := do
  match ← call (.findByReference envelope.payload.paymentReference) with
  | .error error => return .error error
  | .ok none => return .ok ()
  | .ok (some payment) =>
      match parseRFC3339Nano envelope.payload.occurredAt with
      | none => return .ok ()
      | some eventTime =>
          let now ← call .timeNow
          if absDuration (sub now eventTime) > s.config.webhookTolerance then
            return .ok ()
          else if payment.amount ≠ envelope.payload.amount ∨
              payment.currency ≠ envelope.payload.currency then
            return .ok ()
          else if payment.expiresAt < eventTime then
            let messages ← statusMessages s payment .expired
              payment.deliveryStatus envelope.correlationId envelope.messageId
            match ← call (.markExpired payment.id messages) with
            | .error error => return .error error
            | .ok _ => return .ok ()
          else
            let completedPayment :=
              { payment with
                paymentStatus := .completed
                confirmedAt := some eventTime }
            let deliveryMessageId := transitionMessageId "pdr" payment.id
            let messages ← statusMessages s completedPayment .completed
              completedPayment.deliveryStatus envelope.correlationId
              envelope.messageId
            let message ← pendingMessage s "payment.delivery.requested"
              (.deliveryRequested (newEnvelopeWithMetadata
                "payment.delivery.requested" deliveryMessageId
                envelope.correlationId envelope.messageId
                (formatRFC3339Nano eventTime) "payment-service"
                { paymentId := payment.id
                  userId := payment.userId }))
            match ← call (.markCompleted payment.id envelope.payload.eventId
              eventTime (messages ++ [message])) with
            | .error error => return .error error
            | .ok _ => return .ok ()

/-- A completed payment is delivered, and its confirmation goes out. -/
def handleDeliveryRequested (s : Service)
    (envelope : Envelope PaymentDeliveryRequestedPayload) :
    Program (Except String Unit) := do
  match ← call (.findById envelope.payload.paymentId) with
  | .error error => return .error error
  | .ok none => return .ok ()
  | .ok (some payment) =>
      if payment.paymentStatus ≠ .completed ∨
          payment.deliveryStatus = .delivered then
        return .ok ()
      else
        let confirmedMessageId := transitionMessageId "pcf" payment.id
        let occurredAt ←
          if safeTime payment.confirmedAt = "" then
            formatRFC3339Nano <$> call .timeNow
          else pure (safeTime payment.confirmedAt)
        let messages ← statusMessages s payment .completed .delivered
          envelope.correlationId envelope.messageId
        let message ← pendingMessage s "payment.confirmed"
          (.confirmed (newEnvelopeWithMetadata "payment.confirmed"
            confirmedMessageId envelope.correlationId envelope.messageId
            occurredAt "payment-service"
            (statusPayload payment .completed .delivered)))
        match ← call (.markDelivery payment.id .delivered ""
          (messages ++ [message])) with
        | .error error => return .error error
        | .ok _ => return .ok ()

/-- The body of a reply to `payment.intent.create`. -/
inductive RpcResponse where
  | success (data : PaymentIntentPayload)
  | error (status : Nat) (title detail code : String)
deriving DecidableEq, Repr

/-- `rpcSuccessResponse` and `rpcErrorResponse`; `responseTypeForCommand` answers
the same type for every command. -/
def rpcResponse (command : Envelope PaymentCreateCommandPayload)
    (response : RpcResponse) : Program (Envelope RpcResponse) := do
  let messageId ← call .newString
  let occurredAt ← call .timeNow
  return newEnvelopeWithMetadata "payment.intent.create.response" messageId
    command.correlationId command.messageId (formatRFC3339Nano occurredAt)
    "payment-service" response

/-- A stored payment, as it is answered. -/
def toIntentPayload (payment : Payment) (replayed : Bool) :
    PaymentIntentPayload where
  id := payment.id
  paymentReference := payment.paymentReference
  amount := payment.amount
  currency := payment.currency
  paymentStatus := payment.paymentStatus
  deliveryStatus := payment.deliveryStatus
  expiresAt := formatRFC3339Nano payment.expiresAt
  qrCode := ""
  qrCodeImageUrl := ""
  replayed := replayed

/-- The answer, with what the gateway has added. -/
def withIntent (payload : PaymentIntentPayload) (intent : PaymentIntent) :
    PaymentIntentPayload :=
  { payload with
    paymentReference := intent.reference
    qrCode := intent.qrCode
    qrCodeImageUrl := intent.qrCodeImageUrl }

/-- The record that `CreatePayment` makes of a command; `Create` stamps it. -/
def newPayment (payload : PaymentCreateCommandPayload)
    (id paymentReference currency : String) (expiresAt : Int) : Payment where
  id := id
  idempotencyKey := payload.idempotencyKey
  requestHash := payload.requestHash
  userId := payload.userId
  customerName := payload.customerName
  customerEmail := payload.customerEmail
  customerCellphone := payload.customerCellphone
  customerTaxId := payload.customerTaxId
  paymentReference := paymentReference
  amount := payload.amount
  currency := currency
  paymentStatus := .pending
  deliveryStatus := .pending
  processingAttempts := 0
  expiresAt := expiresAt
  processingStartedAt := none
  confirmedAt := none
  paymentFailureReason := ""
  deliveryFailureReason := ""
  webhookEventIds := []
  pendingMessages := []
  createdAt := 0
  updatedAt := 0

/-- A key that is known answers with its payment; else a payment is made and stored with
its first messages. -/
def createPayment (s : Service) (envelope : Envelope PaymentCreateCommandPayload) :
    Program (Envelope RpcResponse) := do
  let payload := envelope.payload
  match ← call (.findByIdempotencyKey payload.idempotencyKey) with
  | .error _ =>
      rpcResponse envelope (.error 500 "Internal Server Error"
        "The payment service could not load the current payment state." "")
  | .ok (some existing) =>
      if existing.requestHash ≠ payload.requestHash then
        rpcResponse envelope (.error 409 "Conflict"
          "Idempotency-Key was already used with a different payload"
          "IDEMPOTENCY_KEY_REUSED")
      else rpcResponse envelope (.success (toIntentPayload existing true))
  | .ok none =>
      let currency := toUpper s.unicodeToUpper payload.currency
      if currency ∉ s.config.allowedCurrencies then
        rpcResponse envelope (.error 400 "Bad Request" "Unsupported currency."
          "UNSUPPORTED_CURRENCY")
      else
        let id ← call .newString
        let reference ← call .newString
        let now ← call .timeNow
        let payment := newPayment payload id reference currency
          (now + s.config.paymentExpiration)
        match ← call (.createIntent payment) with
        | .error _ =>
            rpcResponse envelope (.error 502 "Bad Gateway"
              "The payment provider could not create the payment intent." "")
        | .ok intent =>
            let occurredAt ← call .timeNow
            let message ← pendingMessage s "payment.process.requested"
              (.processRequested (newEnvelopeWithMetadata
                "payment.process.requested" (transitionMessageId "ppd" id)
                envelope.correlationId envelope.messageId
                (formatRFC3339Nano occurredAt) "payment-service"
                { paymentId := id
                  paymentReference := intent.reference }))
            match ← call (.create
              { payment with
                paymentReference := intent.reference
                pendingMessages := [message] }) with
            | .error _ =>
                rpcResponse envelope (.error 500 "Internal Server Error"
                  "The payment service could not save the payment." "")
            | .ok created =>
                rpcResponse envelope
                  (.success (withIntent (toIntentPayload created false) intent))

/-- What an invocation comes to: a reply to an RPC, or the error with which the
delivery of an event is returned. -/
inductive Answer where
  | replied (response : Envelope RpcResponse)
  | handled (result : Except String Unit)

/-- The program that `StartPaymentConsumers` runs for a delivery. -/
def program (s : Service) : Request → Program Answer
  | .createPayment envelope => return .replied (← createPayment s envelope)
  | .processRequested envelope =>
      return .handled (← handleProcessRequested s envelope)
  | .callbackConfirmed envelope =>
      return .handled (← handleCallbackConfirmed s envelope)
  | .deliveryRequested envelope =>
      return .handled (← handleDeliveryRequested s envelope)

end Modularis.Payments.Handlers
