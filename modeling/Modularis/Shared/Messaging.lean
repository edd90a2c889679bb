import Mathlib.Data.Rat.Defs

/-!
The message envelope of the two Go services.  Both declare it in the same way,
as they do the payload of `payment.callback.confirmed`.  A JSON text is modelled
by the value that it encodes and an amount, which JSON keeps finite, by a
rational number.
-/

namespace Modularis.Shared.Messaging

/-- What surrounds every payload on the broker. -/
structure Envelope (T : Type) where
  schemaVersion : String
  messageId : String
  correlationId : String
  causationId : String
  occurredAt : String
  type : String
  source : String
  payload : T
deriving DecidableEq, Repr

/-- An envelope of the one schema version that is written. -/
def newEnvelopeWithMetadata {T : Type} (messageType messageId correlationId
    causationId occurredAt source : String) (payload : T) : Envelope T where
  schemaVersion := "1.0.0"
  messageId := messageId
  correlationId := correlationId
  causationId := causationId
  occurredAt := occurredAt
  type := messageType
  source := source
  payload := payload

/-- A confirmed callback, with the amount as the provider states it. -/
structure PaymentCallbackConfirmedPayload where
  eventId : String
  paymentReference : String
  amount : Rat
  currency : String
  occurredAt : String
deriving DecidableEq, Repr

end Modularis.Shared.Messaging
