import Modularis.Webhook.ReceiptStore
import Modularis.Webhook.Signature

namespace Modularis.Webhook.Handler

open Modularis.Foundation.GoTime
open Modularis.Shared.Messaging
open Modularis.Shared.Text
open Modularis.Webhook.ReceiptStore
open Modularis.Webhook.Signature

/-- The body of a callback. -/
structure PaymentWebhookPayload where
  eventId : String
  paymentReference : String
  amount : Rat
  currency : String
  status : String
  occurredAt : String
deriving DecidableEq, Repr

/-- What the handler is configured with. -/
structure Config where
  publishRoutingKey : String
  signatureHeader : String
  signatureSecret : String
  webhookTolerance : Int
  maxBodyBytes : Int
deriving DecidableEq, Repr

/-- The configuration with what the handler takes from the standard library:
the letter table of `strings.ToUpper`, HMAC-SHA256 and the JSON decoder that
refuses unknown fields. -/
structure Service where
  config : Config
  unicodeToUpper : Char → Char
  hmac : Hmac
  decode : List UInt8 → Option PaymentWebhookPayload

/-- `body` is `none` where the connection breaks off; `header` is `Header.Get`,
which answers `""` for a header that is not there. -/
structure HttpRequest where
  method : String
  header : String → String
  body : Option (List UInt8)

/-- What a request meets: the clock of the process, a random id, and the time and
the failure, if any, of the transaction of `Register`. -/
structure Environment where
  clock : Int
  newId : String
  databaseNow : Int
  failure : Option String

/-- What a provider is answered. -/
inductive Response where
  | problem (requestId : String) (status : Nat) (title detail : String)
  | ignored (reason : String)
  | accepted (dedupeKey eventId : String)
  | duplicate (reason dedupeKey eventId : String)
deriving DecidableEq, Repr

/-- The status line. -/
def Response.status : Response → Nat
  | .problem _ status _ _ => status
  | .ignored _ | .accepted _ _ => 202
  | .duplicate _ _ _ => 200

/-- `io.ReadAll` of an `http.MaxBytesReader`. -/
def readAll (body : Option (List UInt8)) (limit : Int) : Option (List UInt8) :=
  body.filter fun content => decide ((content.length : Int) ≤ max 0 limit)

/-- `""` is no complaint. -/
def validateWebhookPayload (payload : PaymentWebhookPayload) : String :=
  if trimSpace payload.eventId = "" then "eventId is required"
  else if trimSpace payload.paymentReference = "" then
    "paymentReference is required"
  else if payload.amount ≤ 0 then "amount must be greater than zero"
  else if trimSpace payload.currency = "" then "currency is required"
  else if trimSpace payload.status = "" then "status is required"
  else if trimSpace payload.occurredAt = "" then "occurredAt is required"
  else if parseRFC3339Nano payload.occurredAt = none then
    "occurredAt must be RFC3339"
  else ""

/-- The id of the request, or a new one. -/
def requestId (request : HttpRequest) (newId : String) : String :=
  let value := trimSpace (request.header "X-Request-Id")
  if value ≠ "" then value else newId

/-- A time of the layout is written in UTC; another text stays. -/
def normalizeOccurredAt (value : String) : String :=
  match parseRFC3339Nano value with
  | none => value
  | some parsed => formatRFC3339Nano parsed

/-- The message id of a payment's callback. -/
def callbackMessageId (paymentReference : String) : String :=
  "pcb:" ++ trimSpace paymentReference

/-- The key under which a callback is stored once. -/
def webhookDedupeKey (s : Service) (paymentReference status : String) : String :=
  toUpper s.unicodeToUpper (trimSpace status) ++ ":" ++ trimSpace paymentReference

/-- The first part of the handler: the payload of a request that is in order. -/
def readPayload (s : Service) (clock : Int) (request : HttpRequest)
    (reqId : String) : Except Response PaymentWebhookPayload :=
  if request.method ≠ "POST" then
    .error (.problem reqId 405 "Method Not Allowed"
      "Only POST is supported on this endpoint.")
  else
    match readAll request.body s.config.maxBodyBytes with
    | none =>
        .error (.problem reqId 400 "Bad Request"
          "The webhook body could not be read.")
    | some body =>
        match validate s.hmac s.config.signatureSecret
          (request.header s.config.signatureHeader) body clock
          s.config.webhookTolerance with
        | .error .expiredSignature =>
            .error (.problem reqId 400 "Bad Request"
              SignatureError.expiredSignature.message)
        | .error error =>
            .error (.problem reqId 401 "Unauthorized" error.message)
        | .ok () =>
            match s.decode body with
            | none =>
                .error (.problem reqId 400 "Bad Request"
                  "The webhook payload must be valid JSON.")
            | some payload =>
                let detail := validateWebhookPayload payload
                if detail ≠ "" then
                  .error (.problem reqId 400 "Bad Request" detail)
                else .ok payload

/-- The message of a callback. -/
def callbackEnvelope (s : Service) (payload : PaymentWebhookPayload)
    (correlationId : String) : Envelope PaymentCallbackConfirmedPayload :=
  let occurredAt := normalizeOccurredAt payload.occurredAt
  newEnvelopeWithMetadata s.config.publishRoutingKey
    (callbackMessageId payload.paymentReference) correlationId payload.eventId
    occurredAt "webhook-service"
    { eventId := payload.eventId
      paymentReference := payload.paymentReference
      amount := payload.amount
      currency := toUpper s.unicodeToUpper payload.currency
      occurredAt := occurredAt }

/-- What the handler registers of a payload whose upper-cased status is
`status`. -/
def registration (s : Service) (request : HttpRequest)
    (payload : PaymentWebhookPayload) (status : String) : ReceiptRegistration :=
  let logicalMessageId := callbackMessageId payload.paymentReference
  let header := request.header "X-Correlation-Id"
  let correlationId := if header = "" then logicalMessageId else header
  { dedupeKey := webhookDedupeKey s payload.paymentReference status
    paymentReference := trimSpace payload.paymentReference
    paymentStatus := status
    providerEventId := trimSpace payload.eventId
    correlationId := correlationId
    messageId := logicalMessageId
    routingKey := s.config.publishRoutingKey
    payloadJson := callbackEnvelope s payload correlationId }

/-- `Register` as a call that may fail without effect. -/
def callRegister (indexable : List String → Bool) (env : Environment) (receipts : Receipts)
    (input : ReceiptRegistration) : Option RegistrationResult × Receipts :=
  match env.failure with
  | some _ => (none, receipts)
  | none => register indexable receipts input env.databaseNow

/-- What a provider is told of a repetition. -/
def duplicateReason : PublishStatus → String
  | .pending | .inFlight => "processing"
  | .published => "replayed"

/-- How the handler answers what came of `Register`. -/
def answer (reqId eventId : String) (input : ReceiptRegistration) :
    Option RegistrationResult → Response
  | none =>
      .problem reqId 502 "Bad Gateway" "The webhook could not be recorded."
  | some result =>
      if result.accepted then .accepted input.dedupeKey eventId
      else
        .duplicate (duplicateReason result.publishStatus) input.dedupeKey eventId

/-- The handler of `POST /webhooks/payments`: it reads the request, then registers it or
says why not. -/
def handle (s : Service) (indexable : List String → Bool) (env : Environment)
    (request : HttpRequest) (receipts : Receipts) : Response × Receipts :=
  let reqId := requestId request env.newId
  match readPayload s env.clock request reqId with
  | .error response => (response, receipts)
  | .ok payload =>
      let status := toUpper s.unicodeToUpper payload.status
      if status ≠ "CONFIRMED" then (.ignored "unsupported_status", receipts)
      else
        let input := registration s request payload status
        let registered := callRegister indexable env receipts input
        (answer reqId payload.eventId input registered.1, registered.2)

end Modularis.Webhook.Handler
