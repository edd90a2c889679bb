import Modularis.Payments.CallbackRun
import Modularis.Payments.Lifecycle
import Modularis.Webhook.Payloads

namespace Modularis.EndToEnd.Confirmation

open Modularis.Foundation
open Modularis.Foundation.GoTime
open Modularis.Shared.Durations
open Modularis.Shared.Messaging
open Modularis.Shared.Text
open Modularis.Webhook.ReceiptStore
open Modularis.Webhook.Relay
open Modularis.Webhook.Handler
open Modularis.Webhook.Payloads
open Modularis.Webhook.Signature (Hmac)
open Modularis.Payments.Models
open Modularis.Payments.Repository
open Modularis.Payments.Operations
open Modularis.Payments.CallbackRun
open Modularis.Payments.Lifecycle (sampleService)

/-- The stored payment that a webhook payload names and could complete. -/
structure Confirms (unicodeToUpper : Char → Char) (payload : PaymentWebhookPayload)
    (store : Store) (payment : Payment) : Prop where
  found : findByReference store.payments payload.paymentReference = some payment
  isOpen : payment.paymentStatus ∈ [.pending, .processing, .failed]
  amount : payment.amount = payload.amount
  currency : payment.currency = toUpper unicodeToUpper payload.currency
  expiry : ∀ eventTime, parseRFC3339Nano payload.occurredAt = some eventTime →
    eventTime ≤ payment.expiresAt

/-- At `now` the payment service takes the event for a recent one.  It reads the
time back from the UTC text of the webhook service, which has four digits for
the year. -/
def Recent (webhookTolerance now : Int) (occurredAt : String) : Prop :=
  ∃ eventTime, parseRFC3339Nano occurredAt = some eventTime ∧
    (0 ≤ year eventTime ∧ year eventTime < 10000) ∧
    absDuration (sub now eventTime) ≤ webhookTolerance

theorem parse_normalizeOccurredAt (occurredAt : String) (eventTime : Int) :
    parseRFC3339Nano (normalizeOccurredAt occurredAt) = some eventTime ↔
      parseRFC3339Nano occurredAt = some eventTime ∧
        0 ≤ year eventTime ∧ year eventTime < 10000 := by
  unfold normalizeOccurredAt
  cases hparse : parseRFC3339Nano occurredAt with
  | none => simp [hparse]
  | some parsed =>
      by_cases hyear : 0 ≤ year parsed ∧ year parsed < 10000
      · simp only [parse_format hyear.1 hyear.2, Option.some.injEq]
        constructor
        · rintro rfl
          exact ⟨rfl, hyear⟩
        · exact And.left
      · have hlong : year parsed < 0 ∨ 10000 ≤ year parsed := by omega
        simp only [parse_format_eq_none hlong, Option.some.injEq]
        constructor
        · rintro ⟨⟩
        · rintro ⟨rfl, hyears⟩
          exact absurd hyears hyear

theorem inTime_iff_recent (s : Payments.Handlers.Service) (now : Int)
    (occurredAt : String) :
    InTime s now (normalizeOccurredAt occurredAt) ↔
      Recent s.config.webhookTolerance now occurredAt := by
  unfold InTime Recent
  simp only [parse_normalizeOccurredAt, and_assoc]

theorem names_of_confirms {w : Service} {payload : PaymentWebhookPayload}
    {store : Store} {payment : Payment}
    (h : Confirms w.unicodeToUpper payload store payment) (correlationId : String) :
    Names store (callbackEnvelope w payload correlationId).payload payment where
  found := h.found
  isOpen := h.isOpen
  amount := h.amount
  currency := h.currency
  expiry := fun eventTime hparse =>
    h.expiry eventTime ((parse_normalizeOccurredAt _ _).mp hparse).1

/-- A request that the handler answered `accepted`: from then on every message
that the relay publishes for its receipt completes the payment exactly if the
payment service takes it for a recent one, and every later confirmation with the
same key whose `Register` does not fail is answered `duplicate`. -/
theorem accepted_confirmation_completes_iff (w : Service)
    (s : Payments.Handlers.Service) (cfg : Webhook.Relay.Config) {σ τ : World}
    {env : Environment} {request : HttpRequest} {payload : PaymentWebhookPayload}
    {dedupeKey eventId : String} {receipts : Receipts}
    {trace : List (World × Webhook.Relay.Event)} (hreach : Reachable cfg σ)
    (hnow : env.databaseNow ≤ σ.clock)
    (hpayload : readPayload w env.clock request (requestId request env.newId) =
      .ok payload)
    (haccepted : handle w cfg.indexable env request σ.receipts =
      (.accepted dedupeKey eventId, receipts))
    (hrun : StepSystem.Run (step cfg) { σ with receipts := receipts } trace τ) :
    (∀ e receipt, publishes τ e = some receipt → receipt.dedupeKey = dedupeKey →
      ∀ i store payment turns, Confirms w.unicodeToUpper payload store payment →
        Undisturbed turns payment.id →
        ∃ q, (runCallback s i receipt.payloadJson turns store).2.payments.row
            payment.id = some q ∧
          (q.paymentStatus = .completed ↔
            Recent s.config.webhookTolerance (turns 1).1.now payload.occurredAt)) ∧
    (∀ env' request' payload',
      readPayload w env'.clock request' (requestId request' env'.newId) =
        .ok payload' →
      toUpper w.unicodeToUpper payload'.status = "CONFIRMED" →
      webhookDedupeKey w payload'.paymentReference "CONFIRMED" = dedupeKey →
      (callRegister cfg.indexable env' τ.receipts
        (registration w request' payload' "CONFIRMED")).1.isSome →
      ∃ reason, (handle w cfg.indexable env' request' τ.receipts).1 =
        .duplicate reason dedupeKey payload'.eventId) := by
  obtain ⟨input, correlationId, hreceipts, hstores⟩ :=
    handle_accepted hpayload haccepted
  have hstep : step cfg σ (.register input env.databaseNow) =
      some { σ with receipts := receipts } := by
    rw [hreceipts]
    exact if_pos hnow
  have hτ := (hreach.tail hstep).run hrun
  have hstored := stores_of_run hrun hstores
  refine ⟨?_, ?_⟩
  · intro e receipt hpublishes hkey i store payment turns hconfirms hturns
    have hpublished := stores_of_publishes hτ hpublishes
    rw [hkey] at hpublished
    rw [← inTime_iff_recent, hpublished.unique hstored]
    exact completed_iff_inTime hturns (names_of_confirms hconfirms correlationId)
  · intro env' request' payload' hpayload' hstatus hkey hregistered
    exact handle_duplicate hpayload' hstatus hkey hstored hregistered

section Sample

def samplePayload : PaymentWebhookPayload where
  eventId := "event-1"
  paymentReference := "ref-1"
  amount := 100
  currency := "BRL"
  status := "CONFIRMED"
  occurredAt := "1970-01-01T00:01:00Z"

@[irreducible] def sampleBody : List UInt8 :=
  bytes ("\x7b\"eventId\":\"event-1\",\"paymentReference\":\"ref-1\",\"amount\":100," ++
    "\"currency\":\"BRL\",\"status\":\"CONFIRMED\"," ++
    "\"occurredAt\":\"1970-01-01T00:01:00Z\"\x7d")

/-- HMAC-SHA256 at the message that is signed. -/
def sampleHmac : Hmac := fun key message =>
  if key = bytes "secret" ∧ message = bytes "60." ++ sampleBody then
    [85, 186, 95, 5, 165, 2, 153, 116, 100, 153, 38, 233, 147, 32, 232, 54,
      142, 67, 166, 175, 221, 205, 56, 54, 21, 122, 208, 157, 70, 187, 199, 201]
  else List.replicate 32 0

/-- The JSON decoder at this body. -/
def sampleDecode (body : List UInt8) : Option PaymentWebhookPayload :=
  if body = sampleBody then some samplePayload else none

def sampleWebhook : Service where
  config :=
    { publishRoutingKey := "payment.callback.confirmed"
      signatureHeader := "x-payment-signature"
      signatureSecret := "secret"
      webhookTolerance := 5 * minute
      maxBodyBytes := 1048576 }
  unicodeToUpper := id
  hmac := sampleHmac
  decode := sampleDecode

def sampleRequest : HttpRequest where
  method := "POST"
  header := fun name =>
    if name = "x-payment-signature" then
      "t=60,v1=55ba5f05a5029974649926e99320e8368e43a6afddcd3836157ad09d46bbc7c9"
    else ""
  body := some sampleBody

def sampleEnvironment : Environment where
  clock := minute
  newId := "request-1"
  databaseNow := minute
  failure := none

def sampleRelay : Webhook.Relay.Config where
  relayLease := minute
  relayBatchSize := 50
  publishDelay := second
  publishBackoff := 2
  indexable := sampleIndexable

def sampleWorld : World := { World.init with clock := minute }

def sampleReceipts : Receipts :=
  (register sampleIndexable Table.empty
    (registration sampleWebhook sampleRequest samplePayload "CONFIRMED") minute).2

/-- The relay comes to the receipt at `now`. -/
def sampleEvents (now : Int) : List Webhook.Relay.Event :=
  [.tick now, .wake "relay:1" now, .claim "relay:1" (fun _ => false) now]

def samplePublish (now : Int) : Webhook.Relay.Event :=
  .publish "relay:1" (.ok ()) now

def samplePayment : Payment :=
  Payments.Handlers.newPayment
    { idempotencyKey := "key-1"
      requestHash := "hash-1"
      userId := "user-1"
      customerName := "Ada"
      customerEmail := "ada@modularis.dev"
      customerCellphone := ""
      customerTaxId := ""
      amount := 100
      currency := "BRL" }
    "payment-1" "ref-1" "BRL" (31 * minute)

def sampleStore : Store where
  payments := Table.empty.insertIfAbsent samplePayment
  history := []

/-- The payment service reads `now` from its clock. -/
def sampleTurns (now : Int) : Nat → Turn := fun _ =>
  ({ now := now
     newId := "message-1"
     failure := none
     intent := .error ""
     processed := .error (.other "") }, id)

theorem readPayload_sample :
    readPayload sampleWebhook sampleEnvironment.clock sampleRequest
      (requestId sampleRequest sampleEnvironment.newId) = .ok samplePayload := by
  decide +kernel

theorem handle_sample :
    handle sampleWebhook sampleIndexable sampleEnvironment sampleRequest sampleWorld.receipts =
      (.accepted "CONFIRMED:ref-1" "event-1", sampleReceipts) := by
  simp only [handle, readPayload_sample]
  rfl

theorem reachable_sample : Reachable sampleRelay sampleWorld :=
  ⟨_, StepSystem.run_of_replay (show StepSystem.replay (step sampleRelay) World.init
    [.tick minute] = some sampleWorld from rfl)⟩

theorem confirms_sample :
    Confirms sampleWebhook.unicodeToUpper samplePayload sampleStore samplePayment where
  found := rfl
  isOpen := by decide
  amount := rfl
  currency := rfl
  expiry := by
    intro eventTime hparse
    have hsample : parseRFC3339Nano samplePayload.occurredAt = some minute := rfl
    obtain rfl := Option.some.inj (hsample.symm.trans hparse)
    decide

theorem undisturbed_sample (now : Int) :
    Undisturbed (sampleTurns now) samplePayment.id where
  succeeds := fun _ => rfl
  leaves := fun _ _ => rfl

theorem publishes_sample (now : Int) (hnow : now = 2 * minute ∨ now = 10 * minute) :
    ∃ trace τ receipt,
      StepSystem.Run (step sampleRelay) { sampleWorld with receipts := sampleReceipts }
        trace τ ∧
      publishes τ (samplePublish now) = some receipt ∧
      receipt.dedupeKey = "CONFIRMED:ref-1" ∧
      receipt.payloadJson = callbackEnvelope sampleWebhook samplePayload "pcb:ref-1" := by
  have hreplay : ((StepSystem.replay (step sampleRelay)
      { sampleWorld with receipts := sampleReceipts } (sampleEvents now)).bind
        fun τ => publishes τ (samplePublish now)) = some
          { dedupeKey := "CONFIRMED:ref-1"
            routingKey := "payment.callback.confirmed"
            payloadJson := callbackEnvelope sampleWebhook samplePayload "pcb:ref-1"
            correlationId := "pcb:ref-1"
            messageId := "pcb:ref-1"
            attempts := 0 } := by
    rcases hnow with rfl | rfl <;> rfl
  obtain ⟨τ, hτ, hpublishes⟩ := Option.bind_eq_some_iff.mp hreplay
  exact ⟨_, τ, _, StepSystem.run_of_replay hτ, hpublishes, rfl, rfl⟩

theorem recent_sample :
    Recent sampleService.config.webhookTolerance (2 * minute)
      samplePayload.occurredAt :=
  ⟨minute, rfl, by decide, by decide⟩

theorem accepted_confirmation_completes_sample :
    ∃ (receipt : Receipt) (q : Payment),
      (runCallback sampleService "i-1" receipt.payloadJson (sampleTurns (2 * minute))
        sampleStore).2.payments.row samplePayment.id = some q ∧
      q.paymentStatus = .completed := by
  obtain ⟨trace, τ, receipt, hrun, hpublishes, hkey, _⟩ :=
    publishes_sample (2 * minute) (.inl rfl)
  obtain ⟨q, hq, hcompleted⟩ := (accepted_confirmation_completes_iff sampleWebhook
    sampleService sampleRelay reachable_sample le_rfl readPayload_sample handle_sample
    hrun).1 _ receipt hpublishes hkey "i-1" _ _ _ confirms_sample
      (undisturbed_sample (2 * minute))
  exact ⟨receipt, q, hq, hcompleted.mpr recent_sample⟩

/-- Ten minutes late: the payment stays `PENDING`. -/
theorem late_confirmation_left_pending :
    ∃ trace τ receipt q,
      Reachable sampleRelay sampleWorld ∧
      handle sampleWebhook sampleIndexable sampleEnvironment sampleRequest sampleWorld.receipts =
        (.accepted "CONFIRMED:ref-1" "event-1", sampleReceipts) ∧
      StepSystem.Run (step sampleRelay) { sampleWorld with receipts := sampleReceipts }
        trace τ ∧
      publishes τ (samplePublish (10 * minute)) = some receipt ∧
      receipt.dedupeKey = "CONFIRMED:ref-1" ∧
      Confirms sampleWebhook.unicodeToUpper samplePayload sampleStore samplePayment ∧
      Undisturbed (sampleTurns (10 * minute)) samplePayment.id ∧
      (runCallback sampleService "i-1" receipt.payloadJson (sampleTurns (10 * minute))
        sampleStore).2.payments.row samplePayment.id = some q ∧
      q.paymentStatus = .pending := by
  obtain ⟨trace, τ, receipt, hrun, hpublishes, hkey, hjson⟩ :=
    publishes_sample (10 * minute) (.inr rfl)
  refine ⟨trace, τ, receipt, samplePayment, reachable_sample, handle_sample, hrun,
    hpublishes, hkey, confirms_sample, undisturbed_sample _, ?_, rfl⟩
  rw [hjson]
  rfl

end Sample

end Modularis.EndToEnd.Confirmation
