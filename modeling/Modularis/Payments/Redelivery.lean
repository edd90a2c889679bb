import Modularis.Payments.Changes
import Modularis.Payments.Lifecycle

namespace Modularis.Payments.Redelivery

open Modularis.Foundation
open Modularis.Foundation.GoTime
open Modularis.Foundation.Program
open Modularis.Shared.Durations
open Modularis.Shared.Messaging
open Modularis.Payments.Models
open Modularis.Payments.Repository
open Modularis.Payments.Operations
open Modularis.Payments.Handlers
open Modularis.Payments.Effects
open Modularis.Payments.Ledger
open Modularis.Payments.Changes
open Modularis.Payments.Lifecycle (sampleService sampleChoice)

/-- The repository calls that an attempt to process a payment may make. -/
inductive RepositoryCall where
  | reserveForProcessing
  | firstEnqueue
  | markFailed
  | finalEnqueue
deriving DecidableEq, Repr

/-- A message has this routing key. -/
def hasKey (routingKey : String) (messages : List PendingMessage) : Bool :=
  messages.any fun message => message.routingKey = routingKey

/-- The call of the handler that is meant. -/
def RepositoryCall.names : RepositoryCall → Op → Bool
  | .reserveForProcessing, .reserveForProcessing _ _ => true
  | .firstEnqueue, .enqueueMessages _ messages =>
      hasKey "payment.status-updated" messages
  | .markFailed, .markFailed _ _ _ => true
  | .finalEnqueue, .enqueueMessages _ messages =>
      hasKey "payment.callback.confirmed" messages
  | _, _ => false

/-- The calls that fail, with their errors. -/
abbrev Faults := Op → Option String

/-- No call fails. -/
def noFault : Faults := fun _ => none

/-- One of the four calls fails. -/
def failing (repositoryCall : RepositoryCall) (error : String) : Faults :=
  fun op => if repositoryCall.names op then some error else none

/-- `act` where the repository calls fail by `faults`. -/
def faultyAct (faults : Faults) (i : String) (request : Request) (store : Store)
    (op : Op) (choice : Choice) : Reply op × Store :=
  act i request store op { choice with failure := faults op }

/-- One delivery of the message, handled to its end. -/
def attempt (s : Service) (i : String)
    (envelope : Envelope PaymentProcessRequestedPayload) (faults : Faults)
    (choices : Nat → Choice) (store : Store) : Except String Unit × Store :=
  (handleProcessRequested s envelope).run
    (faultyAct faults i (.processRequested envelope)) choices store

/-- The attempt comes to the repository call. -/
def Makes (s : Service) (i : String)
    (envelope : Envelope PaymentProcessRequestedPayload) (choices : Nat → Choice)
    (store : Store) (repositoryCall : RepositoryCall) : Prop :=
  ∃ op ∈ (handleProcessRequested s envelope).called
      (faultyAct noFault i (.processRequested envelope)) choices store,
    repositoryCall.names op = true

instance (s : Service) (i : String)
    (envelope : Envelope PaymentProcessRequestedPayload) (choices : Nat → Choice)
    (store : Store) (repositoryCall : RepositoryCall) :
    Decidable (Makes s i envelope choices store repositoryCall) :=
  inferInstanceAs (Decidable (∃ op ∈ Program.called _ _ _ _, _))

/-- The envelope without the time at which it was made. -/
def untimed {T : Type} (envelope : Envelope T) : Envelope T :=
  { envelope with occurredAt := "" }

/-- A message without its generated id and its times. -/
def content (message : PendingMessage) : PendingMessage :=
  { message with
    id := ""
    nextAttemptAt := 0
    claimedUntil := none
    body := match message.body with
      | .processRequested envelope => .processRequested (untimed envelope)
      | .callbackConfirmed envelope => .callbackConfirmed (untimed envelope)
      | .statusUpdated envelope => .statusUpdated (untimed envelope)
      | .deliveryRequested envelope => .deliveryRequested (untimed envelope)
      | .confirmed envelope => .confirmed (untimed envelope) }

/-- The messages enqueued between two states. -/
def newMessages (before after : Store) : List PendingMessage :=
  messagesOf (after.history.drop before.history.length)

/-- The first attempt fails with an error and the redelivery makes up for it:
what it leaves is what the undisturbed attempt leaves. -/
structure Survives (paymentId : String) (store : Store)
    (failed redelivered undisturbed : Except String Unit × Store) : Prop where
  returned : ∃ error, failed.1 = .error error
  status : (redelivered.2.payments.row paymentId).map Payment.paymentStatus =
    (undisturbed.2.payments.row paymentId).map Payment.paymentStatus
  messages : ∀ message,
    message ∈ (newMessages store redelivered.2).map content ↔
      message ∈ (newMessages store undisturbed.2).map content

section Steps

variable {s : Service} {faults : Faults} {i : String} {request : Request}
  {choices : Nat → Choice} {store : Store} {α : Type}

/-- An update, but for its id and its times. -/
def statusContent (s : Service) (payment : Payment) (status : PaymentStatus)
    (delivery : DeliveryStatus) (correlationId causationId : String) :
    PendingMessage where
  id := ""
  exchange := s.config.eventExchange
  routingKey := "payment.status-updated"
  body := .statusUpdated (newEnvelopeWithMetadata "payment.status-updated"
    (statusMessageId payment.id status delivery) correlationId causationId ""
    "payment-service" (statusPayload payment status delivery))
  attempts := 0
  nextAttemptAt := 0
  claimToken := ""
  claimedUntil := none

theorem leads_statusMessages (faults : Faults) (i : String) (request : Request)
    (choices : Nat → Choice) (store : Store) (payment : Payment)
    (status : PaymentStatus) (delivery : DeliveryStatus)
    (correlationId causationId : String)
    (f : List PendingMessage → Program α) :
    ∃ message, content message =
        statusContent s payment status delivery correlationId causationId ∧
      Leads (faultyAct faults i request)
        (statusMessages s payment status delivery correlationId causationId >>= f)
        choices store [.timeNow, .newString, .timeNow] (f [message])
        (fun n => choices (n + 3)) store :=
  ⟨_, rfl, ⟨rfl, rfl⟩⟩

/-- A callback, but for its id and its times. -/
def callbackContent (s : Service)
    (envelope : Envelope PaymentProcessRequestedPayload) (payment : Payment)
    (result : GatewayResult) : PendingMessage where
  id := ""
  exchange := s.config.eventExchange
  routingKey := "payment.callback.confirmed"
  body := .callbackConfirmed (newEnvelopeWithMetadata "payment.callback.confirmed"
    (transitionMessageId "pcb" payment.paymentReference) envelope.correlationId
    envelope.messageId "" "payment-service"
    { eventId := transitionMessageId "pcb" payment.paymentReference
      paymentReference := result.reference
      amount := payment.amount
      currency := payment.currency
      occurredAt := formatRFC3339Nano result.completedAt })
  attempts := 0
  nextAttemptAt := 0
  claimToken := ""
  claimedUntil := none

/-- A call to the gateway, or a pause between two. -/
def ofGateway : Op → Prop
  | .process _ _ | .sleep _ => True
  | _ => False

section Retry

variable (attempts delay backoff : Int)

/-- The loop of `retry` around the gateway, from a given attempt on. -/
def retryGateway (payment : Payment) (attempt remaining : Nat) :
    Program (Except ProcessError (Option GatewayResult)) :=
  retryFrom attempts delay backoff (fun attempt => call (.process payment attempt))
    attempt remaining

/-- What the loop does after an answer. -/
def afterAttempt (payment : Payment) (attempt remaining : Nat) :
    Except ProcessError GatewayResult →
      Program (Except ProcessError (Option GatewayResult))
  | .ok value => pure (.ok (some value))
  | .error (.gateway message true) =>
      if attempt = attempts then pure (.error (.gateway message true))
      else do
        call (.sleep (backoffDelay attempt delay backoff))
        retryGateway attempts delay backoff payment (attempt + 1) remaining
  | .error error => pure (.error error)

theorem leads_attempt {act' : Store → (op : Op) → Choice → Reply op × Store}
    {payment : Payment} (attempt remaining : Nat)
    {answer : Except ProcessError GatewayResult}
    (hact : act' store (.process payment attempt) (choices 0) = (answer, store))
    (f : Except ProcessError (Option GatewayResult) → Program α) :
    Leads act' (retryGateway attempts delay backoff payment attempt (remaining + 1) >>= f)
      choices store [.process payment attempt]
      (afterAttempt attempts delay backoff payment attempt remaining answer >>= f)
      (fun n => choices (n + 1)) store := by
  have hloop : retryGateway attempts delay backoff payment attempt (remaining + 1) >>= f =
      .call (.process payment attempt) fun answer =>
        afterAttempt attempts delay backoff payment attempt remaining answer >>= f := by
    refine congrArg (Program.call _) (funext fun answer => ?_)
    match answer with
    | .ok _ => rfl
    | .error (.other _) => rfl
    | .error (.gateway _ false) => rfl
    | .error (.gateway _ true) => rfl
  rw [hloop]
  exact leads_call hact

theorem afterAttempt_cases (attempt remaining : Nat)
    (answer : Except ProcessError GatewayResult) :
    (∃ value, ∀ payment,
        afterAttempt attempts delay backoff payment attempt remaining answer =
          pure value) ∨
      ∀ payment, afterAttempt attempts delay backoff payment attempt remaining answer =
        (do
          call (.sleep (backoffDelay attempt delay backoff))
          retryGateway attempts delay backoff payment (attempt + 1) remaining) := by
  match answer with
  | .ok result => exact .inl ⟨.ok (some result), fun _ => rfl⟩
  | .error (.other message) => exact .inl ⟨.error (.other message), fun _ => rfl⟩
  | .error (.gateway message false) =>
      exact .inl ⟨.error (.gateway message false), fun _ => rfl⟩
  | .error (.gateway message true) =>
      by_cases hlast : (attempt : Int) = attempts
      · exact .inl ⟨.error (.gateway message true), fun _ => if_pos hlast⟩
      · exact .inr fun _ => if_neg hlast

theorem leads_retryGateway (attempt remaining : Nat)
    (answers : Nat → Except ProcessError GatewayResult) :
    ∃ value k, ∀ (payment : Payment) (faults : Faults) (i : String)
      (request : Request) (choices : Nat → Choice),
      (∀ n, (choices n).processed = answers n) →
      ∀ (store : Store) (f : Except ProcessError (Option GatewayResult) → Program α),
      ∃ ops, (∀ op ∈ ops, ofGateway op) ∧
        Leads (faultyAct faults i request)
          (retryGateway attempts delay backoff payment attempt remaining >>= f)
          choices store ops (f value) (fun n => choices (n + k)) store := by
  induction remaining generalizing attempt answers with
  | zero =>
      exact ⟨.ok none, 0, fun _ _ _ _ _ _ _ _ => ⟨[], by simp, .refl _ _ _ _⟩⟩
  | succ remaining ih =>
      have hattempt (payment : Payment) (faults : Faults) (i : String)
          (request : Request) {choices : Nat → Choice}
          (hanswers : ∀ n, (choices n).processed = answers n) (store : Store)
          (f : Except ProcessError (Option GatewayResult) → Program α) :=
        have hact : faultyAct faults i request store (.process payment attempt)
            (choices 0) = (answers 0, store) := Prod.ext (hanswers 0) rfl
        leads_attempt attempts delay backoff attempt remaining hact f
      rcases afterAttempt_cases attempts delay backoff attempt remaining (answers 0) with
        ⟨value, hends⟩ | hagain
      · refine ⟨value, 1, fun payment faults i request choices hanswers store f =>
          ⟨[.process payment attempt], by simp [ofGateway], ?_⟩⟩
        have hleads := hattempt payment faults i request hanswers store f
        rw [hends] at hleads
        exact hleads
      · obtain ⟨value, k, hrest⟩ := ih (attempt + 1) fun n => answers (n + 2)
        refine ⟨value, k + 2, fun payment faults i request choices hanswers store f => ?_⟩
        obtain ⟨ops, hops, hleads⟩ := hrest payment faults i request
          (fun n => choices (n + 2)) (fun n => hanswers (n + 2)) store f
        have hpause := hattempt payment faults i request hanswers store f
        rw [hagain] at hpause
        refine ⟨_, ?_, hpause.trans ((leads_call rfl).trans hleads)⟩
        simpa [ofGateway] using hops

end Retry

end Steps

section Progress

variable {before mid after : Store} {paymentId : String} {status : PaymentStatus}
  {messages : List PendingMessage}

/-- How far the processing of a payment has come: its status and the messages
enqueued meanwhile. -/
structure Progress (paymentId : String) (before after : Store)
    (status : PaymentStatus) (messages : List PendingMessage) : Prop where
  row : (after.payments.row paymentId).map Payment.paymentStatus = some status
  grown : before.history.length ≤ after.history.length
  messages : (newMessages before after).map content = messages

theorem progress_refl {payment : Payment}
    (hrow : before.payments.row paymentId = some payment) :
    Progress paymentId before before payment.paymentStatus [] where
  row := by rw [hrow, Option.map_some]
  grown := Nat.le_refl _
  messages := by simp [newMessages, messagesOf]

theorem Progress.write (h : Progress paymentId before mid status messages)
    (i : String) (request : Request) {payment : Payment} {update : Update}
    (hrow : mid.payments.row paymentId = some payment)
    (hfilter : update.filter payment = true) :
    Progress paymentId before
      (mid.record i request (findOneAndUpdate mid.payments paymentId update))
      (update.apply payment).paymentStatus
      (messages ++ update.push.map content) := by
  obtain rfl := mid.payments.key_row paymentId payment hrow
  rw [findOneAndUpdate_of_filter hrow hfilter]
  constructor
  · rw [row_updated hrow, if_pos rfl, Option.map_some]
  · simp only [Store.record, List.length_append]
    exact Nat.le_add_right_of_le h.grown
  · have hdrop := h.grown
    simp only [newMessages, Store.record, List.drop_append_of_le_length hdrop,
      Option.map_some, Option.toList_some, messagesOf_concat, List.map_append,
      List.map_map]
    rw [← h.messages]
    rfl

theorem Progress.payment (h : Progress paymentId before mid status messages) :
    ∃ payment, mid.payments.row paymentId = some payment ∧
      payment.paymentStatus = status := Option.map_eq_some_iff.mp h.row

end Progress

section Stages

variable {s : Service} {i : String} {request : Request} {store : Store}
  {payment : Payment} {choices : Nat → Choice}
  {envelope : Envelope PaymentProcessRequestedPayload}

/-- A payment that `ReserveForProcessing` takes. -/
structure Due (store : Store) (payment : Payment) (now : Int) : Prop where
  row : store.payments.row payment.id = some payment
  pending : payment.paymentStatus = .pending
  unexpired : date now < payment.expiresAt

theorem Due.filter {now : Int} (h : Due store payment now) :
    (reserveUpdate now).filter payment = true :=
  decide_eq_true ⟨h.pending, h.unexpired⟩

theorem leads_reserved (s : Service) (i : String) (request : Request)
    {faults : Faults} (hid : envelope.payload.paymentId = payment.id)
    (hdue : Due store payment (choices 0).now)
    (hfault : faults (.reserveForProcessing payment.id (choices 0).now) = none) :
    ∃ t, Progress payment.id store t .processing [] ∧
      Leads (faultyAct faults i request) (handleProcessRequested s envelope)
        choices store
        [.timeNow, .reserveForProcessing payment.id (choices 0).now]
        (processReserved s envelope ((reserveUpdate (choices 0).now).apply payment))
        (fun n => choices (n + 2)) t := by
  have hreserve : faultyAct faults i request store
      (.reserveForProcessing payment.id (choices 0).now)
      ((fun n => choices (n + 1)) 0) =
        (.ok (some ((reserveUpdate (choices 0).now).apply payment)),
          store.record i request (findOneAndUpdate store.payments payment.id
            (reserveUpdate (choices 0).now))) := by
    simp only [faultyAct, act, writeCall, hfault]
    rw [findOneAndUpdate_of_filter hdue.row hdue.filter]
    rfl
  refine ⟨store.record i request (findOneAndUpdate store.payments payment.id
    (reserveUpdate (choices 0).now)),
    (progress_refl hdue.row).write i request hdue.row hdue.filter, ?_⟩
  rw [handleProcessRequested_eq, hid]
  have hclock : faultyAct faults i request store .timeNow (choices 0) =
      ((choices 0).now, store) := rfl
  exact (leads_perform_bind hclock rfl).trans (leads_perform_bind hreserve rfl)

theorem leads_failed (i : String) (request : Request) (choices : Nat → Choice)
    (store : Store) {faults : Faults} {error : String} {paymentId : String}
    {messages : List PendingMessage}
    {f : Except String Unit → Program (Except String Unit)}
    (hfault : faults (.enqueueMessages paymentId messages) = some error) :
    Leads (faultyAct faults i request)
      (call (.enqueueMessages paymentId messages) >>= f) choices store
      [.enqueueMessages paymentId messages] (f (.error error))
      (fun n => choices (n + 1)) store := by
  have hcall : faultyAct faults i request store
      (.enqueueMessages paymentId messages) (choices 0) = (.error error, store) := by
    simp only [faultyAct, act, writeCall, hfault]
  exact leads_perform_bind hcall rfl

theorem leads_enqueue (i : String) (request : Request) (choices : Nat → Choice)
    {faults : Faults} {before : Store} {paymentId : String}
    {status : PaymentStatus} {messages : List PendingMessage}
    (h : Progress paymentId before store status messages) (message : PendingMessage)
    (hfault : faults (.enqueueMessages paymentId [message]) = none)
    (f : Except String Unit → Program (Except String Unit)) :
    ∃ t, Progress paymentId before t status (messages ++ [content message]) ∧
      Leads (faultyAct faults i request)
        (call (.enqueueMessages paymentId [message]) >>= f) choices store
        [.enqueueMessages paymentId [message]] (f (.ok ()))
        (fun n => choices (n + 1)) t := by
  obtain ⟨payment, hrow, rfl⟩ := h.payment
  have hfilter : (enqueueUpdate [message] (choices 0).now).filter payment = true := rfl
  have hcall : faultyAct faults i request store
      (.enqueueMessages paymentId [message]) (choices 0) = (.ok (), store.record i
        request (findOneAndUpdate store.payments paymentId
          (enqueueUpdate [message] (choices 0).now))) := by
    simp only [faultyAct, act, writeCall, hfault, List.cons_ne_nil, if_false]
  exact ⟨_, h.write i request hrow hfilter, leads_perform_bind hcall rfl⟩

/-- The announcement of `PROCESSING`. -/
def processingContent (s : Service)
    (envelope : Envelope PaymentProcessRequestedPayload) (payment : Payment) :
    PendingMessage :=
  statusContent s payment .processing payment.deliveryStatus envelope.correlationId
    envelope.messageId

/-- Neither of the calls that conclude an attempt. -/
def early (op : Op) : Prop :=
  RepositoryCall.markFailed.names op = false ∧
    RepositoryCall.finalEnqueue.names op = false

theorem early_of_gateway {op : Op} (h : ofGateway op) : early op := by
  cases op with
  | process | sleep => exact ⟨rfl, rfl⟩
  | _ => cases h

theorem early_enqueue {paymentId : String} {message : PendingMessage}
    (h : (content message).routingKey = "payment.status-updated") :
    early (.enqueueMessages paymentId [message]) := by
  have hkey : message.routingKey = "payment.status-updated" := h
  exact ⟨rfl, by simp [RepositoryCall.names, hasKey, hkey]⟩

/-- The reserved attempt once its announcement is drawn up. -/
def announce (s : Service) (envelope : Envelope PaymentProcessRequestedPayload)
    (payment : Payment) : Except String Unit → Program (Except String Unit)
  | .error error => pure (.error error)
  | .ok () =>
      retry s.config.processingAttempts s.config.processingDelay
        s.config.processingBackoff (fun attempt => call (.process payment attempt))
          >>= concludeProcessing s envelope payment

theorem processReserved_eq (s : Service)
    (envelope : Envelope PaymentProcessRequestedPayload) (payment : Payment) :
    processReserved s envelope payment = (do
      let messages ← statusMessages s payment .processing payment.deliveryStatus
        envelope.correlationId envelope.messageId
      call (.enqueueMessages payment.id messages) >>= announce s envelope payment) := by
  refine bind_congr fun messages => bind_congr fun reply => ?_
  cases reply with
  | error | ok => rfl

theorem leads_processing (s : Service) (faults : Faults) (i : String)
    (request : Request) (envelope : Envelope PaymentProcessRequestedPayload)
    (payment : Payment) (choices : Nat → Choice) (store : Store) :
    ∃ message, content message = processingContent s envelope payment ∧
      Leads (faultyAct faults i request) (processReserved s envelope payment) choices
        store [.timeNow, .newString, .timeNow]
        (call (.enqueueMessages payment.id [message]) >>= announce s envelope payment)
        (fun n => choices (n + 3)) store := by
  rw [processReserved_eq]
  exact leads_statusMessages faults i request choices store payment .processing
    payment.deliveryStatus envelope.correlationId envelope.messageId fun messages =>
      call (.enqueueMessages payment.id messages) >>= announce s envelope payment

theorem leads_announced (s : Service) (i : String) (request : Request)
    (envelope : Envelope PaymentProcessRequestedPayload) (payment : Payment)
    (choices : Nat → Choice) {faults : Faults} {before : Store}
    (h : Progress payment.id before store .processing [])
    (hfault : ∀ message, content message = processingContent s envelope payment →
      faults (.enqueueMessages payment.id [message]) = none) :
    ∃ t ops, Progress payment.id before t .processing
        [processingContent s envelope payment] ∧
      (∀ op ∈ ops, early op) ∧
      Leads (faultyAct faults i request) (processReserved s envelope payment) choices
        store ops (announce s envelope payment (.ok ()))
        (fun n => choices (n + 4)) t := by
  obtain ⟨message, hmessage, hstatus⟩ := leads_processing s faults i request envelope
    payment choices store
  obtain ⟨t, hprogress, henqueue⟩ := leads_enqueue i request _ h message
    (hfault message hmessage) (announce s envelope payment)
  rw [hmessage] at hprogress
  refine ⟨t, _, hprogress, ?_, hstatus.trans henqueue⟩
  have hearly : early (.enqueueMessages payment.id [message]) :=
    early_enqueue (congrArg PendingMessage.routingKey hmessage)
  have hclock : early .timeNow := ⟨rfl, rfl⟩
  have hid : early .newString := ⟨rfl, rfl⟩
  simpa using ⟨hclock, hid, hclock, hearly⟩

/-- With these answers of the gateway, an attempt comes to conclude with `value`. -/
def Concluding (s : Service) (envelope : Envelope PaymentProcessRequestedPayload)
    (payment : Payment) (answers : Nat → Except ProcessError GatewayResult)
    (value : Except ProcessError (Option GatewayResult)) : Prop :=
  ∀ {faults : Faults} {choices : Nat → Choice} {store : Store} (i : String)
    (request : Request), (∀ n, (choices n).processed = answers n) →
    Due store payment (choices 0).now → (∀ op, early op → faults op = none) →
    ∃ now t ops k,
      Progress payment.id store t .processing
        [processingContent s envelope payment] ∧
      (∀ op ∈ ops, early op) ∧
      Leads (faultyAct faults i request) (handleProcessRequested s envelope)
        choices store ops
        (concludeProcessing s envelope ((reserveUpdate now).apply payment) value)
        (fun n => choices (n + k)) t

theorem exists_concluding (s : Service)
    (envelope : Envelope PaymentProcessRequestedPayload) (payment : Payment)
    (hid : envelope.payload.paymentId = payment.id)
    (answers : Nat → Except ProcessError GatewayResult) :
    ∃ value, Concluding s envelope payment answers value := by
  obtain ⟨value, k, hgateway⟩ := leads_retryGateway s.config.processingAttempts
    s.config.processingDelay s.config.processingBackoff 1
    s.config.processingAttempts.toNat fun n => answers (n + 6)
  refine ⟨value, fun {faults choices store} i request hanswers hdue hfaults => ?_⟩
  obtain ⟨t, hreserved, hreserve⟩ := leads_reserved s i request hid hdue (hfaults _ ⟨rfl, rfl⟩)
  obtain ⟨u, ops, hannounced, hops, hannounce⟩ :=
    leads_announced s i request envelope ((reserveUpdate (choices 0).now).apply payment)
      (fun n => choices (n + 2)) hreserved fun message hmessage =>
        hfaults _ (early_enqueue (congrArg PendingMessage.routingKey hmessage))
  obtain ⟨calls, hcalls, hretry⟩ := hgateway
    ((reserveUpdate (choices 0).now).apply payment) faults i request
    (fun n => choices (n + 6)) (fun n => hanswers (n + 6)) u
    (concludeProcessing s envelope ((reserveUpdate (choices 0).now).apply payment))
  refine ⟨(choices 0).now, u, _, k + 6, hannounced, ?_,
    hreserve.trans (hannounce.trans hretry)⟩
  intro op hop
  simp only [List.mem_append] at hop
  rcases hop with hop | hop | hop
  · simp only [List.mem_cons, List.not_mem_nil, or_false] at hop
    rcases hop with rfl | rfl
    · exact ⟨rfl, rfl⟩
    · exact ⟨rfl, rfl⟩
  · exact hops op hop
  · exact early_of_gateway (hcalls op hop)

end Stages

section Conclusions

variable {s : Service} {i : String} {request : Request} {before store : Store}
  {payment : Payment} {choices : Nat → Choice} {messages : List PendingMessage}
  {envelope : Envelope PaymentProcessRequestedPayload}

/-- The status that the gateway's answer leads to. -/
def concludedStatus : Except ProcessError (Option GatewayResult) → PaymentStatus
  | .error _ => .failed
  | .ok _ => .processing

/-- The messages that the gateway's answer leads to. -/
def conclusion (s : Service) (envelope : Envelope PaymentProcessRequestedPayload)
    (payment : Payment) :
    Except ProcessError (Option GatewayResult) → List PendingMessage
  | .error _ => [statusContent s payment .failed payment.deliveryStatus
      envelope.correlationId envelope.messageId]
  | .ok result =>
      if s.config.simulateWebhookConfirmation then
        [callbackContent s envelope payment (result.getD zeroResult)]
      else []

/-- A handler returns once its last transition is made. -/
def returned : Except String (Option Payment × Bool) → Program (Except String Unit)
  | .error error => pure (.error error)
  | .ok _ => pure (.ok ())

theorem concludeProcessing_error (error : ProcessError) :
    concludeProcessing s envelope payment (.error error) = (do
      let messages ← statusMessages s payment .failed payment.deliveryStatus
        envelope.correlationId envelope.messageId
      call (.markFailed payment.id error.message messages) >>= returned) := by
  refine bind_congr fun messages => bind_congr fun reply => ?_
  cases reply with
  | error | ok => rfl

theorem leads_failed_announced (s : Service) (faults : Faults) (i : String)
    (request : Request) (envelope : Envelope PaymentProcessRequestedPayload)
    (payment : Payment) (now : Int) (choices : Nat → Choice) (store : Store)
    (error : ProcessError) :
    ∃ message, content message = statusContent s payment .failed
        payment.deliveryStatus envelope.correlationId envelope.messageId ∧
      Leads (faultyAct faults i request)
        (concludeProcessing s envelope ((reserveUpdate now).apply payment)
          (.error error)) choices store [.timeNow, .newString, .timeNow]
        (call (.markFailed payment.id error.message [message]) >>= returned)
        (fun n => choices (n + 3)) store := by
  rw [concludeProcessing_error]
  exact leads_statusMessages faults i request choices store
    ((reserveUpdate now).apply payment) .failed payment.deliveryStatus
    envelope.correlationId envelope.messageId
    fun messages => call (.markFailed payment.id error.message messages) >>= returned

theorem leads_simulated (faults : Faults) (i : String) (request : Request)
    (envelope : Envelope PaymentProcessRequestedPayload) (payment : Payment) (now : Int)
    (choices : Nat → Choice) (store : Store) (result : Option GatewayResult)
    (hsimulate : s.config.simulateWebhookConfirmation = true) :
    ∃ message, content message =
        callbackContent s envelope payment (result.getD zeroResult) ∧
      Leads (faultyAct faults i request)
        (concludeProcessing s envelope ((reserveUpdate now).apply payment)
          (.ok result)) choices store [.newString, .timeNow]
        (call (.enqueueMessages payment.id [message]))
        (fun n => choices (n + 2)) store := by
  simp only [concludeProcessing, hsimulate, if_true]
  exact ⟨_, rfl, ⟨rfl, rfl⟩⟩

theorem leads_markFailed (i : String) (request : Request) (choices : Nat → Choice)
    {faults : Faults}
    (h : Progress payment.id before store .processing messages) (reason : String)
    (message : PendingMessage)
    (hfault : faults (.markFailed payment.id reason [message]) = none) :
    ∃ t, Progress payment.id before t .failed (messages ++ [content message]) ∧
      (call (.markFailed payment.id reason [message]) >>= returned).run
        (faultyAct faults i request) choices store = (.ok (), t) := by
  obtain ⟨stored, hrow, hstatus⟩ := h.payment
  have hfilter : (failedUpdate reason [message] (choices 0).now).filter stored =
      true := decide_eq_true hstatus
  have hcall : faultyAct faults i request store
      (.markFailed payment.id reason [message]) (choices 0) =
        (.ok (transitionAnswer store.payments payment.id
          (findOneAndUpdate store.payments payment.id
            (failedUpdate reason [message] (choices 0).now)).1),
          store.record i request (findOneAndUpdate store.payments payment.id
            (failedUpdate reason [message] (choices 0).now))) := by
    simp only [faultyAct, act, transition, writeCall, hfault]
  have hleads := leads_perform_bind (f := returned) hcall rfl
  exact ⟨_, h.write i request hrow hfilter, hleads.run⟩

theorem run_concluding {faults : Faults} (hfaults : ∀ op, faults op = none)
    (now : Int) (h : Progress payment.id before store .processing messages)
    (value : Except ProcessError (Option GatewayResult)) :
    ∃ t, (concludeProcessing s envelope ((reserveUpdate now).apply payment)
        value).run (faultyAct faults i request) choices store = (.ok (), t) ∧
      Progress payment.id before t (concludedStatus value)
        (messages ++ conclusion s envelope payment value) := by
  match value with
  | .error error =>
      obtain ⟨message, hmessage, hleads⟩ := leads_failed_announced s faults i
        request envelope payment now choices store error
      obtain ⟨t, hprogress, hrun⟩ := leads_markFailed i request
        (fun n => choices (n + 3)) h error.message message (hfaults _)
      rw [hmessage] at hprogress
      exact ⟨t, hleads.run.trans hrun, hprogress⟩
  | .ok result =>
      by_cases hsimulate : s.config.simulateWebhookConfirmation = true
      · obtain ⟨message, hmessage, hleads⟩ := leads_simulated faults i request
          envelope payment now choices store result hsimulate
        obtain ⟨t, hprogress, henqueue⟩ := leads_enqueue i request
          (fun n => choices (n + 2)) h message (hfaults _) pure
        rw [hmessage] at hprogress
        simp only [conclusion, hsimulate, if_true]
        exact ⟨t, hleads.run.trans henqueue.run, hprogress⟩
      · rw [Bool.not_eq_true] at hsimulate
        simp only [conclusion, concludeProcessing, hsimulate, Bool.false_eq_true,
          if_false, List.append_nil]
        exact ⟨store, rfl, h⟩

theorem calls_concluding_error (error : ProcessError) :
    (concludeProcessing s envelope payment (.error error)).Calls
      fun op => RepositoryCall.finalEnqueue.names op = false := by
  have hstatus : (statusMessages s payment .failed payment.deliveryStatus
      envelope.correlationId envelope.messageId).Calls fun op =>
        RepositoryCall.finalEnqueue.names op = false :=
    calls_statusMessages (by rfl) (by rfl) _ _ _ _ _
  refine hstatus.bind fun _ => calls_last rfl fun reply => ?_
  cases reply with
  | error | ok => exact ⟨_, rfl⟩

theorem calls_concluding_ok (result : Option GatewayResult) :
    (concludeProcessing s envelope payment (.ok result)).Calls fun op =>
      RepositoryCall.markFailed.names op = false ∧
        s.config.simulateWebhookConfirmation = true := by
  change Program.Calls _ (if _ then _ else _)
  split
  · rename_i hsimulate
    exact (calls_pendingMessage ⟨rfl, hsimulate⟩ ⟨rfl, hsimulate⟩ _ _).bind
      fun _ => ⟨⟨rfl, hsimulate⟩, fun _ => trivial⟩
  · exact trivial

/-- The conclusion where one of its calls fails: it has no effect, and without
the failure it has one. -/
theorem run_concluding_failing {repositoryCall : RepositoryCall}
    (hlate : repositoryCall = .markFailed ∨ repositoryCall = .finalEnqueue)
    (error : String) (now : Int) (value : Except ProcessError (Option GatewayResult))
    {reserved : Payment} {faults : Faults} {other : Nat → Choice} {undisturbed : Store}
    (hmade : ∃ op ∈ (concludeProcessing s envelope reserved value).called
        (faultyAct faults i request) other undisturbed,
      repositoryCall.names op = true) :
    (concludeProcessing s envelope ((reserveUpdate now).apply payment) value).run
        (faultyAct (failing repositoryCall error) i request) choices store =
      (.error error, store) ∧
    (concludedStatus value = .processing →
      ∃ message ∈ conclusion s envelope payment value,
        message.routingKey ≠ "payment.status-updated") := by
  obtain ⟨op, hop, hnames⟩ := hmade
  match value with
  | .error failure =>
      have hother := calls_concluding_error failure |>.called _ _ _ op hop
      rcases hlate with rfl | rfl
      · obtain ⟨message, hmessage, hleads⟩ := leads_failed_announced s
          (failing .markFailed error) i request envelope payment now choices store
          failure
        refine ⟨hleads.run, fun hstatus => ?_⟩
        cases hstatus
      · rw [hother] at hnames
        cases hnames
  | .ok result =>
      obtain ⟨hother, hsimulate⟩ := calls_concluding_ok result |>.called _ _ _ op hop
      rcases hlate with rfl | rfl
      · rw [hother] at hnames
        cases hnames
      · obtain ⟨message, hmessage, hleads⟩ := leads_simulated
          (failing .finalEnqueue error) i request envelope payment now choices store
          result hsimulate
        have hkey : message.routingKey = "payment.callback.confirmed" :=
          congrArg PendingMessage.routingKey hmessage
        have hfault : failing .finalEnqueue error
            (.enqueueMessages payment.id [message]) = some error := by
          simp [failing, RepositoryCall.names, hasKey, hkey]
        have hfailed := leads_failed (f := pure) i request
          (fun n => choices (n + 2)) store hfault
        refine ⟨hleads.run.trans hfailed.run, fun _ => ?_⟩
        simp only [conclusion, hsimulate, if_true]
        exact ⟨_, List.mem_singleton_self _, by simp [callbackContent]⟩

end Conclusions

section Attempts

variable {s : Service} {store : Store} {payment : Payment} {choices : Nat → Choice}
  {envelope : Envelope PaymentProcessRequestedPayload}

theorem attempt_kept (s : Service) (i : String) (choices : Nat → Choice)
    (hrow : store.payments.row envelope.payload.paymentId = some payment)
    (hstatus : payment.paymentStatus ≠ .pending) :
    attempt s i envelope noFault choices store = (.ok (), store) := by
  have hfilter : (reserveUpdate (choices 0).now).filter payment = false :=
    decide_eq_false fun h => hstatus h.1
  have hreserve : faultyAct noFault i (.processRequested envelope) store
      (.reserveForProcessing envelope.payload.paymentId (choices 0).now)
      ((fun n => choices (n + 1)) 0) = (.ok none, store) := by
    simp only [faultyAct, act, writeCall, noFault]
    rw [findOneAndUpdate_of_not_filter hrow hfilter, record_none]
    rfl
  have hfind : faultyAct noFault i (.processRequested envelope) store
      (.findById envelope.payload.paymentId) ((fun n => choices (n + 2)) 0) =
        (.ok (some payment), store) := by
    simp only [faultyAct, act, readCall, noFault, Repository.findById, hrow]
  have hclock : faultyAct noFault i (.processRequested envelope) store .timeNow
      (choices 0) = ((choices 0).now, store) := rfl
  have hskip : ¬ (payment.paymentStatus = .pending ∧
      payment.expiresAt < (choices 0).now) := fun h => hstatus h.1
  have hmissed : (processMissed s envelope (choices 0).now).run
      (faultyAct noFault i (.processRequested envelope)) (fun n => choices (n + 2))
      store = (.ok (), store) := by
    rw [processMissed]
    refine (leads_perform_bind hfind rfl).run.trans ?_
    simp only [hskip, if_false]
    rfl
  rw [attempt, handleProcessRequested_eq]
  refine (leads_perform_bind hclock rfl).run.trans ?_
  refine (leads_perform_bind hreserve rfl).run.trans ?_
  exact hmissed

theorem attempt_refused (s : Service) (i error : String) (choices : Nat → Choice)
    (store : Store) :
    attempt s i envelope (failing .reserveForProcessing error) choices store =
      (.error error, store) := rfl

theorem attempt_unannounced (s : Service) (i error : String)
    (hid : envelope.payload.paymentId = payment.id)
    (hdue : Due store payment (choices 0).now) :
    ∃ t, attempt s i envelope (failing .firstEnqueue error) choices store =
        (.error error, t) ∧
      Progress payment.id store t .processing [] := by
  have hfirst : failing .firstEnqueue error
      (.reserveForProcessing payment.id (choices 0).now) = none := rfl
  obtain ⟨t, hreserved, hreserve⟩ := leads_reserved s i (.processRequested envelope)
    hid hdue hfirst
  obtain ⟨message, hmessage, hleads⟩ := leads_processing s
    (failing .firstEnqueue error) i (.processRequested envelope) envelope
    ((reserveUpdate (choices 0).now).apply payment) (fun n => choices (n + 2)) t
  have hkey : message.routingKey = "payment.status-updated" :=
    congrArg PendingMessage.routingKey hmessage
  have hfault : failing .firstEnqueue error
      (.enqueueMessages payment.id [message]) = some error := by
    simp [failing, RepositoryCall.names, hasKey, hkey]
  refine ⟨t, ?_, hreserved⟩
  exact hreserve.run.trans (hleads.run.trans
    (leads_failed i _ (fun n => choices (n + 5)) t hfault).run)

variable {answers : Nat → Except ProcessError GatewayResult}
  {value : Except ProcessError (Option GatewayResult)}

theorem attempt_undisturbed (h : Concluding s envelope payment answers value)
    (i : String) (hanswers : ∀ n, (choices n).processed = answers n)
    (hdue : Due store payment (choices 0).now) :
    ∃ t, attempt s i envelope noFault choices store = (.ok (), t) ∧
      Progress payment.id store t (concludedStatus value)
        (processingContent s envelope payment ::
          conclusion s envelope payment value) := by
  obtain ⟨now, t, ops, k, hprogress, _, hleads⟩ :=
    h i (.processRequested envelope) hanswers hdue fun _ _ => rfl
  obtain ⟨u, hrun, hconcluded⟩ := run_concluding (fun _ => rfl) now hprogress value
  exact ⟨u, hleads.run.trans hrun, hconcluded⟩

theorem attempt_failing (h : Concluding s envelope payment answers value)
    (i error : String) (hanswers : ∀ n, (choices n).processed = answers n)
    (hdue : Due store payment (choices 0).now) {repositoryCall : RepositoryCall}
    (hlate : repositoryCall = .markFailed ∨ repositoryCall = .finalEnqueue)
    (hmade : Makes s i envelope choices store repositoryCall) :
    ∃ t, attempt s i envelope (failing repositoryCall error) choices store =
        (.error error, t) ∧
      Progress payment.id store t .processing
        [processingContent s envelope payment] ∧
      (concludedStatus value = .processing →
        ∃ message ∈ conclusion s envelope payment value,
          message.routingKey ≠ "payment.status-updated") := by
  have hearly (op : Op) (hop : early op) : repositoryCall.names op = false := by
    rcases hlate with rfl | rfl
    · exact hop.1
    · exact hop.2
  have hfaults (op : Op) (hop : early op) : failing repositoryCall error op = none := by
    simp [failing, hearly op hop]
  obtain ⟨op, hop, hnames⟩ := hmade
  have hsilent (op : Op) (_ : early op) : noFault op = none := rfl
  obtain ⟨_, u, ops, _, _, hops, hmakes⟩ :=
    h i (.processRequested envelope) hanswers hdue hsilent
  rw [hmakes.called, List.mem_append] at hop
  rcases hop with hop | hop
  · rw [hearly op (hops op hop)] at hnames
    cases hnames
  · obtain ⟨now, t, _, k, hprogress, _, hleads⟩ :=
      h i (.processRequested envelope) hanswers hdue hfaults
    obtain ⟨hrun, hmissing⟩ := run_concluding_failing hlate error now value
      ⟨op, hop, hnames⟩
    exact ⟨t, hleads.run.trans hrun, hprogress, hmissing⟩

theorem attempt_half_done (h : Concluding s envelope payment answers value)
    (i error : String) (hid : envelope.payload.paymentId = payment.id)
    (hanswers : ∀ n, (choices n).processed = answers n)
    (hdue : Due store payment (choices 0).now) {repositoryCall : RepositoryCall}
    (hcall : repositoryCall ≠ .reserveForProcessing)
    (hmade : Makes s i envelope choices store repositoryCall) :
    ∃ t messages, attempt s i envelope (failing repositoryCall error) choices store =
        (.error error, t) ∧
      Progress payment.id store t .processing messages ∧
      (concludedStatus value = .processing →
        ∃ message ∈ processingContent s envelope payment ::
          conclusion s envelope payment value, message ∉ messages) := by
  by_cases hfirst : repositoryCall = .firstEnqueue
  · subst hfirst
    obtain ⟨t, hfailed, hhalf⟩ := attempt_unannounced s i error hid hdue
    exact ⟨t, [], hfailed, hhalf, fun _ =>
      ⟨_, List.mem_cons_self, List.not_mem_nil⟩⟩
  · have hlate : repositoryCall = .markFailed ∨ repositoryCall = .finalEnqueue := by
      cases repositoryCall with
      | reserveForProcessing => exact absurd rfl hcall
      | firstEnqueue => exact absurd rfl hfirst
      | markFailed => exact .inl rfl
      | finalEnqueue => exact .inr rfl
    obtain ⟨t, hfailed, hhalf, hmissing⟩ :=
      attempt_failing h i error hanswers hdue hlate hmade
    refine ⟨t, _, hfailed, hhalf, fun hstatus => ?_⟩
    obtain ⟨message, hmessage, hkey⟩ := hmissing hstatus
    refine ⟨message, List.mem_cons_of_mem _ hmessage, fun hsame => hkey ?_⟩
    rw [List.mem_singleton.mp hsame]
    rfl

theorem not_survives {failed : Except String Unit × Store} {t u : Store}
    {status : PaymentStatus} {messages full : List PendingMessage}
    {returned : Except String Unit} (s : Service) (j : String) (later : Nat → Choice)
    (hid : envelope.payload.paymentId = payment.id)
    (hhalf : Progress payment.id store u .processing messages)
    (hended : Progress payment.id store t status full)
    (hmissing : status = .processing → ∃ message ∈ full, message ∉ messages) :
    ¬ Survives payment.id store failed (attempt s j envelope noFault later u)
      (returned, t) := by
  intro hsurvives
  obtain ⟨stored, hrow, hstatus⟩ := hhalf.payment
  have hkept : attempt s j envelope noFault later u = (.ok (), u) :=
    attempt_kept s j later (hid ▸ hrow) (by simp [hstatus])
  rw [hkept] at hsurvives
  have hsame : some PaymentStatus.processing = some status := by
    rw [← hhalf.row, ← hended.row]
    exact hsurvives.status
  obtain ⟨message, hfull, hnot⟩ := hmissing (Option.some.inj hsame).symm
  rw [← hended.messages] at hfull
  rw [← hhalf.messages] at hnot
  exact hnot ((hsurvives.messages message).mpr hfull)

end Attempts

/-- The handler survives a failure of `ReserveForProcessing` and of no other of its
repository calls. -/
theorem process_survives_iff (s : Service) (i j : String)
    {envelope : Envelope PaymentProcessRequestedPayload} {store : Store}
    {payment : Payment} {choices later : Nat → Choice}
    {repositoryCall : RepositoryCall} (error : String)
    (hid : envelope.payload.paymentId = payment.id)
    (hdue : Due store payment (choices 0).now)
    (hlater : Due store payment (later 0).now)
    (hanswers : ∀ n, (later n).processed = (choices n).processed)
    (hmade : Makes s i envelope choices store repositoryCall) :
    Survives payment.id store
        (attempt s i envelope (failing repositoryCall error) choices store)
        (attempt s j envelope noFault later
          (attempt s i envelope (failing repositoryCall error) choices store).2)
        (attempt s i envelope noFault choices store) ↔
      repositoryCall = .reserveForProcessing := by
  obtain ⟨value, hconcluding⟩ := exists_concluding s envelope payment hid
    fun n => (choices n).processed
  obtain ⟨t, hundisturbed, hended⟩ :=
    attempt_undisturbed hconcluding i (fun _ => rfl) hdue
  rw [hundisturbed]
  constructor
  · intro hsurvives
    by_contra hcall
    obtain ⟨u, messages, hfailed, hhalf, hmissing⟩ :=
      attempt_half_done hconcluding i error hid (fun _ => rfl) hdue hcall hmade
    rw [hfailed] at hsurvives
    exact not_survives s j later hid hhalf hended hmissing hsurvives
  · rintro rfl
    obtain ⟨u, hredelivered, hrecovered⟩ :=
      attempt_undisturbed hconcluding j hanswers hlater
    rw [attempt_refused, hredelivered]
    constructor
    · exact ⟨error, rfl⟩
    · rw [hrecovered.row, hended.row]
    · intro message
      rw [hrecovered.messages, hended.messages]

section Sample

def samplePayment : Payment where
  id := "payment-1"
  idempotencyKey := "key-1"
  requestHash := "hash-1"
  userId := "user-1"
  customerName := "Ada"
  customerEmail := "ada@modularis.dev"
  customerCellphone := ""
  customerTaxId := ""
  paymentReference := "ref-1"
  amount := 100
  currency := "BRL"
  paymentStatus := .pending
  deliveryStatus := .pending
  processingAttempts := 0
  expiresAt := 30 * minute
  processingStartedAt := none
  confirmedAt := none
  paymentFailureReason := ""
  deliveryFailureReason := ""
  webhookEventIds := []
  pendingMessages := []
  createdAt := 0
  updatedAt := 0

def sampleStore : Store where
  payments := Table.empty.insertIfAbsent samplePayment
  history := []

def sampleMessage : Envelope PaymentProcessRequestedPayload :=
  newEnvelopeWithMetadata "payment.process.requested" "ppd-1" "c-1" "" ""
    "payment-service"
    { paymentId := "payment-1"
      paymentReference := "ref-1" }

theorem sample_due : Due sampleStore samplePayment minute where
  row := rfl
  pending := rfl
  unexpired := by decide

/-- The gateway refuses the payment; the attempt whose announcement failed leaves
it `PROCESSING` for good. -/
theorem processing_lost_after_failed_announcement :
    Due sampleStore samplePayment sampleChoice.now ∧
    Makes sampleService "i-1" sampleMessage (fun _ => sampleChoice) sampleStore
      .firstEnqueue ∧
    ¬ Survives samplePayment.id sampleStore
        (attempt sampleService "i-1" sampleMessage (failing .firstEnqueue "timeout")
          (fun _ => sampleChoice) sampleStore)
        (attempt sampleService "i-2" sampleMessage noFault (fun _ => sampleChoice)
          (attempt sampleService "i-1" sampleMessage
            (failing .firstEnqueue "timeout") (fun _ => sampleChoice) sampleStore).2)
        (attempt sampleService "i-1" sampleMessage noFault (fun _ => sampleChoice)
          sampleStore) := by
  refine ⟨sample_due, by decide, fun h => ?_⟩
  have hstatus : some PaymentStatus.processing = some .failed := h.status
  cases hstatus

theorem process_survives_iff_sample :
    Survives samplePayment.id sampleStore
      (attempt sampleService "i-1" sampleMessage
        (failing .reserveForProcessing "timeout") (fun _ => sampleChoice) sampleStore)
      (attempt sampleService "i-2" sampleMessage noFault (fun _ => sampleChoice)
        (attempt sampleService "i-1" sampleMessage
          (failing .reserveForProcessing "timeout") (fun _ => sampleChoice)
          sampleStore).2)
      (attempt sampleService "i-1" sampleMessage noFault (fun _ => sampleChoice)
        sampleStore) :=
  (process_survives_iff sampleService "i-1" "i-2" "timeout" rfl sample_due sample_due
    (fun _ => rfl) (by decide)).mpr rfl

end Sample

end Modularis.Payments.Redelivery
