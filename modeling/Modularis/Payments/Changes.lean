import Modularis.Payments.Aggregate

namespace Modularis.Payments.Changes

open Modularis.Foundation
open Modularis.Foundation.GoTime
open Modularis.Shared.Messaging
open Modularis.Payments.Models
open Modularis.Payments.Repository
open Modularis.Payments.Operations
open Modularis.Payments.Handlers
open Modularis.Payments.Effects
open Modularis.Payments.Aggregate

/-- The payment that a call updates, and how. -/
def updateOf (now : Int) : Op → Option (String × Update)
  | .reserveForProcessing paymentId time => some (paymentId, reserveUpdate time)
  | .enqueueMessages paymentId messages =>
      if messages = [] then none
      else some (paymentId, enqueueUpdate messages now)
  | .markFailed paymentId reason messages =>
      some (paymentId, failedUpdate reason messages now)
  | .markExpired paymentId messages =>
      some (paymentId, expiredUpdate messages now)
  | .markCompleted paymentId eventId confirmedAt messages =>
      some (paymentId, completedUpdate eventId confirmedAt messages now)
  | .markDelivery paymentId status reason messages =>
      some (paymentId, deliveryUpdate status reason messages now)
  | _ => none

/-- The messages that a call hands to the outbox of a payment. -/
def pushedBy : Op → List PendingMessage
  | .create payment => payment.pendingMessages
  | .enqueueMessages _ messages | .markFailed _ _ messages
  | .markExpired _ messages | .markCompleted _ _ _ messages
  | .markDelivery _ _ _ messages => messages
  | _ => []

section Updates

variable {now : Int} {op : Op} {paymentId : String} {update : Update}

theorem sameIdentity_of_update (h : updateOf now op = some (paymentId, update))
    (payment : Payment) : SameIdentity payment (update.apply payment) := by
  cases op with
  | enqueueMessages _ messages =>
      obtain ⟨_, h⟩ := Option.ite_none_left_eq_some.mp h
      obtain ⟨rfl, rfl⟩ := Prod.mk.inj (Option.some.inj h)
      exact ⟨rfl, rfl, rfl, rfl, rfl, rfl, rfl, rfl⟩
  | reserveForProcessing | markFailed | markExpired | markCompleted | markDelivery =>
      obtain ⟨rfl, rfl⟩ := Prod.mk.inj (Option.some.inj h)
      exact ⟨rfl, rfl, rfl, rfl, rfl, rfl, rfl, rfl⟩
  | _ => cases h

theorem pendingMessages_of_update
    (h : updateOf now op = some (paymentId, update)) (payment : Payment) :
    (update.apply payment).pendingMessages = payment.pendingMessages ++
        (pushedBy op).map PendingMessage.stored ∧
      update.push = pushedBy op := by
  cases op with
  | enqueueMessages _ messages =>
      obtain ⟨_, h⟩ := Option.ite_none_left_eq_some.mp h
      obtain ⟨rfl, rfl⟩ := Prod.mk.inj (Option.some.inj h)
      exact ⟨rfl, rfl⟩
  | reserveForProcessing | markFailed | markExpired | markCompleted | markDelivery =>
      obtain ⟨rfl, rfl⟩ := Prod.mk.inj (Option.some.inj h)
      exact ⟨rfl, rfl⟩
  | _ => cases h

end Updates

section Changes

variable {invocation : String} {request : Request} {store : Store}
  {choice : Choice} {op : Op}

/-- What a call leaves of the store. -/
inductive Changed (invocation : String) (request : Request) (store : Store)
    (choice : Choice) (op : Op) : Store → Prop
  | kept : Changed invocation request store choice op store
  | created {payment : Payment} : op = .create payment →
      duplicateKey store.payments (stamped payment choice.newId choice.now) =
        false →
      Changed invocation request store choice op (store.record invocation request
        (create store.payments (stamped payment choice.newId choice.now)))
  | updated {payment : Payment} {update : Update} :
      updateOf choice.now op = some (payment.id, update) →
      store.payments.row payment.id = some payment →
      update.filter payment = true →
      Changed invocation request store choice op (store.record invocation request
        (some
          { before := some payment
            after := update.apply payment
            pushed := update.push.map PendingMessage.stored },
          store.payments.modify payment.id update.apply update.id_apply))

theorem changed_writeCall {α : Type} {result : Option Write × Collection}
    {answer : Option Write → Except String α}
    (h : Changed invocation request store choice op
      (store.record invocation request result)) :
    Changed invocation request store choice op
      (writeCall invocation request store choice result answer).2 :=
  writeCall_rule (fun _ => .kept) h

theorem changed_readCall {α : Type} (answer : α) :
    Changed invocation request store choice op
      (readCall store choice answer).2 :=
  readCall_rule (fun _ => .kept) .kept

theorem changed_findOneAndUpdate {paymentId : String} {update : Update}
    (h : updateOf choice.now op = some (paymentId, update)) :
    Changed invocation request store choice op (store.record invocation request
      (findOneAndUpdate store.payments paymentId update)) := by
  refine record_findOneAndUpdate .kept ?_
  rintro payment hrow rfl hfilter
  exact .updated h hrow hfilter

theorem changed_act (invocation : String) (request : Request) (store : Store)
    (op : Op) (choice : Choice) : Changed invocation request store choice op
      (act invocation request store op choice).2 := by
  cases op with
  | create payment =>
      refine changed_writeCall ?_
      cases hduplicate : duplicateKey store.payments
          (stamped payment choice.newId choice.now) with
      | true =>
          rw [create, if_pos hduplicate, record_none]
          exact .kept
      | false => exact .created rfl hduplicate
  | enqueueMessages paymentId messages =>
      refine changed_writeCall ?_
      by_cases hmessages : messages = []
      · rw [if_pos hmessages, record_none]
        exact .kept
      · rw [if_neg hmessages]
        exact changed_findOneAndUpdate (if_neg hmessages)
  | reserveForProcessing | markFailed | markExpired | markCompleted | markDelivery =>
      exact changed_writeCall (changed_findOneAndUpdate rfl)
  | findByIdempotencyKey | findById | findByReference => exact changed_readCall _
  | timeNow | newString | sleep | createIntent | process => exact .kept

theorem row_of_not_duplicate {payment : Payment}
    (h : duplicateKey store.payments payment = false) :
    store.payments.row payment.id = none := by
  rw [duplicateKey, Bool.or_eq_false_iff] at h
  exact Option.isNone_iff_eq_none.mp (Option.isSome_eq_false_iff.mp h.1)

theorem row_of_changed {store' : Store}
    (h : Changed invocation request store choice op store') {paymentId : String}
    {p : Payment} (hp : store.payments.row paymentId = some p) :
    ∃ q, store'.payments.row paymentId = some q ∧ SameIdentity p q := by
  cases h with
  | kept => exact ⟨p, hp, .refl p⟩
  | @created payment _ hnew =>
      have hrow := row_of_not_duplicate hnew
      have hid : store.payments.row
          (Payment.stored (stamped payment choice.newId choice.now)).id = none := hrow
      refine ⟨p, ?_, .refl p⟩
      rw [create, hnew, if_neg Bool.false_ne_true, row_created hid, if_neg]
      · exact hp
      · rintro rfl
        rw [hid] at hp
        cases hp
  | @updated payment update hupdate hrow _ =>
      rw [row_updated hrow]
      split
      · rename_i hid
        rw [hid, hrow] at hp
        obtain rfl := Option.some.inj hp
        exact ⟨_, rfl, sameIdentity_of_update hupdate payment⟩
      · exact ⟨p, hp, .refl p⟩

end Changes

/-- The calls of `HandleProcessRequested` once it has tried to reserve. -/
def lateCall : Op → Prop
  | .timeNow | .newString | .sleep _ => True
  | .findById _ | .markExpired _ _ | .enqueueMessages _ _ => True
  | .process _ _ | .markFailed _ _ _ => True
  | _ => False

/-- The calls of the handler of a request. -/
def mayCall : Request → Op → Prop
  | _, .timeNow | _, .newString => True
  | .createPayment _, .findByIdempotencyKey _ => True
  | .createPayment _, .createIntent _ | .createPayment _, .create _ => True
  | .processRequested _, .reserveForProcessing _ _ => True
  | .processRequested _, op => lateCall op
  | .callbackConfirmed _, .findByReference _ => True
  | .callbackConfirmed _, .markExpired _ _ => True
  | .callbackConfirmed _, .markCompleted _ _ _ _ => True
  | .deliveryRequested _, .findById _ => True
  | .deliveryRequested _, .markDelivery _ _ _ _ => True
  | _, _ => False

section Calls

variable {s : Service} {request : Request} {ok : Op → Prop}

theorem mayCall_timeNow (request : Request) : mayCall request .timeNow := by
  cases request with
  | _ => exact trivial

theorem mayCall_newString (request : Request) : mayCall request .newString := by
  cases request with
  | _ => exact trivial

theorem mayCall_of_late (envelope : Envelope PaymentProcessRequestedPayload)
    (op : Op) (h : lateCall op) : mayCall (.processRequested envelope) op := by
  cases op with
  | timeNow | newString | reserveForProcessing => exact trivial
  | _ => exact h

theorem calls_pendingMessage (htime : ok .timeNow) (hnew : ok .newString)
    (routingKey : String) (body : Body) :
    (pendingMessage s routingKey body).Calls ok :=
  ⟨hnew, fun _ => ⟨htime, fun _ => trivial⟩⟩

theorem calls_statusMessages (htime : ok .timeNow) (hnew : ok .newString)
    (payment : Payment) (status : PaymentStatus) (delivery : DeliveryStatus)
    (correlationId causationId : String) :
    (statusMessages s payment status delivery correlationId causationId).Calls ok :=
  ⟨htime, fun _ => (calls_pendingMessage htime hnew _ _).bind fun _ => trivial⟩

theorem calls_last {α : Type} {op : Op} {f : Reply op → Program α}
    (hop : ok op) (hf : ∀ reply, ∃ value, f reply = pure value) :
    (call op >>= f).Calls ok := by
  refine ⟨hop, fun reply => ?_⟩
  obtain ⟨value, hvalue⟩ := hf reply
  change (f reply).Calls ok
  rw [hvalue]
  exact trivial

theorem calls_announcing {α : Type} {op : List PendingMessage → PendingMessage → Op}
    {f : ∀ messages message, Reply (op messages message) → Program α}
    (htime : ok .timeNow) (hnew : ok .newString)
    (hop : ∀ messages message, ok (op messages message))
    (hf : ∀ messages message reply, ∃ value, f messages message reply = pure value)
    (payment : Payment) (status : PaymentStatus) (delivery : DeliveryStatus)
    (correlationId causationId routingKey : String) (body : Body) :
    (do
      let messages ← statusMessages s payment status delivery correlationId causationId
      let message ← pendingMessage s routingKey body
      call (op messages message) >>= f messages message).Calls ok :=
  (calls_statusMessages htime hnew _ _ _ _ _).bind fun messages =>
    (calls_pendingMessage htime hnew _ _).bind fun message =>
      calls_last (hop messages message) (hf messages message)

theorem calls_handleDeliveryRequested
    (envelope : Envelope PaymentDeliveryRequestedPayload) :
    (handleDeliveryRequested s envelope).Calls
      (mayCall (.deliveryRequested envelope)) := by
  refine ⟨trivial, fun reply => ?_⟩
  match reply with
  | .error _ => exact trivial
  | .ok none => exact trivial
  | .ok (some payment) =>
      change Program.Calls _ (if _ then _ else _)
      split
      · exact trivial
      · change Program.Calls _ (if _ then _ else _)
        split
        · refine ⟨trivial, fun _ => calls_announcing trivial trivial
            (fun _ _ => trivial) (fun _ _ reply => ?_) _ _ _ _ _ _ _⟩
          cases reply <;> exact ⟨_, rfl⟩
        · refine calls_announcing trivial trivial (fun _ _ => trivial)
            (fun _ _ reply => ?_) _ _ _ _ _ _ _
          cases reply <;> exact ⟨_, rfl⟩

theorem calls_handleCallbackConfirmed
    (envelope : Envelope PaymentCallbackConfirmedPayload) :
    (handleCallbackConfirmed s envelope).Calls
      (mayCall (.callbackConfirmed envelope)) := by
  refine ⟨trivial, fun reply => ?_⟩
  match reply with
  | .error _ => exact trivial
  | .ok none => exact trivial
  | .ok (some payment) =>
      dsimp only
      split
      · exact trivial
      · refine ⟨trivial, fun now => ?_⟩
        change Program.Calls _ (if _ then _ else _)
        split
        · exact trivial
        · split
          · exact trivial
          · split
            · refine (calls_statusMessages trivial trivial _ _ _ _ _).bind fun _ => ?_
              refine calls_last trivial fun reply => ?_
              cases reply <;> exact ⟨_, rfl⟩
            · refine calls_announcing trivial trivial (fun _ _ => trivial)
                (fun _ _ reply => ?_) _ _ _ _ _ _ _
              cases reply <;> exact ⟨_, rfl⟩

theorem calls_retryFrom (hsleep : ∀ duration, ok (.sleep duration))
    (hprocess : ∀ payment attempt, ok (.process payment attempt))
    (attempts delay backoff : Int) (payment : Payment) (attempt remaining : Nat) :
    (retryFrom attempts delay backoff
      (fun attempt => call (.process payment attempt)) attempt remaining).Calls
        ok := by
  induction remaining generalizing attempt with
  | zero => exact trivial
  | succ remaining ih =>
      refine ⟨hprocess payment attempt, fun reply => ?_⟩
      match reply with
      | .ok _ => exact trivial
      | .error (.other _) => exact trivial
      | .error (.gateway _ false) => exact trivial
      | .error (.gateway _ true) =>
          change Program.Calls _ (if _ then _ else _)
          split
          · exact trivial
          · exact ⟨hsleep _, fun _ => ih (attempt + 1)⟩

/-- `HandleProcessRequested` without a reservation. -/
def processMissed (s : Service) (envelope : Envelope PaymentProcessRequestedPayload)
    (now : Int) : Program (Except String Unit) := do
  match ← call (.findById envelope.payload.paymentId) with
  | .error error => return .error error
  | .ok none => return .ok ()
  | .ok (some existing) =>
      if existing.paymentStatus = .pending ∧ existing.expiresAt < now then
        let messages ← statusMessages s existing .expired
          existing.deliveryStatus envelope.correlationId envelope.messageId
        match ← call (.markExpired existing.id messages) with
        | .error error => return .error error
        | .ok _ => return .ok ()
      else return .ok ()

/-- `HandleProcessRequested` once the gateway has answered. -/
def concludeProcessing (s : Service)
    (envelope : Envelope PaymentProcessRequestedPayload) (payment : Payment) :
    Except ProcessError (Option GatewayResult) → Program (Except String Unit)
  | .error error => do
      let messages ← statusMessages s payment .failed
        payment.deliveryStatus envelope.correlationId envelope.messageId
      match ← call (.markFailed payment.id error.message messages) with
      | .error error => return .error error
      | .ok _ => return .ok ()
  | .ok result => do
      if s.config.simulateWebhookConfirmation then
        let result := result.getD zeroResult
        let callbackEventId := transitionMessageId "pcb" payment.paymentReference
        let callbackOccurredAt := formatRFC3339Nano result.completedAt
        let message ← pendingMessage s "payment.callback.confirmed"
          (.callbackConfirmed (newEnvelopeWithMetadata "payment.callback.confirmed"
            callbackEventId envelope.correlationId envelope.messageId
            callbackOccurredAt "payment-service"
            { eventId := callbackEventId
              paymentReference := result.reference
              amount := payment.amount
              currency := payment.currency
              occurredAt := callbackOccurredAt }))
        call (.enqueueMessages payment.id [message])
      else return .ok ()

/-- `HandleProcessRequested` with a reservation. -/
def processReserved (s : Service)
    (envelope : Envelope PaymentProcessRequestedPayload) (payment : Payment) :
    Program (Except String Unit) := do
  let messages ← statusMessages s payment .processing payment.deliveryStatus
    envelope.correlationId envelope.messageId
  match ← call (.enqueueMessages payment.id messages) with
  | .error error => return .error error
  | .ok () =>
      let result ← retry s.config.processingAttempts s.config.processingDelay
        s.config.processingBackoff (fun attempt => call (.process payment attempt))
      concludeProcessing s envelope payment result

theorem handleProcessRequested_eq (s : Service)
    (envelope : Envelope PaymentProcessRequestedPayload) :
    handleProcessRequested s envelope = (do
      let now ← call .timeNow
      match ← call (.reserveForProcessing envelope.payload.paymentId now) with
      | .error error => return .error error
      | .ok none => processMissed s envelope now
      | .ok (some payment) => processReserved s envelope payment) := rfl

theorem calls_processMissed (envelope : Envelope PaymentProcessRequestedPayload)
    (now : Int) : (processMissed s envelope now).Calls lateCall := by
  refine ⟨trivial, fun reply => ?_⟩
  match reply with
  | .error _ => exact trivial
  | .ok none => exact trivial
  | .ok (some existing) =>
      change Program.Calls _ (if _ then _ else _)
      split
      · refine (calls_statusMessages trivial trivial _ _ _ _ _).bind fun _ => ?_
        refine calls_last trivial fun reply => ?_
        cases reply <;> exact ⟨_, rfl⟩
      · exact trivial

theorem calls_concludeProcessing (envelope : Envelope PaymentProcessRequestedPayload)
    (payment : Payment) (result : Except ProcessError (Option GatewayResult)) :
    (concludeProcessing s envelope payment result).Calls lateCall := by
  match result with
  | .error _ =>
      refine (calls_statusMessages trivial trivial _ _ _ _ _).bind fun _ => ?_
      refine calls_last trivial fun reply => ?_
      cases reply <;> exact ⟨_, rfl⟩
  | .ok _ =>
      change Program.Calls _ (if _ then _ else _)
      split
      · exact (calls_pendingMessage trivial trivial _ _).bind
          fun _ => ⟨trivial, fun _ => trivial⟩
      · exact trivial

theorem calls_processReserved (envelope : Envelope PaymentProcessRequestedPayload)
    (payment : Payment) :
    (processReserved s envelope payment).Calls lateCall := by
  refine (calls_statusMessages trivial trivial _ _ _ _ _).bind fun _ =>
    ⟨trivial, fun reply => ?_⟩
  match reply with
  | .error _ => exact trivial
  | .ok () =>
      exact (calls_retryFrom (fun _ => trivial) (fun _ _ => trivial) _ _ _ payment 1
        _).bind fun _ => calls_concludeProcessing envelope payment _

theorem calls_handleProcessRequested
    (envelope : Envelope PaymentProcessRequestedPayload) :
    (handleProcessRequested s envelope).Calls
      (mayCall (.processRequested envelope)) := by
  have hlate := mayCall_of_late envelope
  rw [handleProcessRequested_eq]
  refine ⟨trivial, fun now => ⟨trivial, fun reply => ?_⟩⟩
  match reply with
  | .error _ => exact trivial
  | .ok none => exact (calls_processMissed envelope now).mono hlate
  | .ok (some payment) => exact (calls_processReserved envelope payment).mono hlate

theorem calls_rpcResponse (command : Envelope PaymentCreateCommandPayload)
    (response : RpcResponse) :
    (rpcResponse command response).Calls (mayCall request) :=
  ⟨mayCall_newString request, fun _ => ⟨mayCall_timeNow request, fun _ => trivial⟩⟩

theorem calls_createPayment (envelope : Envelope PaymentCreateCommandPayload) :
    (createPayment s envelope).Calls (mayCall (.createPayment envelope)) := by
  refine ⟨trivial, fun reply => ?_⟩
  match reply with
  | .error _ => exact calls_rpcResponse _ _
  | .ok (some existing) =>
      change Program.Calls _ (if _ then _ else _)
      split
      · exact calls_rpcResponse _ _
      · exact calls_rpcResponse _ _
  | .ok none =>
      change Program.Calls _ (if _ then _ else _)
      split
      · exact calls_rpcResponse _ _
      · refine ⟨trivial, fun _ => ⟨trivial, fun _ => ⟨trivial, fun _ => ⟨trivial,
          fun reply => ?_⟩⟩⟩⟩
        match reply with
        | .error _ => exact calls_rpcResponse _ _
        | .ok intent =>
            refine ⟨trivial, fun _ => (calls_pendingMessage trivial trivial _ _).bind fun _ =>
              ⟨trivial, fun reply => ?_⟩⟩
            cases reply with
            | error => exact calls_rpcResponse _ _
            | ok => exact calls_rpcResponse _ _

theorem calls_program (s : Service) (request : Request) :
    (program s request).Calls (mayCall request) := by
  cases request with
  | createPayment envelope =>
      exact (calls_createPayment envelope).bind fun _ => trivial
  | processRequested envelope =>
      exact (calls_handleProcessRequested envelope).bind fun _ => trivial
  | callbackConfirmed envelope =>
      exact (calls_handleCallbackConfirmed envelope).bind fun _ => trivial
  | deliveryRequested envelope =>
      exact (calls_handleDeliveryRequested envelope).bind fun _ => trivial

end Calls

section Messages

variable {s : Service} {act' : Store → (op : Op) → Choice → Reply op × Store}
  (htime : ∀ σ choice, (act' σ .timeNow choice).2 = σ)
  (hnew : ∀ σ choice, (act' σ .newString choice).2 = σ)

include htime hnew

theorem quiet_pendingMessage (routingKey : String) (body : Body) :
    (pendingMessage s routingKey body).Quiet act' fun message =>
      message.routingKey = routingKey ∧ message.body = body :=
  ⟨hnew, fun _ => ⟨htime, fun _ => ⟨rfl, rfl⟩⟩⟩

theorem quiet_statusMessages (copy : Payment) (status : PaymentStatus)
    (delivery : DeliveryStatus) (correlationId causationId : String) :
    (statusMessages s copy status delivery correlationId causationId).Quiet act'
      fun messages =>
        ∃ message, messages = [message] ∧ Announces copy status delivery message := by
  refine ⟨htime, fun occurredAt => ?_⟩
  refine (quiet_pendingMessage htime hnew _ _).bind fun message hmessage => ?_
  exact ⟨message, rfl, hmessage.1, _, hmessage.2, rfl, rfl, rfl, rfl, rfl⟩

end Messages

end Modularis.Payments.Changes
