import Modularis.Foundation.Program
import Modularis.Payments.Repository

/-!
What the handlers of the payment service call: clock, random ids, repository and
gateway.  Each call is atomic; a repository call may also fail without effect.
-/

namespace Modularis.Payments.Operations

open Modularis.Foundation
open Modularis.Shared.Messaging
open Modularis.Payments.Models
open Modularis.Payments.Repository

/-- The deliveries that `StartPaymentConsumers` hands to the service. -/
inductive Request where
  | createPayment (envelope : Envelope PaymentCreateCommandPayload)
  | processRequested (envelope : Envelope PaymentProcessRequestedPayload)
  | callbackConfirmed (envelope : Envelope PaymentCallbackConfirmedPayload)
  | deliveryRequested (envelope : Envelope PaymentDeliveryRequestedPayload)
deriving DecidableEq, Repr

/-- What a handler asks of its surroundings. -/
inductive Op where
  | timeNow
  | newString
  | sleep (duration : Int)
  | findByIdempotencyKey (idempotencyKey : String)
  | findById (paymentId : String)
  | findByReference (reference : String)
  | create (payment : Payment)
  | reserveForProcessing (paymentId : String) (now : Int)
  | enqueueMessages (paymentId : String) (messages : List PendingMessage)
  | markFailed (paymentId reason : String) (messages : List PendingMessage)
  | markExpired (paymentId : String) (messages : List PendingMessage)
  | markCompleted (paymentId eventId : String) (confirmedAt : Int)
      (messages : List PendingMessage)
  | markDelivery (paymentId : String) (status : DeliveryStatus)
      (reason : String) (messages : List PendingMessage)
  | createIntent (payment : Payment)
  | process (payment : Payment) (attempt : Nat)

/-- What it is told. -/
abbrev Reply : Op → Type
  | .timeNow => Int
  | .newString => String
  | .sleep _ => Unit
  | .findByIdempotencyKey _ | .findById _ | .findByReference _ =>
      Except String (Option Payment)
  | .create _ => Except String Payment
  | .reserveForProcessing _ _ => Except String (Option Payment)
  | .enqueueMessages _ _ => Except String Unit
  | .markFailed _ _ _ | .markExpired _ _ | .markCompleted _ _ _ _
  | .markDelivery _ _ _ _ => Except String (Option Payment × Bool)
  | .createIntent _ => Except String PaymentIntent
  | .process _ _ => Except ProcessError GatewayResult

abbrev Program := Foundation.Program Reply

abbrev call (op : Op) : Program (Reply op) := Foundation.Program.perform op

/-- What the environment contributes to a call: the clock, a random id, whether
the call fails and the answers of the gateway. -/
structure Choice where
  now : Int
  newId : String
  failure : Option String
  intent : Except String PaymentIntent
  processed : Except ProcessError GatewayResult

/-- A write and the invocation that made it. -/
structure Commit where
  invocation : String
  request : Request
  write : Write
deriving DecidableEq, Repr

/-- The collection and, as a history that no operation reads, its writes. -/
structure Store where
  payments : Collection
  history : List Commit

/-- Nothing is stored. -/
def Store.empty : Store where
  payments := Table.empty
  history := []

/-- What a write has done, with its line of the history. -/
def Store.record (store : Store) (invocation : String) (request : Request)
    (result : Option Write × Collection) : Store where
  payments := result.2
  history := store.history ++ (result.1.map fun write =>
    { invocation := invocation, request := request, write := write }).toList

/-- A repository call that only reads. -/
def readCall {α : Type} (store : Store) (choice : Choice) (answer : α) :
    Except String α × Store :=
  match choice.failure with
  | some error => (.error error, store)
  | none => (.ok answer, store)

@[elab_as_elim]
theorem readCall_rule {α : Type} {motive : Except String α × Store → Prop} {store : Store}
    {choice : Choice} {answer : α} (herror : ∀ error, motive (.error error, store))
    (hok : motive (.ok answer, store)) : motive (readCall store choice answer) := by
  unfold readCall
  split
  · exact herror _
  · exact hok

/-- A repository call that writes. -/
def writeCall {α : Type} (invocation : String) (request : Request) (store : Store)
    (choice : Choice) (result : Option Write × Collection)
    (answer : Option Write → Except String α) : Except String α × Store :=
  match choice.failure with
  | some error => (.error error, store)
  | none => (answer result.1, store.record invocation request result)

@[elab_as_elim]
theorem writeCall_rule {α : Type} {motive : Except String α × Store → Prop}
    {invocation : String} {request : Request} {store : Store} {choice : Choice}
    {result : Option Write × Collection} {answer : Option Write → Except String α}
    (herror : ∀ error, motive (.error error, store))
    (hok : motive (answer result.1, store.record invocation request result)) :
    motive (writeCall invocation request store choice result answer) := by
  unfold writeCall
  split
  · exact herror _
  · exact hok

/-- A call that updates one payment, which may fail. -/
def transition (invocation : String) (request : Request) (store : Store)
    (choice : Choice) (paymentId : String) (update : Update) :
    Except String (Option Payment × Bool) × Store :=
  writeCall invocation request store choice
    (findOneAndUpdate store.payments paymentId update)
    fun result => .ok (transitionAnswer store.payments paymentId result)

/-- What a call is answered and what it does; `choice` is what the surroundings
contribute. -/
def act (invocation : String) (request : Request) (store : Store) :
    (op : Op) → Choice → Reply op × Store
  | .timeNow, choice => (choice.now, store)
  | .newString, choice => (choice.newId, store)
  | .sleep _, _ => ((), store)
  | .findByIdempotencyKey idempotencyKey, choice =>
      readCall store choice
        (Repository.findByIdempotencyKey store.payments idempotencyKey)
  | .findById paymentId, choice =>
      readCall store choice (Repository.findById store.payments paymentId)
  | .findByReference reference, choice =>
      readCall store choice (Repository.findByReference store.payments reference)
  | .create payment, choice =>
      let record := stamped payment choice.newId choice.now
      writeCall invocation request store choice
        (Repository.create store.payments record) fun
          | some _ => .ok record
          | none => .error "duplicate key"
  | .reserveForProcessing paymentId now, choice =>
      writeCall invocation request store choice
        (findOneAndUpdate store.payments paymentId (reserveUpdate now))
        fun result => .ok (result.map Write.after)
  | .enqueueMessages paymentId messages, choice =>
      writeCall invocation request store choice
        (if messages = [] then (none, store.payments)
        else findOneAndUpdate store.payments paymentId
          (enqueueUpdate messages choice.now))
        fun _ => .ok ()
  | .markFailed paymentId reason messages, choice =>
      transition invocation request store choice paymentId
        (failedUpdate reason messages choice.now)
  | .markExpired paymentId messages, choice =>
      transition invocation request store choice paymentId
        (expiredUpdate messages choice.now)
  | .markCompleted paymentId eventId confirmedAt messages, choice =>
      transition invocation request store choice paymentId
        (completedUpdate eventId confirmedAt messages choice.now)
  | .markDelivery paymentId status reason messages, choice =>
      transition invocation request store choice paymentId
        (deliveryUpdate status reason messages choice.now)
  | .createIntent _, choice => (choice.intent, store)
  | .process _ _, choice => (choice.processed, store)

end Modularis.Payments.Operations
