import Modularis.Payments.Outbox

namespace Modularis.Payments.MemoryRepository

open Modularis.Foundation
open Modularis.Foundation.GoTime (minute)
open Modularis.Shared.Messaging (newEnvelopeWithMetadata)
open Modularis.Payments.Models
open Modularis.Payments.Repository
open Modularis.Payments.Handlers (newPayment)
open Modularis.Payments.Outbox (matchesClaim updateFirst updateFirst_split
  acknowledgePayment retryPayment rescheduleMessage)

section Calls

/-- A call of either repository on one payment. -/
inductive Call where
  | reserveForProcessing (paymentId : String) (now : Int)
  | enqueueMessages (paymentId : String) (messages : List PendingMessage)
  | markFailed (paymentId reason : String) (messages : List PendingMessage)
  | markExpired (paymentId : String) (messages : List PendingMessage)
  | markCompleted (paymentId eventId : String) (confirmedAt : Int)
      (messages : List PendingMessage)
  | markDelivery (paymentId : String) (status : DeliveryStatus) (reason : String)
      (messages : List PendingMessage)
  | acknowledgePendingPublish (paymentId messageId claimToken : String)
  | retryPendingPublish (paymentId messageId claimToken : String)
      (nextAttemptAt : Int) (attempts : Nat)
deriving DecidableEq, Repr

/-- The payment that a call is about. -/
def Call.paymentId : Call → String
  | .reserveForProcessing paymentId _ | .enqueueMessages paymentId _
  | .markFailed paymentId _ _ | .markExpired paymentId _
  | .markCompleted paymentId _ _ _ | .markDelivery paymentId _ _ _
  | .acknowledgePendingPublish paymentId _ _
  | .retryPendingPublish paymentId _ _ _ _ => paymentId

/-- What a call returns: the reserved payment, the payment with whether it moved,
or only an error. -/
inductive Outcome where
  | payment (payment : Option Payment)
  | transition (payment : Option Payment) (transitioned : Bool)
  | done (error : Option String)
deriving DecidableEq, Repr

end Calls

section Memory

/-- A payment that allows it is updated, and gets the messages. -/
def transition (messages : List PendingMessage) (allowed : Payment → Bool)
    (updater : Payment → Payment) (now : Int) (paymentRecord : Payment) :
    Outcome × Payment :=
  if allowed paymentRecord then
    let updated := updater paymentRecord
    let updated :=
      { updated with
        pendingMessages := updated.pendingMessages ++ messages
        updatedAt := now }
    (.transition (some updated) true, updated)
  else (.transition (some paymentRecord) false, paymentRecord)

/-- In memory: a pending payment that has not expired is reserved. -/
def reserveForProcessing (now : Int) (paymentRecord : Payment) : Outcome × Payment :=
  if paymentRecord.paymentStatus ≠ .pending ∨ ¬ now < paymentRecord.expiresAt then
    (.payment none, paymentRecord)
  else
    let reserved :=
      { paymentRecord with
        paymentStatus := .processing
        processingAttempts := paymentRecord.processingAttempts + 1
        processingStartedAt := some now
        paymentFailureReason := ""
        updatedAt := now }
    (.payment (some reserved), reserved)

/-- In memory: the messages go into the outbox. -/
def enqueueMessages (messages : List PendingMessage) (now : Int)
    (paymentRecord : Payment) : Outcome × Payment :=
  (.done none,
    { paymentRecord with
      pendingMessages := paymentRecord.pendingMessages ++ messages
      updatedAt := now })

/-- In memory: only what is being processed fails. -/
def markFailed (reason : String) (messages : List PendingMessage) :
    Int → Payment → Outcome × Payment :=
  transition messages (fun payment => decide (payment.paymentStatus = .processing))
    fun payment =>
      { payment with
        paymentStatus := .failed
        paymentFailureReason := reason }

/-- The payment is neither completed nor expired. -/
def allowedWhenOpen (payment : Payment) : Bool :=
  decide (payment.paymentStatus = .pending ∨ payment.paymentStatus = .processing ∨
    payment.paymentStatus = .failed)

/-- In memory: an open payment expires. -/
def markExpired (messages : List PendingMessage) : Int → Payment → Outcome × Payment :=
  transition messages allowedWhenOpen fun payment =>
    { payment with
      paymentStatus := .expired
      processingStartedAt := none }

/-- In memory: an open payment is completed. -/
def markCompleted (eventId : String) (confirmedAt : Int)
    (messages : List PendingMessage) : Int → Payment → Outcome × Payment :=
  transition messages allowedWhenOpen fun payment =>
    { payment with
      paymentStatus := .completed
      confirmedAt := some confirmedAt
      paymentFailureReason := ""
      processingStartedAt := none
      webhookEventIds :=
        if eventId ≠ "" ∧ eventId ∉ payment.webhookEventIds then
          payment.webhookEventIds ++ [eventId]
        else payment.webhookEventIds }

/-- In memory: a completed payment is delivered or not, once. -/
def markDelivery (status : DeliveryStatus) (reason : String)
    (messages : List PendingMessage) : Int → Payment → Outcome × Payment :=
  transition messages
    (fun payment => decide
      (payment.paymentStatus = .completed ∧ payment.deliveryStatus = .pending))
    fun payment =>
      { payment with
        deliveryStatus := status
        deliveryFailureReason := reason }

/-- In memory: the claimed message is taken out. -/
def acknowledgePendingPublish (messageId claimToken : String) (now : Int)
    (paymentRecord : Payment) : Outcome × Payment :=
  (.done none,
    { paymentRecord with
      pendingMessages := paymentRecord.pendingMessages.filter fun message =>
        decide (message.id ≠ messageId ∨ message.claimToken ≠ claimToken)
      updatedAt := now })

/-- The message, free to be claimed from a time on. -/
def rescheduled (nextAttemptAt : Int) (attempts : Nat) (message : PendingMessage) :
    PendingMessage :=
  { message with
    nextAttemptAt := nextAttemptAt
    attempts := attempts
    claimToken := ""
    claimedUntil := none }

/-- Only the first message that matches is rescheduled. -/
def retryPendingPublish (messageId claimToken : String) (nextAttemptAt : Int)
    (attempts : Nat) (now : Int) (paymentRecord : Payment) : Outcome × Payment :=
  if paymentRecord.pendingMessages.any (matchesClaim messageId claimToken) then
    (.done none,
      { paymentRecord with
        pendingMessages := updateFirst (matchesClaim messageId claimToken)
          (rescheduled nextAttemptAt attempts) paymentRecord.pendingMessages
        updatedAt := now })
  else (.done (some "pending message not found"), paymentRecord)

/-- A call of the repository in memory; `now` is the clock that it reads. -/
def onMemory (now : Int) : Call → Payment → Outcome × Payment
  | .reserveForProcessing _ time => reserveForProcessing time
  | .enqueueMessages _ messages => enqueueMessages messages now
  | .markFailed _ reason messages => markFailed reason messages now
  | .markExpired _ messages => markExpired messages now
  | .markCompleted _ eventId confirmedAt messages =>
      markCompleted eventId confirmedAt messages now
  | .markDelivery _ status reason messages => markDelivery status reason messages now
  | .acknowledgePendingPublish _ messageId claimToken =>
      acknowledgePendingPublish messageId claimToken now
  | .retryPendingPublish _ messageId claimToken nextAttemptAt attempts =>
      retryPendingPublish messageId claimToken nextAttemptAt attempts now

theorem id_transition {messages : List PendingMessage} {allowed : Payment → Bool}
    {updater : Payment → Payment} (hid : ∀ payment, (updater payment).id = payment.id)
    (now : Int) (payment : Payment) :
    (transition messages allowed updater now payment).2.id = payment.id := by
  unfold transition
  split
  · exact hid payment
  · rfl

theorem id_onMemory (now : Int) (call : Call) (payment : Payment) :
    (onMemory now call payment).2.id = payment.id := by
  cases call with
  | reserveForProcessing =>
      simp only [onMemory, reserveForProcessing]
      split <;> rfl
  | enqueueMessages | acknowledgePendingPublish => rfl
  | markFailed | markExpired | markCompleted | markDelivery =>
      apply id_transition
      exact fun _ => rfl
  | retryPendingPublish =>
      simp only [onMemory, retryPendingPublish]
      split <;> rfl

end Memory

section Mongo

/-- A message of the outbox as BSON has it; `none` is a field that is left out. -/
structure BsonMessage where
  id : String
  exchange : String
  routingKey : String
  body : Body
  attempts : Nat
  nextAttemptAt : Int
  claimToken : Option String
  claimedUntil : Option Int
deriving DecidableEq, Repr

/-- The message that is pushed, with `omitempty` on its claim token. -/
def encode (message : PendingMessage) : BsonMessage where
  id := message.id
  exchange := message.exchange
  routingKey := message.routingKey
  body := message.body
  attempts := message.attempts
  nextAttemptAt := date message.nextAttemptAt
  claimToken := if message.claimToken = "" then none else some message.claimToken
  claimedUntil := message.claimedUntil.map date

/-- The message as it is read; a missing token is an empty one. -/
def BsonMessage.decode (message : BsonMessage) : PendingMessage where
  id := message.id
  exchange := message.exchange
  routingKey := message.routingKey
  body := message.body
  attempts := message.attempts
  nextAttemptAt := message.nextAttemptAt
  claimToken := message.claimToken.getD ""
  claimedUntil := message.claimedUntil

/-- A document, whose outbox is in `messages`.  The expiry, which a filter
compares, has whole milliseconds. -/
structure Document where
  fields : Payment
  messages : List BsonMessage
  expiresAt_whole : date fields.expiresAt = fields.expiresAt

/-- The key of a document. -/
def Document.id (document : Document) : String := document.fields.id

/-- The payment as it is read. -/
def Document.decode (document : Document) : Payment :=
  { document.fields with
    pendingMessages := document.messages.map BsonMessage.decode }

/-- The collection. -/
abbrev Documents := Table Document.id

/-- An update that leaves the expiry alone and sets no message. -/
structure DocumentUpdate where
  update : Update
  expiresAt_set : ∀ payment, (update.set payment).expiresAt = payment.expiresAt
  pendingMessages_set : ∀ payment,
    (update.set payment).pendingMessages = payment.pendingMessages

/-- The document after an update that pushes messages. -/
def Document.apply (document : Document) (u : DocumentUpdate) : Document where
  fields := u.update.set document.decode
  messages := document.messages ++ u.update.push.map encode
  expiresAt_whole := by
    rw [u.expiresAt_set]
    exact document.expiresAt_whole

/-- A document that passes the filter is updated; another one is returned as it is. -/
def transitionWithMessages (u : DocumentUpdate) (document : Document) :
    Outcome × Document :=
  if u.update.filter document.decode then
    (.transition (some (document.apply u).decode) true, document.apply u)
  else (.transition (some document.decode) false, document)

/-- The update of a reservation. -/
def reserveUpdateOf (now : Int) : DocumentUpdate :=
  ⟨reserveUpdate now, fun _ => rfl, fun _ => rfl⟩

/-- On Mongo: only a document that passes the filter is returned. -/
def mongoReserveForProcessing (now : Int) (document : Document) : Outcome × Document :=
  if (reserveUpdate now).filter document.decode then
    (.payment (some (document.apply (reserveUpdateOf now)).decode),
      document.apply (reserveUpdateOf now))
  else (.payment none, document)

/-- On Mongo: no messages make no update. -/
def mongoEnqueueMessages (messages : List PendingMessage) (now : Int)
    (document : Document) : Outcome × Document :=
  if messages = [] then (.done none, document)
  else
    (.done none,
      document.apply ⟨enqueueUpdate messages now, fun _ => rfl, fun _ => rfl⟩)

/-- The condition on a message of the `$pull` and of the array filter: a field that
is left out equals no string. -/
def BsonMessage.matches (messageId claimToken : String) (message : BsonMessage) : Bool :=
  decide (message.id = messageId ∧ message.claimToken = some claimToken)

/-- On Mongo: the claimed message is pulled. -/
def mongoAcknowledge (messageId claimToken : String) (now : Int) (document : Document) :
    Outcome × Document :=
  (.done none,
    { document with
      fields := { document.fields with updatedAt := date now }
      messages := document.messages.filter fun message =>
        !message.matches messageId claimToken })

/-- The message, free to be claimed from a time on; its token is an empty one now. -/
def BsonMessage.reschedule (nextAttemptAt : Int) (attempts : Nat)
    (message : BsonMessage) : BsonMessage :=
  { message with
    nextAttemptAt := date nextAttemptAt
    attempts := attempts
    claimToken := some ""
    claimedUntil := none }

/-- A message with this claim is rescheduled. -/
def BsonMessage.retry (messageId claimToken : String) (nextAttemptAt : Int)
    (attempts : Nat) (message : BsonMessage) : BsonMessage :=
  if message.matches messageId claimToken then message.reschedule nextAttemptAt attempts
  else message

/-- On Mongo: the claimed message is rescheduled in its place. -/
def mongoRetry (messageId claimToken : String) (nextAttemptAt : Int) (attempts : Nat)
    (now : Int) (document : Document) : Outcome × Document :=
  (.done none,
    { document with
      fields := { document.fields with updatedAt := date now }
      messages := document.messages.map
        (BsonMessage.retry messageId claimToken nextAttemptAt attempts) })

/-- A call of the repository on Mongo; `now` is the clock that it reads. -/
def onMongo (now : Int) : Call → Document → Outcome × Document
  | .reserveForProcessing _ time => mongoReserveForProcessing time
  | .enqueueMessages _ messages => mongoEnqueueMessages messages now
  | .markFailed _ reason messages =>
      transitionWithMessages
        ⟨failedUpdate reason messages now, fun _ => rfl, fun _ => rfl⟩
  | .markExpired _ messages =>
      transitionWithMessages
        ⟨expiredUpdate messages now, fun _ => rfl, fun _ => rfl⟩
  | .markCompleted _ eventId confirmedAt messages =>
      transitionWithMessages
        ⟨completedUpdate eventId confirmedAt messages now, fun _ => rfl, fun _ => rfl⟩
  | .markDelivery _ status reason messages =>
      transitionWithMessages
        ⟨deliveryUpdate status reason messages now, fun _ => rfl, fun _ => rfl⟩
  | .acknowledgePendingPublish _ messageId claimToken =>
      mongoAcknowledge messageId claimToken now
  | .retryPendingPublish _ messageId claimToken nextAttemptAt attempts =>
      mongoRetry messageId claimToken nextAttemptAt attempts now

theorem decode_encode (message : PendingMessage) :
    (encode message).decode = PendingMessage.stored message := by
  by_cases htoken : message.claimToken = ""
  · simp [encode, BsonMessage.decode, PendingMessage.stored, htoken]
  · simp [encode, BsonMessage.decode, PendingMessage.stored, htoken]

theorem decode_apply (document : Document) (u : DocumentUpdate) :
    (document.apply u).decode = u.update.apply document.decode := by
  have hpushed : (u.update.push.map encode).map BsonMessage.decode =
      u.update.push.map PendingMessage.stored := by
    rw [List.map_map]
    exact List.map_congr_left fun message _ => decode_encode message
  simp only [Document.apply, Update.apply, u.pendingMessages_set]
  simp only [Document.decode, List.map_append, hpushed]

theorem matches_eq_matchesClaim {messageId claimToken : String} (h : claimToken ≠ "")
    (message : BsonMessage) :
    message.matches messageId claimToken =
      matchesClaim messageId claimToken message.decode := by
  have htoken : message.claimToken = some claimToken ↔
      message.claimToken.getD "" = claimToken := by
    cases message.claimToken with
    | none => simp [h.symm]
    | some token => simp
  rw [Bool.eq_iff_iff, BsonMessage.matches, matchesClaim, decide_eq_true_iff,
    decide_eq_true_iff, htoken]
  rfl

theorem decode_mongoAcknowledge {messageId claimToken : String} (h : claimToken ≠ "")
    (now : Int) (document : Document) :
    (mongoAcknowledge messageId claimToken now document).2.decode =
      acknowledgePayment messageId claimToken now document.decode := by
  simp only [mongoAcknowledge, Document.decode, acknowledgePayment, List.filter_map]
  simp only [Function.comp_def, matches_eq_matchesClaim h]

theorem decode_mongoRetry {messageId claimToken : String} (h : claimToken ≠ "")
    (nextAttemptAt : Int) (attempts : Nat) (now : Int) (document : Document) :
    (mongoRetry messageId claimToken nextAttemptAt attempts now document).2.decode =
      retryPayment messageId claimToken nextAttemptAt attempts now document.decode := by
  have hmessage : ∀ message : BsonMessage,
      (message.retry messageId claimToken nextAttemptAt attempts).decode =
        if matchesClaim messageId claimToken message.decode then
          rescheduleMessage nextAttemptAt attempts message.decode
        else message.decode := by
    intro message
    rw [BsonMessage.retry, matches_eq_matchesClaim h, apply_ite BsonMessage.decode]
    rfl
  simp only [mongoRetry, Document.decode, retryPayment, List.map_map]
  simp only [Function.comp_def, hmessage]

theorem id_apply (document : Document) (u : DocumentUpdate) :
    (document.apply u).id = document.id := u.update.id_set document.decode

theorem id_transitionWithMessages (u : DocumentUpdate) (document : Document) :
    (transitionWithMessages u document).2.id = document.id := by
  unfold transitionWithMessages
  split
  · exact id_apply document u
  · rfl

theorem id_onMongo (now : Int) (call : Call) (document : Document) :
    (onMongo now call document).2.id = document.id := by
  cases call with
  | reserveForProcessing _ time =>
      simp only [onMongo, mongoReserveForProcessing]
      split
      · exact id_apply document _
      · rfl
  | enqueueMessages =>
      simp only [onMongo, mongoEnqueueMessages]
      split
      · rfl
      · exact id_apply document _
  | markFailed | markExpired | markCompleted | markDelivery =>
      exact id_transitionWithMessages _ document
  | acknowledgePendingPublish | retryPendingPublish => rfl

end Mongo

section Pair

/-- A payment but for the time of its last update. -/
def unstamped (payment : Payment) : Payment := { payment with updatedAt := 0 }

/-- Both calls return the same, but for `updatedAt` and the text of an error. -/
def Outcome.Same : Outcome → Outcome → Prop
  | .payment p, .payment q => p.map unstamped = q.map unstamped
  | .transition p transitioned, .transition q transitioned' =>
      p.map unstamped = q.map unstamped ∧ transitioned = transitioned'
  | .done error, .done error' => error.isSome = error'.isSome
  | _, _ => False

/-- Both repositories and what their calls have returned, oldest first. -/
structure World where
  memory : Collection
  mongo : Documents
  outcomes : List (Outcome × Outcome)

/-- A call of both repositories, each with its own clock. -/
structure Event where
  call : Call
  memoryNow : Int
  mongoNow : Int
deriving DecidableEq, Repr

/-- A call on an existing payment. -/
def step (world : World) (event : Event) : Option World :=
  match world.memory.row event.call.paymentId,
    world.mongo.row event.call.paymentId with
  | some payment, some document =>
      some
        { memory := world.memory.modify event.call.paymentId
            (fun payment => (onMemory event.memoryNow event.call payment).2)
            (id_onMemory event.memoryNow event.call)
          mongo := world.mongo.modify event.call.paymentId
            (fun document => (onMongo event.mongoNow event.call document).2)
            (id_onMongo event.mongoNow event.call)
          outcomes := world.outcomes ++
            [((onMemory event.memoryNow event.call payment).1,
              (onMongo event.mongoNow event.call document).1)] }
  | _, _ => none

/-- The repositories hold equal payments and have returned the same. -/
structure Agrees (world : World) : Prop where
  payments : ∀ paymentId, (world.memory.row paymentId).map unstamped =
    (world.mongo.row paymentId).map fun document => unstamped document.decode
  outcomes : ∀ p ∈ world.outcomes, p.1.Same p.2

/-- BSON keeps all of the times of the messages. -/
def Whole (messages : List PendingMessage) : Prop :=
  ∀ message ∈ messages, PendingMessage.stored message = message

/-- A retry would leave the message as it is. -/
def Settled (nextAttemptAt : Int) (attempts : Nat) (message : BsonMessage) : Prop :=
  message.nextAttemptAt = nextAttemptAt ∧ message.attempts = attempts ∧
    message.claimToken.getD "" = "" ∧ message.claimedUntil = none

/-- Some message matches the retry; of the first one the repositories make the
same, and no later one is changed. -/
def RetriesOne (messageId claimToken : String) (nextAttemptAt : Int) (attempts : Nat)
    (messages : List BsonMessage) : Prop :=
  ∃ before message after, messages = before ++ message :: after ∧
    (∀ other ∈ before, matchesClaim messageId claimToken other.decode = false) ∧
    matchesClaim messageId claimToken message.decode = true ∧
    (if message.claimToken = some claimToken then date nextAttemptAt = nextAttemptAt
      else Settled nextAttemptAt attempts message) ∧
    ∀ other ∈ after, other.matches messageId claimToken = true →
      Settled (date nextAttemptAt) attempts other

/-- The document is one on which the call does the same in both repositories. -/
def Alike (document : Document) : Call → Prop
  | .reserveForProcessing _ now =>
      (reserveUpdate now).filter document.fields = true → date now = now
  | .enqueueMessages _ messages => Whole messages
  | .markFailed _ _ messages =>
      document.fields.paymentStatus = .processing →
        document.fields.processingStartedAt = none ∧ Whole messages
  | .markExpired _ messages => isOpen document.fields = true → Whole messages
  | .markCompleted _ eventId confirmedAt messages =>
      isOpen document.fields = true →
        date confirmedAt = confirmedAt ∧ Whole messages ∧
          (eventId = "" → "" ∈ document.fields.webhookEventIds)
  | .markDelivery _ _ _ messages =>
      document.fields.paymentStatus = .completed →
        document.fields.deliveryStatus = .pending → Whole messages
  | .acknowledgePendingPublish _ messageId claimToken =>
      claimToken = "" → ∀ message ∈ document.messages, message.id = messageId →
        message.claimToken ≠ none
  | .retryPendingPublish _ messageId claimToken nextAttemptAt attempts =>
      RetriesOne messageId claimToken nextAttemptAt attempts document.messages

/-- What a call does to a payment and to an equal document, and what it returns. -/
structure Matches (memory : Outcome × Payment) (mongo : Outcome × Document) : Prop where
  outcome : memory.1.Same mongo.1
  payment : unstamped memory.2 = unstamped mongo.2.decode

/-- A payment but for its outbox and the time of its last update. -/
def bare (payment : Payment) : Payment :=
  { payment with
    pendingMessages := []
    updatedAt := 0 }

theorem unstamped_eq_iff {p q : Payment} :
    unstamped p = unstamped q ↔
      bare p = bare q ∧ p.pendingMessages = q.pendingMessages := by
  simp only [unstamped, bare, Payment.mk.injEq]
  tauto

theorem eq_of_unstamped {p q : Payment} (h : unstamped p = unstamped q) :
    p = { q with updatedAt := p.updatedAt } := by
  simp only [unstamped, Payment.mk.injEq] at h
  cases p
  cases q
  simp_all

theorem map_stored_eq_iff (messages : List PendingMessage) :
    messages = messages.map PendingMessage.stored ↔ Whole messages := by
  induction messages with
  | nil => simp [Whole]
  | cons message messages ih =>
      rw [List.map_cons, List.cons.injEq, ih, Whole, Whole, List.forall_mem_cons,
        eq_comm]

theorem date_lt_iff {time expiry : Int} (h : date expiry = expiry) :
    date time < expiry ↔ time < expiry := by
  unfold date at *
  omega

variable {document : Document} {now now' : Int} {p : Payment}

theorem unstamped_pushed_iff {q r : Payment} {messages : List PendingMessage}
    (h : q.pendingMessages = r.pendingMessages) :
    unstamped { q with pendingMessages := q.pendingMessages ++ messages } =
        unstamped { r with pendingMessages :=
          r.pendingMessages ++ messages.map PendingMessage.stored } ↔
      bare q = bare r ∧ Whole messages := by
  rw [unstamped_eq_iff]
  refine and_congr Iff.rfl ?_
  rw [h, List.append_cancel_left_eq, map_stored_eq_iff]

theorem matches_transition_iff {messages : List PendingMessage}
    {allowed : Payment → Bool} {updater : Payment → Payment} {u : DocumentUpdate}
    (hp : unstamped p = unstamped document.decode) (hpush : u.update.push = messages)
    (hallowed : allowed p = u.update.filter document.decode)
    (hkept : (updater p).pendingMessages = p.pendingMessages) :
    Matches (transition messages allowed updater now p)
        (transitionWithMessages u document) ↔
      (u.update.filter document.decode = true →
        bare (updater p) = bare (u.update.set document.decode) ∧ Whole messages) := by
  have hpending : (updater p).pendingMessages =
      (u.update.set document.decode).pendingMessages := by
    rw [hkept, u.pendingMessages_set, (unstamped_eq_iff.mp hp).2]
  have hafter : unstamped
      { updater p with
        pendingMessages := (updater p).pendingMessages ++ messages
        updatedAt := now } = unstamped (document.apply u).decode ↔
      bare (updater p) = bare (u.update.set document.decode) ∧ Whole messages := by
    rw [decode_apply, Update.apply, hpush]
    exact unstamped_pushed_iff hpending
  unfold transition transitionWithMessages
  rw [hallowed]
  by_cases hfilter : u.update.filter document.decode = true
  · rw [if_pos hfilter, if_pos hfilter, ← hafter]
    constructor
    · exact fun h _ => h.payment
    · intro h
      exact ⟨⟨congrArg some (h hfilter), rfl⟩, h hfilter⟩
  · rw [if_neg hfilter, if_neg hfilter]
    exact iff_of_true ⟨⟨congrArg some hp, rfl⟩, hp⟩ fun h => absurd h hfilter

theorem isOpen_eq_allowedWhenOpen (h : unstamped p = unstamped document.decode) :
    allowedWhenOpen p = isOpen document.decode := by
  rw [eq_of_unstamped h]
  simp [allowedWhenOpen, isOpen]

theorem matches_markFailed_iff (hp : unstamped p = unstamped document.decode)
    (paymentId reason : String) (messages : List PendingMessage) :
    Matches (onMemory now (.markFailed paymentId reason messages) p)
        (onMongo now' (.markFailed paymentId reason messages) document) ↔
      Alike document (.markFailed paymentId reason messages) := by
  have hstatus : p.paymentStatus = document.fields.paymentStatus := by
    rw [eq_of_unstamped hp]
    rfl
  rw [onMemory, onMongo, markFailed]
  refine (matches_transition_iff hp ?_ ?_ ?_).trans ?_
  · rfl
  · simp only [hstatus]
    rfl
  · rfl
  · rw [eq_of_unstamped hp]
    simp only [failedUpdate, decide_eq_true_eq, Alike]
    refine imp_congr_right fun _ => and_congr_left' ?_
    simp [bare, Document.decode]

theorem matches_markExpired_iff (hp : unstamped p = unstamped document.decode)
    (paymentId : String) (messages : List PendingMessage) :
    Matches (onMemory now (.markExpired paymentId messages) p)
        (onMongo now' (.markExpired paymentId messages) document) ↔
      Alike document (.markExpired paymentId messages) := by
  rw [onMemory, onMongo, markExpired]
  refine (matches_transition_iff hp ?_ ?_ ?_).trans ?_
  · rfl
  · exact isOpen_eq_allowedWhenOpen hp
  · rfl
  · rw [eq_of_unstamped hp]
    refine imp_congr_right fun _ => ?_
    simp [expiredUpdate, bare, Document.decode]

theorem webhookEventIds_eq_iff (eventId : String) (webhookEventIds : List String) :
    (if eventId ≠ "" ∧ eventId ∉ webhookEventIds then webhookEventIds ++ [eventId]
      else webhookEventIds) =
        (if eventId ∈ webhookEventIds then webhookEventIds
          else webhookEventIds ++ [eventId]) ↔
      (eventId = "" → "" ∈ webhookEventIds) := by
  by_cases hempty : eventId = ""
  · subst hempty
    simp
  · by_cases hmem : eventId ∈ webhookEventIds
    · simp [hempty, hmem]
    · simp [hempty, hmem]

theorem matches_markCompleted_iff (hp : unstamped p = unstamped document.decode)
    (paymentId eventId : String) (confirmedAt : Int) (messages : List PendingMessage) :
    Matches (onMemory now (.markCompleted paymentId eventId confirmedAt messages) p)
        (onMongo now' (.markCompleted paymentId eventId confirmedAt messages)
          document) ↔
      Alike document (.markCompleted paymentId eventId confirmedAt messages) := by
  rw [onMemory, onMongo, markCompleted]
  refine (matches_transition_iff hp ?_ ?_ ?_).trans ?_
  · rfl
  · exact isOpen_eq_allowedWhenOpen hp
  · rfl
  · rw [eq_of_unstamped hp]
    refine imp_congr_right fun _ => ?_
    simp only [completedUpdate, bare, Document.decode, Payment.mk.injEq,
      Option.some.injEq, true_and, and_true]
    constructor
    · rintro ⟨⟨hwhole, hids⟩, hmessages⟩
      exact ⟨hwhole.symm, hmessages, (webhookEventIds_eq_iff _ _).mp hids⟩
    · rintro ⟨hwhole, hmessages, hids⟩
      exact ⟨⟨hwhole.symm, (webhookEventIds_eq_iff _ _).mpr hids⟩, hmessages⟩

theorem matches_markDelivery_iff (hp : unstamped p = unstamped document.decode)
    (paymentId : String) (status : DeliveryStatus) (reason : String)
    (messages : List PendingMessage) :
    Matches (onMemory now (.markDelivery paymentId status reason messages) p)
        (onMongo now' (.markDelivery paymentId status reason messages) document) ↔
      Alike document (.markDelivery paymentId status reason messages) := by
  rw [onMemory, onMongo, markDelivery]
  refine (matches_transition_iff hp ?_ ?_ ?_).trans ?_
  · rfl
  · rw [eq_of_unstamped hp]
    rfl
  · rfl
  · rw [eq_of_unstamped hp]
    simp [deliveryUpdate, bare, Document.decode, Alike]

theorem matches_reserveForProcessing_iff (hp : unstamped p = unstamped document.decode)
    (paymentId : String) (time : Int) :
    Matches (onMemory now (.reserveForProcessing paymentId time) p)
        (onMongo now' (.reserveForProcessing paymentId time) document) ↔
      Alike document (.reserveForProcessing paymentId time) := by
  have hallowed : (reserveUpdate time).filter document.decode = true ↔
      ¬ (p.paymentStatus ≠ .pending ∨ ¬ time < p.expiresAt) := by
    rw [eq_of_unstamped hp]
    simp [reserveUpdate, Document.decode, date_lt_iff document.expiresAt_whole]
  rw [onMemory, onMongo, reserveForProcessing, mongoReserveForProcessing]
  by_cases hfilter : (reserveUpdate time).filter document.decode = true
  · have hafter : unstamped
        { p with
          paymentStatus := .processing
          processingAttempts := p.processingAttempts + 1
          processingStartedAt := some time
          paymentFailureReason := ""
          updatedAt := time } =
        unstamped (document.apply (reserveUpdateOf time)).decode ↔ date time = time := by
      rw [eq_of_unstamped hp, decode_apply]
      simp [reserveUpdateOf, Update.apply, reserveUpdate, unstamped, eq_comm]
    rw [if_pos hfilter, if_neg (hallowed.mp hfilter)]
    constructor
    · exact fun h _ => hafter.mp h.payment
    · intro h
      have hequal := hafter.mpr (h hfilter)
      exact ⟨congrArg some hequal, hequal⟩
  · rw [if_neg hfilter, if_pos (not_not.mp (mt hallowed.mpr hfilter))]
    exact iff_of_true ⟨rfl, hp⟩ fun h => absurd h hfilter

theorem matches_enqueueMessages_iff (hp : unstamped p = unstamped document.decode)
    (paymentId : String) (messages : List PendingMessage) :
    Matches (onMemory now (.enqueueMessages paymentId messages) p)
        (onMongo now' (.enqueueMessages paymentId messages) document) ↔
      Alike document (.enqueueMessages paymentId messages) := by
  rw [onMemory, onMongo, enqueueMessages, mongoEnqueueMessages]
  by_cases hempty : messages = []
  · subst hempty
    rw [if_pos rfl, List.append_nil]
    exact iff_of_true ⟨rfl, hp⟩ (by simp [Alike, Whole])
  · have hafter : unstamped
        { p with
          pendingMessages := p.pendingMessages ++ messages
          updatedAt := now } =
        unstamped (document.apply
          ⟨enqueueUpdate messages now', fun _ => rfl, fun _ => rfl⟩).decode ↔
        bare p = bare document.decode ∧ Whole messages := by
      rw [decode_apply, Update.apply]
      exact unstamped_pushed_iff (unstamped_eq_iff.mp hp).2
    rw [if_neg hempty]
    constructor
    · exact fun h => (hafter.mp h.payment).2
    · exact fun h => ⟨rfl, hafter.mpr ⟨(unstamped_eq_iff.mp hp).1, h⟩⟩

theorem keeps_eq_not_matchesClaim (messageId claimToken : String)
    (message : PendingMessage) :
    decide (message.id ≠ messageId ∨ message.claimToken ≠ claimToken) =
      !matchesClaim messageId claimToken message := by
  rw [Bool.eq_iff_iff]
  simp [matchesClaim]

theorem matchesClaim_of_matches {messageId claimToken : String} {message : BsonMessage}
    (h : message.matches messageId claimToken = true) :
    matchesClaim messageId claimToken message.decode = true := by
  obtain ⟨hid, htoken⟩ := of_decide_eq_true h
  exact decide_eq_true ⟨hid, by simp [BsonMessage.decode, htoken]⟩

theorem matches_of_matchesClaim {messageId claimToken : String} {message : BsonMessage}
    (h : matchesClaim messageId claimToken message.decode = true) :
    message.matches messageId claimToken = true ∨
      claimToken = "" ∧ message.id = messageId ∧ message.claimToken = none := by
  obtain ⟨hid, htoken⟩ := of_decide_eq_true h
  cases hstored : message.claimToken with
  | none =>
      refine .inr ⟨?_, hid, rfl⟩
      simpa [BsonMessage.decode, hstored] using htoken.symm
  | some token =>
      refine .inl (decide_eq_true ⟨hid, ?_⟩)
      simpa [BsonMessage.decode, hstored] using htoken

/-- What the smaller filter keeps reads like what the larger one keeps exactly if
nothing else is kept. -/
theorem map_filter_eq_iff {α β : Type} (f : α → β) (keep keep' : α → Bool)
    (h : ∀ x, keep x = true → keep' x = true) (xs : List α) :
    (xs.filter keep).map f = (xs.filter keep').map f ↔
      ∀ x ∈ xs, keep' x = true → keep x = true := by
  constructor
  · intro heq x hx hkept
    have hlength := congrArg List.length heq
    rw [List.length_map, List.length_map] at hlength
    have hsame := (List.monotone_filter_right xs h).eq_of_length hlength
    have hmem : x ∈ xs.filter keep := hsame ▸ List.mem_filter.mpr ⟨hx, hkept⟩
    exact (List.mem_filter.mp hmem).2
  · intro hback
    refine congrArg (List.map f) (List.filter_congr fun x hx => ?_)
    exact Bool.eq_iff_iff.mpr ⟨h x, hback x hx⟩

theorem matches_acknowledge_iff (hp : unstamped p = unstamped document.decode)
    (paymentId messageId claimToken : String) :
    Matches (onMemory now (.acknowledgePendingPublish paymentId messageId claimToken) p)
        (onMongo now' (.acknowledgePendingPublish paymentId messageId claimToken)
          document) ↔
      Alike document (.acknowledgePendingPublish paymentId messageId claimToken) := by
  have hfilter : (document.decode.pendingMessages.filter fun message =>
        decide (message.id ≠ messageId ∨ message.claimToken ≠ claimToken)) =
      (document.messages.filter fun message =>
        !matchesClaim messageId claimToken message.decode).map BsonMessage.decode := by
    simp only [keeps_eq_not_matchesClaim, Document.decode, List.filter_map]
    rfl
  have hkept := map_filter_eq_iff BsonMessage.decode
    (fun message => !matchesClaim messageId claimToken message.decode)
    (fun message => !message.matches messageId claimToken)
    (fun message => by simpa using mt matchesClaim_of_matches) document.messages
  have hafter : Matches
      (onMemory now (.acknowledgePendingPublish paymentId messageId claimToken) p)
      (onMongo now' (.acknowledgePendingPublish paymentId messageId claimToken)
        document) ↔ ∀ message ∈ document.messages,
        (!message.matches messageId claimToken) = true →
          (!matchesClaim messageId claimToken message.decode) = true := by
    rw [← hkept, ← hfilter, onMemory, onMongo, acknowledgePendingPublish,
      mongoAcknowledge, eq_of_unstamped hp]
    constructor
    · exact fun h => (unstamped_eq_iff.mp h.payment).2
    · exact fun h => ⟨rfl, unstamped_eq_iff.mpr ⟨rfl, h⟩⟩
  rw [hafter]
  constructor
  · intro h hempty message hmem hid hnone
    have hmatches : message.matches messageId claimToken = false := by
      simp [BsonMessage.matches, hnone]
    have hnot := h message hmem (by rw [hmatches]; rfl)
    simp [matchesClaim, BsonMessage.decode, hid, hnone, hempty] at hnot
  · intro h message hmem hnot
    rw [Bool.not_eq_true'] at hnot ⊢
    refine Bool.eq_false_iff.mpr fun hclaim => ?_
    rcases matches_of_matchesClaim hclaim with hmatches | ⟨hempty, hid, hnone⟩
    · rw [hnot] at hmatches
      cases hmatches
    · exact h hempty message hmem hid hnone

section Retry

variable {messageId claimToken : String} {nextAttemptAt : Int} {attempts : Nat}

theorem updateFirst_append_cons {α : Type} {wanted : α → Bool} (f : α → α)
    {before after : List α} {x : α} (hbefore : ∀ y ∈ before, wanted y = false)
    (hx : wanted x = true) :
    updateFirst wanted f (before ++ x :: after) = before ++ f x :: after := by
  induction before with
  | nil => simp [updateFirst, hx]
  | cons y before ih =>
      obtain ⟨hy, hbefore⟩ := List.forall_mem_cons.mp hbefore
      simp [updateFirst, hy, ih hbefore]

theorem rescheduled_eq_reschedule_iff (message : BsonMessage) :
    rescheduled nextAttemptAt attempts message.decode =
        (message.reschedule nextAttemptAt attempts).decode ↔
      date nextAttemptAt = nextAttemptAt := by
  simp [rescheduled, BsonMessage.reschedule, BsonMessage.decode, eq_comm]

theorem rescheduled_eq_decode_iff (message : BsonMessage) :
    rescheduled nextAttemptAt attempts message.decode = message.decode ↔
      Settled nextAttemptAt attempts message := by
  simp only [rescheduled, BsonMessage.decode, PendingMessage.mk.injEq, true_and,
    Settled]
  tauto

theorem decode_eq_reschedule_iff (message : BsonMessage) :
    message.decode = (message.reschedule nextAttemptAt attempts).decode ↔
      Settled (date nextAttemptAt) attempts message := by
  simp only [BsonMessage.reschedule, BsonMessage.decode, PendingMessage.mk.injEq,
    true_and, Settled]
  tauto

theorem rescheduled_eq_retry_iff {message : BsonMessage}
    (h : matchesClaim messageId claimToken message.decode = true) :
    rescheduled nextAttemptAt attempts message.decode =
        (message.retry messageId claimToken nextAttemptAt attempts).decode ↔
      if message.claimToken = some claimToken then date nextAttemptAt = nextAttemptAt
      else Settled nextAttemptAt attempts message := by
  have hmatches : message.matches messageId claimToken = true ↔
      message.claimToken = some claimToken := by
    rw [BsonMessage.matches, decide_eq_true_iff]
    exact and_iff_right (of_decide_eq_true h).1
  by_cases htoken : message.claimToken = some claimToken
  · rw [BsonMessage.retry, if_pos (hmatches.mpr htoken), if_pos htoken]
    exact rescheduled_eq_reschedule_iff message
  · rw [BsonMessage.retry, if_neg (mt hmatches.mp htoken), if_neg htoken]
    exact rescheduled_eq_decode_iff message

theorem decode_eq_retry_iff (message : BsonMessage) :
    message.decode = (message.retry messageId claimToken nextAttemptAt attempts).decode ↔
      (message.matches messageId claimToken = true →
        Settled (date nextAttemptAt) attempts message) := by
  by_cases hmatches : message.matches messageId claimToken = true
  · rw [BsonMessage.retry, if_pos hmatches, decode_eq_reschedule_iff]
    exact (imp_iff_right hmatches).symm
  · rw [BsonMessage.retry, if_neg hmatches]
    exact iff_of_true rfl fun h => absurd h hmatches

theorem matches_retry_of_split (hp : unstamped p = unstamped document.decode)
    (paymentId : String) {before after : List BsonMessage} {message : BsonMessage}
    (hmessages : document.messages = before ++ message :: after)
    (hbefore : ∀ other ∈ before, matchesClaim messageId claimToken other.decode = false)
    (hmessage : matchesClaim messageId claimToken message.decode = true) :
    Matches
        (onMemory now (.retryPendingPublish paymentId messageId claimToken nextAttemptAt
          attempts) p)
        (onMongo now' (.retryPendingPublish paymentId messageId claimToken nextAttemptAt
          attempts) document) ↔
      (if message.claimToken = some claimToken then date nextAttemptAt = nextAttemptAt
        else Settled nextAttemptAt attempts message) ∧
      ∀ other ∈ after, other.matches messageId claimToken = true →
        Settled (date nextAttemptAt) attempts other := by
  have hread : document.decode.pendingMessages = before.map BsonMessage.decode ++
      message.decode :: after.map BsonMessage.decode := by
    simp [Document.decode, hmessages]
  have hany : document.decode.pendingMessages.any (matchesClaim messageId claimToken) =
      true := by
    simp [hread, hmessage]
  have hfirst : updateFirst (matchesClaim messageId claimToken)
      (rescheduled nextAttemptAt attempts) document.decode.pendingMessages =
        before.map BsonMessage.decode ++
          rescheduled nextAttemptAt attempts message.decode ::
            after.map BsonMessage.decode := by
    rw [hread]
    exact updateFirst_append_cons _ (List.forall_mem_map.mpr hbefore) hmessage
  have hunmatched : before.map (BsonMessage.retry messageId claimToken nextAttemptAt
      attempts) = before := by
    refine (List.map_congr_left fun other hother => ?_).trans (List.map_id before)
    have hnot : ¬ other.matches messageId claimToken = true :=
      mt matchesClaim_of_matches (Bool.eq_false_iff.mp (hbefore other hother))
    exact if_neg hnot
  have hall : (document.messages.map (BsonMessage.retry messageId claimToken
      nextAttemptAt attempts)).map BsonMessage.decode = before.map BsonMessage.decode ++
        (message.retry messageId claimToken nextAttemptAt attempts).decode ::
          (after.map (BsonMessage.retry messageId claimToken nextAttemptAt
            attempts)).map BsonMessage.decode := by
    rw [hmessages, List.map_append, hunmatched, List.map_append, List.map_cons,
      List.map_cons]
  have hmatches : Matches
      (onMemory now (.retryPendingPublish paymentId messageId claimToken nextAttemptAt
        attempts) p)
      (onMongo now' (.retryPendingPublish paymentId messageId claimToken nextAttemptAt
        attempts) document) ↔
      updateFirst (matchesClaim messageId claimToken) (rescheduled nextAttemptAt attempts)
        document.decode.pendingMessages = (document.messages.map (BsonMessage.retry
          messageId claimToken nextAttemptAt attempts)).map BsonMessage.decode := by
    rw [onMemory, onMongo, retryPendingPublish, mongoRetry, eq_of_unstamped hp,
      if_pos hany]
    constructor
    · exact fun h => (unstamped_eq_iff.mp h.payment).2
    · exact fun h => ⟨rfl, unstamped_eq_iff.mpr ⟨rfl, h⟩⟩
  rw [hmatches, hfirst, hall, List.append_cancel_left_eq, List.cons.injEq, List.map_map,
    List.map_inj_left]
  refine and_congr (rescheduled_eq_retry_iff hmessage) (forall₂_congr fun other _ => ?_)
  exact decode_eq_retry_iff other

end Retry

theorem matches_retry_iff (hp : unstamped p = unstamped document.decode)
    (paymentId messageId claimToken : String) (nextAttemptAt : Int) (attempts : Nat) :
    Matches
        (onMemory now (.retryPendingPublish paymentId messageId claimToken nextAttemptAt
          attempts) p)
        (onMongo now' (.retryPendingPublish paymentId messageId claimToken nextAttemptAt
          attempts) document) ↔
      Alike document (.retryPendingPublish paymentId messageId claimToken nextAttemptAt
        attempts) := by
  constructor
  · intro h
    have hany : p.pendingMessages.any (matchesClaim messageId claimToken) = true := by
      by_contra hnone
      have houtcome := h.outcome
      rw [onMemory, retryPendingPublish, if_neg hnone] at houtcome
      cases houtcome
    rw [(unstamped_eq_iff.mp hp).2, Document.decode, List.any_map] at hany
    obtain ⟨before, message, after, hmessages, hmessage, hbefore, _⟩ :=
      updateFirst_split id hany
    exact ⟨before, message, after, hmessages, hbefore, hmessage,
      (matches_retry_of_split hp paymentId hmessages hbefore hmessage).mp h⟩
  · rintro ⟨before, message, after, hmessages, hbefore, hmessage, h⟩
    exact (matches_retry_of_split hp paymentId hmessages hbefore hmessage).mpr h

/-- On an equal payment and document a call does the same exactly if the document
is one on which it does. -/
theorem matches_iff (hp : unstamped p = unstamped document.decode) (call : Call) :
    Matches (onMemory now call p) (onMongo now' call document) ↔ Alike document call := by
  cases call with
  | reserveForProcessing paymentId time => exact matches_reserveForProcessing_iff hp _ _
  | enqueueMessages paymentId messages => exact matches_enqueueMessages_iff hp _ _
  | markFailed paymentId reason messages => exact matches_markFailed_iff hp _ _ _
  | markExpired paymentId messages => exact matches_markExpired_iff hp _ _
  | markCompleted paymentId eventId confirmedAt messages =>
      exact matches_markCompleted_iff hp _ _ _ _
  | markDelivery paymentId status reason messages =>
      exact matches_markDelivery_iff hp _ _ _ _
  | acknowledgePendingPublish paymentId messageId claimToken =>
      exact matches_acknowledge_iff hp _ _ _
  | retryPendingPublish paymentId messageId claimToken nextAttemptAt attempts =>
      exact matches_retry_iff hp _ _ _ _ _

end Pair

section Runs

theorem step_cases {world next : World} {event : Event}
    (h : step world event = some next) :
    ∃ payment document, world.memory.row event.call.paymentId = some payment ∧
      world.mongo.row event.call.paymentId = some document ∧
      (∀ paymentId, next.memory.row paymentId = if paymentId = event.call.paymentId
        then some (onMemory event.memoryNow event.call payment).2
        else world.memory.row paymentId) ∧
      (∀ paymentId, next.mongo.row paymentId = if paymentId = event.call.paymentId
        then some (onMongo event.mongoNow event.call document).2
        else world.mongo.row paymentId) ∧
      next.outcomes = world.outcomes ++
        [((onMemory event.memoryNow event.call payment).1,
          (onMongo event.mongoNow event.call document).1)] := by
  unfold step at h
  cases hmemory : world.memory.row event.call.paymentId with
  | none =>
      rw [hmemory] at h
      cases h
  | some payment =>
      cases hmongo : world.mongo.row event.call.paymentId with
      | none =>
          rw [hmemory, hmongo] at h
          cases h
      | some document =>
          rw [hmemory, hmongo] at h
          obtain rfl := Option.some.inj h
          exact ⟨payment, document, rfl, rfl,
            Table.row_modify_of_some hmemory _ (id_onMemory _ _),
            Table.row_modify_of_some hmongo _ (id_onMongo _ _), rfl⟩

/-- The call of an event is on a document on which it does the same. -/
def StepAlike (world : World) (event : Event) : Prop :=
  ∀ document, world.mongo.row event.call.paymentId = some document →
    Alike document event.call

theorem agrees_step_iff {world next : World} {event : Event} (h : Agrees world)
    (hstep : step world event = some next) : Agrees next ↔ StepAlike world event := by
  obtain ⟨payment, document, hpayment, hdocument, hmemory, hmongo, houtcomes⟩ :=
    step_cases hstep
  have hp : unstamped payment = unstamped document.decode := by
    have hequal := h.payments event.call.paymentId
    rw [hpayment, hdocument] at hequal
    exact Option.some.inj hequal
  have hiff : Matches (onMemory event.memoryNow event.call payment)
      (onMongo event.mongoNow event.call document) ↔ Alike document event.call :=
    matches_iff hp event.call
  have halike : StepAlike world event ↔ Alike document event.call := by
    simp [StepAlike, hdocument]
  rw [halike, ← hiff]
  constructor
  · intro hnext
    refine ⟨hnext.outcomes (_, _) ?_, ?_⟩
    · rw [houtcomes]
      exact List.mem_append_right _ (List.mem_singleton_self _)
    · have hequal := hnext.payments event.call.paymentId
      rw [hmemory, hmongo, if_pos rfl, if_pos rfl] at hequal
      exact Option.some.inj hequal
  · intro hmatches
    constructor
    · intro paymentId
      rw [hmemory, hmongo]
      by_cases hid : paymentId = event.call.paymentId
      · rw [if_pos hid, if_pos hid]
        exact congrArg some hmatches.payment
      · rw [if_neg hid, if_neg hid]
        exact h.payments paymentId
    · rw [houtcomes]
      intro outcome houtcome
      rcases List.mem_append.mp houtcome with hold | hnew
      · exact h.outcomes outcome hold
      · rw [List.mem_singleton.mp hnew]
        exact hmatches.outcome

end Runs

/-- From equal payments the repositories return the same at every call, and hold
equal payments after it, exactly if each call is on a document on which both do the
same. -/
theorem simulates_iff {start world : World} {trace : List (World × Event)}
    (hstart : Agrees start) (hrun : StepSystem.Run step start trace world) :
    (∀ w ∈ StepSystem.states trace world, Agrees w) ↔
      ∀ p ∈ trace, StepAlike p.1 p.2 := by
  refine Iff.trans ?_ (hrun.always_iff StepAlike hstart
    fun _ _ _ _ h hstep => agrees_step_iff h hstep)
  simp only [StepSystem.states, List.mem_append, List.mem_map, List.mem_singleton,
    or_imp, forall_and, forall_eq, forall_exists_index, and_imp]
  refine and_congr ⟨fun h p hp => h p.1 p hp rfl, ?_⟩ Iff.rfl
  rintro h _ p hp rfl
  exact h p hp

section Sample

def samplePayment : Payment :=
  newPayment
    { idempotencyKey := "key-1"
      requestHash := "hash-1"
      userId := "user-1"
      customerName := "Ada"
      customerEmail := "ada@modularis.dev"
      customerCellphone := ""
      customerTaxId := ""
      amount := 100
      currency := "BRL" }
    "payment-1" "ref-1" "BRL" (31 * minute)

def sampleDocument : Document where
  fields := samplePayment
  messages := []
  expiresAt_whole := by decide

def sampleStart : World where
  memory := Table.empty.insertIfAbsent samplePayment
  mongo := Table.empty.insertIfAbsent sampleDocument
  outcomes := []

theorem agrees_sampleStart : Agrees sampleStart where
  payments := by
    intro paymentId
    have hmemory : sampleStart.memory.row paymentId =
        if paymentId = samplePayment.id then some samplePayment else none :=
      Table.row_insertIfAbsent_of_none (t := Table.empty) (r := samplePayment) rfl
        paymentId
    have hmongo : sampleStart.mongo.row paymentId =
        if paymentId = samplePayment.id then some sampleDocument else none :=
      Table.row_insertIfAbsent_of_none (t := Table.empty) (r := sampleDocument) rfl
        paymentId
    rw [hmemory, hmongo]
    by_cases hid : paymentId = samplePayment.id
    · rw [if_pos hid, if_pos hid]
      rfl
    · rw [if_neg hid, if_neg hid]
      rfl
  outcomes := by simp [sampleStart]

def sampleEvent (call : Call) : Event where
  call := call
  memoryNow := minute
  mongoNow := minute

def sampleReserve : Event := sampleEvent (.reserveForProcessing "payment-1" minute)

def sampleFail : Event := sampleEvent (.markFailed "payment-1" "refused" [])

/-- A message for the sample's outbox. -/
def sampleMessage (id : String) : PendingMessage where
  id := id
  exchange := "events"
  routingKey := "payment.process.requested"
  body := .processRequested (newEnvelopeWithMetadata "payment.process.requested" "ppd-1"
    "c-1" "" "" "payment-service"
    { paymentId := "payment-1"
      paymentReference := "ref-1" })
  attempts := 0
  nextAttemptAt := minute
  claimToken := ""
  claimedUntil := none

/-- The payment is completed and delivered; a failure comes too late, and nobody has
claimed the message that is acknowledged. -/
def sampleEvents : List Event :=
  [sampleReserve, sampleEvent (.enqueueMessages "payment-1" [sampleMessage "message-1"]),
    sampleEvent (.markCompleted "payment-1" "event-1" (2 * minute)
      [sampleMessage "message-2"]),
    sampleEvent (.acknowledgePendingPublish "payment-1" "message-1" "token-1"),
    sampleEvent (.markDelivery "payment-1" .delivered "" [sampleMessage "message-3"]),
    sampleFail]

theorem simulates_iff_sample : ∃ world : World,
    (world.mongo.row "payment-1").map (fun document =>
      (document.fields.paymentStatus, document.fields.deliveryStatus,
        document.messages.map BsonMessage.id)) =
      some (.completed, .delivered, ["message-1", "message-2", "message-3"]) ∧
    ((∀ w ∈ StepSystem.states (StepSystem.traceOf step sampleStart sampleEvents) world,
        Agrees w) ↔
      ∀ p ∈ StepSystem.traceOf step sampleStart sampleEvents, StepAlike p.1 p.2) := by
  obtain ⟨world, hworld, hdocument⟩ : ∃ world : World,
    StepSystem.replay step sampleStart sampleEvents = some world ∧
    (world.mongo.row "payment-1").map (fun document =>
      (document.fields.paymentStatus, document.fields.deliveryStatus,
        document.messages.map BsonMessage.id)) =
      some (.completed, .delivered, ["message-1", "message-2", "message-3"]) :=
    ⟨_, rfl, rfl⟩
  exact ⟨world, hdocument,
    simulates_iff agrees_sampleStart (StepSystem.run_of_replay hworld)⟩

/-- A failure leaves the start of the processing in memory alone. -/
theorem failed_keeps_start : ∃ (trace : List (World × Event)) (world : World),
    Agrees sampleStart ∧ StepSystem.Run step sampleStart trace world ∧
    ¬ ∀ w ∈ StepSystem.states trace world, Agrees w := by
  obtain ⟨world, hworld, hmemory, hmongo⟩ : ∃ world,
      StepSystem.replay step sampleStart [sampleReserve, sampleFail] = some world ∧
      (world.memory.row "payment-1").map Payment.processingStartedAt =
        some (some minute) ∧
      (world.mongo.row "payment-1").map (fun document =>
        document.decode.processingStartedAt) = some none :=
    ⟨_, rfl, rfl, rfl⟩
  refine ⟨_, world, agrees_sampleStart, StepSystem.run_of_replay hworld, fun hall => ?_⟩
  have hagrees := hall world (List.mem_append_right _ (List.mem_singleton_self _))
  have hequal := congrArg (Option.map Payment.processingStartedAt)
    (hagrees.payments "payment-1")
  rw [Option.map_map, Option.map_map] at hequal
  have hdiffer := (hmemory.symm.trans hequal).trans hmongo
  revert hdiffer
  decide

end Sample

end Modularis.Payments.MemoryRepository
