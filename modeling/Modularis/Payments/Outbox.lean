import Modularis.Payments.Interleaving

/-!
The outbox of the payment service: `PublishPending` with its claims,
acknowledgements and retries, any number of runs of it beside the handlers.
-/

namespace Modularis.Payments.Outbox

open Modularis.Foundation
open Modularis.Foundation.GoTime
open Modularis.Shared.Durations
open Modularis.Payments.Models
open Modularis.Payments.Repository
open Modularis.Payments.Operations (Request Store)
open Modularis.Payments.Handlers

/-- `pendingPublishLease`, half a minute. -/
def pendingPublishLease : Int := 30 * second

/-- A claimed message and its payment. -/
structure PendingPublish where
  paymentId : String
  message : PendingMessage

section Updates

/-- The `$elemMatch` of `ClaimPendingPublishes`; `none` is a missing or null
`claimedUntil`. -/
def claimable (before : Int) (message : PendingMessage) : Bool :=
  decide (message.nextAttemptAt ≤ date before) &&
    match message.claimedUntil with
    | none => true
    | some claimedUntil => decide (claimedUntil ≤ date before)

/-- The positional `$`. -/
def updateFirst {α : Type} (wanted : α → Bool) (f : α → α) : List α → List α
  | [] => []
  | x :: xs => if wanted x then f x :: xs else x :: updateFirst wanted f xs

/-- The message, claimed for a while. -/
def claimMessage (claimToken : String) (claimUntil : Int)
    (message : PendingMessage) : PendingMessage :=
  { message with
    claimToken := claimToken
    claimedUntil := some (date claimUntil) }

/-- The first message that is due is claimed. -/
def claimPayment (claimToken : String) (before claimUntil now : Int)
    (payment : Payment) : Payment :=
  { payment with
    pendingMessages := updateFirst (claimable before)
      (claimMessage claimToken claimUntil) payment.pendingMessages
    updatedAt := date now }

/-- The message that an acknowledgement or a retry is about. -/
def matchesClaim (messageId claimToken : String) (message : PendingMessage) : Bool :=
  decide (message.id = messageId ∧ message.claimToken = claimToken)

/-- The claimed message is pulled. -/
def acknowledgePayment (messageId claimToken : String) (now : Int)
    (payment : Payment) : Payment :=
  { payment with
    pendingMessages := payment.pendingMessages.filter fun message =>
      !matchesClaim messageId claimToken message
    updatedAt := date now }

/-- The message, free to be claimed from a time on. -/
def rescheduleMessage (nextAttemptAt : Int) (attempts : Nat)
    (message : PendingMessage) : PendingMessage :=
  { message with
    nextAttemptAt := date nextAttemptAt
    attempts := attempts
    claimToken := ""
    claimedUntil := none }

/-- The claimed message is rescheduled. -/
def retryPayment (messageId claimToken : String) (nextAttemptAt : Int)
    (attempts : Nat) (now : Int) (payment : Payment) : Payment :=
  { payment with
    pendingMessages := payment.pendingMessages.map fun message =>
      if matchesClaim messageId claimToken message then
        rescheduleMessage nextAttemptAt attempts message
      else message
    updatedAt := date now }

theorem id_claimPayment (claimToken : String) (before claimUntil now : Int)
    (payment : Payment) :
    (claimPayment claimToken before claimUntil now payment).id = payment.id := rfl

theorem id_acknowledgePayment (messageId claimToken : String) (now : Int)
    (payment : Payment) :
    (acknowledgePayment messageId claimToken now payment).id = payment.id := rfl

theorem id_retryPayment (messageId claimToken : String) (nextAttemptAt : Int)
    (attempts : Nat) (now : Int) (payment : Payment) :
    (retryPayment messageId claimToken nextAttemptAt attempts now payment).id =
      payment.id := rfl

/-- A document that the filter of `ClaimPendingPublishes` matches. -/
structure Eligible (before : Int) where
  payment : Payment
  claimable : payment.pendingMessages.any (claimable before) = true

/-- The payment has a message that is due. -/
def eligible? (before : Int) (payment : Payment) : Option (Eligible before) :=
  if h : payment.pendingMessages.any (claimable before) = true then
    some { payment := payment, claimable := h }
  else none

/-- The query has no sort: the environment prefers a document. -/
def target (payments : Collection) (before : Int) (document : String) :
    Option (Eligible before) :=
  ((payments.row document).bind (eligible? before)).or
    (payments.rows.findSome? (eligible? before))

/-- The document that `FindOneAndUpdate` answers once a message is claimed. -/
structure Claimed (claimToken : String) where
  paymentRecord : Payment
  holds : ∃ message ∈ paymentRecord.pendingMessages, message.claimToken = claimToken

theorem updateFirst_split {α : Type} {wanted : α → Bool} (f : α → α) {xs : List α}
    (h : xs.any wanted = true) :
    ∃ before x after, xs = before ++ x :: after ∧ wanted x = true ∧
      (∀ y ∈ before, wanted y = false) ∧
      updateFirst wanted f xs = before ++ f x :: after := by
  induction xs with
  | nil => cases h
  | cons x xs ih =>
      by_cases hx : wanted x = true
      · exact ⟨[], x, xs, rfl, hx, by simp, by simp [updateFirst, hx]⟩
      · have hrest : xs.any wanted = true := by simpa [hx] using h
        obtain ⟨before, y, after, rfl, hy, hbefore, hupdate⟩ := ih hrest
        exact ⟨x :: before, y, after, rfl, hy, by simpa [hx] using hbefore,
          by simp [updateFirst, hx, hupdate]⟩

/-- The claim of the first message that is due, as `FindOneAndUpdate` returns it. -/
def Eligible.claim {before : Int} (document : Eligible before) (claimToken : String)
    (claimUntil now : Int) : Claimed claimToken where
  paymentRecord := claimPayment claimToken before claimUntil now document.payment
  holds := by
    obtain ⟨_, message, _, _, _, _, hupdate⟩ := updateFirst_split
      (claimMessage claimToken claimUntil) document.claimable
    refine ⟨claimMessage claimToken claimUntil message, ?_, rfl⟩
    rw [claimPayment, hupdate]
    exact List.mem_append_right _ List.mem_cons_self

/-- The first message of the document that carries the token. -/
def Claimed.publish {claimToken : String} (claimed : Claimed claimToken) :
    PendingPublish where
  paymentId := claimed.paymentRecord.id
  message := (claimed.paymentRecord.pendingMessages.find? fun message =>
    decide (message.claimToken = claimToken)).get (by
      rw [List.find?_isSome]
      obtain ⟨message, hmem, htoken⟩ := claimed.holds
      exact ⟨message, hmem, decide_eq_true htoken⟩)

end Updates

section Operations

/-- What a publisher asks of its surroundings. -/
inductive PublishOp where
  | timeNow
  | newString
  | claim (claimToken : String) (before claimUntil : Int)
  | publish (exchange routingKey : String) (body : Body)
  | retryPendingPublish (paymentId messageId claimToken : String)
      (nextAttemptAt : Int) (attempts : Nat)
  | acknowledgePendingPublish (paymentId messageId claimToken : String)

/-- What it is told. -/
abbrev PublishReply : PublishOp → Type
  | .timeNow => Int
  | .newString => String
  | .claim claimToken _ _ => Except String (Option (Claimed claimToken))
  | .publish _ _ _ | .retryPendingPublish _ _ _ _ _
  | .acknowledgePendingPublish _ _ _ => Except String Unit

abbrev PublishProgram := Foundation.Program PublishReply

abbrev call (op : PublishOp) : PublishProgram (PublishReply op) :=
  Foundation.Program.perform op

/-- The loop of `ClaimPendingPublishes` while `remaining` more are wanted. -/
def claimFrom (before claimUntil : Int) (result : List PendingPublish) :
    Nat → PublishProgram (Except String (List PendingPublish))
  | 0 => return .ok result
  | remaining + 1 => do
      let claimToken ← call .newString
      match ← call (.claim claimToken before claimUntil) with
      | .error error => return .error error
      | .ok none => return .ok result
      | .ok (some claimed) =>
          claimFrom before claimUntil (result ++ [claimed.publish]) remaining

/-- At most so many claims, one by one. -/
def claimPendingPublishes (before claimUntil : Int) (limit : Nat) :
    PublishProgram (Except String (List PendingPublish)) :=
  claimFrom before claimUntil [] limit

/-- The body of the loop of `PublishPending`. -/
def publishOne (s : Service) (publish : PendingPublish) : PublishProgram Unit := do
  match ← call (.publish publish.message.exchange publish.message.routingKey
    publish.message.body) with
  | .error _ =>
      let now ← call .timeNow
      let _ ← call (.retryPendingPublish publish.paymentId publish.message.id
        publish.message.claimToken
        (now + backoffDelay (publish.message.attempts + 1)
          s.config.processingDelay s.config.processingBackoff)
        (publish.message.attempts + 1))
      return ()
  | .ok () =>
      let _ ← call (.acknowledgePendingPublish publish.paymentId
        publish.message.id publish.message.claimToken)
      return ()

/-- The claimed messages, one after the other. -/
def publishAll (s : Service) : List PendingPublish → PublishProgram Unit
  | [] => return ()
  | publish :: publishes => do
      publishOne s publish
      publishAll s publishes

/-- One run: what is due is claimed and published. -/
def publishPending (s : Service) : PublishProgram (Except String Unit) := do
  let now ← call .timeNow
  match ← claimPendingPublishes now (now + pendingPublishLease) 100 with
  | .error error => return .error error
  | .ok pendingMessages =>
      publishAll s pendingMessages
      return .ok ()

end Operations

section Effects

/-- A message that a run claimed, and the clock reading that it did so with. -/
structure Claim where
  run : String
  publish : PendingPublish
  claimedUntil : Int
  before : Int

/-- The token that a claim was made with. -/
def Claim.token (claim : Claim) : String := claim.publish.message.claimToken

/-- The claim is on this message. -/
def Claim.on (paymentId messageId : String) (claim : Claim) : Bool :=
  decide (claim.publish.paymentId = paymentId ∧ claim.publish.message.id = messageId)

/-- A call of `Publish`; `accepted` if it returned nil. -/
structure Publication where
  run : String
  exchange : String
  routingKey : String
  body : Body
  accepted : Bool

/-- What the runs did, oldest first.  No operation reads it. -/
structure Log where
  claims : List Claim
  publications : List Publication
  /-- The runs and tokens whose claims were acknowledged or rescheduled. -/
  givenBack : List (String × String)

/-- Nothing was claimed or published. -/
def Log.empty : Log where
  claims := []
  publications := []
  givenBack := []

/-- What publishers share: the store and the history of what they did. -/
structure State where
  store : Store
  log : Log

/-- One payment is updated. -/
def State.modify (state : State) (paymentId : String) (f : Payment → Payment)
    (hf : ∀ payment, (f payment).id = payment.id) (log : Log) : State where
  store :=
    { payments := state.store.payments.modify paymentId f hf
      history := state.store.history }
  log := log

/-- What the environment contributes to a call.  A call may also fail although its
update took effect. -/
structure PublishChoice where
  now : Int
  newId : String
  document : String
  failure : Option String
  applied : Bool

/-- A call that fails may have been applied all the same. -/
def answered {α : Type} (state updated : State) (choice : PublishChoice)
    (answer : α) : Except String α × State :=
  match choice.failure with
  | none => (.ok answer, updated)
  | some error => (.error error, if choice.applied then updated else state)

/-- What a call of a publisher is answered and what it does. -/
def publishAct (run : String) (_ : Unit) (state : State) :
    (op : PublishOp) → PublishChoice → PublishReply op × State
  | .timeNow, choice => (choice.now, state)
  | .newString, choice => (choice.newId, state)
  | .claim claimToken before claimUntil, choice =>
      match target state.store.payments before choice.document with
      | none => answered state state choice none
      | some document =>
          let claimed := document.claim claimToken claimUntil choice.now
          answered state
            (state.modify document.payment.id
              (claimPayment claimToken before claimUntil choice.now)
              (id_claimPayment claimToken before claimUntil choice.now)
              { state.log with
                claims := state.log.claims ++
                  [{ run := run
                     publish := claimed.publish
                     claimedUntil := date claimUntil
                     before := before }] })
            choice (some claimed)
  | .publish exchange routingKey body, choice =>
      let publication : Publication :=
        { run := run
          exchange := exchange
          routingKey := routingKey
          body := body
          accepted := choice.failure.isNone }
      let updated : State :=
        { state with
          log :=
            { state.log with
              publications := state.log.publications ++ [publication] } }
      match choice.failure with
      | none => (.ok (), updated)
      | some error => (.error error, updated)
  | .retryPendingPublish paymentId messageId claimToken nextAttemptAt attempts,
      choice =>
      answered state
        (state.modify paymentId
          (retryPayment messageId claimToken nextAttemptAt attempts choice.now)
          (id_retryPayment messageId claimToken nextAttemptAt attempts choice.now)
          { state.log with
            givenBack := state.log.givenBack ++ [(run, claimToken)] })
        choice ()
  | .acknowledgePendingPublish paymentId messageId claimToken, choice =>
      answered state
        (state.modify paymentId
          (acknowledgePayment messageId claimToken choice.now)
          (id_acknowledgePayment messageId claimToken choice.now)
          { state.log with
            givenBack := state.log.givenBack ++ [(run, claimToken)] })
        choice ()

end Effects

section Runs

/-- The runs of publishers. -/
abbrev Publishers :=
  Pool PublishReply String Unit (Except String Unit) State

abbrev PublishEvent := Pool.Event String Unit PublishChoice

/-- The handlers and the runs of `PublishPending` over one store. -/
structure World where
  payments : Interleaving.World
  publishers : String → Option (Invocation PublishReply Unit (Except String Unit))
  log : Log

/-- Nothing is stored, and nobody runs. -/
def World.init : World where
  payments := Interleaving.World.init
  publishers := fun _ => none
  log := .empty

/-- The world, as publishers see it. -/
def World.publishing (world : World) : Publishers where
  shared :=
    { store := world.payments.shared
      log := world.log }
  invocations := world.publishers

/-- What publishers have changed, put back. -/
def World.withPublishing (world : World) (publishing : Publishers) : World where
  payments := { world.payments with shared := publishing.shared.store }
  publishers := publishing.invocations
  log := publishing.shared.log

/-- A step of a handler or of a publisher. -/
inductive Event where
  | handler (event : Interleaving.Event)
  | publisher (event : PublishEvent)

/-- Handlers and publishers share the store. -/
def step (s : Service) (world : World) : Event → Option World
  | .handler event =>
      (Interleaving.step s world.payments event).map fun payments =>
        { world with payments := payments }
  | .publisher event =>
      (Pool.step (fun _ => publishPending s) publishAct world.publishing event).map
        world.withPublishing

abbrev Run (s : Service) := StepSystem.Run (step s) World.init

end Runs

end Modularis.Payments.Outbox
