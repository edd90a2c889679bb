import Modularis.Onboarding.CommandConsumer
import Modularis.Onboarding.Invariant

namespace Modularis.Onboarding.CommandBus

open Modularis.Foundation
open Modularis.Onboarding.Contracts
open Modularis.Onboarding.Repository (AccountCreationSaga SagaStore)
open Modularis.Onboarding.Service (Environment Machine Outcome executeStateMachine)
open Modularis.Onboarding.Workers
open Modularis.Onboarding.Turns
open Modularis.Onboarding.Invariant (afterFailure_running)
open Modularis.Onboarding.CommandConsumer
open Modularis.Shared.RabbitBus (Json readReply messageCorrelationId normalizeRpcResponse)

section Commands

/-- A member that is a string. -/
def text (key : String) (value : Json) : Option String :=
  match value.get key with
  | some (.string text) => some text
  | _ => none

/-- A member that is a number. -/
def number (key : String) (value : Json) : Option Rat :=
  match value.get key with
  | some (.number number) => some number
  | _ => none

/-- The payload of a command that has passed its validation. -/
def readPayload (payload : Json) : Option OnboardingAccountCreateCommandPayload := do
  let idempotencyKey ← text "idempotencyKey" payload
  let requestHash ← text "requestHash" payload
  let email ← text "email" payload
  let name ← text "name" payload
  let cellphone ← text "cellphone" payload
  let taxId ← text "taxId" payload
  let amount ← number "amount" payload
  let currency ← text "currency" payload
  return {
    idempotencyKey := idempotencyKey
    requestHash := requestHash
    email := email
    name := name
    cellphone := cellphone
    taxId := taxId
    amount := amount
    currency := currency }

/-- The command that `create` is called with.  A command that lacks a member, or has one
of another type, is none. -/
def readCreateCommand (command : Json) : Option CreateCommand := do
  let messageId ← text "messageId" command
  let correlationId ← text "correlationId" command
  let payload ← (command.get "payload").bind readPayload
  return { messageId := messageId, correlationId := correlationId, payload := payload }

/-- How the promise of `create` ends. -/
def settlement : Outcome → Except Thrown CreateAccountResponse
  | .resolved response => .ok response
  | .rejected reason => .error reason

end Commands

section Replies

/-- What `publishResponse` hands to the broker. -/
structure Reply where
  exchange : String
  routingKey : String
  correlationId : Option String
  envelope : Json

/-- `responseExchange` is the one of the configuration. -/
def publishResponse (responseExchange : String) (request : ConsumeMessage)
    (envelope : Json) : Option Reply :=
  (headerString request "x-response-routing-key").map fun routingKey =>
    { exchange := (headerString request "x-response-exchange").getD responseExchange
      routingKey := routingKey
      correlationId := messageCorrelationId request.correlationId
      envelope := envelope }

/-- `id` and `timestamp` are drawn apart from those of `draws`. -/
def internalErrorResponse (draws : Draws) (id timestamp : String)
    (message : ConsumeMessage) : Json :=
  .object
    [("schemaVersion", .string "1.0.0"), ("messageId", .string draws.messageId),
      ("correlationId", .string ((headerString message "x-correlation-id").getD
        ((messageCorrelationId message.correlationId).getD draws.correlationId))),
      ("causationId", .string ((headerString message "x-causation-id").getD
        "onboarding.account.create")),
      ("occurredAt", .string draws.occurredAt),
      ("type", .string "onboarding.account.create.response"),
      ("eventVersion", .string "1.0.0"), ("id", .string id),
      ("timestamp", .string timestamp),
      ("eventType", .string "onboarding.account.create.response"),
      ("source", .string "onboarding-service"),
      ("payload", .object
        [("success", .bool false),
          ("error", .object
            [("status", .number 500), ("title", .string "Internal Server Error"),
              ("detail", .string "The onboarding request could not be processed.")])])]

theorem readReply_internalErrorResponse {parseJson : String → Except String Json}
    {draws : Draws} {id timestamp : String} {message : ConsumeMessage} {content : String}
    (hcontent : parseJson content =
      .ok (internalErrorResponse draws id timestamp message)) :
    readReply parseJson content =
      .resolved (rpcResponseJson (rpcResponse (.error .other))) := by
  have hread : normalizeRpcResponse (internalErrorResponse draws id timestamp message) =
      .ok (rpcResponseJson (rpcResponse (.error .other))) := rfl
  simp only [readReply, hcontent, hread]

end Replies

section Calls

/-- The command of a `create` call. -/
def commandOf : Worker → Option CreateCommand
  | .acquiring command _ | .waiting command _ | .polling command _
  | .running .command _ command _ _ | .releasing .command _ command _ _
  | .settled command _ => some command
  | _ => none

/-- The worker goes on with the command until it crashes. -/
def Serves (worker : Worker) (command : CreateCommand) : Prop :=
  worker = .crashed ∨ commandOf worker = some command

variable {env : Environment} {σ σ' : World} {e : Event} {w : String}
  {command : CreateCommand}

@[simp] theorem commandOf_runMachine (key : String) (machine : Machine)
    (queue : List AccountCreationSaga) :
    commandOf (runMachine .command key command machine queue) = some command := by
  cases machine <;> rfl

theorem commandOf_afterPoll (deadline : Int) (row? : Option AccountCreationSaga) :
    commandOf (afterPoll command deadline row?) = some command := by
  unfold afterPoll
  split
  · rfl
  · split
    · rfl
    · split
      · rfl
      · split <;> rfl

theorem commandOf_afterFailure {message : String} {before after : Worker}
    (h : commandOf before = some command) (hafter : afterFailure message before = some after) :
    commandOf after = some command := by
  cases before with
  | acquiring command' | polling command' =>
      obtain rfl := Option.some.inj hafter
      exact h
  | running origin key command' machine queue =>
      cases origin with
      | recovery => cases h
      | command =>
          obtain rfl := Option.some.inj h
          rw [afterFailure_running hafter]
          exact commandOf_runMachine _ _ _
  | releasing origin key command' outcome queue =>
      cases origin with
      | recovery => cases h
      | command =>
          obtain rfl := Option.some.inj hafter
          exact h
  | claiming => cases h
  | fresh | waiting | queued | settled | crashed => cases hafter

theorem commandOf_of_turn {store store' : SagaStore} {before after : Worker}
    (h : commandOf before = some command) (hturn : Turn env store w before e store' after) :
    after = .crashed ∨ commandOf after = some command := by
  cases hturn with
  | crash => exact .inl rfl
  | fail hafter => exact .inr (commandOf_afterFailure h hafter)
  | create | recover | claim | take => cases h
  | poll =>
      obtain rfl := Option.some.inj h
      exact .inr (commandOf_afterPoll _ _)
  | hashConflict | leased | wake | giveUp => exact .inr h
  | acquired =>
      obtain rfl := Option.some.inj h
      exact .inr (commandOf_runMachine _ _ _)
  | @advance origin | @answerUser origin | @answerPayment origin | @answerCompensation origin
  | @refused origin | @commit origin =>
      cases origin with
      | recovery => cases h
      | command =>
          obtain rfl := Option.some.inj h
          exact .inr (commandOf_runMachine _ _ _)
  | @release origin =>
      cases origin with
      | recovery => cases h
      | command => exact .inr h

theorem serves_of_step (h : Serves (σ.workers w) command) (hstep : step env σ e = some σ') :
    Serves (σ'.workers w) command := by
  by_cases hw : e.worker = w
  · obtain ⟨v, store, after, hturn, rfl⟩ := turn_of_step hstep
    obtain rfl := (worker_of_turn hturn).symm.trans hw
    have hafter : Function.update σ.workers v after v = after := Function.update_self ..
    change Serves (Function.update σ.workers v after v) command
    rw [hafter]
    rcases h with hcrashed | hcommand
    · rw [hcrashed] at hturn
      cases hturn with
      | fail hafter => cases hafter
      | crash => exact .inl rfl
    · exact commandOf_of_turn hcommand hturn
  · rw [workers_of_step hstep hw]
    exact h

theorem settled_of_step {outcome : Outcome} (h : σ.workers w = .settled command outcome)
    (hstep : step env σ e = some σ') : σ'.workers w = .settled command outcome := by
  have hw : e.worker ≠ w := by
    rintro rfl
    cases e <;> simp [step, Event.worker] at h hstep <;> simp [h, afterFailure] at hstep
  rw [workers_of_step hstep hw, h]

theorem not_serves_fresh : ¬ Serves .fresh command := by
  rintro (h | h) <;> cases h

end Calls

end Modularis.Onboarding.CommandBus
