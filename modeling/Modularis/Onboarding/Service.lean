import Mathlib.Algebra.Ring.Int.Defs
import Modularis.Onboarding.Repository

/-!
The control flow of `OnboardingService`.  `executeStateMachine` is cut at its
awaits: a `Machine` is the point at which it is suspended, together with the
local variables that are live there, and the functions below say how it goes
on when what it waits for is settled.
-/

namespace Modularis.Onboarding.Service

open Modularis.Onboarding.Contracts
open Modularis.Onboarding.Repository

/-- What `stableHash` is applied to. -/
inductive StepHashInput where
  | userCreate (rootRequestHash : String)
  | paymentCreate (rootRequestHash userId : String) (amount : Rat)
      (currency : String)
deriving DecidableEq, Repr

/-- What the service is configured with, and its hash. -/
structure Environment where
  rpcTimeoutMs : Int
  stableHash : StepHashInput → String

/-- `DEFAULT_SAGA_LEASE_MS`. -/
def defaultSagaLeaseMs : Int := 30000

/-- The commands to other services. -/
inductive RpcCommand where
  | userCreate (payload : UserCreateCommandPayload)
  | paymentCreate (payload : PaymentCreateCommandPayload)
  | userCompensate (payload : UserCompensationCommandPayload)
deriving DecidableEq, Repr

/-- The routing key of each command. -/
def RpcCommand.routingKey : RpcCommand → String
  | .userCreate _ => "identity.user.create"
  | .paymentCreate _ => "payment.intent.create"
  | .userCompensate _ => "identity.user.compensate"

/-- What `sendRpc` is called with. -/
structure RpcRequest where
  correlationId : String
  causationId : Option String
  command : RpcCommand
deriving DecidableEq, Repr

/-- What becomes of the promise of `create`. -/
inductive Outcome where
  | resolved (response : CreateAccountResponse)
  | rejected (reason : Thrown)
deriving DecidableEq, Repr

/-- `advancing` is the head of the `while (true)` loop.  Each `awaiting` state
waits for an RPC and each `marking` state for a repository call. -/
inductive Machine where
  | advancing (current : AccountCreationSaga)
  | awaitingUser (current : AccountCreationSaga)
  | markingUserCreated (current : AccountCreationSaga)
      (userPayload : UserPayload)
  | awaitingPayment (current : AccountCreationSaga)
  | markingPaymentCreated (current : AccountCreationSaga)
      (paymentPayload : PublicPaymentIntentPayload)
  | markingFailed (current : AccountCreationSaga) (error : Thrown)
  | awaitingCompensation (current : AccountCreationSaga)
  | markingCompensated (current : AccountCreationSaga)
  | markingCompleted (current : AccountCreationSaga)
      (response : CreateAccountResponse)
  | settled (outcome : Outcome)
deriving DecidableEq, Repr

/-- The key under which the identity service knows the user step. -/
def userStepKey (idempotencyKey : String) : String :=
  "user:" ++ idempotencyKey

/-- The key under which the payment service knows the payment step. -/
def paymentStepKey (idempotencyKey : String) : String :=
  "payment:" ++ idempotencyKey

/-- The key of a compensation. -/
def compensationStepKey (idempotencyKey : String) : String :=
  "compensate:user:" ++ idempotencyKey

/-- The envelope of a downstream command; an empty causation id is left out. -/
def downstreamRequest (command : CreateCommand) (rpc : RpcCommand) :
    RpcRequest where
  correlationId := command.correlationId
  causationId := if command.messageId = "" then none else some command.messageId
  command := rpc

/-- The command of the user step. -/
def requestUserCreation (env : Environment) (command : CreateCommand) :
    RpcRequest :=
  downstreamRequest command <| .userCreate
    { idempotencyKey := userStepKey command.payload.idempotencyKey
      requestHash := env.stableHash (.userCreate command.payload.requestHash)
      email := command.payload.email
      name := command.payload.name
      cellphone := command.payload.cellphone
      taxId := command.payload.taxId }

/-- The command of the payment step. -/
def requestPaymentCreation (env : Environment) (command : CreateCommand)
    (user : UserPayload) : RpcRequest :=
  downstreamRequest command <| .paymentCreate
    { idempotencyKey := paymentStepKey command.payload.idempotencyKey
      requestHash := env.stableHash
        (.paymentCreate command.payload.requestHash user.id
          command.payload.amount command.payload.currency)
      userId := user.id
      customerName := command.payload.name
      customerEmail := command.payload.email
      customerCellphone := command.payload.cellphone
      customerTaxId := command.payload.taxId
      amount := command.payload.amount
      currency := command.payload.currency }

/-- The command that undoes the user step. -/
def requestUserCompensation (command : CreateCommand) (user : UserPayload) :
    RpcRequest :=
  downstreamRequest command <| .userCompensate
    { idempotencyKey := compensationStepKey command.payload.idempotencyKey
      userId := user.id
      reason := "payment step failed before the onboarding saga could complete" }

/-- An empty image URL is left out. -/
def toPublicPayment (payment : PaymentIntentPayload) :
    PublicPaymentIntentPayload :=
  { payment.toPublicPaymentIntentPayload with
    qrCodeImageUrl := payment.qrCodeImageUrl.filter (· ≠ "") }

/-- The answer of a saga that has both snapshots. -/
def composeResponse (correlationId idempotencyKey : String)
    (user : Option UserPayload) (payment : Option PublicPaymentIntentPayload)
    (replayed : Bool) : Except SagaError CreateAccountResponse :=
  match user, payment with
  | some user, some payment =>
      .ok { user := user
            payment := payment
            metadata :=
              { correlationId := correlationId
                idempotencyKey := idempotencyKey
                replayed := replayed } }
  | _, _ => .error .snapshotIncomplete

/-- The answer, marked as a repetition or not. -/
def withReplayFlag (response : CreateAccountResponse) (replayed : Bool) :
    CreateAccountResponse :=
  { response with metadata := { response.metadata with replayed := replayed } }

/-- The stored answer of a completed saga. -/
def tryCompletedReplay (saga : AccountCreationSaga) :
    Option CreateAccountResponse :=
  if saga.status = .completed then saga.response else none

/-- `isTerminalFailure`, answering the error that its type guard narrows to. -/
def terminalFailure (saga : AccountCreationSaga) : Option ProblemSnapshot :=
  if (saga.status = .failed ∨ saga.status = .compensated) ∧
      saga.retryable = false then saga.error
  else none

/-- `nextRetryAt`, with the clock that it reads. -/
def nextRetryAt (dateNow : Int) (attempt : Nat) : Int :=
  let seconds : Int := min 30 (2 ^ min attempt 5)
  dateNow + seconds * 1000

/-- The part of `executeStateMachine` before its loop. -/
def executeStateMachine (saga : AccountCreationSaga) : Machine :=
  match tryCompletedReplay saga with
  | some completed => .settled (.resolved (withReplayFlag completed true))
  | none =>
      match terminalFailure saga with
      | some error => .settled (.rejected (toException error))
      | none => .advancing saga

/-- The `switch` of the loop up to its first await, with the RPC it sends. -/
def advance (env : Environment) (command : CreateCommand)
    (current : AccountCreationSaga) : Option RpcRequest × Machine :=
  match current.nextAction with
  | .processUser =>
      (some (requestUserCreation env command), .awaitingUser current)
  | .processPayment =>
      match current.userPayload with
      | none => (none, .markingFailed current (.sagaError .paymentWithoutUser))
      | some user =>
          (some (requestPaymentCreation env command user),
            .awaitingPayment current)
  | .compensateUser =>
      match current.userPayload with
      | none =>
          (none, .settled (.rejected (.sagaError .compensationWithoutUser)))
      | some user =>
          (some (requestUserCompensation command user),
            .awaitingCompensation current)
  | .complete =>
      match composeResponse current.rootCorrelationId current.idempotencyKey
          current.userPayload current.paymentPayload false with
      | .error error => (none, .settled (.rejected (.sagaError error)))
      | .ok response => (none, .markingCompleted current response)
  | .noop =>
      match tryCompletedReplay current with
      | some replay =>
          (none, .settled (.resolved
            (withReplayFlag replay (decide (current.status = .completed)))))
      | none =>
          match current.error with
          | some error => (none, .settled (.rejected (toException error)))
          | none => (none, .settled (.rejected sagaStateInvalid))

/-- What is awaited throws.  Only the payment step catches it. -/
def Machine.throw (reason : Thrown) : Machine → Machine
  | .awaitingPayment current => .markingFailed current reason
  | .markingPaymentCreated current _ => .markingFailed current reason
  | _ => .settled (.rejected reason)

/-- The answer to `identity.user.create` arrives. -/
def Machine.answerUser (outcome : RpcOutcome UserCreateResponsePayload) :
    Machine → Option Machine
  | .awaitingUser current =>
      some (match sendRpc outcome with
        | .ok userData => .markingUserCreated current userData.user
        | .error reason => (Machine.awaitingUser current).throw reason)
  | _ => none

/-- The answer to `payment.intent.create` arrives. -/
def Machine.answerPayment (outcome : RpcOutcome PaymentIntentPayload) :
    Machine → Option Machine
  | .awaitingPayment current =>
      some (match sendRpc outcome with
        | .ok paymentData =>
            .markingPaymentCreated current (toPublicPayment paymentData)
        | .error reason => (Machine.awaitingPayment current).throw reason)
  | _ => none

/-- The answer to `identity.user.compensate` arrives. -/
def Machine.answerCompensation
    (outcome : RpcOutcome CompensationResultPayload) :
    Machine → Option Machine
  | .awaitingCompensation current =>
      some (match sendRpc outcome with
        | .ok _ => .markingCompensated current
        | .error reason => (Machine.awaitingCompensation current).throw reason)
  | _ => none

/-- A transition of the row that a worker has read. -/
def transitionInput (command : CreateCommand) (workerId : String)
    (current : AccountCreationSaga) : TransitionInput where
  idempotencyKey := current.idempotencyKey
  workerId := workerId
  correlationId := current.rootCorrelationId
  causationId := command.messageId

/-- A refused payment ends in a compensation; a failure of the server is tried again. -/
def handlePaymentFailure (store : SagaStore) (command : CreateCommand)
    (saga : AccountCreationSaga) (workerId : String) (error : Thrown)
    (dateNow now : Int) : Except SagaError (AccountCreationSaga × SagaStore) :=
  let problem := toProblem error
  let retryable := isRetryable problem
  markFailed store (transitionInput command workerId saga) problem retryable
    (if retryable then .processPayment else .compensateUser)
    (some (if retryable then nextRetryAt dateNow (saga.attempts + 1) else dateNow))
    now

/-- The problem that the compensation step records. -/
def compensationProblem (current : AccountCreationSaga) : ProblemSnapshot :=
  current.error.getD
    (downStreamProblem "account creation was compensated after a partial failure"
      "COMPENSATED_AFTER_FAILURE")

/-- The repository call that the machine waits for. -/
def Machine.mark (store : SagaStore) (command : CreateCommand)
    (workerId : String) (dateNow now : Int) :
    Machine → Option (Except SagaError (AccountCreationSaga × SagaStore))
  | .markingUserCreated current userPayload =>
      some (markUserCreated store (transitionInput command workerId current)
        userPayload now)
  | .markingPaymentCreated current paymentPayload =>
      some (markPaymentCreated store (transitionInput command workerId current)
        paymentPayload now)
  | .markingFailed current error =>
      some (handlePaymentFailure store command current workerId error
        dateNow now)
  | .markingCompensated current =>
      some (markCompensated store (transitionInput command workerId current)
        (compensationProblem current) now)
  | .markingCompleted current response =>
      some (markCompleted store (transitionInput command workerId current)
        response now)
  | _ => none

/-- The repository call returns the updated row. -/
def Machine.marked (saga : AccountCreationSaga) : Machine → Machine
  | .markingFailed _ _ =>
      if saga.status = .compensated then
        .settled (.rejected (toExceptionOf saga.error))
      else .advancing saga
  | .markingCompensated _ => .settled (.rejected (toExceptionOf saga.error))
  | .markingCompleted _ response => .settled (.resolved response)
  | _ => .advancing saga

/-- The snapshot that a suspended machine works from. -/
def Machine.current? : Machine → Option AccountCreationSaga
  | .advancing current => some current
  | .awaitingUser current => some current
  | .markingUserCreated current _ => some current
  | .awaitingPayment current => some current
  | .markingPaymentCreated current _ => some current
  | .markingFailed current _ => some current
  | .awaitingCompensation current => some current
  | .markingCompensated current => some current
  | .markingCompleted current _ => some current
  | .settled _ => none

end Modularis.Onboarding.Service
