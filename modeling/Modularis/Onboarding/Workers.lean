import Modularis.Foundation.StepSystem
import Modularis.Onboarding.Service

/-!
The interleaving of any number of `create` calls and recovery passes over one
store.  Every call and pass has a worker id of its own.  A step is one
repository call, one RPC answer, one stretch of local code that ends by sending
a command, one failure of a repository call or one crash; the clocks of the
processes and of the database are chosen freely at each step, so a lease may
run out and be taken over at any time.
-/

namespace Modularis.Onboarding.Workers

open Modularis.Foundation
open Modularis.Onboarding.Contracts
open Modularis.Onboarding.Repository
open Modularis.Onboarding.Service

/-- A worker id is made for a command or for a recovery pass. -/
inductive Origin where
  | command
  | recovery
deriving DecidableEq, Repr

/-- The state of the process behind a worker id.  `running` carries the key
that its `finally` block releases and, in a recovery pass, the claimed sagas
whose turn has not come. -/
inductive Worker where
  | fresh
  | acquiring (command : CreateCommand) (leaseUntil : Int)
  | waiting (command : CreateCommand) (deadline : Int)
  | polling (command : CreateCommand) (deadline : Int)
  | claiming (leaseUntil : Int)
  | queued (queue : List AccountCreationSaga)
  | running (origin : Origin) (key : String) (command : CreateCommand)
      (machine : Machine) (queue : List AccountCreationSaga)
  | releasing (origin : Origin) (key : String) (command : CreateCommand)
      (outcome : Outcome) (queue : List AccountCreationSaga)
  | settled (command : CreateCommand) (outcome : Outcome)
  | crashed

/-- The table, and where each worker stands. -/
structure World where
  store : SagaStore
  workers : String → Worker

/-- An empty table and no worker. -/
def World.init : World where
  store := SagaStore.empty
  workers := fun _ => .fresh

/-- A worker stands somewhere else. -/
def World.setWorker (σ : World) (w : String) (worker : Worker) : World :=
  { σ with workers := Function.update σ.workers w worker }

/-- The steps that workers take, with what they meet. -/
inductive Event where
  | create (w : String) (command : CreateCommand) (dateNow : Int)
  | recover (w : String) (dateNow : Int)
  | acquire (w : String) (dateNow now : Int)
  | wake (w : String) (dateNow : Int)
  | poll (w : String)
  | claim (w : String) (limit : Nat) (skipLocked : String → Bool) (now : Int)
  | take (w : String) (messageId : String)
  | advance (w : String)
  | answerUser (w : String) (outcome : RpcOutcome UserCreateResponsePayload)
  | answerPayment (w : String) (outcome : RpcOutcome PaymentIntentPayload)
  | answerCompensation (w : String)
      (outcome : RpcOutcome CompensationResultPayload)
  | mark (w : String) (dateNow now : Int)
  | release (w : String) (now : Int)
  | fail (w : String) (message : String)
  | crash (w : String)

/-- Whose step it is. -/
def Event.worker : Event → String
  | .create w _ _ | .recover w _ | .acquire w _ _ | .wake w _ | .poll w
  | .claim w _ _ _ | .take w _ | .advance w | .answerUser w _
  | .answerPayment w _ | .answerCompensation w _ | .mark w _ _ | .release w _
  | .fail w _ | .crash w => w

/-- Once the state machine has settled, the `finally` block releases the lock. -/
def runMachine (origin : Origin) (key : String) (command : CreateCommand)
    (machine : Machine) (queue : List AccountCreationSaga) : Worker :=
  match machine with
  | .settled outcome => .releasing origin key command outcome queue
  | machine => .running origin key command machine queue

/-- After the lock is released, `create` settles and a recovery pass goes on. -/
def afterRelease (origin : Origin) (command : CreateCommand) (outcome : Outcome)
    (queue : List AccountCreationSaga) : Worker :=
  match origin with
  | .command => .settled command outcome
  | .recovery => .queued queue

/-- What a worker asks the table for. -/
def acquireInput (w : String) (command : CreateCommand) (leaseUntil : Int) :
    TryAcquireInput where
  idempotencyKey := command.payload.idempotencyKey
  requestHash := command.payload.requestHash
  requestPayload := command.payload
  correlationId := command.correlationId
  workerId := w
  lockedUntil := leaseUntil

/-- How `create` goes on with the answer of `tryAcquire`. -/
def afterAcquire (env : Environment) (command : CreateCommand)
    (dateNow : Int) : TryAcquireResult → Worker
  | .hashConflict => .settled command (.rejected idempotencyKeyReused)
  | .leased => .waiting command (dateNow + env.rpcTimeoutMs)
  | .acquired saga =>
      runMachine .command command.payload.idempotencyKey command
        (executeStateMachine saga) []

/-- How `waitForSettledSaga` goes on with the row that it reads. -/
def afterPoll (command : CreateCommand) (deadline : Int) :
    Option AccountCreationSaga → Worker
  | none => .settled command (.rejected sagaInProgress)
  | some saga =>
      if saga.requestHash ≠ command.payload.requestHash then
        .settled command (.rejected idempotencyKeyReused)
      else
        match tryCompletedReplay saga with
        | some replay =>
            .settled command (.resolved (withReplayFlag replay true))
        | none =>
            match terminalFailure saga with
            | some error => .settled command (.rejected (toException error))
            | none => .waiting command deadline

/-- The command with which a recovery pass continues a saga. -/
def recoveryCommand (saga : AccountCreationSaga) (messageId : String) :
    CreateCommand where
  messageId := messageId
  correlationId := saga.rootCorrelationId
  payload := saga.requestPayload

/-- A repository call fails without effect. -/
def afterFailure (message : String) : Worker → Option Worker
  | .acquiring command _ => some (.settled command (.rejected (.error message)))
  | .polling command _ => some (.settled command (.rejected (.error message)))
  | .claiming _ => some (.queued [])
  | .running origin key command machine queue =>
      match machine with
      | .markingUserCreated _ _ | .markingPaymentCreated _ _
      | .markingFailed _ _ | .markingCompensated _ | .markingCompleted _ _ =>
          some (runMachine origin key command (machine.throw (.error message))
            queue)
      | _ => none
  | .releasing origin _ command outcome queue =>
      some (afterRelease origin command outcome queue)
  | _ => none

/-- `none` where the worker cannot take the step. -/
def step (env : Environment) (σ : World) : Event → Option World
  | .create w command dateNow =>
      match σ.workers w with
      | .fresh =>
          some (σ.setWorker w (.acquiring command (dateNow + defaultSagaLeaseMs)))
      | _ => none
  | .recover w dateNow =>
      match σ.workers w with
      | .fresh => some (σ.setWorker w (.claiming (dateNow + defaultSagaLeaseMs)))
      | _ => none
  | .acquire w dateNow now =>
      match σ.workers w with
      | .acquiring command leaseUntil =>
          let result := tryAcquire σ.store (acquireInput w command leaseUntil)
            dateNow now
          some (World.setWorker { σ with store := result.2 } w
            (afterAcquire env command dateNow result.1))
      | _ => none
  | .wake w dateNow =>
      match σ.workers w with
      | .waiting command deadline =>
          some (σ.setWorker w
            (if dateNow < deadline then .polling command deadline
            else .settled command (.rejected sagaInProgress)))
      | _ => none
  | .poll w =>
      match σ.workers w with
      | .polling command deadline =>
          some (σ.setWorker w (afterPoll command deadline
            (findByIdempotencyKey σ.store command.payload.idempotencyKey)))
      | _ => none
  | .claim w limit skipLocked now =>
      match σ.workers w with
      | .claiming leaseUntil =>
          let result := claimRecoverable σ.store w leaseUntil limit skipLocked now
          some (World.setWorker { σ with store := result.2 } w
            (.queued result.1))
      | _ => none
  | .take w messageId =>
      match σ.workers w with
      | .queued (saga :: queue) =>
          some (σ.setWorker w (runMachine .recovery saga.idempotencyKey
            (recoveryCommand saga messageId) (executeStateMachine saga) queue))
      | _ => none
  | .advance w =>
      match σ.workers w with
      | .running origin key command (.advancing current) queue =>
          some (σ.setWorker w (runMachine origin key command
            (advance env command current).2 queue))
      | _ => none
  | .answerUser w outcome =>
      match σ.workers w with
      | .running origin key command machine queue =>
          (machine.answerUser outcome).map fun next =>
            σ.setWorker w (runMachine origin key command next queue)
      | _ => none
  | .answerPayment w outcome =>
      match σ.workers w with
      | .running origin key command machine queue =>
          (machine.answerPayment outcome).map fun next =>
            σ.setWorker w (runMachine origin key command next queue)
      | _ => none
  | .answerCompensation w outcome =>
      match σ.workers w with
      | .running origin key command machine queue =>
          (machine.answerCompensation outcome).map fun next =>
            σ.setWorker w (runMachine origin key command next queue)
      | _ => none
  | .mark w dateNow now =>
      match σ.workers w with
      | .running origin key command machine queue =>
          (machine.mark σ.store command w dateNow now).map fun
            | .error error =>
                σ.setWorker w (runMachine origin key command
                  (machine.throw (.sagaError error)) queue)
            | .ok (saga, store) =>
                World.setWorker { σ with store := store } w
                  (runMachine origin key command (machine.marked saga) queue)
      | _ => none
  | .release w now =>
      match σ.workers w with
      | .releasing origin key command outcome queue =>
          some (World.setWorker { σ with store := release σ.store key w now } w
            (afterRelease origin command outcome queue))
      | _ => none
  | .fail w message =>
      (afterFailure message (σ.workers w)).map (σ.setWorker w)
  | .crash w =>
      match σ.workers w with
      | .settled _ _ => none
      | _ => some (σ.setWorker w .crashed)

/-- The RPC that a step sends. -/
def sends (env : Environment) (σ : World) : Event → Option RpcRequest
  | .advance w =>
      match σ.workers w with
      | .running _ _ command (.advancing current) _ =>
          (advance env command current).1
      | _ => none
  | _ => none

abbrev Run (env : Environment) := StepSystem.Run (step env) World.init

abbrev Reachable (env : Environment) := StepSystem.Reachable (step env) World.init

end Modularis.Onboarding.Workers
