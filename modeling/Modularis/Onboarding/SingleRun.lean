import Modularis.Onboarding.Turns

namespace Modularis.Onboarding.SingleRun

open Modularis.Foundation
open Modularis.Foundation.StepSystem
open Modularis.Onboarding.Contracts
open Modularis.Onboarding.Repository
open Modularis.Onboarding.Service
open Modularis.Onboarding.Workers
open Modularis.Onboarding.Turns

/-- The worker runs `machine` for its command, and the copy from which the
machine works is the stored row. -/
structure Working (σ : World) (w : String) (command : CreateCommand)
    (machine : Machine) (saga : AccountCreationSaga) : Prop where
  worker : σ.workers w =
    .running .command command.payload.idempotencyKey command machine []
  current : machine.current? = some saga
  row : σ.store.sagas.row saga.idempotencyKey = some saga

section Progress

variable (env : Environment) {σ : World} {w : String} {command : CreateCommand}
  {machine : Machine} {saga : AccountCreationSaga}

theorem Working.moved (h : Working σ w command machine saga) {next : Machine}
    {e : Event}
    (hstep : step env σ e = some (σ.setWorker w
      (runMachine .command command.payload.idempotencyKey command next [])))
    (hcurrent : next.current? = some saga) :
    ∃ σ', step env σ e = some σ' ∧ σ'.store = σ.store ∧
      Working σ' w command next saga := by
  refine ⟨_, hstep, rfl, ?_, hcurrent, h.row⟩
  cases next with
  | settled outcome => cases hcurrent
  | _ => exact Function.update_self ..

theorem Working.advance (h : Working σ w command (.advancing saga) saga)
    {next : Machine} (hnext : (Service.advance env command saga).2 = next)
    (hcurrent : next.current? = some saga) :
    ∃ σ', step env σ (.advance w) = some σ' ∧ σ'.store = σ.store ∧
      Working σ' w command next saga := by
  refine h.moved env ?_ hcurrent
  simp only [step, h.worker, hnext]

theorem Working.answerUser (h : Working σ w command (.awaitingUser saga) saga)
    (answer : UserCreateResponsePayload) :
    ∃ σ', step env σ (.answerUser w (.resolved (.success answer))) = some σ' ∧
      σ'.store = σ.store ∧
      Working σ' w command (.markingUserCreated saga answer.user) saga := by
  refine h.moved env ?_ rfl
  simp only [step, h.worker]
  rfl

theorem Working.answerPayment
    (h : Working σ w command (.awaitingPayment saga) saga)
    (answer : PaymentIntentPayload) :
    ∃ σ', step env σ (.answerPayment w (.resolved (.success answer))) = some σ' ∧
      σ'.store = σ.store ∧
      Working σ' w command
        (.markingPaymentCreated saga (toPublicPayment answer)) saga := by
  refine h.moved env ?_ rfl
  simp only [step, h.worker]
  rfl

theorem Working.refusePayment
    (h : Working σ w command (.awaitingPayment saga) saga)
    (problem : ProblemSnapshot) :
    ∃ σ', step env σ (.answerPayment w (.resolved (.failure problem))) =
        some σ' ∧
      σ'.store = σ.store ∧
      Working σ' w command (.markingFailed saga (toException problem)) saga := by
  refine h.moved env ?_ rfl
  simp only [step, h.worker]
  rfl

theorem Working.answerCompensation
    (h : Working σ w command (.awaitingCompensation saga) saga)
    (answer : CompensationResultPayload) :
    ∃ σ', step env σ (.answerCompensation w (.resolved (.success answer))) =
        some σ' ∧
      σ'.store = σ.store ∧
      Working σ' w command (.markingCompensated saga) saga := by
  refine h.moved env ?_ rfl
  simp only [step, h.worker]
  rfl

theorem Working.commit (h : Working σ w command machine saga)
    (hlock : saga.lockedBy = some w) (dateNow now : Int) {change : Change}
    (hchange : change? dateNow machine = some change) :
    ∃ σ', step env σ (.mark w dateNow now) = some σ' ∧
      σ'.workers w = runMachine .command command.payload.idempotencyKey command
        (machine.marked (change.apply now saga)) [] ∧
      σ'.store.sagas.row saga.idempotencyKey = some (change.apply now saga) ∧
      σ'.store.transitions =
        σ.store.transitions ++ [change.link command saga] := by
  have hsame : change.current = saga :=
    Option.some.inj ((current?_of_change? hchange).symm.trans h.current)
  subst hsame
  let input := transitionInput command w change.current
  have hrow : σ.store.sagas.row input.idempotencyKey = some change.current := h.row
  have hown : change.current.lockedBy = some input.workerId := hlock
  obtain ⟨store, hcommit⟩ := transition_of_locked σ.store hrow hown
    change.nextStatus change.updates change.detail now
  obtain ⟨row, hrow', _, _, hwrites, hlog⟩ := transition_ok σ.store hcommit
  obtain rfl := Option.some.inj (hrow.symm.trans hrow')
  refine ⟨World.setWorker { σ with store := store } w
    (runMachine .command command.payload.idempotencyKey command
      (machine.marked (change.apply now change.current)) []), ?_,
    Function.update_self .., (hwrites _).trans (if_pos rfl), hlog⟩
  simp only [step, h.worker, mark_eq, hchange, Option.map_some, input, hcommit]
  rfl

theorem Working.refused (h : Working σ w command machine saga)
    (hlock : saga.lockedBy ≠ some w) (dateNow now : Int) {change : Change}
    (hchange : change? dateNow machine = some change) :
    ∃ σ', step env σ (.mark w dateNow now) = some σ' ∧
      σ'.workers w = runMachine .command command.payload.idempotencyKey command
        (machine.throw (.sagaError .notLocked)) [] ∧
      σ'.store = σ.store := by
  have hsame : change.current = saga :=
    Option.some.inj ((current?_of_change? hchange).symm.trans h.current)
  subst hsame
  refine ⟨World.setWorker σ w
    (runMachine .command command.payload.idempotencyKey command
      (machine.throw (.sagaError .notLocked)) []), ?_,
    Function.update_self .., rfl⟩
  simp only [step, h.worker, mark_eq, hchange, Option.map_some, transition,
    transitionInput, h.row, hlock, if_false]

theorem acquire_first (dateNow now : Int) {leaseUntil : Int}
    (hw : σ.workers w = .acquiring command leaseUntil)
    (hrow : σ.store.sagas.row command.payload.idempotencyKey = none) :
    ∃ σ', step env σ (.acquire w dateNow now) = some σ' ∧
      Working σ' w command
        (.advancing (Repository.lock w leaseUntil now
          (startedRow (acquireInput w command leaseUntil) now)))
        (Repository.lock w leaseUntil now
          (startedRow (acquireInput w command leaseUntil) now)) := by
  have hfound : rowToAcquire σ.store (acquireInput w command leaseUntil) now =
      startedRow (acquireInput w command leaseUntil) now := by
    simp [rowToAcquire, acquireInput, hrow]
  rcases tryAcquire_cases σ.store (acquireInput w command leaseUntil) dateNow now
    with ⟨row, hother, _⟩ | ⟨row, hother, _⟩ | ⟨_, hsaga, _, hwrites⟩
  · exact absurd (hrow.symm.trans hother) (by simp)
  · exact absurd (hrow.symm.trans hother) (by simp)
  · rw [hfound] at hsaga hwrites
    refine ⟨World.setWorker { σ with store := (tryAcquire σ.store
      (acquireInput w command leaseUntil) dateNow now).2 } w
      (.running .command _ command (.advancing _) []), ?_,
      Function.update_self .., rfl, (hwrites _).trans (if_pos rfl)⟩
    simp only [step, hw, hsaga]
    rfl

theorem Working.refuseUser (h : Working σ w command (.awaitingUser saga) saga)
    (problem : ProblemSnapshot) :
    ∃ σ', step env σ (.answerUser w (.resolved (.failure problem))) = some σ' ∧
      σ'.store = σ.store ∧
      σ'.workers w = .releasing .command command.payload.idempotencyKey command
        (.rejected (toException problem)) [] := by
  refine ⟨σ.setWorker w (.releasing .command command.payload.idempotencyKey
    command (.rejected (toException problem)) []), ?_, rfl,
    Function.update_self ..⟩
  simp only [step, h.worker]
  rfl

theorem create_fresh (command : CreateCommand) (dateNow : Int)
    (hw : σ.workers w = .fresh) :
    ∃ σ', step env σ (.create w command dateNow) = some σ' ∧
      σ'.store = σ.store ∧
      σ'.workers w = .acquiring command (dateNow + defaultSagaLeaseMs) := by
  refine ⟨σ.setWorker w (.acquiring command (dateNow + defaultSagaLeaseMs)), ?_,
    rfl, Function.update_self ..⟩
  simp only [step, hw]

theorem acquire_unlocked (dateNow now : Int) {leaseUntil : Int}
    {row : AccountCreationSaga}
    (hw : σ.workers w = .acquiring command leaseUntil)
    (hrow : σ.store.sagas.row command.payload.idempotencyKey = some row)
    (hhash : row.requestHash = command.payload.requestHash)
    (hfree : row.lockedBy = none) :
    ∃ σ' store, tryAcquire σ.store (acquireInput w command leaseUntil) dateNow now
        = (.acquired (lock w leaseUntil now row), store) ∧
      step env σ (.acquire w dateNow now) = some σ' ∧
      σ'.workers w = runMachine .command command.payload.idempotencyKey command
        (executeStateMachine (lock w leaseUntil now row)) [] ∧
      σ'.store.sagas.row command.payload.idempotencyKey =
        some (lock w leaseUntil now row) := by
  have hfound : rowToAcquire σ.store (acquireInput w command leaseUntil) now =
      row := by
    simp [rowToAcquire, acquireInput, hrow]
  rcases tryAcquire_cases σ.store (acquireInput w command leaseUntil) dateNow now
    with ⟨row', hrow', hother, _⟩ | ⟨row', hrow', _, hleased, _⟩ |
      ⟨_, hsaga, _, hwrites⟩
  · obtain rfl := Option.some.inj (hrow.symm.trans hrow')
    exact absurd hhash hother
  · obtain rfl := Option.some.inj (hrow.symm.trans hrow')
    simp [leasedToOther, hfree] at hleased
  · rw [hfound] at hsaga hwrites
    have hkey := key_of_row σ.store hrow
    refine ⟨World.setWorker { σ with store := (tryAcquire σ.store
      (acquireInput w command leaseUntil) dateNow now).2 } w
      (runMachine .command command.payload.idempotencyKey command
        (executeStateMachine (lock w leaseUntil now row)) []), _,
      Prod.ext hsaga rfl, ?_, Function.update_self ..,
      (hwrites _).trans (if_pos hkey.symm)⟩
    simp only [step, hw, hsaga]
    rfl

theorem release_own (now : Int) {outcome : Outcome} {row : AccountCreationSaga}
    (hw : σ.workers w = .releasing .command command.payload.idempotencyKey command
      outcome [])
    (hrow : σ.store.sagas.row command.payload.idempotencyKey = some row)
    (hlock : row.lockedBy = some w) :
    ∃ σ', step env σ (.release w now) = some σ' ∧
      σ'.workers w = .settled command outcome ∧
      σ'.store.sagas.row command.payload.idempotencyKey =
        some (unlock now row) := by
  let released := release σ.store command.payload.idempotencyKey w now
  refine ⟨World.setWorker { σ with store := released } w
    (.settled command outcome), ?_, Function.update_self .., ?_⟩
  · simp only [step, hw]
    rfl
  · refine (row_release _ _ _ _ _).trans ?_
    simp [hrow, unlockOwn, hlock]

end Progress

def sampleEnvironment : Environment where
  rpcTimeoutMs := 1000
  stableHash := fun _ => "step-hash"

def sampleCommand : CreateCommand where
  messageId := "message-1"
  correlationId := "correlation-1"
  payload :=
    { idempotencyKey := "key-1"
      requestHash := "hash-1"
      email := "ada@example.com"
      name := "Ada"
      cellphone := "11999990000"
      taxId := "12345678901"
      amount := 10
      currency := "BRL" }

def sampleUser : UserPayload where
  id := "user-1"
  email := "ada@example.com"
  name := "Ada"
  isPremium := false

def samplePayment : PaymentIntentPayload where
  id := "payment-1"
  paymentReference := "reference-1"
  amount := 10
  currency := "BRL"
  paymentStatus := "PENDING"
  deliveryStatus := "PENDING"
  expiresAt := "2026-01-01T00:00:00Z"
  qrCode := "qr-1"
  qrCodeImageUrl := none
  replayed := false

/-- A worker takes a new command through the user step.  All clocks stand
still. -/
def userSteps (w : String) (command : CreateCommand) (user : UserPayload) :
    List Event :=
  [.create w command 0,
   .acquire w 0 0,
   .advance w,
   .answerUser w (.resolved (.success { user := user, replayed := false })),
   .mark w 0 0]

/-- The worker goes on to the end. -/
def paymentSteps (w : String) (payment : PaymentIntentPayload) : List Event :=
  [.advance w,
   .answerPayment w (.resolved (.success payment)),
   .mark w 0 0,
   .advance w,
   .mark w 0 0,
   .release w 0]

/-- One worker takes a command through all its steps, and both services answer
success. -/
def singleRun (w : String) (command : CreateCommand) (user : UserPayload)
    (payment : PaymentIntentPayload) : List Event :=
  userSteps w command user ++ paymentSteps w payment

/-- The answer of a first run. -/
def freshResponse (command : CreateCommand) (user : UserPayload)
    (payment : PaymentIntentPayload) : CreateAccountResponse where
  user := user
  payment := toPublicPayment payment
  metadata :=
    { correlationId := command.correlationId
      idempotencyKey := command.payload.idempotencyKey
      replayed := false }

/-- The row after the user step. -/
def userCreatedRow (w : String) (command : CreateCommand)
    (user : UserPayload) : AccountCreationSaga :=
  (SagaUpdates.userCreated user).apply .userCreated 0
    (lock w (0 + defaultSagaLeaseMs) 0
      (startedRow (acquireInput w command (0 + defaultSagaLeaseMs)) 0))

theorem replay_userSteps (env : Environment) (w : String)
    (command : CreateCommand) (user : UserPayload) :
    ∃ σ, replay (step env) World.init (userSteps w command user) = some σ ∧
      Working σ w command (.advancing (userCreatedRow w command user))
        (userCreatedRow w command user) := by
  let σ₀ := World.init.setWorker w (.acquiring command (0 + defaultSagaLeaseMs))
  have hacquiring : σ₀.workers w = .acquiring command (0 + defaultSagaLeaseMs) :=
    Function.update_self ..
  obtain ⟨σ₁, hstep₁, hstarted⟩ := acquire_first env 0 0 hacquiring rfl
  obtain ⟨σ₂, hstep₂, _, hstarted⟩ := hstarted.advance env rfl rfl
  obtain ⟨σ₃, hstep₃, _, hstarted⟩ := hstarted.answerUser env
    { user := user, replayed := false }
  obtain ⟨σ₄, hstep₄, hworker, hrow, _⟩ := hstarted.commit env rfl 0 0 rfl
  exact ⟨σ₄, replay_cons rfl <| replay_cons hstep₁ <| replay_cons hstep₂ <|
    replay_cons hstep₃ <| replay_cons hstep₄ rfl, hworker, rfl, hrow⟩

theorem replay_singleRun (env : Environment) (w : String)
    (command : CreateCommand) (user : UserPayload)
    (payment : PaymentIntentPayload) :
    ∃ σ, replay (step env) World.init (singleRun w command user payment) =
        some σ ∧
      σ.workers w =
        .settled command (.resolved (freshResponse command user payment)) := by
  obtain ⟨σ, huser, hcreated⟩ := replay_userSteps env w command user
  obtain ⟨σ₁, hstep₁, _, hcreated⟩ := hcreated.advance env rfl rfl
  obtain ⟨σ₂, hstep₂, _, hcreated⟩ := hcreated.answerPayment env payment
  obtain ⟨σ₃, hstep₃, hworker, hrow, _⟩ := hcreated.commit env rfl 0 0 rfl
  have hpaid : Working σ₃ w command _ _ := ⟨hworker, rfl, hrow⟩
  obtain ⟨σ₄, hstep₄, _, hpaid⟩ := hpaid.advance env rfl rfl
  obtain ⟨σ₅, hstep₅, hworker, _⟩ := hpaid.commit env rfl 0 0 rfl
  have hrelease : step env σ₅ (.release w 0) = some (World.setWorker
      { σ₅ with store := release σ₅.store command.payload.idempotencyKey w 0 } w
      (.settled command (.resolved (freshResponse command user payment)))) := by
    simp only [step, hworker]
    rfl
  exact ⟨_, replay_append huser <| replay_cons hstep₁ <| replay_cons hstep₂ <|
    replay_cons hstep₃ <| replay_cons hstep₄ <| replay_cons hstep₅ <|
    replay_cons hrelease rfl, Function.update_self ..⟩

/-- The payment step is refused and the failure recorded. -/
def refusalSteps (w : String) (problem : ProblemSnapshot) (dateNow now : Int) :
    List Event :=
  [.advance w,
   .answerPayment w (.resolved (.failure problem)),
   .mark w dateNow now]

/-- The row that `markFailed` leaves after a refusal. -/
def refusedRow (saga : AccountCreationSaga) (problem : ProblemSnapshot)
    (dateNow now : Int) : AccountCreationSaga :=
  { saga with
    status := .failed
    nextAction := .compensateUser
    error := some problem
    retryable := false
    attempts := saga.attempts + 1
    lastErrorAt := some now
    nextRetryAt := some dateNow
    lockedBy := none
    lockedUntil := none
    updatedAt := now }

theorem apply_failureChange {problem : ProblemSnapshot}
    (hpermanent : Permanent problem) (saga : AccountCreationSaga)
    (dateNow now : Int) :
    (failureChange saga (toException problem) dateNow).apply now saga =
      refusedRow saga problem dateNow now := by
  simp only [failureChange, toProblem_toException_of_permanent hpermanent,
    not_isRetryable_of_permanent hpermanent]
  rfl

theorem replay_refusalSteps (env : Environment) {σ : World} {w : String}
    {command : CreateCommand} {saga : AccountCreationSaga}
    {problem : ProblemSnapshot} (h : Working σ w command (.advancing saga) saga)
    (hlock : saga.lockedBy = some w) (haction : saga.nextAction = .processPayment)
    (huser : saga.userPayload.isSome) (hpermanent : Permanent problem)
    (dateNow now : Int) :
    ∃ σ', replay (step env) σ (refusalSteps w problem dateNow now) = some σ' ∧
      Working σ' w command (.advancing (refusedRow saga problem dateNow now))
        (refusedRow saga problem dateNow now) ∧
      σ'.store.transitions = σ.store.transitions ++
        [(failureChange saga (toException problem) dateNow).link command saga] := by
  obtain ⟨user, huser⟩ := Option.isSome_iff_exists.mp huser
  have hsent : (Service.advance env command saga).2 = .awaitingPayment saga := by
    simp [advance, haction, huser]
  obtain ⟨σ₁, hstep₁, hstore₁, hawaiting⟩ := h.advance env hsent rfl
  obtain ⟨σ₂, hstep₂, hstore₂, hmarking⟩ := hawaiting.refusePayment env problem
  obtain ⟨σ₃, hstep₃, hworker, hrow, hlog⟩ := hmarking.commit env hlock
    dateNow now (show change? dateNow (.markingFailed saga (toException problem)) =
      some (failureChange saga (toException problem) dateNow) from rfl)
  rw [apply_failureChange hpermanent] at hworker hrow
  rw [hstore₂, hstore₁] at hlog
  exact ⟨σ₃, replay_cons hstep₁ <| replay_cons hstep₂ <| replay_cons hstep₃ rfl,
    ⟨hworker, rfl, hrow⟩, hlog⟩

def sampleRefusal : ProblemSnapshot where
  status := 400
  title := "Bad Request"
  detail := "Unsupported currency."
  code := some "UNSUPPORTED_CURRENCY"

end Modularis.Onboarding.SingleRun
