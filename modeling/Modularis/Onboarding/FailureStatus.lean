import Modularis.Onboarding.SingleRun

namespace Modularis.Onboarding.FailureStatus

open Modularis.Foundation
open Modularis.Onboarding.Contracts
open Modularis.Onboarding.Repository
open Modularis.Onboarding.Service
open Modularis.Onboarding.Turns
open Modularis.Onboarding.Workers (acquireInput)
open Modularis.Onboarding.SingleRun (sampleCommand sampleUser)

/-- The row says what should follow from the problem that payment answered. -/
structure FollowsStatus (problem : ProblemSnapshot) (saga : AccountCreationSaga) :
    Prop where
  status : saga.status = .failed
  retryable : saga.retryable = decide (500 ≤ problem.status)
  nextAction : saga.nextAction =
    if 500 ≤ problem.status then .processPayment else .compensateUser
  error : saga.error = some problem

/-- The status of the exception that a problem is thrown as. -/
def exceptionStatus (status : Int) : Int :=
  if status = 400 then 400 else if status = 409 then 409 else 502

theorem exceptionStatus_eq_iff (status : Int) :
    exceptionStatus status = status ↔ status = 400 ∨ status = 409 ∨ status = 502 := by
  unfold exceptionStatus
  split
  · simp_all
  · split
    · simp_all
    · simp_all [eq_comm]

theorem toProblem_toException (problem : ProblemSnapshot) :
    toProblem (toException problem) =
      { problem with status := exceptionStatus problem.status } := by
  unfold toException exceptionStatus
  split
  · rfl
  · split <;> rfl

section Row

variable {store : SagaStore} {w : String} {current row : AccountCreationSaga}

theorem handlePaymentFailure_of_locked
    (hrow : store.sagas.row current.idempotencyKey = some row)
    (hlock : row.lockedBy = some w) (command : CreateCommand) (error : Thrown)
    (dateNow now : Int) :
    ∃ saga store',
      handlePaymentFailure store command current w error dateNow now =
        .ok (saga, store') ∧
      store'.sagas.row current.idempotencyKey = some saga ∧
      saga = (failureChange current error dateNow).apply now row := by
  have hkey : store.sagas.row (transitionInput command w current).idempotencyKey =
      some row := hrow
  obtain ⟨store', hcommit⟩ := transition_of_locked store hkey hlock .failed
    (failureChange current error dateNow).updates
    (failureChange current error dateNow).detail now
  obtain ⟨_, _, _, _, hwrites, _⟩ := transition_ok store hcommit
  exact ⟨_, store', hcommit, (hwrites _).trans (if_pos (key_of_row store hrow).symm),
    rfl⟩

/-- The row that `handlePaymentFailure` leaves has the problem, the decision and the
next action of what it caught. -/
theorem followsStatus_failureChange_iff (problem : ProblemSnapshot) (dateNow now : Int) :
    FollowsStatus problem
        ((failureChange current (toException problem) dateNow).apply now row) ↔
      problem.status = 400 ∨ problem.status = 409 ∨ problem.status = 502 := by
  rw [← exceptionStatus_eq_iff]
  constructor
  · intro hfollows
    have herror := hfollows.error
    change some (toProblem (toException problem)) = some problem at herror
    rw [toProblem_toException] at herror
    exact congrArg ProblemSnapshot.status (Option.some.inj herror)
  · intro hstatus
    have hproblem : toProblem (toException problem) = problem := by
      rw [toProblem_toException, hstatus]
    have hretryable : isRetryable (toProblem (toException problem)) =
        decide (500 ≤ problem.status) := by
      rw [hproblem, isRetryable]
    refine ⟨rfl, hretryable, ?_, congrArg some hproblem⟩
    change (if isRetryable (toProblem (toException problem)) then _ else _) = _
    simp [hretryable]

end Row

/-- The payment step answers an error under its lock: the row that it writes follows
the downstream status exactly if that is the status of an exception class. -/
theorem follows_status_iff (store : SagaStore) (command : CreateCommand) {w : String}
    {current row : AccountCreationSaga} (dateNow now : Int) (problem : ProblemSnapshot)
    (hrow : store.sagas.row current.idempotencyKey = some row)
    (hlock : row.lockedBy = some w) :
    ∃ machine saga store',
      (Machine.awaitingPayment current).answerPayment (.resolved (.failure problem)) =
        some machine ∧
      machine.mark store command w dateNow now = some (.ok (saga, store')) ∧
      store'.sagas.row current.idempotencyKey = some saga ∧
      (FollowsStatus problem saga ↔
        problem.status = 400 ∨ problem.status = 409 ∨ problem.status = 502) := by
  obtain ⟨saga, store', hmark, hsaga, rfl⟩ := handlePaymentFailure_of_locked hrow hlock
    command (toException problem) dateNow now
  exact ⟨_, _, store', rfl, congrArg some hmark, hsaga,
    followsStatus_failureChange_iff problem dateNow now⟩

section Sample

/-- The row of the sample key in its payment step. -/
def sampleRow : AccountCreationSaga :=
  (SagaUpdates.userCreated sampleUser).apply .userCreated 0
    (lock "worker-1" 30000 0 (startedRow (acquireInput "worker-1" sampleCommand 30000) 0))

def sampleStore : SagaStore where
  sagas := Table.empty.insertIfAbsent sampleRow
  transitions := []

def sampleProblem (status : Int) : ProblemSnapshot where
  status := status
  title := "Internal Server Error"
  detail := "database is down"
  code := none

theorem sampleStore_row :
    sampleStore.sagas.row sampleRow.idempotencyKey = some sampleRow := rfl

theorem lockedBy_sampleRow : sampleRow.lockedBy = some "worker-1" := rfl

theorem follows_status_iff_sample : ∃ machine saga store',
    (Machine.awaitingPayment sampleRow).answerPayment
        (.resolved (.failure (sampleProblem 409))) = some machine ∧
    machine.mark sampleStore sampleCommand "worker-1" 0 0 = some (.ok (saga, store')) ∧
    store'.sagas.row "key-1" = some saga ∧
    (FollowsStatus (sampleProblem 409) saga ↔
      (409 : Int) = 400 ∨ (409 : Int) = 409 ∨ (409 : Int) = 502) ∧
    FollowsStatus (sampleProblem 409) saga := by
  obtain ⟨machine, saga, store', hmachine, hmark, hrow, hiff⟩ := follows_status_iff
    sampleStore sampleCommand 0 0 (sampleProblem 409) sampleStore_row lockedBy_sampleRow
  exact ⟨machine, saga, store', hmachine, hmark, hrow, hiff, hiff.mpr (.inr (.inl rfl))⟩

theorem exists_not_follows {status : Int}
    (h : ¬ (status = 400 ∨ status = 409 ∨ status = 502)) : ∃ machine saga store',
    (Machine.awaitingPayment sampleRow).answerPayment
        (.resolved (.failure (sampleProblem status))) = some machine ∧
    machine.mark sampleStore sampleCommand "worker-1" 0 0 = some (.ok (saga, store')) ∧
    ¬ FollowsStatus (sampleProblem status) saga := by
  obtain ⟨saga, store', hmark, _, rfl⟩ := handlePaymentFailure_of_locked
    sampleStore_row lockedBy_sampleRow sampleCommand (toException (sampleProblem status))
    0 0
  refine ⟨_, _, store', rfl, congrArg some hmark, fun hfollows => h ?_⟩
  exact (followsStatus_failureChange_iff (sampleProblem status) 0 0).mp hfollows

/-- The row keeps 502 of an answer with 500, and an answer with 422 is retried. -/
theorem status_lost :
    (∃ machine saga store',
      (Machine.awaitingPayment sampleRow).answerPayment
          (.resolved (.failure (sampleProblem 500))) = some machine ∧
      machine.mark sampleStore sampleCommand "worker-1" 0 0 = some (.ok (saga, store')) ∧
      ¬ FollowsStatus (sampleProblem 500) saga) ∧
    ∃ machine saga store',
      (Machine.awaitingPayment sampleRow).answerPayment
          (.resolved (.failure (sampleProblem 422))) = some machine ∧
      machine.mark sampleStore sampleCommand "worker-1" 0 0 = some (.ok (saga, store')) ∧
      ¬ FollowsStatus (sampleProblem 422) saga :=
  ⟨exists_not_follows (by decide), exists_not_follows (by decide)⟩

end Sample

end Modularis.Onboarding.FailureStatus
