import Modularis.Onboarding.Recovery

namespace Modularis.Onboarding.Compensation

open Modularis.Foundation
open Modularis.Foundation.StepSystem
open Modularis.Onboarding.Contracts
open Modularis.Onboarding.Repository
open Modularis.Onboarding.Service
open Modularis.Onboarding.Workers
open Modularis.Onboarding.Turns
open Modularis.Onboarding.SingleRun
open Modularis.Onboarding.Invariant
open Modularis.Onboarding.Recovery

/-- The clocks at the repository calls of a run. -/
structure Clocks where
  dateNow : Fin 5 → Int
  now : Fin 5 → Int

/-- `identity.user.compensate` is sent and answered, and the worker records it
and releases the row. -/
def compensationSteps (w : String) (answer : CompensationResultPayload)
    (clocks : Clocks) : List Event :=
  [.advance w,
   .answerCompensation w (.resolved (.success answer)),
   .mark w (clocks.dateNow 3) (clocks.now 3),
   .release w (clocks.now 4)]

/-- The user step, where the acquired row still needs it. -/
def userSteps (w : String) (nextAction : SagaNextAction)
    (answer : UserCreateResponsePayload) (clocks : Clocks) : List Event :=
  if nextAction = .processUser then
    [.advance w,
     .answerUser w (.resolved (.success answer)),
     .mark w (clocks.dateNow 1) (clocks.now 1)]
  else []

/-- The steps of a `create` call whose payment is refused: the row is acquired,
the user step succeeds, the payment step is answered with the problem and the
compensation with success. -/
def refusedCreate (w : String) (nextAction : SagaNextAction)
    (user : UserCreateResponsePayload) (problem : ProblemSnapshot)
    (answer : CompensationResultPayload) (clocks : Clocks) : List Event :=
  .acquire w (clocks.dateNow 0) (clocks.now 0) ::
    (userSteps w nextAction user clocks ++
      (refusalSteps w problem (clocks.dateNow 2) (clocks.now 2) ++
        compensationSteps w answer clocks))

/-- The failure is compensated and recorded: `create` rejects with the problem,
and the row and its log say COMPENSATED. -/
def CompensatedAndRecorded (before after : World) (w : String)
    (command : CreateCommand) (problem : ProblemSnapshot) : Prop :=
  after.workers w = .settled command (.rejected (toException problem)) ∧
    ∃ row,
      after.store.sagas.row command.payload.idempotencyKey = some row ∧
      row.status = .compensated ∧ row.nextAction = .noop ∧
      row.error = some problem ∧ row.lockedBy = none ∧ row.lockedUntil = none ∧
      ∃ links failed compensated,
        after.store.links command.payload.idempotencyKey =
          before.store.links command.payload.idempotencyKey ++ links ++
            [failed, compensated] ∧
        failed.toStatus = .failed ∧ compensated.fromStatus = .failed ∧
        compensated.toStatus = .compensated

/-- What happens instead. -/
structure LeftUncompensated (after : World) (w : String)
    (command : CreateCommand) (problem : ProblemSnapshot) : Prop where
  worker : after.workers w =
    .settled command (.rejected (.sagaError .notLocked))
  row : ∃ row,
    after.store.sagas.row command.payload.idempotencyKey = some row ∧
    row.status = .failed ∧ row.nextAction = .compensateUser ∧
    row.error = some problem ∧ row.retryable = false ∧
    row.lockedBy = none ∧ row.lockedUntil = none

theorem not_compensatedAndRecorded {before after : World} {w : String}
    {command : CreateCommand} {problem : ProblemSnapshot}
    (h : LeftUncompensated after w command problem) :
    ¬ CompensatedAndRecorded before after w command problem := by
  rintro ⟨_, row, hrow, hstatus, _⟩
  obtain ⟨row', hrow', hstatus', _⟩ := h.row
  obtain rfl := Option.some.inj (hrow.symm.trans hrow')
  rw [hstatus] at hstatus'
  cases hstatus'

section Run

variable (env : Environment) {σ : World} {w : String} {command : CreateCommand}
  {saga : AccountCreationSaga}

theorem working_of_acquired {leaseUntil dateNow now : Int} {store : SagaStore}
    (hconsistent : Consistent σ) (hw : σ.workers w = .acquiring command leaseUntil)
    (hacquire : tryAcquire σ.store (acquireInput w command leaseUntil) dateNow now
      = (.acquired saga, store))
    (haction : saga.nextAction = .processUser ∨
      saga.nextAction = .processPayment) :
    ∃ σ', step env σ (.acquire w dateNow now) = some σ' ∧
      Working σ' w command (.advancing saga) saga ∧ SagaShape saga ∧
      saga.lockedBy = some w ∧
      saga.idempotencyKey = command.payload.idempotencyKey := by
  rcases tryAcquire_cases σ.store (acquireInput w command leaseUntil) dateNow now
    with ⟨_, _, _, hresult⟩ | ⟨_, _, _, _, hresult⟩ | ⟨_, hsaga, _, hwrites⟩
  · cases hresult.symm.trans hacquire
  · cases hresult.symm.trans hacquire
  · rw [hacquire] at hsaga hwrites
    have hcopy := TryAcquireResult.acquired.inj hsaga
    rw [← hcopy] at hwrites
    have hok : SagaOk saga := by
      rw [hcopy]
      exact sagaOk_lock (sagaOk_rowToAcquire hconsistent) _ _ _
    have hkey : saga.idempotencyKey = command.payload.idempotencyKey := by
      rw [hcopy]
      exact key_rowToAcquire _ _ _
    have hlock : saga.lockedBy = some w := by
      rw [hcopy]
      rfl
    have hnoop : saga.nextAction ≠ .noop := by
      rcases haction with haction | haction <;> simp [haction]
    have hopen : ¬ Refused saga := by
      intro hrefused
      have hcompensate := nextAction_of_refused hok.shape hrefused
      rcases haction with haction | haction <;> simp [haction] at hcompensate
    refine ⟨World.setWorker { σ with store := store } w
      (.running .command command.payload.idempotencyKey command
        (.advancing saga) []), ?_,
      ⟨Function.update_self .., rfl, (hwrites _).trans (if_pos rfl)⟩,
      hok.shape, hlock, hkey⟩
    simp only [step, hw, hacquire, afterAcquire,
      executeStateMachine_of_open hok.shape hnoop hopen]
    rfl

theorem replay_userSteps (h : Working σ w command (.advancing saga) saga)
    (hshape : SagaShape saga) (hlock : saga.lockedBy = some w)
    (haction : saga.nextAction = .processUser ∨
      saga.nextAction = .processPayment)
    (answer : UserCreateResponsePayload) (clocks : Clocks) :
    ∃ σ' saga', replay (step env) σ (userSteps w saga.nextAction answer clocks) =
        some σ' ∧
      Working σ' w command (.advancing saga') saga' ∧
      saga'.idempotencyKey = saga.idempotencyKey ∧
      saga'.lockedBy = some w ∧ saga'.nextAction = .processPayment ∧
      saga'.userPayload.isSome := by
  rcases haction with haction | haction
  · have hsent : (Service.advance env command saga).2 = .awaitingUser saga := by
      simp [advance, haction]
    obtain ⟨σ₁, hstep₁, _, hawaiting⟩ := h.advance env hsent rfl
    obtain ⟨σ₂, hstep₂, _, hmarking⟩ := hawaiting.answerUser env answer
    obtain ⟨σ₃, hstep₃, hworker, hrow, _⟩ :=
      hmarking.commit env hlock (clocks.dateNow 1) (clocks.now 1) rfl
    rw [userSteps, if_pos haction]
    exact ⟨σ₃, _, replay_cons hstep₁ <| replay_cons hstep₂ <|
      replay_cons hstep₃ rfl, ⟨hworker, rfl, hrow⟩, rfl, hlock, rfl, rfl⟩
  · obtain ⟨_, huser⟩ := of_processPayment hshape haction
    rw [userSteps, if_neg (by simp [haction])]
    exact ⟨σ, saga, rfl, h, rfl, hlock, haction, huser⟩

theorem replay_compensationSteps {problem : ProblemSnapshot}
    {dateNow now : Int}
    (h : Working σ w command (.advancing (refusedRow saga problem dateNow now))
      (refusedRow saga problem dateNow now))
    (hkey : saga.idempotencyKey = command.payload.idempotencyKey)
    (huser : saga.userPayload.isSome)
    (answer : CompensationResultPayload) (clocks : Clocks) :
    ∃ σ', replay (step env) σ (compensationSteps w answer clocks) = some σ' ∧
      LeftUncompensated σ' w command problem ∧
      σ'.store.transitions = σ.store.transitions := by
  obtain ⟨user, huser⟩ := Option.isSome_iff_exists.mp huser
  have hsent : (Service.advance env command
      (refusedRow saga problem dateNow now)).2 =
        .awaitingCompensation (refusedRow saga problem dateNow now) := by
    simp [advance, refusedRow, huser]
  obtain ⟨σ₁, hstep₁, hstore₁, hawaiting⟩ := h.advance env hsent rfl
  obtain ⟨σ₂, hstep₂, hstore₂, hmarking⟩ :=
    hawaiting.answerCompensation env answer
  obtain ⟨σ₃, hstep₃, hworker, hstore₃⟩ :=
    hmarking.refused env (by simp [refusedRow]) (clocks.dateNow 3) (clocks.now 3)
      rfl
  let released := release σ₃.store command.payload.idempotencyKey w (clocks.now 4)
  have hrelease : step env σ₃ (.release w (clocks.now 4)) =
      some (World.setWorker { σ₃ with store := released } w
        (.settled command (.rejected (.sagaError .notLocked)))) := by
    simp only [step, hworker]
    rfl
  have hrow : σ₃.store.sagas.row command.payload.idempotencyKey =
      some (refusedRow saga problem dateNow now) := by
    rw [hstore₃, ← hkey]
    exact hmarking.row
  refine ⟨_, replay_cons hstep₁ <| replay_cons hstep₂ <| replay_cons hstep₃ <|
    replay_cons hrelease rfl, ⟨Function.update_self ..,
      refusedRow saga problem dateNow now, ?_, rfl, rfl, rfl, rfl, rfl, rfl⟩, ?_⟩
  · refine (row_release _ _ _ _ _).trans ?_
    rw [if_pos rfl, hrow]
    rfl
  · change σ₃.store.transitions = _
    rw [hstore₃, hstore₂, hstore₁]

theorem replay_refusedCreate {leaseUntil : Int} {store : SagaStore}
    (clocks : Clocks) (hconsistent : Consistent σ)
    (hw : σ.workers w = .acquiring command leaseUntil)
    (hacquire : tryAcquire σ.store (acquireInput w command leaseUntil)
      (clocks.dateNow 0) (clocks.now 0) = (.acquired saga, store))
    (haction : saga.nextAction = .processUser ∨
      saga.nextAction = .processPayment)
    (user : UserCreateResponsePayload) {problem : ProblemSnapshot}
    (hpermanent : Permanent problem) (answer : CompensationResultPayload) :
    ∃ σ', replay (step env) σ
        (refusedCreate w saga.nextAction user problem answer clocks) = some σ' ∧
      LeftUncompensated σ' w command problem := by
  obtain ⟨σ₁, hstep₁, hworking, hshape, hlock, hkey⟩ :=
    working_of_acquired env hconsistent hw hacquire haction
  obtain ⟨σ₂, saga', hreplay₂, hworking, hkey', hlock, haction, huser⟩ :=
    replay_userSteps env hworking hshape hlock haction user clocks
  obtain ⟨σ₃, hreplay₃, hworking, _⟩ := replay_refusalSteps env hworking hlock
    haction huser hpermanent (clocks.dateNow 2) (clocks.now 2)
  obtain ⟨σ₄, hreplay₄, hleft, _⟩ := replay_compensationSteps env hworking
    (hkey'.trans hkey) huser answer clocks
  exact ⟨σ₄, replay_cons hstep₁ <| replay_append hreplay₂ <|
    replay_append hreplay₃ hreplay₄, hleft⟩

end Run

/-- A permanent payment failure is never compensated and recorded: whatever row
`create` acquires, the run in which its user step succeeds, its payment is
refused and the compensation is answered with success ends with the row FAILED
and another error. -/
theorem permanent_failure_never_recorded (env : Environment) {σ : World}
    {w : String} {command : CreateCommand} {leaseUntil : Int}
    {saga : AccountCreationSaga} {store : SagaStore} (clocks : Clocks)
    (hreach : Reachable env σ) (hw : σ.workers w = .acquiring command leaseUntil)
    (hacquire : tryAcquire σ.store (acquireInput w command leaseUntil)
      (clocks.dateNow 0) (clocks.now 0) = (.acquired saga, store))
    (haction : saga.nextAction = .processUser ∨
      saga.nextAction = .processPayment)
    (user : UserCreateResponsePayload) {problem : ProblemSnapshot}
    (hpermanent : Permanent problem) (answer : CompensationResultPayload) :
    ∃ σ', replay (step env) σ
        (refusedCreate w saga.nextAction user problem answer clocks) = some σ' ∧
      ¬ CompensatedAndRecorded σ σ' w command problem ∧
      LeftUncompensated σ' w command problem := by
  obtain ⟨σ', hreplay, hleft⟩ := replay_refusedCreate env clocks
    (consistent_of_reachable hreach) hw hacquire haction user hpermanent answer
  exact ⟨σ', hreplay, not_compensatedAndRecorded hleft, hleft⟩

def sampleClocks : Clocks where
  dateNow := fun _ => 0
  now := fun _ => 0

/-- The row that the first `create` of the sample key acquires. -/
def sampleAcquired : AccountCreationSaga :=
  lock "worker-1" 30000 0
    (startedRow (acquireInput "worker-1" sampleCommand 30000) 0)

def sampleAcquiring : World :=
  World.init.setWorker "worker-1" (.acquiring sampleCommand 30000)

theorem reachable_sampleAcquiring :
    Reachable sampleEnvironment sampleAcquiring :=
  ⟨_, run_of_replay (show replay (step sampleEnvironment) World.init
    [.create "worker-1" sampleCommand 0] = some sampleAcquiring from rfl)⟩

theorem tryAcquire_sample : ∃ store,
    tryAcquire World.init.store (acquireInput "worker-1" sampleCommand 30000) 0 0
      = (.acquired sampleAcquired, store) := by
  rcases tryAcquire_cases World.init.store
      (acquireInput "worker-1" sampleCommand 30000) 0 0
    with ⟨_, hrow, _⟩ | ⟨_, hrow, _⟩ | ⟨_, hsaga, _⟩
  · cases hrow
  · cases hrow
  · exact ⟨_, Prod.ext hsaga rfl⟩

theorem permanent_failure_never_recorded_sample :
    ∃ σ', replay (step sampleEnvironment) sampleAcquiring
        (refusedCreate "worker-1" sampleAcquired.nextAction
          { user := sampleUser, replayed := false } sampleRefusal
          { compensated := true, replayed := false } sampleClocks) = some σ' ∧
      ¬ CompensatedAndRecorded sampleAcquiring σ' "worker-1" sampleCommand
        sampleRefusal ∧
      LeftUncompensated σ' "worker-1" sampleCommand sampleRefusal := by
  obtain ⟨store, hacquire⟩ := tryAcquire_sample
  exact permanent_failure_never_recorded sampleEnvironment sampleClocks
    reachable_sampleAcquiring (Function.update_self ..) hacquire (.inl rfl) _
    (.inl rfl) _

/-- The first `create` of a key whose currency the payment service refuses. -/
theorem refused_currency_not_recorded :
    ∃ σ', replay (step sampleEnvironment) sampleAcquiring
        (refusedCreate "worker-1" .processUser
          { user := sampleUser, replayed := false } sampleRefusal
          { compensated := true, replayed := false } sampleClocks) = some σ' ∧
      ¬ CompensatedAndRecorded sampleAcquiring σ' "worker-1" sampleCommand
        sampleRefusal := by
  obtain ⟨store, hacquire⟩ := tryAcquire_sample
  obtain ⟨σ', hreplay, hleft⟩ := replay_refusedCreate sampleEnvironment
    sampleClocks (consistent_of_reachable reachable_sampleAcquiring)
    (Function.update_self ..) hacquire (.inl rfl)
    { user := sampleUser, replayed := false }
    (show Permanent sampleRefusal from .inl rfl)
    { compensated := true, replayed := false }
  exact ⟨σ', hreplay, not_compensatedAndRecorded hleft⟩

end Modularis.Onboarding.Compensation
