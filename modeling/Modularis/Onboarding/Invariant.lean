import Modularis.Onboarding.SingleRun

/-!
The invariant of the onboarding workers.  Every row, and every copy of a row
that a worker still acts on, has the shape of its status; a worker suspended at
an await still has the next action that led it there; and a row that is locked
by a worker equals the copy which that worker holds.
-/

namespace Modularis.Onboarding.Invariant

open Modularis.Foundation
open Modularis.Onboarding.Contracts
open Modularis.Onboarding.Repository
open Modularis.Onboarding.Service
open Modularis.Onboarding.Workers
open Modularis.Onboarding.Turns
open Modularis.Onboarding.SingleRun

/-- What the columns of a row look like in each status. -/
def SagaShape (saga : AccountCreationSaga) : Prop :=
  match saga.status with
  | .started => saga.nextAction = .processUser
  | .userCreated =>
      saga.nextAction = .processPayment ∧ saga.userPayload.isSome
  | .paymentCreated =>
      saga.nextAction = .complete ∧ saga.userPayload.isSome ∧
        saga.paymentPayload.isSome
  | .failed =>
      saga.error.isSome ∧ saga.userPayload.isSome ∧
        saga.nextAction =
          (if saga.retryable then .processPayment else .compensateUser)
  | .completed =>
      saga.nextAction = .noop ∧ saga.response.isSome ∧ saga.error = none
  | .compensated =>
      saga.nextAction = .noop ∧ saga.error.isSome ∧ saga.retryable = false

theorem shape_startedRow (input : TryAcquireInput) (now : Int) :
    SagaShape (startedRow input now) := rfl

section NextAction

variable {saga : AccountCreationSaga}

theorem of_processUser (hshape : SagaShape saga)
    (h : saga.nextAction = .processUser) : saga.status = .started := by
  cases hstatus : saga.status <;> simp [SagaShape, hstatus, h] at hshape ⊢
  split at hshape <;> simp at hshape

theorem of_processPayment (hshape : SagaShape saga)
    (h : saga.nextAction = .processPayment) :
    (saga.status = .userCreated ∨
      saga.status = .failed ∧ saga.retryable = true) ∧
      saga.userPayload.isSome := by
  cases hstatus : saga.status <;> simp [SagaShape, hstatus, h] at hshape ⊢
  · exact hshape
  · exact ⟨hshape.2.2, hshape.2.1⟩

theorem of_compensateUser (hshape : SagaShape saga)
    (h : saga.nextAction = .compensateUser) :
    saga.status = .failed ∧ saga.retryable = false ∧ saga.error.isSome ∧
      saga.userPayload.isSome := by
  cases hstatus : saga.status <;> simp [SagaShape, hstatus, h] at hshape ⊢
  exact ⟨hshape.2.2, hshape.1, hshape.2.1⟩

theorem of_complete (hshape : SagaShape saga)
    (h : saga.nextAction = .complete) :
    saga.status = .paymentCreated ∧ saga.userPayload.isSome ∧
      saga.paymentPayload.isSome := by
  cases hstatus : saga.status <;> simp [SagaShape, hstatus, h] at hshape ⊢
  · exact hshape
  · split at hshape <;> simp at hshape

theorem of_noop (hshape : SagaShape saga) (h : saga.nextAction = .noop) :
    saga.status = .completed ∧ saga.response.isSome ∨
      saga.status = .compensated ∧ saga.error.isSome ∧
        saga.retryable = false := by
  cases hstatus : saga.status <;> simp [SagaShape, hstatus, h] at hshape ⊢
  · exact hshape.1
  · split at hshape <;> simp at hshape
  · exact hshape

theorem of_executeStateMachine (hshape : SagaShape saga)
    {current : AccountCreationSaga}
    (h : executeStateMachine saga = .advancing current) :
    current = saga ∧ saga.nextAction ≠ .noop ∧
      saga.nextAction ≠ .compensateUser := by
  unfold executeStateMachine at h
  cases hdone : tryCompletedReplay saga with
  | some response => simp [hdone] at h
  | none =>
      cases hterminal : terminalFailure saga with
      | some error => simp [hdone, hterminal] at h
      | none =>
          simp only [hdone, hterminal, Machine.advancing.injEq] at h
          refine ⟨h.symm, ?_, ?_⟩
          · intro hnoop
            obtain ⟨hstatus, hresponse⟩ | ⟨hstatus, herror, hretry⟩ :=
              of_noop hshape hnoop
            · rw [tryCompletedReplay, if_pos hstatus] at hdone
              simp [hdone] at hresponse
            · rw [terminalFailure, if_pos ⟨.inr hstatus, hretry⟩] at hterminal
              simp [hterminal] at herror
          · intro hcompensate
            obtain ⟨hstatus, hretry, herror, _⟩ :=
              of_compensateUser hshape hcompensate
            rw [terminalFailure, if_pos ⟨.inl hstatus, hretry⟩] at hterminal
            simp [hterminal] at herror

end NextAction

theorem executeStateMachine_cases (saga : AccountCreationSaga) :
    (∃ outcome, executeStateMachine saga = .settled outcome) ∨
      executeStateMachine saga = .advancing saga := by
  unfold executeStateMachine
  cases tryCompletedReplay saga with
  | some response => exact .inl ⟨_, rfl⟩
  | none =>
      cases terminalFailure saga with
      | some error => exact .inl ⟨_, rfl⟩
      | none => exact .inr rfl

/-- What a suspended machine still knows of the copy that it works from. -/
def MachineOk : Machine → Prop
  | .advancing current =>
      current.nextAction ≠ .noop ∧
        (current.nextAction = .compensateUser → current.lockedBy = none)
  | .awaitingUser current | .markingUserCreated current _ =>
      current.nextAction = .processUser
  | .awaitingPayment current | .markingPaymentCreated current _
  | .markingFailed current _ => current.nextAction = .processPayment
  | .awaitingCompensation current | .markingCompensated current =>
      current.nextAction = .compensateUser ∧ current.lockedBy = none
  | .markingCompleted current response =>
      current.nextAction = .complete ∧
        composeResponse current.rootCorrelationId current.idempotencyKey
          current.userPayload current.paymentPayload false = .ok response
  | .settled _ => True

/-- `next` is a machine that may follow `machine` without a commit: it works
from the same copy or from none. -/
structure Follows (machine next : Machine) : Prop where
  ok : MachineOk next
  current : ∀ saga, next.current? = some saga → machine.current? = some saga

theorem follows_settled (machine : Machine) (outcome : Outcome) :
    Follows machine (.settled outcome) :=
  ⟨trivial, by simp [Machine.current?]⟩

theorem follows_advance (env : Environment) (command : CreateCommand)
    {current : AccountCreationSaga} (hok : MachineOk (.advancing current)) :
    Follows (.advancing current) (advance env command current).2 := by
  obtain ⟨hnoop, hcompensate⟩ := hok
  unfold advance
  split
  · rename_i haction
    exact ⟨haction, fun _ => id⟩
  · rename_i haction
    split
    · exact ⟨haction, fun _ => id⟩
    · exact ⟨haction, fun _ => id⟩
  · rename_i haction
    split
    · exact follows_settled _ _
    · exact ⟨⟨haction, hcompensate haction⟩, fun _ => id⟩
  · rename_i haction
    split
    · exact follows_settled _ _
    · rename_i hresponse
      exact ⟨⟨haction, hresponse⟩, fun _ => id⟩
  · rename_i haction
    exact absurd haction hnoop

theorem follows_throw (reason : Thrown) {machine : Machine}
    (hok : MachineOk machine) : Follows machine (machine.throw reason) := by
  cases machine with
  | awaitingPayment current => exact ⟨hok, fun _ => id⟩
  | markingPaymentCreated current payment => exact ⟨hok, fun _ => id⟩
  | _ => exact follows_settled _ _

theorem follows_answerUser {outcome : RpcOutcome UserCreateResponsePayload}
    {machine next : Machine} (hok : MachineOk machine)
    (h : machine.answerUser outcome = some next) : Follows machine next := by
  cases machine with
  | awaitingUser current =>
      simp only [Machine.answerUser, Option.some.injEq] at h
      subst h
      split
      · exact ⟨hok, fun _ => id⟩
      · exact follows_settled _ _
  | _ => cases h

theorem follows_answerPayment {outcome : RpcOutcome PaymentIntentPayload}
    {machine next : Machine} (hok : MachineOk machine)
    (h : machine.answerPayment outcome = some next) : Follows machine next := by
  cases machine with
  | awaitingPayment current =>
      simp only [Machine.answerPayment, Option.some.injEq] at h
      subst h
      split
      · exact ⟨hok, fun _ => id⟩
      · exact follows_throw _ hok
  | _ => cases h

theorem follows_answerCompensation
    {outcome : RpcOutcome CompensationResultPayload}
    {machine next : Machine} (hok : MachineOk machine)
    (h : machine.answerCompensation outcome = some next) :
    Follows machine next := by
  cases machine with
  | awaitingCompensation current =>
      simp only [Machine.answerCompensation, Option.some.injEq] at h
      subst h
      split
      · exact ⟨hok, fun _ => id⟩
      · exact follows_settled _ _
  | _ => cases h

/-- A change of a well-shaped row that the machine's worker has locked leaves a
well-shaped row, and the machine goes on from it. -/
theorem change_ok {machine : Machine} {dateNow now : Int} {change : Change}
    {w : String} (hok : MachineOk machine)
    (hchange : change? dateNow machine = some change)
    (hshape : SagaShape change.current)
    (hlock : change.current.lockedBy = some w) :
    SagaShape (change.apply now change.current) ∧
      MachineOk (machine.marked (change.apply now change.current)) := by
  cases machine with
  | markingUserCreated current user =>
      cases hchange
      exact ⟨⟨rfl, rfl⟩, by simp [Machine.marked, MachineOk, Change.apply,
        SagaUpdates.apply, SagaUpdates.userCreated, Assignment.apply]⟩
  | markingPaymentCreated current payment =>
      cases hchange
      obtain ⟨_, huser⟩ := of_processPayment hshape hok
      exact ⟨⟨rfl, huser, rfl⟩, by simp [Machine.marked, MachineOk, Change.apply,
        SagaUpdates.apply, SagaUpdates.paymentCreated, Assignment.apply]⟩
  | markingFailed current error =>
      cases hchange
      obtain ⟨_, huser⟩ := of_processPayment hshape hok
      refine ⟨⟨rfl, huser, rfl⟩, ?_, fun _ => rfl⟩
      change (if isRetryable (toProblem error) then
        SagaNextAction.processPayment else .compensateUser) ≠ .noop
      split <;> simp
  | markingCompensated current =>
      cases hchange
      simp [hok.2] at hlock
  | markingCompleted current response =>
      cases hchange
      exact ⟨⟨rfl, rfl, rfl⟩, trivial⟩
  | _ => cases hchange

/-- A row is well formed: it has the shape of its status, and the command that
recovery would continue is the one that created it. -/
structure SagaOk (saga : AccountCreationSaga) : Prop where
  shape : SagaShape saga
  payload_key : saga.requestPayload.idempotencyKey = saga.idempotencyKey
  payload_hash : saga.requestPayload.requestHash = saga.requestHash

theorem sagaOk_lock {saga : AccountCreationSaga} (h : SagaOk saga) (w : String)
    (lockedUntil now : Int) : SagaOk (lock w lockedUntil now saga) :=
  ⟨h.shape, h.payload_key, h.payload_hash⟩

/-- The copies of rows that a worker may still act on. -/
def held : Worker → List AccountCreationSaga
  | .queued queue => queue
  | .running _ _ _ machine queue => machine.current?.toList ++ queue
  | .releasing _ _ _ _ queue => queue
  | _ => []

@[simp] theorem held_runMachine (origin : Origin) (key : String)
    (command : CreateCommand) (machine : Machine)
    (queue : List AccountCreationSaga) :
    held (runMachine origin key command machine queue) =
      machine.current?.toList ++ queue := by
  cases machine <;> rfl

theorem mem_held_of_follows {origin : Origin} {key : String}
    {command : CreateCommand} {machine next : Machine}
    {queue : List AccountCreationSaga} (hfollows : Follows machine next)
    {copy : AccountCreationSaga}
    (hcopy : copy ∈ held (runMachine origin key command next queue)) :
    copy ∈ held (.running origin key command machine queue) := by
  rw [held_runMachine, List.mem_append, Option.mem_toList] at hcopy
  rw [held, List.mem_append, Option.mem_toList]
  exact hcopy.imp_left (hfollows.current copy)

/-- A running worker works on the key of its command. -/
def WorkerOk : Worker → Prop
  | .running _ key command machine _ =>
      command.payload.idempotencyKey = key ∧ MachineOk machine ∧
        ∀ saga, machine.current? = some saga →
          saga.idempotencyKey = key ∧
            saga.requestHash = command.payload.requestHash
  | .releasing _ key command _ _ => command.payload.idempotencyKey = key
  | _ => True

theorem workerOk_runMachine {origin : Origin} {key : String}
    {command : CreateCommand} {machine : Machine}
    {queue : List AccountCreationSaga}
    (hkey : command.payload.idempotencyKey = key) (hok : MachineOk machine)
    (hcurrent : ∀ saga, machine.current? = some saga →
      saga.idempotencyKey = key ∧
        saga.requestHash = command.payload.requestHash) :
    WorkerOk (runMachine origin key command machine queue) := by
  cases machine with
  | settled outcome => exact hkey
  | _ => exact ⟨hkey, hok, hcurrent⟩

/-- Rows and copies are in order, no worker has claimed a saga twice, and a row that a worker
has locked is the copy that it holds. -/
structure Consistent (σ : World) : Prop where
  rows : ∀ key row, σ.store.sagas.row key = some row → SagaOk row
  copies : ∀ w, ∀ saga ∈ held (σ.workers w), SagaOk saga
  nodup : ∀ w,
    ((held (σ.workers w)).map AccountCreationSaga.idempotencyKey).Nodup
  worker : ∀ w, WorkerOk (σ.workers w)
  fenced : ∀ w, ∀ saga ∈ held (σ.workers w), ∀ row,
    σ.store.sagas.row saga.idempotencyKey = some row →
      row.lockedBy = some w → row = saga

theorem consistent_init : Consistent World.init where
  rows := by
    intro key row hrow
    simp [World.init, SagaStore.empty] at hrow
  copies := by
    intro w saga hsaga
    cases hsaga
  nodup := fun _ => List.nodup_nil
  worker := fun _ => trivial
  fenced := by
    intro w saga hsaga
    cases hsaga

section Turns

variable {σ : World} {w : String} {store : SagaStore} {after : Worker}

/-- The turn of one worker keeps the invariant if it does so for that worker and
takes no lock away from another one without leaving its own or none. -/
theorem consistent_turn (h : Consistent σ)
    (hrows : ∀ key row, store.sagas.row key = some row → SagaOk row)
    (hlocks : ∀ key row, store.sagas.row key = some row →
      σ.store.sagas.row key = some row ∨ row.lockedBy = none ∨
        row.lockedBy = some w)
    (hcopies : ∀ saga ∈ held after, SagaOk saga)
    (hnodup : ((held after).map AccountCreationSaga.idempotencyKey).Nodup)
    (hworker : WorkerOk after)
    (hfenced : ∀ saga ∈ held after, ∀ row,
      store.sagas.row saga.idempotencyKey = some row →
        row.lockedBy = some w → row = saga) :
    Consistent { store := store
                 workers := Function.update σ.workers w after } := by
  refine ⟨hrows, ?_, ?_, ?_, ?_⟩ <;> intro v <;> by_cases hv : v = w
  · subst hv
    simpa using hcopies
  · simpa [Function.update_of_ne hv] using h.copies v
  · subst hv
    simpa using hnodup
  · simpa [Function.update_of_ne hv] using h.nodup v
  · subst hv
    simpa using hworker
  · simpa [Function.update_of_ne hv] using h.worker v
  · subst hv
    simpa using hfenced
  · simp only [Function.update_of_ne hv]
    intro saga hsaga row hrow hlock
    rcases hlocks _ row hrow with hsame | hfree | hown
    · exact h.fenced v saga hsaga row hsame hlock
    · simp [hfree] at hlock
    · exact absurd (Option.some.inj (hlock.symm.trans hown)) hv

theorem consistent_local (h : Consistent σ)
    (hsub : (held after).Sublist (held (σ.workers w)))
    (hworker : WorkerOk after) :
    Consistent { store := σ.store
                 workers := Function.update σ.workers w after } :=
  consistent_turn h h.rows (fun _ _ hrow => .inl hrow)
    (fun saga hsaga => h.copies w saga (hsub.subset hsaga))
    ((h.nodup w).sublist (hsub.map _)) hworker
    (fun saga hsaga => h.fenced w saga (hsub.subset hsaga))

theorem consistent_follows (h : Consistent σ) {origin : Origin} {key : String}
    {command : CreateCommand} {machine next : Machine}
    {queue : List AccountCreationSaga}
    (hw : σ.workers w = .running origin key command machine queue)
    (hfollows : Follows machine next) :
    Consistent { store := σ.store
                 workers := Function.update σ.workers w
                   (runMachine origin key command next queue) } := by
  have hworker := h.worker w
  rw [hw] at hworker
  obtain ⟨hkey, _, hcurrent⟩ := hworker
  refine consistent_local h ?_ (workerOk_runMachine hkey hfollows.ok ?_)
  · rw [hw, held_runMachine]
    refine List.Sublist.append_right ?_ queue
    cases hnext : next.current? with
    | none => exact List.nil_sublist _
    | some saga => rw [hfollows.current saga hnext]
  · intro saga hsaga
    exact hcurrent saga (hfollows.current saga hsaga)

theorem sagaOk_rowToAcquire (h : Consistent σ) {command : CreateCommand}
    {leaseUntil now : Int} :
    SagaOk (rowToAcquire σ.store (acquireInput w command leaseUntil) now) := by
  cases hrow : σ.store.sagas.row command.payload.idempotencyKey with
  | none =>
      have hfound : rowToAcquire σ.store (acquireInput w command leaseUntil) now
          = startedRow (acquireInput w command leaseUntil) now := by
        simp [rowToAcquire, acquireInput, hrow]
      rw [hfound]
      exact ⟨shape_startedRow _ _, rfl, rfl⟩
  | some row =>
      have hfound : rowToAcquire σ.store (acquireInput w command leaseUntil) now
          = row := by
        simp [rowToAcquire, acquireInput, hrow]
      rw [hfound]
      exact h.rows _ row hrow

theorem machineOk_executeStateMachine {saga : AccountCreationSaga}
    (h : SagaOk saga) : MachineOk (executeStateMachine saga) := by
  rcases executeStateMachine_cases saga with ⟨outcome, hrun⟩ | hrun
  · rw [hrun]
    trivial
  · obtain ⟨_, hnoop, hcompensate⟩ := of_executeStateMachine h.shape hrun
    rw [hrun]
    exact ⟨hnoop, fun haction => absurd haction hcompensate⟩

theorem current?_executeStateMachine {saga current : AccountCreationSaga}
    (h : (executeStateMachine saga).current? = some current) :
    current = saga := by
  rcases executeStateMachine_cases saga with ⟨outcome, hrun⟩ | hrun
  · simp [hrun, Machine.current?] at h
  · simpa [hrun, Machine.current?, eq_comm] using h

theorem sublist_executeStateMachine (saga : AccountCreationSaga) :
    (executeStateMachine saga).current?.toList.Sublist [saga] := by
  rcases executeStateMachine_cases saga with ⟨outcome, hrun⟩ | hrun
  · simp [hrun, Machine.current?]
  · simp [hrun, Machine.current?]

theorem afterFailure_running {message : String} {origin : Origin} {key : String}
    {command : CreateCommand} {machine : Machine}
    {queue : List AccountCreationSaga}
    (h : afterFailure message (.running origin key command machine queue) =
      some after) :
    after = runMachine origin key command (machine.throw (.error message))
      queue := by
  cases machine <;>
    simp only [afterFailure, reduceCtorEq, Option.some.injEq] at h <;>
    exact h.symm

theorem held_afterRelease (origin : Origin) (command : CreateCommand)
    (outcome : Outcome) (queue : List AccountCreationSaga) :
    (held (afterRelease origin command outcome queue)).Sublist queue ∧
      WorkerOk (afterRelease origin command outcome queue) := by
  cases origin with
  | command => exact ⟨List.nil_sublist _, trivial⟩
  | recovery => exact ⟨List.Sublist.refl _, trivial⟩

theorem held_afterFailure {message : String} {before after : Worker}
    (h : afterFailure message before = some after) :
    ∀ saga ∈ held after, saga ∈ held before := by
  cases before with
  | running origin key command machine queue =>
      rw [afterFailure_running h, held_runMachine]
      intro saga hsaga
      refine (List.mem_append.mp hsaga).elim (fun hcurrent => ?_)
        (List.mem_append_right _)
      cases machine <;> simp [Machine.throw, Machine.current?] at hcurrent <;>
        simp [held, Machine.current?, hcurrent]
  | releasing origin key command outcome queue =>
      obtain rfl := Option.some.inj h
      exact (held_afterRelease origin command outcome queue).1.subset
  | _ => cases h <;> exact List.nil_subset _

theorem consistent_fail (h : Consistent σ) {message : String}
    (hafter : afterFailure message (σ.workers w) = some after) :
    Consistent { store := σ.store
                 workers := Function.update σ.workers w after } := by
  cases hw : σ.workers w with
  | running origin key command machine queue =>
      have hworker := h.worker w
      rw [hw] at hworker hafter
      rw [afterFailure_running hafter]
      exact consistent_follows h hw (follows_throw _ hworker.2.1)
  | releasing origin key command outcome queue =>
      rw [hw] at hafter
      obtain rfl := Option.some.inj hafter
      obtain ⟨hsub, hworker⟩ := held_afterRelease origin command outcome queue
      exact consistent_local h (hw ▸ hsub) hworker
  | _ =>
      rw [hw] at hafter
      cases hafter <;> exact consistent_local h (List.nil_sublist _) trivial

theorem held_afterPoll (command : CreateCommand) (deadline : Int)
    (row : Option AccountCreationSaga) :
    held (afterPoll command deadline row) = [] ∧
      WorkerOk (afterPoll command deadline row) := by
  cases row with
  | none => exact ⟨rfl, trivial⟩
  | some saga =>
      simp only [afterPoll]
      repeat' split
      all_goals exact ⟨rfl, trivial⟩

theorem consistent_acquired (h : Consistent σ) {command : CreateCommand}
    {leaseUntil now : Int} {row saga : AccountCreationSaga}
    (hrow : row = rowToAcquire σ.store (acquireInput w command leaseUntil) now)
    (hhash : row.requestHash = command.payload.requestHash)
    (hsaga : saga = lock w leaseUntil now row)
    (hwrites : Writes σ.store saga store) :
    Consistent
      { store := store
        workers := Function.update σ.workers w
          (runMachine .command command.payload.idempotencyKey command
            (executeStateMachine saga) []) } := by
  have hok : SagaOk saga := by
    rw [hsaga, hrow]
    exact sagaOk_lock (sagaOk_rowToAcquire h) _ _ _
  have hkey : saga.idempotencyKey = command.payload.idempotencyKey := by
    rw [hsaga, hrow]
    exact key_rowToAcquire _ _ _
  have hcopy : ∀ copy ∈ held (runMachine .command
      command.payload.idempotencyKey command (executeStateMachine saga) []),
      copy = saga := by
    intro copy hcopy
    rw [held_runMachine, List.append_nil] at hcopy
    exact List.mem_singleton.mp ((sublist_executeStateMachine saga).subset hcopy)
  refine consistent_turn h ?_ ?_ ?_ ?_ ?_ ?_
  · intro key row hrow
    rw [hwrites key] at hrow
    split at hrow
    · exact Option.some.inj hrow ▸ hok
    · exact h.rows key row hrow
  · intro key row hrow
    rw [hwrites key] at hrow
    split at hrow
    · refine .inr (.inr ?_)
      rw [← Option.some.inj hrow, hsaga]
      rfl
    · exact .inl hrow
  · intro copy hcopied
    exact hcopy copy hcopied ▸ hok
  · rw [held_runMachine, List.append_nil]
    exact (List.nodup_singleton saga.idempotencyKey).sublist
      ((sublist_executeStateMachine saga).map _)
  · refine workerOk_runMachine rfl (machineOk_executeStateMachine hok) ?_
    intro copy hcurrent
    rw [current?_executeStateMachine hcurrent, hkey, hsaga]
    exact ⟨rfl, hhash⟩
  · intro copy hcopied row hrow _
    rw [hcopy copy hcopied, hwrites, if_pos rfl] at hrow
    rw [hcopy copy hcopied, Option.some.inj hrow]

theorem consistent_claimed (h : Consistent σ) {leaseUntil now : Int}
    {sagas : List AccountCreationSaga}
    (hsagas : ∀ saga ∈ sagas, ∃ row,
      σ.store.sagas.row saga.idempotencyKey = some row ∧
        recoverable now row = true ∧ saga = lock w leaseUntil now row)
    (hnodup : (sagas.map AccountCreationSaga.idempotencyKey).Nodup)
    (hrows : ∀ key, store.sagas.row key =
      if key ∈ sagas.map AccountCreationSaga.idempotencyKey then
        (σ.store.sagas.row key).map (lock w leaseUntil now)
      else σ.store.sagas.row key) :
    Consistent { store := store
                 workers := Function.update σ.workers w (.queued sagas) } := by
  have hcases : ∀ key row, store.sagas.row key = some row →
      σ.store.sagas.row key = some row ∨
        ∃ old, σ.store.sagas.row key = some old ∧
          row = lock w leaseUntil now old := by
    intro key row hrow
    rw [hrows key] at hrow
    split at hrow
    · obtain ⟨old, hold, rfl⟩ := Option.map_eq_some_iff.mp hrow
      exact .inr ⟨old, hold, rfl⟩
    · exact .inl hrow
  refine consistent_turn h ?_ ?_ ?_ hnodup trivial ?_
  · intro key row hrow
    rcases hcases key row hrow with hsame | ⟨old, hold, rfl⟩
    · exact h.rows key row hsame
    · exact sagaOk_lock (h.rows key old hold) _ _ _
  · intro key row hrow
    rcases hcases key row hrow with hsame | ⟨old, _, rfl⟩
    · exact .inl hsame
    · exact .inr (.inr rfl)
  · intro saga hsaga
    obtain ⟨old, hold, _, rfl⟩ := hsagas saga hsaga
    exact sagaOk_lock (h.rows _ old hold) _ _ _
  · intro saga hsaga row hrow _
    obtain ⟨old, hold, _, rfl⟩ := hsagas saga hsaga
    have hmem : (lock w leaseUntil now old).idempotencyKey ∈
        sagas.map AccountCreationSaga.idempotencyKey :=
      List.mem_map_of_mem hsaga
    rw [hrows, if_pos hmem, hold] at hrow
    exact (Option.some.inj hrow).symm

theorem current_of_locked (h : Consistent σ) {origin : Origin} {key : String}
    {command : CreateCommand} {machine : Machine}
    {queue : List AccountCreationSaga} {dateNow : Int} {change : Change}
    {row : AccountCreationSaga}
    (hw : σ.workers w = .running origin key command machine queue)
    (hchange : change? dateNow machine = some change)
    (hrow : σ.store.sagas.row change.current.idempotencyKey = some row)
    (hlock : row.lockedBy = some w) : row = change.current := by
  refine h.fenced w change.current ?_ row hrow hlock
  simp [hw, held, current?_of_change? hchange]

theorem current?_marked {saga copy : AccountCreationSaga} {machine : Machine}
    (h : (machine.marked saga).current? = some copy) : copy = saga := by
  cases machine <;> simp only [Machine.marked] at h <;>
    (try split at h) <;> simp_all [Machine.current?]

theorem consistent_commit (h : Consistent σ) {origin : Origin} {key : String}
    {command : CreateCommand} {machine : Machine}
    {queue : List AccountCreationSaga} {dateNow now : Int} {change : Change}
    {row : AccountCreationSaga}
    (hw : σ.workers w = .running origin key command machine queue)
    (hchange : change? dateNow machine = some change)
    (hrow : σ.store.sagas.row change.current.idempotencyKey = some row)
    (hlock : row.lockedBy = some w)
    (hwrites : Writes σ.store (change.apply now row) store) :
    Consistent
      { store := store
        workers := Function.update σ.workers w
          (runMachine origin key command
            (machine.marked (change.apply now row)) queue) } := by
  obtain rfl := current_of_locked h hw hchange hrow hlock
  have hworker := h.worker w
  have hcopies := h.copies w
  have hnodup := h.nodup w
  have hfenced := h.fenced w
  have hcurrent := current?_of_change? hchange
  rw [hw] at hworker hcopies hnodup hfenced
  simp only [held, hcurrent, Option.toList_some, List.singleton_append]
    at hcopies hnodup hfenced
  obtain ⟨hkey, hmachine, hkeys⟩ := hworker
  obtain ⟨hcurrentKey, hcurrentHash⟩ := hkeys _ hcurrent
  have hold := hcopies _ List.mem_cons_self
  obtain ⟨hshape, hnext⟩ := change_ok hmachine hchange hold.shape hlock
  have hok : SagaOk (change.apply now change.current) :=
    ⟨hshape, hold.payload_key, hold.payload_hash⟩
  have hsub : (machine.marked (change.apply now change.current)).current?.toList
      ⊆ [change.apply now change.current] := by
    intro copy hcopy
    rw [Option.mem_toList] at hcopy
    exact List.mem_singleton.mpr (current?_marked hcopy)
  have hmem : ∀ copy ∈ held (runMachine origin key command
      (machine.marked (change.apply now change.current)) queue),
      copy = change.apply now change.current ∨ copy ∈ queue := by
    intro copy hcopy
    rw [held_runMachine] at hcopy
    exact (List.mem_append.mp hcopy).imp_left
      fun hnew => List.mem_singleton.mp (hsub hnew)
  refine consistent_turn h ?_ ?_ ?_ ?_ ?_ ?_
  · intro k row hrow
    rw [hwrites k] at hrow
    split at hrow
    · exact Option.some.inj hrow ▸ hok
    · exact h.rows k row hrow
  · intro k row hrow
    rw [hwrites k] at hrow
    split at hrow
    · obtain rfl := Option.some.inj hrow
      refine .inr ?_
      cases machine <;> cases hchange <;>
        first | exact .inl rfl | exact .inr hlock
    · exact .inl hrow
  · intro copy hcopy
    rcases hmem copy hcopy with rfl | hqueue
    · exact hok
    · exact hcopies copy (List.mem_cons_of_mem _ hqueue)
  · rw [held_runMachine]
    cases hmarked :
        (machine.marked (change.apply now change.current)).current? with
    | none => exact (List.nodup_cons.mp hnodup).2
    | some copy =>
        rw [current?_marked hmarked]
        exact hnodup
  · refine workerOk_runMachine hkey hnext ?_
    intro copy hcopy
    rw [current?_marked hcopy]
    exact ⟨hcurrentKey, hcurrentHash⟩
  · intro copy hcopy row hrow hlock
    rw [hwrites] at hrow
    rcases hmem copy hcopy with rfl | hqueue
    · rw [if_pos rfl] at hrow
      exact (Option.some.inj hrow).symm
    · have hother : copy.idempotencyKey ≠
          (change.apply now change.current).idempotencyKey := by
        intro hsame
        exact (List.nodup_cons.mp hnodup).1
          (List.mem_map.mpr ⟨copy, hqueue, hsame⟩)
      rw [if_neg hother] at hrow
      exact hfenced copy (List.mem_cons_of_mem _ hqueue) row hrow hlock

theorem consistent_release (h : Consistent σ) {origin : Origin} {key : String}
    {command : CreateCommand} {outcome : Outcome}
    {queue : List AccountCreationSaga} {now : Int}
    (hw : σ.workers w = .releasing origin key command outcome queue) :
    Consistent
      { store := release σ.store key w now
        workers := Function.update σ.workers w
          (afterRelease origin command outcome queue) } := by
  have hcases : ∀ k row, (release σ.store key w now).sagas.row k = some row →
      σ.store.sagas.row k = some row ∨
        ∃ old, σ.store.sagas.row k = some old ∧ row = unlock now old := by
    intro k row hrow
    rw [row_release] at hrow
    split at hrow
    · obtain ⟨old, hold, rfl⟩ := Option.map_eq_some_iff.mp hrow
      unfold unlockOwn
      split
      · exact .inr ⟨old, hold, rfl⟩
      · exact .inl hold
    · exact .inl hrow
  obtain ⟨hsub, hworker⟩ := held_afterRelease origin command outcome queue
  have hheld : held (σ.workers w) = queue := by rw [hw]; rfl
  refine consistent_turn h ?_ ?_ ?_ ?_ hworker ?_
  · intro k row hrow
    rcases hcases k row hrow with hsame | ⟨old, hold, rfl⟩
    · exact h.rows k row hsame
    · have hok := h.rows k old hold
      exact ⟨hok.shape, hok.payload_key, hok.payload_hash⟩
  · intro k row hrow
    rcases hcases k row hrow with hsame | ⟨old, _, rfl⟩
    · exact .inl hsame
    · exact .inr (.inl rfl)
  · intro saga hsaga
    exact h.copies w saga (hheld ▸ hsub.subset hsaga)
  · exact (hheld ▸ h.nodup w).sublist (hsub.map _)
  · intro saga hsaga row hrow hlock
    rcases hcases _ row hrow with hsame | ⟨old, _, rfl⟩
    · exact h.fenced w saga (hheld ▸ hsub.subset hsaga) row hsame hlock
    · simp [unlock] at hlock

end Turns

theorem consistent_step {env : Environment} {σ σ' : World} {e : Event}
    (h : Consistent σ) (hstep : step env σ e = some σ') : Consistent σ' := by
  obtain ⟨w, store, after, hturn, rfl⟩ := turn_of_step hstep
  generalize hw : σ.workers w = before at hturn
  cases hturn with
  | create | recover | hashConflict | leased | wake | giveUp =>
      exact consistent_local h (List.nil_sublist _) trivial
  | acquired _ hrow hhash hsaga hwrites _ =>
      exact consistent_acquired h hrow hhash hsaga hwrites
  | @poll command deadline =>
      obtain ⟨hheld, hworker⟩ := held_afterPoll command deadline
        (σ.store.sagas.row command.payload.idempotencyKey)
      exact consistent_local h (hheld ▸ List.nil_sublist _) hworker
  | claim _ hsagas hnodup hrows _ =>
      exact consistent_claimed h hsagas hnodup hrows
  | @take saga queue messageId =>
      have hok : SagaOk saga := by
        refine h.copies w saga ?_
        rw [hw]
        exact List.mem_cons_self
      refine consistent_local h ?_
        (workerOk_runMachine hok.payload_key (machineOk_executeStateMachine hok)
          ?_)
      · rw [hw, held_runMachine]
        exact (sublist_executeStateMachine saga).append_right queue
      · intro copy hcopy
        rw [current?_executeStateMachine hcopy]
        exact ⟨rfl, hok.payload_hash.symm⟩
  | advance =>
      have hworker := h.worker w
      rw [hw] at hworker
      exact consistent_follows h hw (follows_advance env _ hworker.2.1)
  | answerUser hnext =>
      have hworker := h.worker w
      rw [hw] at hworker
      exact consistent_follows h hw (follows_answerUser hworker.2.1 hnext)
  | answerPayment hnext =>
      have hworker := h.worker w
      rw [hw] at hworker
      exact consistent_follows h hw (follows_answerPayment hworker.2.1 hnext)
  | answerCompensation hnext =>
      have hworker := h.worker w
      rw [hw] at hworker
      exact consistent_follows h hw (follows_answerCompensation hworker.2.1 hnext)
  | refused _ _ _ =>
      have hworker := h.worker w
      rw [hw] at hworker
      exact consistent_follows h hw (follows_throw _ hworker.2.1)
  | commit _ hchange hrow hlock hwrites _ =>
      exact consistent_commit h hw hchange hrow hlock hwrites
  | release => exact consistent_release h hw
  | fail hafter => exact consistent_fail h (hw ▸ hafter)
  | crash => exact consistent_local h (List.nil_sublist _) trivial

theorem consistent_of_reachable {env : Environment} {σ : World}
    (hreach : Reachable env σ) : Consistent σ :=
  StepSystem.Reachable.invariant hreach consistent_init
    fun _ _ _ h hstep => consistent_step h hstep

theorem nextAction_of_commit {machine : Machine} {dateNow : Int}
    {change : Change} {w : String} (hok : MachineOk machine)
    (hchange : change? dateNow machine = some change)
    (hlock : change.current.lockedBy = some w) :
    change.current.nextAction ≠ .compensateUser ∧
      change.current.nextAction ≠ .noop := by
  cases machine with
  | markingUserCreated current user =>
      cases hchange
      have haction : current.nextAction = .processUser := hok
      simp [haction]
  | markingPaymentCreated current payment =>
      cases hchange
      have haction : current.nextAction = .processPayment := hok
      simp [haction]
  | markingFailed current error =>
      cases hchange
      have haction : current.nextAction = .processPayment := hok
      simp [failureChange, haction]
  | markingCompensated current =>
      cases hchange
      simp [hok.2] at hlock
  | markingCompleted current response =>
      cases hchange
      simp [hok.1]
  | _ => cases hchange

/-- No step changes the content of a row that is to be compensated or that
needs nothing more. -/
theorem kept_of_step {env : Environment} {σ σ' : World} {e : Event}
    (h : Consistent σ) (hstep : step env σ e = some σ') {key : String}
    {row : AccountCreationSaga} (hrow : σ.store.sagas.row key = some row)
    (hfinal : row.nextAction = .compensateUser ∨ row.nextAction = .noop) :
    ∃ row', σ'.store.sagas.row key = some row' ∧ SameContent row row' := by
  obtain ⟨w, store, after, hturn, rfl⟩ := turn_of_step hstep
  cases rowStep_of_turn hturn key with
  | absent hold => simp [hrow] at hold
  | kept hold hnew hsame =>
      obtain rfl := Option.some.inj (hrow.symm.trans hold)
      exact ⟨_, hnew, hsame⟩
  | inserted _ _ _ hold => simp [hrow] at hold
  | changed hw _ hchange hcurrent hold hlock =>
      obtain rfl := Option.some.inj (hrow.symm.trans hold)
      obtain rfl := current_of_locked h hw hchange (hcurrent ▸ hold) hlock
      have hworker := h.worker w
      rw [hw] at hworker
      obtain ⟨hcompensate, hnoop⟩ :=
        nextAction_of_commit hworker.2.1 hchange hlock
      exact absurd hfinal (not_or.mpr ⟨hcompensate, hnoop⟩)

theorem kept_of_run {env : Environment} {σ σ' : World}
    {trace : List (World × Event)} (hreach : Reachable env σ)
    (hrun : StepSystem.Run (step env) σ trace σ') {key : String}
    {row : AccountCreationSaga} (hrow : σ.store.sagas.row key = some row)
    (hfinal : row.nextAction = .compensateUser ∨ row.nextAction = .noop) :
    ∃ row', σ'.store.sagas.row key = some row' ∧ SameContent row row' := by
  induction hrun with
  | nil => exact ⟨row, hrow, sameContent_refl row⟩
  | snoc hbefore hstep ih =>
      obtain ⟨row', hrow', hsame⟩ := ih
      have hconsistent :=
        consistent_of_reachable ⟨_, hreach.choose_spec.append hbefore⟩
      have hfinal' : row'.nextAction = .compensateUser ∨
          row'.nextAction = .noop := by
        obtain ⟨_, _, _, rfl⟩ := hsame
        exact hfinal
      obtain ⟨row'', hrow'', hsame'⟩ := kept_of_step hconsistent hstep hrow' hfinal'
      exact ⟨row'', hrow'', hsame.trans hsame'⟩

/-- Where the loop would go with a copy that is not well formed. -/
def invalidBranches (current : AccountCreationSaga) : List Machine :=
  [.markingFailed current (.sagaError .paymentWithoutUser),
   .settled (.rejected (.sagaError .compensationWithoutUser)),
   .settled (.rejected (.sagaError .snapshotIncomplete)),
   .settled (.rejected sagaStateInvalid)]

theorem advance_valid (env : Environment) (command : CreateCommand)
    {current : AccountCreationSaga} (hshape : SagaShape current)
    (hnoop : current.nextAction ≠ .noop) :
    (advance env command current).2 ∉ invalidBranches current := by
  cases haction : current.nextAction with
  | processUser => simp [advance, haction, invalidBranches]
  | processPayment =>
      obtain ⟨_, huser⟩ := of_processPayment hshape haction
      obtain ⟨user, huser⟩ := Option.isSome_iff_exists.mp huser
      simp [advance, haction, huser, invalidBranches]
  | compensateUser =>
      obtain ⟨_, _, _, huser⟩ := of_compensateUser hshape haction
      obtain ⟨user, huser⟩ := Option.isSome_iff_exists.mp huser
      simp [advance, haction, huser, invalidBranches]
  | complete =>
      obtain ⟨_, huser, hpayment⟩ := of_complete hshape haction
      obtain ⟨user, huser⟩ := Option.isSome_iff_exists.mp huser
      obtain ⟨payment, hpayment⟩ := Option.isSome_iff_exists.mp hpayment
      simp [advance, haction, huser, hpayment, composeResponse, invalidBranches]
  | noop => exact absurd haction hnoop

/-- Every reachable row has the shape of its status, and no worker, whatever
copy it works from, reaches a branch that such a row excludes. -/
theorem saga_row_shape {env : Environment} {σ : World}
    (hreach : Reachable env σ) :
    (∀ key saga, σ.store.sagas.row key = some saga → SagaShape saga) ∧
      ∀ w origin key command current queue,
        σ.workers w = .running origin key command (.advancing current) queue →
          (advance env command current).2 ∉ invalidBranches current := by
  have hconsistent := consistent_of_reachable hreach
  constructor
  · intro key saga hsaga
    exact (hconsistent.rows key saga hsaga).shape
  · intro w origin key command current queue hw
    have hcopies := hconsistent.copies w
    have hworker := hconsistent.worker w
    rw [hw] at hcopies hworker
    exact advance_valid env command (hcopies current List.mem_cons_self).shape
      hworker.2.1.1

theorem saga_row_shape_singleRun :
    ∃ σ : World, σ.workers "worker-1" = .settled sampleCommand (.resolved
        (freshResponse sampleCommand sampleUser samplePayment)) ∧
      (∀ key saga, σ.store.sagas.row key = some saga → SagaShape saga) ∧
      ∀ w origin key command current queue,
        σ.workers w = .running origin key command (.advancing current) queue →
          (advance sampleEnvironment command current).2 ∉
            invalidBranches current := by
  obtain ⟨σ, hreplay, hsettled⟩ := replay_singleRun sampleEnvironment "worker-1"
    sampleCommand sampleUser samplePayment
  exact ⟨σ, hsettled, saga_row_shape ⟨_, StepSystem.run_of_replay hreplay⟩⟩

end Modularis.Onboarding.Invariant
