import Modularis.Onboarding.Workers

namespace Modularis.Onboarding.Turns

open Modularis.Foundation
open Modularis.Onboarding.Contracts
open Modularis.Onboarding.Repository
open Modularis.Onboarding.Service
open Modularis.Onboarding.Workers

/-- What a machine that waits for the repository asks it to change. -/
structure Change where
  current : AccountCreationSaga
  nextStatus : SagaStatus
  updates : SagaUpdates
  detail : TransitionDetail

def Change.apply (change : Change) (now : Int) (row : AccountCreationSaga) :
    AccountCreationSaga :=
  change.updates.apply change.nextStatus now row

@[simp] theorem Change.key_apply (change : Change) (now : Int)
    (row : AccountCreationSaga) :
    (change.apply now row).idempotencyKey = row.idempotencyKey := rfl

/-- The change that `handlePaymentFailure` makes. -/
def failureChange (current : AccountCreationSaga) (error : Thrown)
    (dateNow : Int) : Change :=
  let problem := toProblem error
  let retryable := isRetryable problem
  { current := current
    nextStatus := .failed
    updates := .failed problem retryable
      (if retryable then .processPayment else .compensateUser)
      (some (if retryable then nextRetryAt dateNow (current.attempts + 1)
        else dateNow))
    detail := { error := some problem, retryable := some retryable } }

def change? (dateNow : Int) : Machine → Option Change
  | .markingUserCreated current userPayload =>
      some { current := current
             nextStatus := .userCreated
             updates := .userCreated userPayload
             detail := {} }
  | .markingPaymentCreated current paymentPayload =>
      some { current := current
             nextStatus := .paymentCreated
             updates := .paymentCreated paymentPayload
             detail := {} }
  | .markingFailed current error => some (failureChange current error dateNow)
  | .markingCompensated current =>
      some { current := current
             nextStatus := .compensated
             updates := .compensated (compensationProblem current)
             detail := { error := some (compensationProblem current) } }
  | .markingCompleted current response =>
      some { current := current
             nextStatus := .completed
             updates := .completed response
             detail := { response := some response } }
  | _ => none

theorem mark_eq (store : SagaStore) (command : CreateCommand) (w : String)
    (dateNow now : Int) (machine : Machine) :
    machine.mark store command w dateNow now =
      (change? dateNow machine).map fun change =>
        transition store (transitionInput command w change.current)
          change.nextStatus change.updates change.detail now := by
  cases machine <;> rfl

theorem current?_of_change? {dateNow : Int} {machine : Machine}
    {change : Change} (h : change? dateNow machine = some change) :
    machine.current? = some change.current := by
  cases machine <;> simp only [change?, reduceCtorEq, Option.some.injEq] at h <;>
    subst h <;> rfl

/-- The log row of a change to `row`. -/
def Change.link (change : Change) (command : CreateCommand)
    (row : AccountCreationSaga) : SagaTransition where
  idempotencyKey := change.current.idempotencyKey
  fromStatus := row.status
  toStatus := change.nextStatus
  correlationId := change.current.rootCorrelationId
  causationId := command.messageId
  detail := change.detail

/-- `Turn env store w before e store' after`: by the event `e` the worker `w`
goes from `before` to `after` and the store from `store` to `store'`. -/
inductive Turn (env : Environment) (store : SagaStore) (w : String) :
    Worker → Event → SagaStore → Worker → Prop
  | create {command : CreateCommand} {dateNow : Int} :
      Turn env store w .fresh (.create w command dateNow) store
        (.acquiring command (dateNow + defaultSagaLeaseMs))
  | recover {dateNow : Int} :
      Turn env store w .fresh (.recover w dateNow) store
        (.claiming (dateNow + defaultSagaLeaseMs))
  | hashConflict {command : CreateCommand} {leaseUntil dateNow now : Int}
      {saga : AccountCreationSaga} :
      tryAcquire store (acquireInput w command leaseUntil) dateNow now =
        (.hashConflict, store) →
      store.sagas.row command.payload.idempotencyKey = some saga →
      saga.requestHash ≠ command.payload.requestHash →
      Turn env store w (.acquiring command leaseUntil) (.acquire w dateNow now)
        store (.settled command (.rejected idempotencyKeyReused))
  | leased {command : CreateCommand} {leaseUntil dateNow now : Int}
      {saga : AccountCreationSaga} :
      tryAcquire store (acquireInput w command leaseUntil) dateNow now =
        (.leased, store) →
      store.sagas.row command.payload.idempotencyKey = some saga →
      saga.requestHash = command.payload.requestHash →
      Turn env store w (.acquiring command leaseUntil) (.acquire w dateNow now)
        store (.waiting command (dateNow + env.rpcTimeoutMs))
  | acquired {command : CreateCommand} {leaseUntil dateNow now : Int}
      {row saga : AccountCreationSaga} {store' : SagaStore} :
      tryAcquire store (acquireInput w command leaseUntil) dateNow now =
        (.acquired saga, store') →
      row = rowToAcquire store (acquireInput w command leaseUntil) now →
      row.requestHash = command.payload.requestHash →
      saga = lock w leaseUntil now row →
      Writes store saga store' → store'.transitions = store.transitions →
      Turn env store w (.acquiring command leaseUntil) (.acquire w dateNow now)
        store' (runMachine .command command.payload.idempotencyKey command
          (executeStateMachine saga) [])
  | wake {command : CreateCommand} {deadline dateNow : Int} :
      dateNow < deadline →
      Turn env store w (.waiting command deadline) (.wake w dateNow) store
        (.polling command deadline)
  | giveUp {command : CreateCommand} {deadline dateNow : Int} :
      ¬ dateNow < deadline →
      Turn env store w (.waiting command deadline) (.wake w dateNow) store
        (.settled command (.rejected sagaInProgress))
  | poll {command : CreateCommand} {deadline : Int} :
      Turn env store w (.polling command deadline) (.poll w) store
        (afterPoll command deadline
          (store.sagas.row command.payload.idempotencyKey))
  | claim {leaseUntil now : Int} {limit : Nat} {skipLocked : String → Bool}
      {sagas : List AccountCreationSaga} {store' : SagaStore} :
      claimRecoverable store w leaseUntil limit skipLocked now =
        (sagas, store') →
      (∀ saga ∈ sagas, ∃ row, store.sagas.row saga.idempotencyKey = some row ∧
        recoverable now row = true ∧ saga = lock w leaseUntil now row) →
      (sagas.map AccountCreationSaga.idempotencyKey).Nodup →
      (∀ key, store'.sagas.row key =
        if key ∈ sagas.map AccountCreationSaga.idempotencyKey then
          (store.sagas.row key).map (lock w leaseUntil now)
        else store.sagas.row key) →
      store'.transitions = store.transitions →
      Turn env store w (.claiming leaseUntil) (.claim w limit skipLocked now)
        store' (.queued sagas)
  | take {saga : AccountCreationSaga} {queue : List AccountCreationSaga}
      {messageId : String} :
      Turn env store w (.queued (saga :: queue)) (.take w messageId) store
        (runMachine .recovery saga.idempotencyKey
          (recoveryCommand saga messageId) (executeStateMachine saga) queue)
  | advance {origin : Origin} {key : String} {command : CreateCommand}
      {current : AccountCreationSaga} {queue : List AccountCreationSaga} :
      Turn env store w (.running origin key command (.advancing current) queue)
        (.advance w) store
        (runMachine origin key command (advance env command current).2 queue)
  | answerUser {origin : Origin} {key : String} {command : CreateCommand}
      {machine next : Machine} {queue : List AccountCreationSaga}
      {outcome : RpcOutcome UserCreateResponsePayload} :
      machine.answerUser outcome = some next →
      Turn env store w (.running origin key command machine queue)
        (.answerUser w outcome) store (runMachine origin key command next queue)
  | answerPayment {origin : Origin} {key : String} {command : CreateCommand}
      {machine next : Machine} {queue : List AccountCreationSaga}
      {outcome : RpcOutcome PaymentIntentPayload} :
      machine.answerPayment outcome = some next →
      Turn env store w (.running origin key command machine queue)
        (.answerPayment w outcome) store
        (runMachine origin key command next queue)
  | answerCompensation {origin : Origin} {key : String}
      {command : CreateCommand} {machine next : Machine}
      {queue : List AccountCreationSaga}
      {outcome : RpcOutcome CompensationResultPayload} :
      machine.answerCompensation outcome = some next →
      Turn env store w (.running origin key command machine queue)
        (.answerCompensation w outcome) store
        (runMachine origin key command next queue)
  | refused {origin : Origin} {key : String} {command : CreateCommand}
      {machine : Machine} {queue : List AccountCreationSaga}
      {dateNow now : Int} {change : Change} :
      machine.mark store command w dateNow now = some (.error .notLocked) →
      change? dateNow machine = some change →
      (∀ row, store.sagas.row change.current.idempotencyKey = some row →
        row.lockedBy ≠ some w) →
      Turn env store w (.running origin key command machine queue)
        (.mark w dateNow now) store
        (runMachine origin key command (machine.throw (.sagaError .notLocked))
          queue)
  | commit {origin : Origin} {key : String} {command : CreateCommand}
      {machine : Machine} {queue : List AccountCreationSaga}
      {dateNow now : Int} {change : Change} {row : AccountCreationSaga}
      {store' : SagaStore} :
      machine.mark store command w dateNow now =
        some (.ok (change.apply now row, store')) →
      change? dateNow machine = some change →
      store.sagas.row change.current.idempotencyKey = some row →
      row.lockedBy = some w →
      Writes store (change.apply now row) store' →
      store'.transitions = store.transitions ++ [change.link command row] →
      Turn env store w (.running origin key command machine queue)
        (.mark w dateNow now) store'
        (runMachine origin key command (machine.marked (change.apply now row))
          queue)
  | release {origin : Origin} {key : String} {command : CreateCommand}
      {outcome : Outcome} {queue : List AccountCreationSaga} {now : Int} :
      Turn env store w (.releasing origin key command outcome queue)
        (.release w now) (Repository.release store key w now)
        (afterRelease origin command outcome queue)
  | fail {before after : Worker} {message : String} :
      afterFailure message before = some after →
      Turn env store w before (.fail w message) store after
  | crash {before : Worker} :
      Turn env store w before (.crash w) store .crashed

theorem turn_of_acquire (env : Environment) (store : SagaStore) (w : String)
    (command : CreateCommand) (leaseUntil dateNow now : Int) :
    let result := tryAcquire store (acquireInput w command leaseUntil) dateNow now
    Turn env store w (.acquiring command leaseUntil) (.acquire w dateNow now)
      result.2 (afterAcquire env command dateNow result.1) := by
  intro result
  rcases tryAcquire_cases store (acquireInput w command leaseUntil) dateNow now
    with ⟨saga, hrow, hhash, hresult⟩ | ⟨saga, hrow, hhash, _, hresult⟩ |
      ⟨hhash, hsaga, hlog, hwrites⟩
  · simp only [result, hresult]
    exact .hashConflict hresult hrow hhash
  · simp only [result, hresult]
    exact .leased hresult hrow hhash
  · simp only [result, hsaga, afterAcquire]
    exact .acquired (Prod.ext hsaga rfl) rfl hhash rfl hwrites hlog

theorem turn_of_step {env : Environment} {σ σ' : World} {e : Event}
    (hstep : step env σ e = some σ') :
    ∃ w store after, Turn env σ.store w (σ.workers w) e store after ∧
      σ' = { store := store, workers := Function.update σ.workers w after } := by
  cases e with
  | create w command dateNow =>
      simp only [step] at hstep
      split at hstep <;> cases hstep
      rename_i hw
      exact ⟨w, _, _, hw ▸ .create, rfl⟩
  | recover w dateNow =>
      simp only [step] at hstep
      split at hstep <;> cases hstep
      rename_i hw
      exact ⟨w, _, _, hw ▸ .recover, rfl⟩
  | acquire w dateNow now =>
      simp only [step] at hstep
      split at hstep <;> cases hstep
      rename_i hw
      exact ⟨w, _, _, hw ▸ turn_of_acquire env σ.store w _ _ dateNow now, rfl⟩
  | wake w dateNow =>
      simp only [step] at hstep
      split at hstep <;> cases hstep
      rename_i command deadline hw
      by_cases hdeadline : dateNow < deadline
      · rw [if_pos hdeadline]
        exact ⟨w, _, _, hw ▸ .wake hdeadline, rfl⟩
      · rw [if_neg hdeadline]
        exact ⟨w, _, _, hw ▸ .giveUp hdeadline, rfl⟩
  | poll w =>
      simp only [step] at hstep
      split at hstep <;> cases hstep
      rename_i hw
      exact ⟨w, _, _, hw ▸ .poll, rfl⟩
  | claim w limit skipLocked now =>
      simp only [step] at hstep
      split at hstep <;> cases hstep
      rename_i leaseUntil hw
      obtain ⟨hsagas, hnodup, hrows, hlog⟩ :=
        claimRecoverable_spec σ.store w leaseUntil limit skipLocked now
      exact ⟨w, _, _, hw ▸ .claim rfl hsagas hnodup hrows hlog, rfl⟩
  | take w messageId =>
      simp only [step] at hstep
      split at hstep <;> cases hstep
      rename_i hw
      exact ⟨w, _, _, hw ▸ .take, rfl⟩
  | advance w =>
      simp only [step] at hstep
      split at hstep <;> cases hstep
      rename_i hw
      exact ⟨w, _, _, hw ▸ .advance, rfl⟩
  | answerUser w outcome =>
      simp only [step] at hstep
      split at hstep
      · rename_i hw
        obtain ⟨next, hnext, rfl⟩ := Option.map_eq_some_iff.mp hstep
        exact ⟨w, _, _, hw ▸ .answerUser hnext, rfl⟩
      · cases hstep
  | answerPayment w outcome =>
      simp only [step] at hstep
      split at hstep
      · rename_i hw
        obtain ⟨next, hnext, rfl⟩ := Option.map_eq_some_iff.mp hstep
        exact ⟨w, _, _, hw ▸ .answerPayment hnext, rfl⟩
      · cases hstep
  | answerCompensation w outcome =>
      simp only [step] at hstep
      split at hstep
      · rename_i hw
        obtain ⟨next, hnext, rfl⟩ := Option.map_eq_some_iff.mp hstep
        exact ⟨w, _, _, hw ▸ .answerCompensation hnext, rfl⟩
      · cases hstep
  | mark w dateNow now =>
      simp only [step] at hstep
      split at hstep
      · rename_i hw
        obtain ⟨result, hresult, rfl⟩ := Option.map_eq_some_iff.mp hstep
        obtain ⟨change, hchange, htransition⟩ :=
          Option.map_eq_some_iff.mp (mark_eq .. ▸ hresult)
        cases result with
        | error error =>
            obtain ⟨rfl, hlock⟩ := transition_error σ.store htransition
            exact ⟨w, _, _, hw ▸ .refused hresult hchange hlock, rfl⟩
        | ok written =>
            obtain ⟨saga, store⟩ := written
            obtain ⟨row, hrow, hlock, rfl, hwrites, hlog⟩ :=
              transition_ok σ.store htransition
            exact ⟨w, _, _, hw ▸ .commit hresult hchange hrow hlock hwrites hlog, rfl⟩
      · cases hstep
  | release w now =>
      simp only [step] at hstep
      split at hstep <;> cases hstep
      rename_i hw
      exact ⟨w, _, _, hw ▸ .release, rfl⟩
  | fail w message =>
      obtain ⟨after, hafter, rfl⟩ := Option.map_eq_some_iff.mp hstep
      exact ⟨w, _, _, .fail hafter, rfl⟩
  | crash w =>
      simp only [step] at hstep
      split at hstep <;> cases hstep
      exact ⟨w, _, _, .crash, rfl⟩

theorem worker_of_turn {env : Environment} {store store' : SagaStore}
    {w : String} {before after : Worker} {e : Event}
    (hturn : Turn env store w before e store' after) : e.worker = w := by
  cases hturn <;> rfl

theorem workers_of_step {env : Environment} {σ σ' : World} {e : Event}
    (hstep : step env σ e = some σ') {v : String} (hv : e.worker ≠ v) :
    σ'.workers v = σ.workers v := by
  obtain ⟨w, store, after, hturn, rfl⟩ := turn_of_step hstep
  obtain rfl := worker_of_turn hturn
  exact Function.update_of_ne hv.symm _ _

/-- `row'` differs from `row` at most in the lease and the time of the update. -/
def SameContent (row row' : AccountCreationSaga) : Prop :=
  ∃ lockedBy lockedUntil updatedAt,
    row' = { row with
      lockedBy := lockedBy
      lockedUntil := lockedUntil
      updatedAt := updatedAt }

theorem sameContent_refl (row : AccountCreationSaga) : SameContent row row :=
  ⟨row.lockedBy, row.lockedUntil, row.updatedAt, rfl⟩

theorem SameContent.trans {row row' row'' : AccountCreationSaga}
    (h : SameContent row row') (h' : SameContent row' row'') :
    SameContent row row'' := by
  obtain ⟨lockedBy, lockedUntil, updatedAt, rfl⟩ := h
  obtain ⟨lockedBy', lockedUntil', updatedAt', rfl⟩ := h'
  exact ⟨lockedBy', lockedUntil', updatedAt', rfl⟩

theorem sameContent_lock (w : String) (lockedUntil now : Int)
    (row : AccountCreationSaga) : SameContent row (lock w lockedUntil now row) :=
  ⟨some w, some lockedUntil, now, rfl⟩

theorem sameContent_unlockOwn (w : String) (now : Int)
    (row : AccountCreationSaga) : SameContent row (unlockOwn w now row) := by
  unfold unlockOwn
  split
  · exact ⟨none, none, now, rfl⟩
  · exact sameContent_refl row

/-- What a turn does to the row and to the log of one key. -/
inductive RowStep (store : SagaStore) (w : String) (before : Worker)
    (e : Event) (store' : SagaStore) (key : String) : Prop
  | absent :
      store.sagas.row key = none → store'.sagas.row key = none →
      store'.links key = store.links key → RowStep store w before e store' key
  | kept {row row' : AccountCreationSaga} :
      store.sagas.row key = some row → store'.sagas.row key = some row' →
      SameContent row row' → store'.links key = store.links key →
      RowStep store w before e store' key
  | inserted {command : CreateCommand} {leaseUntil dateNow now : Int} :
      before = .acquiring command leaseUntil → e = .acquire w dateNow now →
      command.payload.idempotencyKey = key → store.sagas.row key = none →
      store'.sagas.row key = some (lock w leaseUntil now
        (startedRow (acquireInput w command leaseUntil) now)) →
      store'.links key = store.links key → RowStep store w before e store' key
  | changed {origin : Origin} {k : String} {command : CreateCommand}
      {machine : Machine} {queue : List AccountCreationSaga}
      {dateNow now : Int} {change : Change} {row : AccountCreationSaga} :
      before = .running origin k command machine queue →
      e = .mark w dateNow now → change? dateNow machine = some change →
      change.current.idempotencyKey = key → store.sagas.row key = some row →
      row.lockedBy = some w →
      store'.sagas.row key = some (change.apply now row) →
      store'.links key = store.links key ++ [change.link command row] →
      RowStep store w before e store' key

theorem rowStep_of_eq {store store' : SagaStore} (w : String) (before : Worker)
    (e : Event) {key : String}
    (hrow : store'.sagas.row key = store.sagas.row key)
    (hlinks : store'.links key = store.links key) :
    RowStep store w before e store' key := by
  cases hold : store.sagas.row key with
  | none => exact .absent hold (hrow.trans hold) hlinks
  | some row =>
      exact .kept hold (hrow.trans hold) (sameContent_refl row) hlinks

theorem links_of_eq {store store' : SagaStore} (key : String)
    (hlog : store'.transitions = store.transitions) :
    store'.links key = store.links key := by
  rw [SagaStore.links, SagaStore.links, hlog]

theorem links_append {store store' : SagaStore} {link : SagaTransition}
    (key : String) (hlog : store'.transitions = store.transitions ++ [link]) :
    store'.links key = store.links key ++
      (if link.idempotencyKey = key then [link] else []) := by
  rw [SagaStore.links, SagaStore.links, hlog, List.filter_append]
  by_cases hkey : link.idempotencyKey = key <;> simp [hkey]

/-- A turn writes lease columns, inserts the row of a new key or commits the
change of a worker that holds the lock. -/
theorem rowStep_of_turn {env : Environment} {store store' : SagaStore}
    {w : String} {before after : Worker} {e : Event}
    (hturn : Turn env store w before e store' after) (key : String) :
    RowStep store w before e store' key := by
  cases hturn with
  | @acquired command leaseUntil _ now row saga _ _ hrow _ hsaga hwrites hlog =>
      have hlinks := links_of_eq key hlog
      have hkey : saga.idempotencyKey = command.payload.idempotencyKey := by
        rw [hsaga, hrow]
        exact key_rowToAcquire _ _ _
      have hwritten := hwrites key
      by_cases hsame : key = saga.idempotencyKey
      · rw [if_pos hsame] at hwritten
        subst hsame
        cases hold : store.sagas.row saga.idempotencyKey with
        | none =>
            have hstarted : row =
                startedRow (acquireInput w command leaseUntil) now := by
              rw [hrow, rowToAcquire, acquireInput, ← hkey, hold]
              rfl
            rw [hsaga, hstarted] at hwritten
            refine .inserted rfl rfl hkey.symm hold ?_ hlinks
            rw [hsaga, hstarted]
            exact hwritten
        | some old =>
            have hfound : row = old := by
              rw [hrow, rowToAcquire, acquireInput, ← hkey, hold]
              rfl
            rw [hfound] at hsaga
            exact .kept hold hwritten (hsaga ▸ sameContent_lock _ _ _ _) hlinks
      · rw [if_neg hsame] at hwritten
        exact rowStep_of_eq _ _ _ hwritten hlinks
  | claim _ _ _ hrows hlog =>
      have hlinks := links_of_eq key hlog
      have hwritten := hrows key
      split at hwritten
      · cases hold : store.sagas.row key with
        | none => exact .absent hold (by rw [hwritten, hold]; rfl) hlinks
        | some row =>
            exact .kept hold (by rw [hwritten, hold]; rfl)
              (sameContent_lock _ _ _ row) hlinks
      · exact rowStep_of_eq _ _ _ hwritten hlinks
  | @commit _ _ _ _ _ _ _ change row _ _ hchange hrow hlock hwrites hlog =>
      have hlinks := links_append key hlog
      have hwritten := hwrites key
      rw [Change.key_apply, key_of_row store hrow] at hwritten
      by_cases hkey : change.current.idempotencyKey = key
      · rw [if_pos hkey.symm] at hwritten
        rw [hkey] at hrow
        exact .changed rfl rfl hchange hkey hrow hlock hwritten
          (hlinks.trans (by rw [if_pos (by exact hkey)]))
      · rw [if_neg (Ne.symm hkey)] at hwritten
        exact rowStep_of_eq _ _ _ hwritten
          (hlinks.trans (by rw [if_neg (by exact hkey), List.append_nil]))
  | @release _ k _ _ _ now =>
      have hlinks : (release store k w now).links key = store.links key := rfl
      have hwritten := row_release store k w now key
      split at hwritten
      · cases hold : store.sagas.row key with
        | none => exact .absent hold (by rw [hwritten, hold]; rfl) hlinks
        | some row =>
            exact .kept hold (by rw [hwritten, hold]; rfl)
              (sameContent_unlockOwn _ _ row) hlinks
      · exact rowStep_of_eq _ _ _ hwritten hlinks
  | _ => exact rowStep_of_eq _ _ _ rfl rfl

end Modularis.Onboarding.Turns
