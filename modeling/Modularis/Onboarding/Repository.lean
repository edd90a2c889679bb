import Modularis.Foundation.Table
import Modularis.Onboarding.Contracts

/-!
The Postgres repository of account creation sagas.  Each function is one
transaction: it answers what the caller receives together with the store it
leaves.  Times are milliseconds; `now` is the `NOW()` of the transaction and
`dateNow` is the clock of the calling process, which may differ.
-/

namespace Modularis.Onboarding.Repository

open Modularis.Foundation
open Modularis.Onboarding.Contracts

/-- The statuses of a saga. -/
inductive SagaStatus where
  | started
  | userCreated
  | paymentCreated
  | completed
  | failed
  | compensated
deriving DecidableEq, Repr

/-- What is to be done with a saga. -/
inductive SagaNextAction where
  | processUser
  | processPayment
  | compensateUser
  | complete
  | noop
deriving DecidableEq, Repr

/-- A row of `account_creation_sagas`; `toSaga` hands out the same columns. -/
structure AccountCreationSaga where
  idempotencyKey : String
  requestHash : String
  requestPayload : OnboardingAccountCreateCommandPayload
  rootCorrelationId : String
  status : SagaStatus
  nextAction : SagaNextAction
  userPayload : Option UserPayload
  paymentPayload : Option PublicPaymentIntentPayload
  response : Option CreateAccountResponse
  error : Option ProblemSnapshot
  retryable : Bool
  attempts : Nat
  lastErrorAt : Option Int
  nextRetryAt : Option Int
  lockedBy : Option String
  lockedUntil : Option Int
  createdAt : Int
  updatedAt : Int
deriving DecidableEq, Repr

/-- The `detail_json` of a log row. -/
structure TransitionDetail where
  response : Option CreateAccountResponse := none
  error : Option ProblemSnapshot := none
  retryable : Option Bool := none
deriving DecidableEq, Repr

/-- A row of `account_creation_saga_transitions`. -/
structure SagaTransition where
  idempotencyKey : String
  fromStatus : SagaStatus
  toStatus : SagaStatus
  correlationId : String
  causationId : String
  detail : TransitionDetail
deriving DecidableEq, Repr

/-- Both tables of the service; the log is kept in insertion order. -/
structure SagaStore where
  sagas : Table AccountCreationSaga.idempotencyKey
  transitions : List SagaTransition

/-- No saga and no transition. -/
def SagaStore.empty : SagaStore where
  sagas := Table.empty
  transitions := []

/-- The log rows of one key. -/
def SagaStore.links (store : SagaStore) (key : String) : List SagaTransition :=
  store.transitions.filter fun link => link.idempotencyKey = key

/-- What `tryAcquire` is called with. -/
structure TryAcquireInput where
  idempotencyKey : String
  requestHash : String
  requestPayload : OnboardingAccountCreateCommandPayload
  correlationId : String
  workerId : String
  lockedUntil : Int

/-- The row that the `INSERT` of `tryAcquire` writes; the remaining columns
take their defaults. -/
def startedRow (input : TryAcquireInput) (now : Int) : AccountCreationSaga where
  idempotencyKey := input.idempotencyKey
  requestHash := input.requestHash
  requestPayload := input.requestPayload
  rootCorrelationId := input.correlationId
  status := .started
  nextAction := .processUser
  userPayload := none
  paymentPayload := none
  response := none
  error := none
  retryable := false
  attempts := 0
  lastErrorAt := none
  nextRetryAt := some now
  lockedBy := none
  lockedUntil := none
  createdAt := now
  updatedAt := now

/-- A different worker's lease on the row has not run out. -/
def leasedToOther (saga : AccountCreationSaga) (workerId : String)
    (dateNow : Int) : Bool :=
  match saga.lockedUntil, saga.lockedBy with
  | some lockedUntil, some lockedBy =>
      decide (dateNow < lockedUntil ∧ lockedBy ≠ "" ∧ lockedBy ≠ workerId)
  | _, _ => false

/-- The row, leased to a worker. -/
def lock (workerId : String) (lockedUntil now : Int)
    (saga : AccountCreationSaga) : AccountCreationSaga :=
  { saga with
    lockedBy := some workerId
    lockedUntil := some lockedUntil
    updatedAt := now }

theorem key_lock (workerId : String) (lockedUntil now : Int)
    (saga : AccountCreationSaga) :
    (lock workerId lockedUntil now saga).idempotencyKey = saga.idempotencyKey :=
  rfl

/-- What `tryAcquire` has found. -/
inductive TryAcquireResult where
  | hashConflict
  | leased
  | acquired (saga : AccountCreationSaga)

/-- The row is inserted unless it is there; then it is locked, unless its request is
another one or another worker has it leased. -/
def tryAcquire (store : SagaStore) (input : TryAcquireInput)
    (dateNow now : Int) : TryAcquireResult × SagaStore :=
  let sagas := store.sagas.insertIfAbsent (startedRow input now)
  match sagas.row input.idempotencyKey with
  | none => (.leased, { store with sagas := sagas })
  | some existing =>
      if existing.requestHash ≠ input.requestHash then (.hashConflict, store)
      else if leasedToOther existing input.workerId dateNow then
        (.leased, { store with sagas := sagas })
      else
        (.acquired (lock input.workerId input.lockedUntil now existing),
          { store with
            sagas := sagas.modify input.idempotencyKey
              (lock input.workerId input.lockedUntil now) (key_lock _ _ _) })

/-- The row of a key. -/
def findByIdempotencyKey (store : SagaStore) (idempotencyKey : String) :
    Option AccountCreationSaga :=
  store.sagas.row idempotencyKey

/-- `locked_until IS NULL OR locked_until < NOW()`. -/
def leaseOver (now : Int) : Option Int → Bool
  | none => true
  | some lockedUntil => decide (lockedUntil < now)

/-- The `WHERE` clause of `claimRecoverable`. -/
def recoverable (now : Int) (saga : AccountCreationSaga) : Bool :=
  decide (saga.status ∈
      [SagaStatus.started, .userCreated, .paymentCreated, .failed]) &&
    (decide (saga.status ≠ .failed) || saga.retryable) &&
    decide (saga.nextRetryAt.getD now ≤ now) &&
    leaseOver now saga.lockedUntil

/-- Claim recoverable rows, oldest update first.  `skipLocked` holds of the keys
whose row another transaction has locked at that moment. -/
def claimRecoverable (store : SagaStore) (workerId : String)
    (lockedUntil : Int) (limit : Nat) (skipLocked : String → Bool)
    (now : Int) : List AccountCreationSaga × SagaStore :=
  let rows := store.sagas.select
    (fun saga => recoverable now saga && !skipLocked saga.idempotencyKey)
    (fun a b => a.updatedAt ≤ b.updatedAt) limit
  (rows.map (lock workerId lockedUntil now),
    { store with
      sagas := store.sagas.modifyAll
        (rows.map AccountCreationSaga.idempotencyKey)
        (lock workerId lockedUntil now) (key_lock _ _ _) })

/-- What an `UPDATE` does to a column. -/
inductive Assignment (α : Type) where
  | keep
  | set (value : α)
deriving DecidableEq, Repr

/-- The column after the update. -/
def Assignment.apply {α : Type} : Assignment α → α → α
  | .keep, old => old
  | .set value, _ => value

/-- The columns that a caller of `transition` asks to change, besides the
status and the time of the update.  `countAttempt` is `'attempts + 1'` and
`stampError` is `last_error_at = 'NOW()'`. -/
structure SagaUpdates where
  nextAction : Assignment SagaNextAction := .keep
  userPayload : Assignment (Option UserPayload) := .keep
  paymentPayload : Assignment (Option PublicPaymentIntentPayload) := .keep
  response : Assignment (Option CreateAccountResponse) := .keep
  error : Assignment (Option ProblemSnapshot) := .keep
  retryable : Assignment Bool := .keep
  countAttempt : Bool := false
  stampError : Bool := false
  nextRetryAt : Assignment (Option Int) := .keep
  lockedBy : Assignment (Option String) := .keep
  lockedUntil : Assignment (Option Int) := .keep

/-- The row after `UPDATE … SET`. -/
def SagaUpdates.apply (updates : SagaUpdates) (nextStatus : SagaStatus)
    (now : Int) (saga : AccountCreationSaga) : AccountCreationSaga :=
  { saga with
    status := nextStatus
    updatedAt := now
    nextAction := updates.nextAction.apply saga.nextAction
    userPayload := updates.userPayload.apply saga.userPayload
    paymentPayload := updates.paymentPayload.apply saga.paymentPayload
    response := updates.response.apply saga.response
    error := updates.error.apply saga.error
    retryable := updates.retryable.apply saga.retryable
    attempts := if updates.countAttempt then saga.attempts + 1 else saga.attempts
    lastErrorAt := if updates.stampError then some now else saga.lastErrorAt
    nextRetryAt := updates.nextRetryAt.apply saga.nextRetryAt
    lockedBy := updates.lockedBy.apply saga.lockedBy
    lockedUntil := updates.lockedUntil.apply saga.lockedUntil }

theorem SagaUpdates.key_apply (updates : SagaUpdates) (nextStatus : SagaStatus)
    (now : Int) (saga : AccountCreationSaga) :
    (updates.apply nextStatus now saga).idempotencyKey = saga.idempotencyKey :=
  rfl

/-- Who makes a transition, and on which message. -/
structure TransitionInput where
  idempotencyKey : String
  workerId : String
  correlationId : String
  causationId : String

/-- Update the row if the worker holds its lock and log the change; otherwise
throw without effect. -/
def transition (store : SagaStore) (input : TransitionInput)
    (nextStatus : SagaStatus) (updates : SagaUpdates)
    (detail : TransitionDetail) (now : Int) :
    Except SagaError (AccountCreationSaga × SagaStore) :=
  match store.sagas.row input.idempotencyKey with
  | none => .error .notLocked
  | some current =>
      if current.lockedBy = some input.workerId then
        .ok (updates.apply nextStatus now current,
          { sagas := store.sagas.modify input.idempotencyKey
              (updates.apply nextStatus now) (updates.key_apply _ _)
            transitions := store.transitions ++
              [{ idempotencyKey := input.idempotencyKey
                 fromStatus := current.status
                 toStatus := nextStatus
                 correlationId := input.correlationId
                 causationId := input.causationId
                 detail := detail }] })
      else .error .notLocked

/-- The columns that `markUserCreated` sets. -/
def SagaUpdates.userCreated (userPayload : UserPayload) : SagaUpdates where
  nextAction := .set .processPayment
  userPayload := .set (some userPayload)
  error := .set none
  retryable := .set false
  nextRetryAt := .set none
  response := .set none

/-- The user step is done. -/
def markUserCreated (store : SagaStore) (input : TransitionInput)
    (userPayload : UserPayload) (now : Int) :
    Except SagaError (AccountCreationSaga × SagaStore) :=
  transition store input .userCreated (.userCreated userPayload) {} now

/-- The columns that `markPaymentCreated` sets. -/
def SagaUpdates.paymentCreated (paymentPayload : PublicPaymentIntentPayload) :
    SagaUpdates where
  nextAction := .set .complete
  paymentPayload := .set (some paymentPayload)
  error := .set none
  retryable := .set false
  nextRetryAt := .set none
  response := .set none

/-- The payment step is done. -/
def markPaymentCreated (store : SagaStore) (input : TransitionInput)
    (paymentPayload : PublicPaymentIntentPayload) (now : Int) :
    Except SagaError (AccountCreationSaga × SagaStore) :=
  transition store input .paymentCreated (.paymentCreated paymentPayload) {} now

/-- The columns that `markCompleted` sets. -/
def SagaUpdates.completed (response : CreateAccountResponse) :
    SagaUpdates where
  nextAction := .set .noop
  response := .set (some response)
  error := .set none
  retryable := .set false
  nextRetryAt := .set none
  lockedBy := .set none
  lockedUntil := .set none

/-- The saga has its answer. -/
def markCompleted (store : SagaStore) (input : TransitionInput)
    (response : CreateAccountResponse) (now : Int) :
    Except SagaError (AccountCreationSaga × SagaStore) :=
  transition store input .completed (.completed response)
    { response := some response } now

/-- The columns that `markFailed` sets, the lock among them. -/
def SagaUpdates.failed (error : ProblemSnapshot) (retryable : Bool)
    (nextAction : SagaNextAction) (nextRetryAt : Option Int) :
    SagaUpdates where
  nextAction := .set nextAction
  error := .set (some error)
  retryable := .set retryable
  countAttempt := true
  stampError := true
  nextRetryAt := .set nextRetryAt
  lockedBy := .set none
  lockedUntil := .set none

/-- A step has failed, to be tried again or not. -/
def markFailed (store : SagaStore) (input : TransitionInput)
    (error : ProblemSnapshot) (retryable : Bool) (nextAction : SagaNextAction)
    (nextRetryAt : Option Int) (now : Int) :
    Except SagaError (AccountCreationSaga × SagaStore) :=
  transition store input .failed
    (.failed error retryable nextAction nextRetryAt)
    { error := some error, retryable := some retryable } now

/-- The columns that `markCompensated` sets. -/
def SagaUpdates.compensated (error : ProblemSnapshot) : SagaUpdates where
  nextAction := .set .noop
  error := .set (some error)
  retryable := .set false
  countAttempt := true
  stampError := true
  nextRetryAt := .set none
  lockedBy := .set none
  lockedUntil := .set none

/-- The user is undone. -/
def markCompensated (store : SagaStore) (input : TransitionInput)
    (error : ProblemSnapshot) (now : Int) :
    Except SagaError (AccountCreationSaga × SagaStore) :=
  transition store input .compensated (.compensated error)
    { error := some error } now

/-- The row without its lease. -/
def unlock (now : Int) (saga : AccountCreationSaga) : AccountCreationSaga :=
  { saga with lockedBy := none, lockedUntil := none, updatedAt := now }

/-- `WHERE idempotency_key = … AND locked_by = …`. -/
def unlockOwn (workerId : String) (now : Int) (saga : AccountCreationSaga) :
    AccountCreationSaga :=
  if saga.lockedBy = some workerId then unlock now saga else saga

theorem key_unlockOwn (workerId : String) (now : Int)
    (saga : AccountCreationSaga) :
    (unlockOwn workerId now saga).idempotencyKey = saga.idempotencyKey := by
  unfold unlockOwn
  split <;> rfl

def release (store : SagaStore) (idempotencyKey workerId : String)
    (now : Int) : SagaStore :=
  { store with
    sagas := store.sagas.modify idempotencyKey (unlockOwn workerId now)
      (key_unlockOwn _ _) }

section Specifications

variable (store : SagaStore)

theorem key_of_row {key : String} {saga : AccountCreationSaga}
    (h : store.sagas.row key = some saga) : saga.idempotencyKey = key :=
  store.sagas.key_row key saga h

/-- `store'` is `store` with the row of `saga` written over. -/
def Writes (saga : AccountCreationSaga) (store' : SagaStore) : Prop :=
  ∀ key, store'.sagas.row key =
    if key = saga.idempotencyKey then some saga else store.sagas.row key

/-- The row that `tryAcquire` finds: the stored one or the one it inserts. -/
def rowToAcquire (input : TryAcquireInput) (now : Int) : AccountCreationSaga :=
  (store.sagas.row input.idempotencyKey).getD (startedRow input now)

theorem key_rowToAcquire (input : TryAcquireInput) (now : Int) :
    (rowToAcquire store input now).idempotencyKey = input.idempotencyKey := by
  cases hrow : store.sagas.row input.idempotencyKey with
  | none => simp [rowToAcquire, hrow, startedRow]
  | some saga => simp [rowToAcquire, hrow, key_of_row store hrow]

theorem row_insertIfAbsent_startedRow (input : TryAcquireInput) (now : Int)
    (key : String) :
    (store.sagas.insertIfAbsent (startedRow input now)).row key =
      if key = input.idempotencyKey then some (rowToAcquire store input now)
      else store.sagas.row key :=
  Table.row_insertIfAbsent _ _ _

theorem stored_of_ne_startedRow (input : TryAcquireInput) (now : Int)
    (h : rowToAcquire store input now ≠ startedRow input now) :
    store.sagas.row input.idempotencyKey = some (rowToAcquire store input now) := by
  cases hrow : store.sagas.row input.idempotencyKey with
  | none => exact absurd (by rw [rowToAcquire, hrow]; rfl) h
  | some saga => simp [rowToAcquire, hrow]

/-- A refused `tryAcquire` found a row and changed nothing; an acquired row is
the found one with the caller's lease. -/
theorem tryAcquire_cases (input : TryAcquireInput) (dateNow now : Int) :
    (∃ saga, store.sagas.row input.idempotencyKey = some saga ∧
      saga.requestHash ≠ input.requestHash ∧
      tryAcquire store input dateNow now = (.hashConflict, store)) ∨
    (∃ saga, store.sagas.row input.idempotencyKey = some saga ∧
      saga.requestHash = input.requestHash ∧
      leasedToOther saga input.workerId dateNow = true ∧
      tryAcquire store input dateNow now = (.leased, store)) ∨
    ((rowToAcquire store input now).requestHash = input.requestHash ∧
      (tryAcquire store input dateNow now).1 =
        .acquired (lock input.workerId input.lockedUntil now
          (rowToAcquire store input now)) ∧
      (tryAcquire store input dateNow now).2.transitions = store.transitions ∧
      Writes store
        (lock input.workerId input.lockedUntil now (rowToAcquire store input now))
        (tryAcquire store input dateNow now).2) := by
  have hself : (store.sagas.insertIfAbsent (startedRow input now)).row
      input.idempotencyKey = some (rowToAcquire store input now) :=
    (row_insertIfAbsent_startedRow store input now _).trans (if_pos rfl)
  by_cases hhash : (rowToAcquire store input now).requestHash = input.requestHash
  · by_cases hleased : leasedToOther (rowToAcquire store input now) input.workerId
        dateNow = true
    · have hrow := stored_of_ne_startedRow store input now fun heq => by
        rw [heq] at hleased
        cases hleased
      have hsame : store.sagas.insertIfAbsent (startedRow input now) = store.sagas :=
        Table.insertIfAbsent_of_some hrow
      refine Or.inr (Or.inl ⟨_, hrow, hhash, hleased, ?_⟩)
      simp [tryAcquire, hsame, hrow, hhash, hleased]
    · have hresult : tryAcquire store input dateNow now =
          (.acquired (lock input.workerId input.lockedUntil now
            (rowToAcquire store input now)),
            { store with
              sagas := (store.sagas.insertIfAbsent (startedRow input now)).modify
                input.idempotencyKey (lock input.workerId input.lockedUntil now)
                (key_lock _ _ _) }) := by
        simp [tryAcquire, hself, hhash, hleased]
      refine Or.inr (Or.inr ⟨hhash, ?_, ?_, ?_⟩)
      · rw [hresult]
      · rw [hresult]
      · rw [hresult]
        intro key
        rw [key_lock, key_rowToAcquire, Table.row_modify,
          row_insertIfAbsent_startedRow]
        by_cases hkey : key = input.idempotencyKey
        · rw [if_pos hkey, if_pos hkey, if_pos hkey]
          rfl
        · rw [if_neg hkey, if_neg hkey, if_neg hkey]
  · have hrow := stored_of_ne_startedRow store input now fun heq =>
      hhash (congrArg AccountCreationSaga.requestHash heq)
    refine Or.inl ⟨_, hrow, hhash, ?_⟩
    simp [tryAcquire, hself, hhash]

/-- A committed transition rewrites exactly the row that the worker has locked
and appends one log row. -/
theorem transition_ok {input : TransitionInput} {nextStatus : SagaStatus}
    {updates : SagaUpdates} {detail : TransitionDetail} {now : Int}
    {saga : AccountCreationSaga} {store' : SagaStore}
    (h : transition store input nextStatus updates detail now =
      .ok (saga, store')) :
    ∃ current, store.sagas.row input.idempotencyKey = some current ∧
      current.lockedBy = some input.workerId ∧
      saga = updates.apply nextStatus now current ∧
      Writes store saga store' ∧
      store'.transitions = store.transitions ++
        [{ idempotencyKey := input.idempotencyKey
           fromStatus := current.status
           toStatus := nextStatus
           correlationId := input.correlationId
           causationId := input.causationId
           detail := detail }] := by
  cases hrow : store.sagas.row input.idempotencyKey with
  | none => simp [transition, hrow] at h
  | some current =>
      by_cases hlock : current.lockedBy = some input.workerId
      · simp only [transition, hrow, hlock, if_true, Except.ok.injEq,
          Prod.mk.injEq] at h
        obtain ⟨rfl, rfl⟩ := h
        refine ⟨current, rfl, hlock, rfl, ?_, rfl⟩
        intro key
        rw [SagaUpdates.key_apply, key_of_row store hrow]
        by_cases hkey : key = input.idempotencyKey
        · simp [Table.row_modify, hkey, hrow]
        · simp [Table.row_modify, hkey]
      · simp [transition, hrow, hlock] at h

theorem transition_of_locked {input : TransitionInput}
    {current : AccountCreationSaga}
    (hrow : store.sagas.row input.idempotencyKey = some current)
    (hlock : current.lockedBy = some input.workerId) (nextStatus : SagaStatus)
    (updates : SagaUpdates) (detail : TransitionDetail) (now : Int) :
    ∃ store', transition store input nextStatus updates detail now =
      .ok (updates.apply nextStatus now current, store') := by
  simp only [transition, hrow, hlock, if_true]
  exact ⟨_, rfl⟩

theorem transition_error {input : TransitionInput} {nextStatus : SagaStatus}
    {updates : SagaUpdates} {detail : TransitionDetail} {now : Int}
    {error : SagaError}
    (h : transition store input nextStatus updates detail now = .error error) :
    error = .notLocked ∧
      ∀ current, store.sagas.row input.idempotencyKey = some current →
        current.lockedBy ≠ some input.workerId := by
  cases hrow : store.sagas.row input.idempotencyKey with
  | none => simpa [transition, hrow, eq_comm] using h
  | some current =>
      by_cases hlock : current.lockedBy = some input.workerId
      · simp [transition, hrow, hlock] at h
      · simpa [transition, hrow, hlock, eq_comm] using h

theorem claimRecoverable_spec (workerId : String) (lockedUntil : Int)
    (limit : Nat) (skipLocked : String → Bool) (now : Int) :
    let result := claimRecoverable store workerId lockedUntil limit skipLocked now
    (∀ saga ∈ result.1, ∃ row,
      store.sagas.row saga.idempotencyKey = some row ∧
        recoverable now row = true ∧ saga = lock workerId lockedUntil now row) ∧
    (result.1.map AccountCreationSaga.idempotencyKey).Nodup ∧
    (∀ key, result.2.sagas.row key =
      if key ∈ result.1.map AccountCreationSaga.idempotencyKey then
        (store.sagas.row key).map (lock workerId lockedUntil now)
      else store.sagas.row key) ∧
    result.2.transitions = store.transitions := by
  intro result
  have hkeys : result.1.map AccountCreationSaga.idempotencyKey =
      (store.sagas.select
        (fun saga => recoverable now saga && !skipLocked saga.idempotencyKey)
        (fun a b => a.updatedAt ≤ b.updatedAt) limit).map
          AccountCreationSaga.idempotencyKey := by
    simp only [result, claimRecoverable, List.map_map]
    rfl
  refine ⟨?_, ?_, ?_, rfl⟩
  · intro saga hsaga
    obtain ⟨row, hrow, rfl⟩ := List.mem_map.mp hsaga
    obtain ⟨hstored, hwanted⟩ := Table.mem_of_mem_select _ _ _ hrow
    exact ⟨row, hstored, (Bool.and_eq_true_iff.mp hwanted).1, rfl⟩
  · rw [hkeys]
    exact Table.nodup_select _ _ _ _
  · intro key
    rw [hkeys]
    rfl

theorem row_release (idempotencyKey workerId : String) (now : Int)
    (key : String) :
    (release store idempotencyKey workerId now).sagas.row key =
      if key = idempotencyKey then
        (store.sagas.row key).map (unlockOwn workerId now)
      else store.sagas.row key :=
  Table.row_modify _ _ _ (key_unlockOwn _ _) _

end Specifications

end Modularis.Onboarding.Repository
