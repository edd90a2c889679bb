import Modularis.Foundation.Drain
import Modularis.Onboarding.Recovery

namespace Modularis.Onboarding.Drain

open Modularis.Foundation
open Modularis.Foundation.StepSystem
open Modularis.Foundation.Drain
open Modularis.Onboarding.Contracts
open Modularis.Onboarding.Repository
open Modularis.Onboarding.Service
open Modularis.Onboarding.Workers
open Modularis.Onboarding.Turns
open Modularis.Onboarding.Invariant

/-- `DEFAULT_RECOVERY_BATCH_SIZE`. -/
def defaultRecoveryBatchSize : Nat := 10

/-- One call of `recoverPendingSagas`, with the clock readings and the answers that it
meets for each key. -/
structure Round where
  worker : String
  dateNow : Int
  claimedAt : Int
  messageId : String → String
  userOf : String → UserCreateResponsePayload
  paymentOf : String → PaymentIntentPayload
  committedAt : String → SagaStatus → Int
  releasedAt : String → Int

namespace Round

variable (round : Round) (key : String)

/-- The user step, which succeeds. -/
def processUser : List Event :=
  [.advance round.worker,
   .answerUser round.worker (.resolved (.success (round.userOf key))),
   .mark round.worker round.dateNow (round.committedAt key .userCreated)]

/-- The payment step, which succeeds. -/
def processPayment : List Event :=
  [.advance round.worker,
   .answerPayment round.worker (.resolved (.success (round.paymentOf key))),
   .mark round.worker round.dateNow (round.committedAt key .paymentCreated)]

/-- The last step. -/
def complete : List Event :=
  [.advance round.worker,
   .mark round.worker round.dateNow (round.committedAt key .completed)]

/-- The steps from a next action on. -/
def finish : SagaNextAction → List Event
  | .processUser => round.processUser key ++ (round.processPayment key ++ round.complete key)
  | .processPayment => round.processPayment key ++ round.complete key
  | .complete => round.complete key
  | .compensateUser | .noop => []

/-- One turn of the `for` loop. -/
def handle (saga : AccountCreationSaga) : List Event :=
  .take round.worker (round.messageId saga.idempotencyKey) ::
    (round.finish saga.idempotencyKey saga.nextAction ++
      [.release round.worker (round.releasedAt saga.idempotencyKey)])

/-- What happens in a call of `recoverPendingSagas` that claims these sagas. -/
def events (claimed : List AccountCreationSaga) : List Event :=
  .recover round.worker round.dateNow ::
    .claim round.worker defaultRecoveryBatchSize (fun _ => false) round.claimedAt ::
      claimed.flatMap round.handle

end Round

/-- What a call claims. -/
def claimed (σ : World) (round : Round) : List AccountCreationSaga :=
  (claimRecoverable σ.store round.worker (round.dateNow + defaultSagaLeaseMs)
    defaultRecoveryBatchSize (fun _ => false) round.claimedAt).1

/-- The world after a call. -/
def pass (env : Environment) (σ : World) (round : Round) : World :=
  (replay (step env) σ (round.events (claimed σ round))).getD σ

/-- A saga that recovery can still complete. -/
def isOpen (saga : AccountCreationSaga) : Bool :=
  decide (saga.nextAction ∈ [SagaNextAction.processUser, .processPayment, .complete])

/-- The keys of the sagas that recovery can still complete. -/
def openKeys (σ : World) : List String :=
  (σ.store.sagas.rows.filter isOpen).map AccountCreationSaga.idempotencyKey

/-- The keys of the links that complete a saga. -/
def completions (links : List SagaTransition) : List String :=
  (links.filter fun link => link.toStatus = .completed).map SagaTransition.idempotencyKey

/-- The keys whose sagas were completed, in the order of the log. -/
def completedKeys (σ : World) : List String := completions σ.store.transitions

theorem completions_append (links links' : List SagaTransition) :
    completions (links ++ links') = completions links ++ completions links' := by
  simp only [completions, List.filter_append, List.map_append]

/-- A completed row, made from an open one: the steps that it had behind it are not
done again, and its answer is made of what it stores. -/
structure Completes (row row' : AccountCreationSaga) : Prop where
  status : row'.status = .completed
  nextAction : row'.nextAction = .noop
  unlocked : row'.lockedBy = none
  key : row'.idempotencyKey = row.idempotencyKey
  request : row'.requestHash = row.requestHash ∧ row'.requestPayload = row.requestPayload ∧
    row'.rootCorrelationId = row.rootCorrelationId
  user : row.nextAction ≠ .processUser → row'.userPayload = row.userPayload
  payment : row.nextAction = .complete → row'.paymentPayload = row.paymentPayload
  response : ∃ response, row'.response = some response ∧
    composeResponse row'.rootCorrelationId row'.idempotencyKey row'.userPayload
      row'.paymentPayload false = .ok response

theorem Completes.of_lock {w : String} {lockedUntil now : Int}
    {row row' : AccountCreationSaga} (h : Completes (lock w lockedUntil now row) row') :
    Completes row row' :=
  ⟨h.status, h.nextAction, h.unlocked, h.key, h.request, h.user, h.payment, h.response⟩

section Steps

variable {env : Environment} {σ₀ σ : World} {w key : String} {command : CreateCommand}
  {machine : Machine} {queue : List AccountCreationSaga} {saga : AccountCreationSaga}
  {links : List SagaTransition} {worker : Worker}

/-- Since `σ₀` only the worker and the row of the saga have moved. -/
structure Handling (σ₀ σ : World) (w : String) (worker : Worker)
    (saga : AccountCreationSaga) (links : List SagaTransition) : Prop where
  worker : σ.workers w = worker
  others : ∀ v, v ≠ w → σ.workers v = σ₀.workers v
  rows : Writes σ₀.store saga σ.store
  transitions : σ.store.transitions = σ₀.store.transitions ++ links

theorem Handling.row (h : Handling σ₀ σ w worker saga links) :
    σ.store.sagas.row saga.idempotencyKey = some saga :=
  (h.rows saga.idempotencyKey).trans (if_pos rfl)

theorem Handling.moved (h : Handling σ₀ σ w worker saga links) (worker' : Worker) :
    Handling σ₀ (σ.setWorker w worker') w worker' saga links where
  worker := Function.update_self ..
  others := fun v hv => (Function.update_of_ne hv ..).trans (h.others v hv)
  rows := h.rows
  transitions := h.transitions

theorem Handling.commit (env : Environment)
    (h : Handling σ₀ σ w (.running .recovery key command machine queue) saga links)
    (hlock : saga.lockedBy = some w) (dateNow now : Int) {change : Change}
    (hchange : change? dateNow machine = some change) (hsame : change.current = saga) :
    ∃ σ', step env σ (.mark w dateNow now) = some σ' ∧
      Handling σ₀ σ' w (runMachine .recovery key command
        (machine.marked (change.apply now saga)) queue) (change.apply now saga)
          (links ++ [change.link command saga]) := by
  subst hsame
  let input := transitionInput command w change.current
  have hrow : σ.store.sagas.row input.idempotencyKey = some change.current := h.row
  have hown : change.current.lockedBy = some input.workerId := hlock
  obtain ⟨store, hcommit⟩ := transition_of_locked σ.store hrow hown
    change.nextStatus change.updates change.detail now
  obtain ⟨row, hrow', _, _, hwrites, hlog⟩ := transition_ok σ.store hcommit
  obtain rfl := Option.some.inj (hrow.symm.trans hrow')
  refine ⟨World.setWorker { σ with store := store } w (runMachine .recovery key command
    (machine.marked (change.apply now change.current)) queue), ?_,
    Function.update_self .., ?_, ?_, ?_⟩
  · simp only [step, h.worker, mark_eq, hchange, Option.map_some, input, hcommit]
    rfl
  · exact fun v hv => (Function.update_of_ne hv ..).trans (h.others v hv)
  · intro k
    refine (hwrites k).trans ?_
    rw [h.rows k]
    split
    · rename_i hk
      exact (if_pos hk).symm
    · rename_i hk
      exact (if_neg hk).trans (if_neg hk).symm
  · have happend : store.transitions =
        σ.store.transitions ++ [change.link command change.current] := hlog
    refine happend.trans ?_
    rw [h.transitions, List.append_assoc]

theorem Handling.advance (env : Environment)
    (h : Handling σ₀ σ w (.running .recovery key command (.advancing saga) queue) saga
      links) :
    ∃ σ', step env σ (.advance w) = some σ' ∧
      Handling σ₀ σ' w (runMachine .recovery key command
        (Service.advance env command saga).2 queue) saga links := by
  refine ⟨_, ?_, h.moved _⟩
  simp only [step, h.worker]

theorem run_processUser (env : Environment) {round : Round}
    (h : Handling σ₀ σ round.worker
      (.running .recovery key command (.advancing saga) queue) saga links)
    (hlock : saga.lockedBy = some round.worker) (haction : saga.nextAction = .processUser) :
    ∃ σ' saga' link, replay (step env) σ (round.processUser key) = some σ' ∧
      Handling σ₀ σ' round.worker
        (.running .recovery key command (.advancing saga') queue) saga' (links ++ [link]) ∧
      link.toStatus = .userCreated ∧
      saga' = (SagaUpdates.userCreated (round.userOf key).user).apply .userCreated
        (round.committedAt key .userCreated) saga := by
  have hsent : (Service.advance env command saga).2 = .awaitingUser saga := by
    simp only [Service.advance, haction]
  obtain ⟨σ₁, hstep₁, h₁⟩ := h.advance env
  rw [hsent] at h₁
  have h₂ := h₁.moved (.running .recovery key command
    (.markingUserCreated saga (round.userOf key).user) queue)
  obtain ⟨σ₃, hstep₃, h₃⟩ := h₂.commit env hlock round.dateNow
    (round.committedAt key .userCreated) rfl rfl
  refine ⟨σ₃, _, _, replay_cons hstep₁ (replay_cons ?_ (replay_cons hstep₃ rfl)), h₃, rfl,
    rfl⟩
  simp only [step, h₁.worker, runMachine]
  rfl

theorem run_processPayment (env : Environment) {round : Round}
    (h : Handling σ₀ σ round.worker
      (.running .recovery key command (.advancing saga) queue) saga links)
    (hlock : saga.lockedBy = some round.worker)
    (haction : saga.nextAction = .processPayment) (huser : saga.userPayload.isSome) :
    ∃ σ' saga' link, replay (step env) σ (round.processPayment key) = some σ' ∧
      Handling σ₀ σ' round.worker
        (.running .recovery key command (.advancing saga') queue) saga' (links ++ [link]) ∧
      link.toStatus = .paymentCreated ∧
      saga' = (SagaUpdates.paymentCreated (toPublicPayment (round.paymentOf key))).apply
        .paymentCreated (round.committedAt key .paymentCreated) saga := by
  obtain ⟨user, huser⟩ := Option.isSome_iff_exists.mp huser
  have hsent : (Service.advance env command saga).2 = .awaitingPayment saga := by
    simp only [Service.advance, haction, huser]
  obtain ⟨σ₁, hstep₁, h₁⟩ := h.advance env
  rw [hsent] at h₁
  have h₂ := h₁.moved (.running .recovery key command
    (.markingPaymentCreated saga (toPublicPayment (round.paymentOf key))) queue)
  obtain ⟨σ₃, hstep₃, h₃⟩ := h₂.commit env hlock round.dateNow
    (round.committedAt key .paymentCreated) rfl rfl
  refine ⟨σ₃, _, _, replay_cons hstep₁ (replay_cons ?_ (replay_cons hstep₃ rfl)), h₃, rfl,
    rfl⟩
  simp only [step, h₁.worker, runMachine]
  rfl

theorem run_complete (env : Environment) {round : Round}
    (h : Handling σ₀ σ round.worker
      (.running .recovery key command (.advancing saga) queue) saga links)
    (hlock : saga.lockedBy = some round.worker) (haction : saga.nextAction = .complete)
    (huser : saga.userPayload.isSome) (hpayment : saga.paymentPayload.isSome) :
    ∃ σ' saga' link outcome, replay (step env) σ (round.complete key) = some σ' ∧
      Handling σ₀ σ' round.worker (.releasing .recovery key command outcome queue) saga'
        (links ++ [link]) ∧
      link.toStatus = .completed ∧ link.idempotencyKey = saga.idempotencyKey ∧
      Completes saga saga' := by
  obtain ⟨user, huser⟩ := Option.isSome_iff_exists.mp huser
  obtain ⟨payment, hpayment⟩ := Option.isSome_iff_exists.mp hpayment
  have hcompose : ∃ response, composeResponse saga.rootCorrelationId saga.idempotencyKey
      saga.userPayload saga.paymentPayload false = .ok response := by
    rw [huser, hpayment]
    exact ⟨_, rfl⟩
  obtain ⟨response, hcompose⟩ := hcompose
  have hsent : (Service.advance env command saga).2 = .markingCompleted saga response := by
    simp only [Service.advance, haction, hcompose]
  obtain ⟨σ₁, hstep₁, h₁⟩ := h.advance env
  rw [hsent] at h₁
  obtain ⟨σ₂, hstep₂, h₂⟩ := h₁.commit env hlock round.dateNow
    (round.committedAt key .completed) rfl rfl
  refine ⟨σ₂, _, _, _, replay_cons hstep₁ (replay_cons hstep₂ rfl), h₂, rfl, rfl, ?_⟩
  exact
    { status := rfl
      nextAction := rfl
      unlocked := rfl
      key := rfl
      request := ⟨rfl, rfl, rfl⟩
      user := fun _ => rfl
      payment := fun _ => rfl
      response := ⟨response, rfl, hcompose⟩ }

/-- The columns that a row needs for its next action. -/
def Ready (saga : AccountCreationSaga) : Prop :=
  (saga.nextAction ≠ .processUser → saga.userPayload.isSome) ∧
    (saga.nextAction = .complete → saga.paymentPayload.isSome)

/-- The events take a claimed saga to its completion. -/
def Finishes (env : Environment) (σ₀ σ : World) (w key : String) (command : CreateCommand)
    (queue : List AccountCreationSaga) (saga : AccountCreationSaga)
    (links : List SagaTransition) (events : List Event) : Prop :=
  ∃ σ' saga' links' outcome, replay (step env) σ events = some σ' ∧
    Handling σ₀ σ' w (.releasing .recovery key command outcome queue) saga'
      (links ++ links') ∧
    completions links' = [saga.idempotencyKey] ∧ Completes saga saga'

theorem Finishes.before {mid : AccountCreationSaga} {link : SagaTransition} {σ₁ : World}
    {first rest : List Event}
    (h : Finishes env σ₀ σ₁ w key command queue mid (links ++ [link]) rest)
    (hrun : replay (step env) σ first = some σ₁) (hto : link.toStatus ≠ .completed)
    (hkey : mid.idempotencyKey = saga.idempotencyKey)
    (hcompletes : ∀ row', Completes mid row' → Completes saga row') :
    Finishes env σ₀ σ w key command queue saga links (first ++ rest) := by
  obtain ⟨σ', saga', links', outcome, hrest, hhandling, hlinks, hcompleted⟩ := h
  refine ⟨σ', saga', link :: links', outcome, replay_append hrun hrest, ?_, ?_,
    hcompletes saga' hcompleted⟩
  · rw [List.append_assoc] at hhandling
    exact hhandling
  · rw [← hkey, ← hlinks]
    simp [completions, hto]

theorem finishes_complete (env : Environment) {round : Round}
    (h : Handling σ₀ σ round.worker
      (.running .recovery key command (.advancing saga) queue) saga links)
    (hlock : saga.lockedBy = some round.worker) (haction : saga.nextAction = .complete)
    (huser : saga.userPayload.isSome) (hpayment : saga.paymentPayload.isSome) :
    Finishes env σ₀ σ round.worker key command queue saga links (round.complete key) := by
  obtain ⟨σ', saga', link, outcome, hrun, h', hto, hkey, hcompletes⟩ :=
    run_complete env h hlock haction huser hpayment
  refine ⟨σ', saga', [link], outcome, hrun, h', ?_, hcompletes⟩
  simp [completions, hto, hkey]

theorem finishes_processPayment (env : Environment) {round : Round}
    (h : Handling σ₀ σ round.worker
      (.running .recovery key command (.advancing saga) queue) saga links)
    (hlock : saga.lockedBy = some round.worker)
    (haction : saga.nextAction = .processPayment) (huser : saga.userPayload.isSome) :
    Finishes env σ₀ σ round.worker key command queue saga links
      (round.processPayment key ++ round.complete key) := by
  obtain ⟨σ', saga', link, hrun, h', hto, rfl⟩ :=
    run_processPayment env h hlock haction huser
  have hrest := finishes_complete env h' hlock rfl huser rfl
  refine hrest.before hrun (by rw [hto]; decide) rfl ?_
  intro row' hrow'
  exact
    { hrow' with
      user := fun _ => hrow'.user (show SagaNextAction.complete ≠ .processUser by decide)
      payment := fun hcomplete => by rw [haction] at hcomplete; cases hcomplete }

theorem finishes_finish (env : Environment) {round : Round}
    (h : Handling σ₀ σ round.worker
      (.running .recovery key command (.advancing saga) queue) saga links)
    (hlock : saga.lockedBy = some round.worker) (hopen : isOpen saga = true)
    (hready : Ready saga) :
    Finishes env σ₀ σ round.worker key command queue saga links
      (round.finish key saga.nextAction) := by
  cases haction : saga.nextAction with
  | complete =>
      have huser := hready.1 (by rw [haction]; decide)
      exact finishes_complete env h hlock haction huser (hready.2 haction)
  | processPayment =>
      have huser := hready.1 (by rw [haction]; decide)
      exact finishes_processPayment env h hlock haction huser
  | processUser =>
      obtain ⟨σ', saga', link, hrun, h', hto, rfl⟩ := run_processUser env h hlock haction
      have hrest := finishes_processPayment env h' hlock rfl rfl
      refine hrest.before hrun (by rw [hto]; decide) rfl ?_
      intro row' hrow'
      exact
        { hrow' with
          user := fun huser => absurd haction huser
          payment := fun hcomplete => by rw [haction] at hcomplete; cases hcomplete }
  | compensateUser | noop => simp [isOpen, haction] at hopen

end Steps

section Queue

variable {env : Environment} {σ : World} {round : Round} {saga : AccountCreationSaga}
  {queue : List AccountCreationSaga}

/-- A row that the call has claimed, and can go on with. -/
structure Claimed (w : String) (saga : AccountCreationSaga) : Prop where
  locked : saga.lockedBy = some w
  isOpen : isOpen saga = true
  ready : Ready saga
  entered : executeStateMachine saga = .advancing saga

theorem run_handle (env : Environment) (hclaimed : Claimed round.worker saga)
    (hworker : σ.workers round.worker = .queued (saga :: queue))
    (hrow : σ.store.sagas.row saga.idempotencyKey = some saga) :
    ∃ σ' saga' links, replay (step env) σ (round.handle saga) = some σ' ∧
      Handling σ σ' round.worker (.queued queue) saga' links ∧
      completions links = [saga.idempotencyKey] ∧ Completes saga saga' := by
  let command := recoveryCommand saga (round.messageId saga.idempotencyKey)
  have hstart : Handling σ σ round.worker (.queued (saga :: queue)) saga [] :=
    ⟨hworker, fun _ _ => rfl, fun k => by split <;> simp_all,
      (List.append_nil _).symm⟩
  have htaken := hstart.moved
    (.running .recovery saga.idempotencyKey command (.advancing saga) queue)
  obtain ⟨σ₁, saga', links, outcome, hrun, h₁, hlinks, hcompletes⟩ :=
    finishes_finish env htaken hclaimed.locked hclaimed.isOpen hclaimed.ready
  have htake : step env σ (.take round.worker (round.messageId saga.idempotencyKey)) =
      some (σ.setWorker round.worker
        (.running .recovery saga.idempotencyKey command (.advancing saga) queue)) := by
    simp only [step, hworker, hclaimed.entered]
    rfl
  let released := release σ₁.store saga.idempotencyKey round.worker
    (round.releasedAt saga.idempotencyKey)
  have hrelease : step env σ₁
      (.release round.worker (round.releasedAt saga.idempotencyKey)) =
        some (World.setWorker { σ₁ with store := released } round.worker
          (.queued queue)) := by
    simp only [step, h₁.worker]
    rfl
  refine ⟨_, saga', links, replay_cons htake (replay_append hrun (replay_cons hrelease rfl)),
    ⟨Function.update_self .., ?_, ?_, h₁.transitions⟩, hlinks, hcompletes⟩
  · exact fun v hv => (Function.update_of_ne hv ..).trans (h₁.others v hv)
  · intro k
    refine (row_release _ _ _ _ _).trans ?_
    rw [← h₁.rows k]
    split
    · rename_i hk
      rw [hk, ← hcompletes.key, h₁.row, Option.map_some, unlockOwn, if_neg]
      simp [hcompletes.unlocked]
    · rfl

/-- The rows under the keys are completed, and nothing else has changed. -/
structure Completed (σ σ' : World) (w : String) (sagas : List AccountCreationSaga) :
    Prop where
  workers : ∀ v, v ≠ w → σ'.workers v = σ.workers v
  others : ∀ key, key ∉ sagas.map AccountCreationSaga.idempotencyKey →
    σ'.store.sagas.row key = σ.store.sagas.row key
  completed : ∀ saga ∈ sagas, ∃ row', σ'.store.sagas.row saga.idempotencyKey = some row' ∧
    Completes saga row'
  logged : completedKeys σ' =
    completedKeys σ ++ sagas.map AccountCreationSaga.idempotencyKey

theorem run_queue (env : Environment) {sagas : List AccountCreationSaga}
    (hclaimed : ∀ saga ∈ sagas, Claimed round.worker saga ∧
      σ.store.sagas.row saga.idempotencyKey = some saga)
    (hnodup : (sagas.map AccountCreationSaga.idempotencyKey).Nodup)
    (hworker : σ.workers round.worker = .queued sagas) :
    ∃ σ', replay (step env) σ (sagas.flatMap round.handle) = some σ' ∧
      Completed σ σ' round.worker sagas := by
  induction sagas generalizing σ with
  | nil =>
      refine ⟨σ, rfl, fun _ _ => rfl, fun _ _ => rfl, by simp, ?_⟩
      exact (List.append_nil _).symm
  | cons saga sagas ih =>
      obtain ⟨hfirst, hrow⟩ := hclaimed saga List.mem_cons_self
      obtain ⟨hnew, hnodup'⟩ := List.nodup_cons.mp hnodup
      obtain ⟨σ₁, saga', links, hrun, h₁, hlinks, hcompletes⟩ :=
        run_handle env hfirst hworker hrow
      have hkeep : ∀ key, key ≠ saga.idempotencyKey →
          σ₁.store.sagas.row key = σ.store.sagas.row key := by
        intro key hkey
        rw [← hcompletes.key] at hkey
        exact (h₁.rows key).trans (if_neg hkey)
      have hclaimed₁ : ∀ other ∈ sagas, Claimed round.worker other ∧
          σ₁.store.sagas.row other.idempotencyKey = some other := by
        intro other hother
        obtain ⟨hother', hrow'⟩ := hclaimed other (List.mem_cons_of_mem saga hother)
        have hne := ne_of_mem_of_not_mem (List.mem_map_of_mem hother) hnew
        exact ⟨hother', (hkeep _ hne).trans hrow'⟩
      obtain ⟨σ', hrest, hcompleted⟩ := ih hclaimed₁ hnodup' h₁.worker
      refine ⟨σ', replay_append hrun hrest, ?_, ?_, ?_, ?_⟩
      · exact fun v hv => (hcompleted.workers v hv).trans (h₁.others v hv)
      · intro key hkey
        obtain ⟨hne, hkey'⟩ := not_or.mp fun h => hkey (List.mem_cons.mpr h)
        rw [hcompleted.others key hkey', hkeep key hne]
      · intro other hother
        rcases List.mem_cons.mp hother with rfl | hother'
        · refine ⟨saga', ?_, hcompletes⟩
          rw [hcompleted.others _ hnew, ← hcompletes.key, h₁.row]
        · exact hcompleted.completed other hother'
      · have hlog : completedKeys σ₁ = completedKeys σ ++ [saga.idempotencyKey] := by
          rw [completedKeys, h₁.transitions, completions_append, hlinks]
          rfl
        rw [hcompleted.logged, hlog, List.append_assoc]
        rfl

end Queue

section Passes

variable {env : Environment} {σ : World} {round : Round} {rounds : List Round}

/-- The retry time and the lease of a row are over. -/
def Due (now : Int) (saga : AccountCreationSaga) : Prop :=
  saga.nextRetryAt.getD now ≤ now ∧ leaseOver now saga.lockedUntil = true

theorem not_refused_of_isOpen {saga : AccountCreationSaga} (hshape : SagaShape saga)
    (hopen : isOpen saga = true) : ¬ Recovery.Refused saga := by
  intro hrefused
  rw [isOpen, Recovery.nextAction_of_refused hshape hrefused] at hopen
  cases hopen

theorem recoverable_eq_isOpen {saga : AccountCreationSaga} {now : Int}
    (hshape : SagaShape saga) (hdue : isOpen saga = true → Due now saga) :
    recoverable now saga = isOpen saga := by
  have hselected : recoverable now saga = true ↔
      (isOpen saga = true ∧ saga.nextRetryAt.getD now ≤ now) ∧
        leaseOver now saga.lockedUntil = true := by
    rw [recoverable, Bool.and_eq_true, Bool.and_eq_true, decide_eq_true_eq]
    refine and_congr_left' (and_congr_left' ?_)
    cases hstatus : saga.status with
    | started | userCreated | paymentCreated | completed | compensated =>
        simp only [SagaShape, hstatus] at hshape
        simp [isOpen, hshape]
    | failed =>
        simp only [SagaShape, hstatus] at hshape
        cases hretryable : saga.retryable <;> simp [isOpen, hshape.2.2, hretryable]
  rw [Bool.eq_iff_iff, hselected]
  exact ⟨fun h => h.1.1, fun hopen => ⟨⟨hopen, (hdue hopen).1⟩, (hdue hopen).2⟩⟩

theorem ready_of_isOpen {saga : AccountCreationSaga} (hshape : SagaShape saga)
    (hopen : isOpen saga = true) : Ready saga := by
  constructor
  · intro haction
    cases hnext : saga.nextAction with
    | processUser => exact absurd hnext haction
    | processPayment => exact (of_processPayment hshape hnext).2
    | complete => exact (of_complete hshape hnext).2.1
    | compensateUser | noop => simp [isOpen, hnext] at hopen
  · exact fun haction => (of_complete hshape haction).2.2

theorem claimed_lock {saga : AccountCreationSaga} (hshape : SagaShape saga)
    (hopen : isOpen saga = true) (w : String) (lockedUntil now : Int) :
    Claimed w (lock w lockedUntil now saga) where
  locked := rfl
  isOpen := hopen
  ready := ready_of_isOpen hshape hopen
  entered := by
    refine Recovery.executeStateMachine_of_open hshape ?_ (not_refused_of_isOpen hshape hopen)
    intro hnoop
    have hnext : saga.nextAction = .noop := hnoop
    simp [Drain.isOpen, hnext] at hopen

/-- The calls come one after another, each under a new worker id, when every open saga
is due. -/
structure Works (σ : World) (rounds : List Round) : Prop where
  unused : ∀ round ∈ rounds, σ.workers round.worker = .fresh
  distinct : (rounds.map Round.worker).Nodup
  due : ∀ round ∈ rounds, ∀ saga ∈ σ.store.sagas.rows, isOpen saga = true →
    Due round.claimedAt saga

/-- The rows that a call selects, before it locks them. -/
def selected (σ : World) : List AccountCreationSaga :=
  σ.store.sagas.select isOpen (fun a b => a.updatedAt ≤ b.updatedAt)
    defaultRecoveryBatchSize

theorem claimed_eq (hconsistent : Consistent σ) (h : Works σ (round :: rounds)) :
    claimed σ round = (selected σ).map
      (lock round.worker (round.dateNow + defaultSagaLeaseMs) round.claimedAt) := by
  rw [claimed, claimRecoverable, selected]
  refine congrArg _ (select_congr fun saga hmem => ?_)
  have hshape := (hconsistent.rows _ saga (Table.mem_rows_iff _ _ |>.mp hmem)).shape
  rw [Bool.not_false, Bool.and_true]
  exact recoverable_eq_isOpen hshape (h.due round List.mem_cons_self saga hmem)

/-- A row is as it was, or recovery has completed it. -/
inductive Advances (row : AccountCreationSaga) : AccountCreationSaga → Prop
  | kept : Advances row row
  | completed {row' : AccountCreationSaga} : isOpen row = true → Completes row row' →
      Advances row row'

theorem run_events (env : Environment) (hconsistent : Consistent σ)
    (h : Works σ (round :: rounds)) :
    ∃ σ', replay (step env) σ (round.events (claimed σ round)) = some σ' ∧
      Completed σ σ' round.worker (selected σ) := by
  let leaseUntil := round.dateNow + defaultSagaLeaseMs
  let result := claimRecoverable σ.store round.worker leaseUntil defaultRecoveryBatchSize
    (fun _ => false) round.claimedAt
  let σ₁ : World := World.setWorker
    { σ.setWorker round.worker (.claiming leaseUntil) with store := result.2 } round.worker
    (.queued (claimed σ round))
  have hrecover : step env σ (.recover round.worker round.dateNow) =
      some (σ.setWorker round.worker (.claiming leaseUntil)) := by
    simp only [step, h.unused round List.mem_cons_self]
    rfl
  have hclaim : step env (σ.setWorker round.worker (.claiming leaseUntil))
      (.claim round.worker defaultRecoveryBatchSize (fun _ => false) round.claimedAt) =
        some σ₁ := by
    simp only [step, World.setWorker, Function.update_self]
    rfl
  obtain ⟨_, hnodup, hrows, hlog⟩ := claimRecoverable_spec σ.store round.worker leaseUntil
    defaultRecoveryBatchSize (fun _ => false) round.claimedAt
  have hselected : ∀ saga ∈ selected σ, σ.store.sagas.row saga.idempotencyKey = some saga ∧
      isOpen saga = true := fun saga hsaga => Table.mem_of_mem_select _ _ _ hsaga
  have hclaimed : ∀ saga ∈ claimed σ round, Claimed round.worker saga ∧
      σ₁.store.sagas.row saga.idempotencyKey = some saga := by
    intro saga hsaga
    have hkey := List.mem_map_of_mem (f := AccountCreationSaga.idempotencyKey) hsaga
    rw [claimed_eq hconsistent h] at hsaga
    obtain ⟨row, hrow, rfl⟩ := List.mem_map.mp hsaga
    obtain ⟨hstored, hopen⟩ := hselected row hrow
    refine ⟨claimed_lock (hconsistent.rows _ row hstored).shape hopen _ _ _, ?_⟩
    refine (hrows _).trans ((if_pos hkey).trans ?_)
    rw [key_lock, hstored]
    rfl
  obtain ⟨σ', hrun, hcompleted⟩ := run_queue env hclaimed hnodup
    (Function.update_self round.worker _ _)
  have hkeys : (claimed σ round).map AccountCreationSaga.idempotencyKey =
      (selected σ).map AccountCreationSaga.idempotencyKey := by
    rw [claimed_eq hconsistent h, List.map_map]
    rfl
  refine ⟨σ', replay_cons hrecover (replay_cons hclaim hrun), ?_, ?_, ?_, ?_⟩
  · intro v hv
    rw [hcompleted.workers v hv]
    simp only [σ₁, World.setWorker, Function.update_of_ne hv]
  · intro key hkey
    rw [← hkeys] at hkey
    exact (hcompleted.others key hkey).trans ((hrows key).trans (if_neg hkey))
  · intro saga hsaga
    have hlocked : lock round.worker leaseUntil round.claimedAt saga ∈ claimed σ round := by
      rw [claimed_eq hconsistent h]
      exact List.mem_map_of_mem hsaga
    obtain ⟨row', hrow', hcompletes⟩ := hcompleted.completed _ hlocked
    exact ⟨row', hrow', hcompletes.of_lock⟩
  · rw [hcompleted.logged, hkeys]
    rfl

theorem pass_eq (env : Environment) (hconsistent : Consistent σ)
    (h : Works σ (round :: rounds)) :
    Completed σ (pass env σ round) round.worker (selected σ) ∧
      ∀ start, StepSystem.Reachable (step env) start σ →
        StepSystem.Reachable (step env) start (pass env σ round) := by
  obtain ⟨σ', hreplay, hcompleted⟩ := run_events env hconsistent h
  have hpass : pass env σ round = σ' := by rw [pass, hreplay, Option.getD_some]
  rw [hpass]
  exact ⟨hcompleted, fun start hreach => hreach.run (run_of_replay hreplay)⟩

theorem Completed.not_open {w : String} {σ' : World} (h : Completed σ σ' w (selected σ))
    {row : AccountCreationSaga} (hrow : row ∈ σ'.store.sagas.rows)
    (hkey : row.idempotencyKey ∈ (selected σ).map AccountCreationSaga.idempotencyKey) :
    isOpen row = false := by
  obtain ⟨saga, hsaga, hsame⟩ := List.mem_map.mp hkey
  obtain ⟨row', hrow', hcompletes⟩ := h.completed saga hsaga
  rw [hsame, (Table.mem_rows_iff _ _).mp hrow] at hrow'
  obtain rfl := Option.some.inj hrow'
  rw [isOpen, hcompletes.nextAction]
  rfl

theorem handsOut_pass (hreach : Reachable env σ) (h : Works σ (round :: rounds)) :
    HandsOut openKeys completedKeys defaultRecoveryBatchSize σ (pass env σ round) := by
  obtain ⟨hcompleted, _⟩ := pass_eq env (consistent_of_reachable hreach) h
  exact handsOut_select AccountCreationSaga.idempotencyKey rfl rfl hcompleted.logged
    hcompleted.others fun row hrow hkey => hcompleted.not_open hrow hkey

theorem works_pass (hreach : Reachable env σ) (h : Works σ (round :: rounds)) :
    Reachable env (pass env σ round) ∧ Works (pass env σ round) rounds := by
  obtain ⟨hcompleted, hlater⟩ := pass_eq env (consistent_of_reachable hreach) h
  obtain ⟨hnew, hdistinct⟩ := List.nodup_cons.mp h.distinct
  refine ⟨hlater _ hreach, ?_, hdistinct, ?_⟩
  · intro other hother
    rw [hcompleted.workers _ (ne_of_mem_of_not_mem (List.mem_map_of_mem hother) hnew)]
    exact h.unused other (List.mem_cons_of_mem round hother)
  · intro other hother saga hsaga hopen
    refine h.due other (List.mem_cons_of_mem round hother) saga ?_ hopen
    have hkept := hcompleted.others saga.idempotencyKey fun hkey => by
      rw [hcompleted.not_open hsaga hkey] at hopen
      cases hopen
    rw [Table.mem_rows_iff] at hsaga ⊢
    rw [← hkept, hsaga]

/-- The table of the sagas, and recovery over it. -/
def outbox (env : Environment) : Outbox World Round String where
  pending := openKeys
  out := completedKeys
  limit := defaultRecoveryBatchSize
  pass := pass env
  ready := fun σ rounds => Reachable env σ ∧ Works σ rounds
  handsOut := fun _ _ _ h => handsOut_pass h.1 h.2
  stays := fun _ _ _ h => works_pass h.1 h.2

theorem advances_pass (hreach : Reachable env σ) (h : Works σ (round :: rounds))
    {key : String} {row : AccountCreationSaga} (hrow : σ.store.sagas.row key = some row) :
    ∃ row', (pass env σ round).store.sagas.row key = some row' ∧ Advances row row' := by
  obtain ⟨hcompleted, _⟩ := pass_eq env (consistent_of_reachable hreach) h
  by_cases hkey : key ∈ (selected σ).map AccountCreationSaga.idempotencyKey
  · obtain ⟨saga, hsaga, rfl⟩ := List.mem_map.mp hkey
    obtain ⟨hstored, hopen⟩ := Table.mem_of_mem_select _ _ _ hsaga
    obtain rfl := Option.some.inj (hrow.symm.trans hstored)
    obtain ⟨row', hrow', hcompletes⟩ := hcompleted.completed row hsaga
    exact ⟨row', hrow', .completed hopen hcompletes⟩
  · exact ⟨row, (hcompleted.others key hkey).trans hrow, .kept⟩

theorem Advances.trans {row row' row'' : AccountCreationSaga} (h : Advances row row')
    (h' : Advances row' row'') : Advances row row'' := by
  cases h with
  | kept => exact h'
  | completed hopen hcompletes =>
      cases h' with
      | kept => exact .completed hopen hcompletes
      | completed hopen' _ =>
          rw [isOpen, hcompletes.nextAction] at hopen'
          cases hopen'

theorem advances_run (hreach : Reachable env σ) (h : Works σ rounds) {key : String}
    {row : AccountCreationSaga} (hrow : σ.store.sagas.row key = some row) :
    ∃ row', ((outbox env).run σ rounds).store.sagas.row key = some row' ∧
      Advances row row' := by
  induction rounds generalizing σ row with
  | nil => exact ⟨row, hrow, .kept⟩
  | cons round rounds ih =>
      obtain ⟨mid, hmid, hfirst⟩ := advances_pass hreach h hrow
      obtain ⟨hreach', hworks⟩ := works_pass hreach h
      obtain ⟨row', hrow', hlater⟩ := ih hreach' hworks hmid
      exact ⟨row', hrow', hfirst.trans hlater⟩

/-- Once nothing fails any more, calls of `recoverPendingSagas` complete every open saga,
once, and no other; the rest of the table stays as it is. -/
theorem recovery_completes (hreach : Reachable env σ) (h : Works σ rounds)
    (hrounds : (openKeys σ).length ≤ rounds.length * defaultRecoveryBatchSize) :
    (outbox env).Emptied σ ((outbox env).run σ rounds) ∧
      ∀ key row, σ.store.sagas.row key = some row → ∃ row',
        ((outbox env).run σ rounds).store.sagas.row key = some row' ∧ Advances row row' :=
  ⟨Outbox.emptied_run ⟨hreach, h⟩ hrounds, fun _ _ => advances_run hreach h⟩

end Passes

section Sample

open Modularis.Onboarding.SingleRun

/-- A worker for each number. -/
def workerOf (n : Nat) : String := String.ofList (List.replicate (n + 1) 'w')

/-- A command for each number. -/
def commandOf (n : Nat) : CreateCommand :=
  { sampleCommand with
    payload :=
      { sampleCommand.payload with
        idempotencyKey := String.ofList (List.replicate (n + 1) 'k') } }

/-- One account is created.  Of twelve more workers every second one crashes before it has
asked for the user, the others when they have stored the answer. -/
def sampleEvents : List Event :=
  singleRun "worker" sampleCommand sampleUser samplePayment ++
    (List.range 12).flatMap fun n =>
      (userSteps (workerOf n) (commandOf n) sampleUser).take (if n % 2 = 0 then 2 else 5) ++
        [.crash (workerOf n)]

def sampleWorld : World :=
  (replay (step sampleEnvironment) World.init sampleEvents).getD World.init

def sampleRound (worker : String) (now : Int) : Round where
  worker := worker
  dateNow := now
  claimedAt := now
  messageId := fun _ => "message-2"
  userOf := fun _ => { user := sampleUser, replayed := false }
  paymentOf := fun _ => samplePayment
  committedAt := fun _ _ => now + 1
  releasedAt := fun _ => now + 2

/-- Ten sagas a call: the second call completes what the first has left. -/
def sampleRounds : List Round := [sampleRound "recovery-1" 30001, sampleRound "recovery-2" 60001]

theorem reachable_sample : Reachable sampleEnvironment sampleWorld := by
  have hsome : (replay (step sampleEnvironment) World.init sampleEvents).isSome = true := by
    decide +kernel
  obtain ⟨σ, hreplay⟩ := Option.isSome_iff_exists.mp hsome
  rw [sampleWorld, hreplay]
  exact (run_of_replay hreplay).reachable

theorem works_sample : Works sampleWorld sampleRounds where
  unused := by
    intro round hround
    rcases List.mem_pair.mp hround with rfl | rfl <;> rfl
  distinct := by decide
  due := by
    intro round hround
    simp only [Due]
    rcases List.mem_pair.mp hround with rfl | rfl <;> decide +kernel

theorem recovery_completes_sample :
    (sampleWorld.store.sagas.rows.length = 13 ∧ (openKeys sampleWorld).length = 12) ∧
    (outbox sampleEnvironment).Emptied sampleWorld
        ((outbox sampleEnvironment).run sampleWorld sampleRounds) ∧
      ∀ key row, sampleWorld.store.sagas.row key = some row → ∃ row',
        ((outbox sampleEnvironment).run sampleWorld sampleRounds).store.sagas.row key =
          some row' ∧ Advances row row' :=
  ⟨by decide +kernel, recovery_completes reachable_sample works_sample (by decide +kernel)⟩

end Sample

end Modularis.Onboarding.Drain
