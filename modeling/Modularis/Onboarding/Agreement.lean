import Modularis.Onboarding.Recovery

namespace Modularis.Onboarding.Agreement

open Modularis.Foundation
open Modularis.Onboarding.Contracts
open Modularis.Onboarding.Repository
open Modularis.Onboarding.Service
open Modularis.Onboarding.Workers
open Modularis.Onboarding.Turns
open Modularis.Onboarding.SingleRun
open Modularis.Onboarding.Invariant

/-- What a row keeps from its first command. -/
def SameRoot (row row' : AccountCreationSaga) : Prop :=
  row'.requestHash = row.requestHash ∧
    row'.requestPayload = row.requestPayload ∧
    row'.rootCorrelationId = row.rootCorrelationId

theorem sameRoot_of_step {env : Environment} {σ σ' : World} {e : Event}
    (hstep : step env σ e = some σ') {key : String} {row : AccountCreationSaga}
    (hrow : σ.store.sagas.row key = some row) :
    ∃ row', σ'.store.sagas.row key = some row' ∧ SameRoot row row' := by
  obtain ⟨w, store, after, hturn, rfl⟩ := turn_of_step hstep
  cases rowStep_of_turn hturn key with
  | absent hold => cases hrow.symm.trans hold
  | kept hold hnew hsame =>
      obtain rfl := Option.some.inj (hrow.symm.trans hold)
      obtain ⟨_, _, _, rfl⟩ := hsame
      exact ⟨_, hnew, rfl, rfl, rfl⟩
  | inserted _ _ _ hold => cases hrow.symm.trans hold
  | changed _ _ _ _ hold _ hnew =>
      obtain rfl := Option.some.inj (hrow.symm.trans hold)
      exact ⟨_, hnew, rfl, rfl, rfl⟩

/-- The response of a row belongs to its completion and is composed from its
snapshots. -/
def ResponseOk (saga : AccountCreationSaga) : Prop :=
  ∀ response, saga.response = some response →
    saga.status = .completed ∧
      composeResponse saga.rootCorrelationId saga.idempotencyKey
        saga.userPayload saga.paymentPayload false = .ok response

/-- Every stored answer is made of its row. -/
def ResponsesOk (σ : World) : Prop :=
  ∀ key saga, σ.store.sagas.row key = some saga → ResponseOk saga

theorem responseOk_change {machine : Machine} {dateNow now : Int}
    {change : Change} (hok : MachineOk machine)
    (hchange : change? dateNow machine = some change)
    (hshape : SagaShape change.current) (hresponse : ResponseOk change.current) :
    ResponseOk (change.apply now change.current) := by
  intro response h
  cases machine with
  | markingUserCreated | markingPaymentCreated =>
      cases hchange
      cases h
  | markingFailed current error =>
      cases hchange
      obtain ⟨hstatus, _⟩ := hresponse response h
      obtain ⟨hother | ⟨hother, _⟩, _⟩ := of_processPayment hshape hok
      · cases hstatus.symm.trans hother
      · cases hstatus.symm.trans hother
  | markingCompensated current =>
      cases hchange
      obtain ⟨hstatus, _⟩ := hresponse response h
      obtain ⟨hother, _⟩ := of_compensateUser hshape hok.1
      cases hstatus.symm.trans hother
  | markingCompleted current composed =>
      cases hchange
      obtain rfl : composed = response := Option.some.inj h
      exact ⟨rfl, hok.2⟩
  | _ => cases hchange

theorem change_of_step {σ : World} {w : String} {origin : Origin} {k : String}
    {command : CreateCommand} {machine : Machine}
    {queue : List AccountCreationSaga} {dateNow : Int} {change : Change}
    {row : AccountCreationSaga} (h : Consistent σ)
    (hw : σ.workers w = .running origin k command machine queue)
    (hchange : change? dateNow machine = some change)
    (hrow : σ.store.sagas.row change.current.idempotencyKey = some row)
    (hlock : row.lockedBy = some w) :
    row = change.current ∧ MachineOk machine ∧ SagaShape row ∧
      command.payload.idempotencyKey = row.idempotencyKey ∧
      command.payload.requestHash = row.requestHash := by
  obtain rfl := current_of_locked h hw hchange hrow hlock
  have hworker := h.worker w
  rw [hw] at hworker
  obtain ⟨hkey, hok, hkeys⟩ := hworker
  obtain ⟨hcurrent, hhash⟩ := hkeys _ (current?_of_change? hchange)
  exact ⟨rfl, hok, (h.rows _ _ hrow).shape, hkey.trans hcurrent.symm, hhash.symm⟩

theorem responsesOk_step {env : Environment} {σ σ' : World} {e : Event}
    (hconsistent : Consistent σ) (h : ResponsesOk σ)
    (hstep : step env σ e = some σ') : ResponsesOk σ' := by
  obtain ⟨w, store, after, hturn, rfl⟩ := turn_of_step hstep
  intro key saga hrow
  cases rowStep_of_turn hturn key with
  | absent _ hnew => cases hrow.symm.trans hnew
  | kept hold hnew hsame =>
      obtain rfl := Option.some.inj (hrow.symm.trans hnew)
      have hkept := h key _ hold
      obtain ⟨_, _, _, rfl⟩ := hsame
      exact hkept
  | inserted _ _ _ _ hnew =>
      obtain rfl := Option.some.inj (hrow.symm.trans hnew)
      intro response hresponse
      cases hresponse
  | changed hw _ hchange hcurrent hold hlock hnew =>
      obtain rfl := Option.some.inj (hrow.symm.trans hnew)
      obtain ⟨rfl, hok, hshape, _⟩ :=
        change_of_step hconsistent hw hchange (hcurrent ▸ hold) hlock
      exact responseOk_change hok hchange hshape (h key _ hold)

/-- What a `create` call has resolved with. -/
def answered : Worker → Option (CreateCommand × CreateAccountResponse)
  | .releasing .command _ command (.resolved response) _ =>
      some (command, response)
  | .settled command (.resolved response) => some (command, response)
  | _ => none

/-- An answer to a command is the response of its completed row. -/
def AnswerOk (store : SagaStore) (command : CreateCommand)
    (answer : CreateAccountResponse) : Prop :=
  ∃ row response,
    store.sagas.row command.payload.idempotencyKey = some row ∧
    row.status = .completed ∧
    row.requestHash = command.payload.requestHash ∧
    row.response = some response ∧
    answer = withReplayFlag response answer.metadata.replayed

theorem answered_runMachine {key : String} {command command' : CreateCommand}
    {machine : Machine} {queue : List AccountCreationSaga}
    {answer : CreateAccountResponse}
    (h : answered (runMachine .command key command machine queue) =
      some (command', answer)) :
    machine = .settled (.resolved answer) ∧ command' = command := by
  cases machine with
  | settled outcome =>
      cases outcome with
      | resolved response =>
          obtain ⟨rfl, rfl⟩ := Prod.mk.inj (Option.some.inj h)
          exact ⟨rfl, rfl⟩
      | rejected reason => cases h
  | _ => cases h

theorem answered_recovery (key : String) (command : CreateCommand)
    (machine : Machine) (queue : List AccountCreationSaga) :
    answered (runMachine .recovery key command machine queue) = none := by
  cases machine <;> rfl

theorem resolved_of_answered {origin : Origin} {key : String}
    {command command' : CreateCommand} {machine : Machine}
    {queue : List AccountCreationSaga} {answer : CreateAccountResponse}
    (h : answered (runMachine origin key command machine queue) =
      some (command', answer)) : machine = .settled (.resolved answer) := by
  cases origin with
  | command => exact (answered_runMachine h).1
  | recovery =>
      rw [answered_recovery] at h
      cases h

theorem answer_of_executeStateMachine {saga : AccountCreationSaga}
    {answer : CreateAccountResponse}
    (h : executeStateMachine saga = .settled (.resolved answer)) :
    ∃ response, saga.status = .completed ∧ saga.response = some response ∧
      answer = withReplayFlag response true := by
  unfold executeStateMachine at h
  cases hdone : tryCompletedReplay saga with
  | some response =>
      simp only [hdone, Machine.settled.injEq, Outcome.resolved.injEq] at h
      unfold tryCompletedReplay at hdone
      split at hdone
      · exact ⟨response, ‹_›, hdone, h.symm⟩
      · cases hdone
  | none =>
      simp only [hdone] at h
      split at h <;> cases h

theorem advance_not_resolved {env : Environment} {command : CreateCommand}
    {current : AccountCreationSaga} {answer : CreateAccountResponse}
    (hok : MachineOk (.advancing current)) :
    (advance env command current).2 ≠ .settled (.resolved answer) := by
  unfold advance
  intro h
  split at h
  · cases h
  · split at h <;> cases h
  · split at h <;> cases h
  · split at h <;> cases h
  · exact hok.1 ‹_›

theorem throw_not_resolved (reason : Thrown) (machine : Machine)
    (answer : CreateAccountResponse) :
    machine.throw reason ≠ .settled (.resolved answer) := by
  cases machine <;> simp [Machine.throw]

theorem answerUser_not_resolved {outcome : RpcOutcome UserCreateResponsePayload}
    {machine : Machine} {answer : CreateAccountResponse} :
    machine.answerUser outcome ≠ some (.settled (.resolved answer)) := by
  cases machine with
  | awaitingUser current =>
      intro h
      have hnext := Option.some.inj h
      split at hnext
      · cases hnext
      · exact throw_not_resolved _ _ _ hnext
  | _ => simp [Machine.answerUser]

theorem answerPayment_not_resolved {outcome : RpcOutcome PaymentIntentPayload}
    {machine : Machine} {answer : CreateAccountResponse} :
    machine.answerPayment outcome ≠ some (.settled (.resolved answer)) := by
  cases machine with
  | awaitingPayment current =>
      intro h
      have hnext := Option.some.inj h
      split at hnext
      · cases hnext
      · exact throw_not_resolved _ _ _ hnext
  | _ => simp [Machine.answerPayment]

theorem answerCompensation_not_resolved
    {outcome : RpcOutcome CompensationResultPayload} {machine : Machine}
    {answer : CreateAccountResponse} :
    machine.answerCompensation outcome ≠ some (.settled (.resolved answer)) := by
  cases machine with
  | awaitingCompensation current =>
      intro h
      have hnext := Option.some.inj h
      split at hnext
      · cases hnext
      · exact throw_not_resolved _ _ _ hnext
  | _ => simp [Machine.answerCompensation]

theorem marked_resolved {saga : AccountCreationSaga} {machine : Machine}
    {answer : CreateAccountResponse}
    (h : machine.marked saga = .settled (.resolved answer)) :
    ∃ current, machine = .markingCompleted current answer := by
  cases machine with
  | markingFailed current error =>
      simp only [Machine.marked] at h
      split at h <;> cases h
  | markingCompleted current response =>
      cases h
      exact ⟨current, rfl⟩
  | _ => cases h

theorem answer_of_poll {polled command : CreateCommand} {deadline : Int}
    {row? : Option AccountCreationSaga} {answer : CreateAccountResponse}
    (h : answered (afterPoll polled deadline row?) = some (command, answer)) :
    polled = command ∧ ∃ row response, row? = some row ∧
      row.status = .completed ∧
      row.requestHash = command.payload.requestHash ∧
      row.response = some response ∧ answer = withReplayFlag response true := by
  cases row? with
  | none => cases h
  | some row =>
      simp only [afterPoll] at h
      split at h
      · cases h
      · rename_i hhash
        split at h
        · rename_i replay hdone
          obtain ⟨rfl, rfl⟩ := Prod.mk.inj (Option.some.inj h)
          unfold tryCompletedReplay at hdone
          split at hdone
          · exact ⟨rfl, row, replay, rfl, ‹_›, not_not.mp hhash, hdone, rfl⟩
          · cases hdone
        · split at h <;> cases h

theorem withReplayFlag_self (response : CreateAccountResponse) :
    withReplayFlag response response.metadata.replayed = response := rfl

/-- A call resolves with the response of a completed row; when the answer is not
marked as a replay, the row was completed by this very turn. -/
theorem answered_of_turn {env : Environment} {σ : World} {w : String}
    {store : SagaStore} {after : Worker} {e : Event} {command : CreateCommand}
    {answer : CreateAccountResponse} (h : Consistent σ)
    (hturn : Turn env σ.store w (σ.workers w) e store after)
    (hafter : answered after = some (command, answer)) :
    answered (σ.workers w) = some (command, answer) ∨
      AnswerOk store command answer ∧
        (answer.metadata.replayed = false → ∀ row,
          σ.store.sagas.row command.payload.idempotencyKey = some row →
            row.status ≠ .completed) := by
  generalize hw : σ.workers w = before at hturn ⊢
  have hworker := h.worker w
  rw [hw] at hworker
  cases hturn with
  | create | recover | hashConflict | leased | wake | giveUp | claim | crash =>
      cases hafter
  | @acquired _ _ _ _ row saga _ _ hrow hhash hsaga hwrites =>
      obtain ⟨hmachine, rfl⟩ := answered_runMachine hafter
      obtain ⟨response, hstatus, hresponse, rfl⟩ :=
        answer_of_executeStateMachine hmachine
      have hkey : saga.idempotencyKey = command.payload.idempotencyKey := by
        rw [hsaga, hrow]
        exact key_rowToAcquire _ _ _
      refine .inr ⟨⟨saga, response, hkey ▸ (hwrites _).trans (if_pos rfl),
        hstatus, ?_, hresponse, rfl⟩, fun hfresh => by cases hfresh⟩
      rw [hsaga]
      exact hhash
  | poll =>
      obtain ⟨rfl, row, response, hrow, hstatus, hhash, hresponse, rfl⟩ :=
        answer_of_poll hafter
      exact .inr ⟨⟨row, response, hrow, hstatus, hhash, hresponse, rfl⟩,
        fun hfresh => by cases hfresh⟩
  | take =>
      rw [answered_recovery] at hafter
      cases hafter
  | advance =>
      exact absurd (resolved_of_answered hafter) (advance_not_resolved hworker.2.1)
  | @answerUser _ _ _ _ _ _ _ hnext =>
      rw [resolved_of_answered hafter] at hnext
      exact absurd hnext answerUser_not_resolved
  | @answerPayment _ _ _ _ _ _ _ hnext =>
      rw [resolved_of_answered hafter] at hnext
      exact absurd hnext answerPayment_not_resolved
  | @answerCompensation _ _ _ _ _ _ _ hnext =>
      rw [resolved_of_answered hafter] at hnext
      exact absurd hnext answerCompensation_not_resolved
  | refused => exact absurd (resolved_of_answered hafter) (throw_not_resolved _ _ _)
  | @commit origin _ _ machine _ _ now change row _ _ hchange hrow hlock hwrites =>
      cases origin with
      | recovery =>
          rw [answered_recovery] at hafter
          cases hafter
      | command =>
          obtain ⟨hmarked, rfl⟩ := answered_runMachine hafter
          obtain ⟨current, rfl⟩ := marked_resolved hmarked
          obtain ⟨rfl, hok, hshape, hkey, hhash⟩ :=
            change_of_step h hw hchange hrow hlock
          cases hchange
          have hwritten := (hwrites _).trans (if_pos rfl)
          rw [Change.key_apply, ← hkey] at hwritten
          refine .inr ⟨⟨_, answer, hwritten, rfl, hhash.symm, rfl,
            (withReplayFlag_self answer).symm⟩, ?_⟩
          intro _ row hrow'
          rw [hkey] at hrow'
          obtain rfl := Option.some.inj (hrow.symm.trans hrow')
          obtain ⟨hstatus, _⟩ := of_complete hshape hok.1
          rw [hstatus]
          simp
  | @release origin _ _ outcome =>
      cases origin with
      | command => cases outcome <;> exact .inl hafter
      | recovery => cases hafter
  | fail hfail =>
      refine .inl ?_
      cases before with
      | running origin key running machine queue =>
          rw [afterFailure_running hfail] at hafter
          exact absurd (resolved_of_answered hafter) (throw_not_resolved _ _ _)
      | releasing origin key releasing outcome queue =>
          obtain rfl := Option.some.inj hfail
          cases origin with
          | command => cases outcome <;> exact hafter
          | recovery => cases hafter
      | _ => cases hfail <;> cases hafter

/-- The answers given so far: each is the response of a completed row, and at
most one for a key is not marked as a replay. -/
structure Answers (σ : World) : Prop where
  consistent : Consistent σ
  responses : ResponsesOk σ
  answers : ∀ w command answer,
    answered (σ.workers w) = some (command, answer) →
      AnswerOk σ.store command answer
  once : ∀ v w command command' answer answer',
    answered (σ.workers v) = some (command, answer) →
    answered (σ.workers w) = some (command', answer') →
    command.payload.idempotencyKey = command'.payload.idempotencyKey →
    answer.metadata.replayed = false → answer'.metadata.replayed = false →
    v = w

theorem completed_of_step {env : Environment} {σ σ' : World} {e : Event}
    (h : Consistent σ) (hstep : step env σ e = some σ') {key : String}
    {row : AccountCreationSaga} (hrow : σ.store.sagas.row key = some row)
    (hcompleted : row.status = .completed) :
    ∃ row', σ'.store.sagas.row key = some row' ∧ SameContent row row' := by
  have hshape := (h.rows key row hrow).shape
  simp only [SagaShape, hcompleted] at hshape
  exact kept_of_step h hstep hrow (.inr hshape.1)

theorem answerOk_of_step {env : Environment} {σ σ' : World} {e : Event}
    (h : Consistent σ) (hstep : step env σ e = some σ') {command : CreateCommand}
    {answer : CreateAccountResponse} (hanswer : AnswerOk σ.store command answer) :
    AnswerOk σ'.store command answer := by
  obtain ⟨row, response, hrow, hstatus, hhash, hresponse, hself⟩ := hanswer
  obtain ⟨row', hrow', _, _, _, rfl⟩ := completed_of_step h hstep hrow hstatus
  exact ⟨_, response, hrow', hstatus, hhash, hresponse, hself⟩

theorem answers_init : Answers World.init where
  consistent := consistent_init
  responses := by
    intro key saga hrow
    cases hrow
  answers := by
    intro w command answer h
    cases h
  once := by
    intro v w command command' answer answer' h
    cases h

theorem answers_step {env : Environment} {σ σ' : World} {e : Event}
    (h : Answers σ) (hstep : step env σ e = some σ') : Answers σ' := by
  have hkept := fun command answer =>
    @answerOk_of_step env σ σ' e h.consistent hstep command answer
  have hconsistent := consistent_step h.consistent hstep
  have hresponses := responsesOk_step h.consistent h.responses hstep
  obtain ⟨w, store, after, hturn, rfl⟩ := turn_of_step hstep
  have hcases : ∀ v command answer,
      answered (Function.update σ.workers w after v) = some (command, answer) →
      answered (σ.workers v) = some (command, answer) ∨
        v = w ∧ AnswerOk store command answer ∧
          (answer.metadata.replayed = false → ∀ row,
            σ.store.sagas.row command.payload.idempotencyKey = some row →
              row.status ≠ .completed) := by
    intro v command answer hanswered
    by_cases hv : v = w
    · subst hv
      rw [Function.update_self] at hanswered
      exact (answered_of_turn h.consistent hturn hanswered).imp_right
        fun hnew => ⟨rfl, hnew⟩
    · rw [Function.update_of_ne hv] at hanswered
      exact .inl hanswered
  -- an earlier answer shows the row completed, so no fresh one can follow it
  have hclash : ∀ {v : String} {command command' : CreateCommand}
      {answer answer' : CreateAccountResponse},
      answered (σ.workers v) = some (command, answer) →
      command.payload.idempotencyKey = command'.payload.idempotencyKey →
      answer'.metadata.replayed = false →
      (answer'.metadata.replayed = false → ∀ row,
        σ.store.sagas.row command'.payload.idempotencyKey = some row →
          row.status ≠ .completed) → False := by
    intro v command command' answer answer' hold hkey hfresh hnew
    obtain ⟨row, _, hrow, hstatus, _⟩ := h.answers v command answer hold
    exact hnew hfresh row (hkey ▸ hrow) hstatus
  refine ⟨hconsistent, hresponses, ?_, ?_⟩
  · intro v command answer hanswered
    rcases hcases v command answer hanswered with hold | ⟨_, hnew, _⟩
    · exact hkept command answer (h.answers v command answer hold)
    · exact hnew
  · intro u v command command' answer answer' hu hv hkey hfresh hfresh'
    rcases hcases u command answer hu with hold | ⟨rfl, _, hnew⟩
    · rcases hcases v command' answer' hv with hold' | ⟨rfl, _, hnew'⟩
      · exact h.once u v command command' answer answer' hold hold' hkey hfresh
          hfresh'
      · exact (hclash hold hkey hfresh' hnew').elim
    · rcases hcases v command' answer' hv with hold' | ⟨rfl, _, _⟩
      · exact (hclash hold' hkey.symm hfresh hnew).elim
      · rfl

theorem answers_of_reachable {env : Environment} {σ : World}
    (hreach : Reachable env σ) : Answers σ :=
  StepSystem.Reachable.invariant hreach answers_init
    fun _ _ _ h hstep => answers_step h hstep

section SameAnswers

variable (key : String) (user : UserPayload) (payment : PaymentIntentPayload)

/-- Identity and payment answer the commands for the children of one key with
the same data whenever they answer success. -/
def SameAnswers (σ : World) : Event → Prop
  | .answerUser w (.resolved (.success answer)) =>
      ∀ origin k command machine queue,
        σ.workers w = .running origin k command machine queue →
        command.payload.idempotencyKey = key → answer.user = user
  | .answerPayment w (.resolved (.success answer)) =>
      ∀ origin k command machine queue,
        σ.workers w = .running origin k command machine queue →
        command.payload.idempotencyKey = key →
          toPublicPayment answer = toPublicPayment payment
  | _ => True

/-- The data with which a machine waits to be recorded. -/
def MachineAgrees : Machine → Prop
  | .markingUserCreated _ userPayload => userPayload = user
  | .markingPaymentCreated _ paymentPayload =>
      paymentPayload = toPublicPayment payment
  | _ => True

/-- A worker that handles the key agrees with what was stored. -/
def WorkerAgrees : Worker → Prop
  | .running _ _ command machine _ =>
      command.payload.idempotencyKey = key → MachineAgrees user payment machine
  | _ => True

/-- The snapshots of the row of the key. -/
structure Agrees (σ : World) : Prop where
  workers : ∀ w, WorkerAgrees key user payment (σ.workers w)
  user : ∀ saga, σ.store.sagas.row key = some saga →
    ∀ userPayload, saga.userPayload = some userPayload → userPayload = user
  payment : ∀ saga, σ.store.sagas.row key = some saga →
    ∀ paymentPayload, saga.paymentPayload = some paymentPayload →
      paymentPayload = toPublicPayment payment

variable {key user payment}

theorem workerAgrees_runMachine {origin : Origin} {k : String}
    {command : CreateCommand} {machine : Machine}
    {queue : List AccountCreationSaga}
    (h : command.payload.idempotencyKey = key →
      MachineAgrees user payment machine) :
    WorkerAgrees key user payment (runMachine origin k command machine queue) := by
  cases machine with
  | settled outcome => trivial
  | _ => exact h

theorem machineAgrees_executeStateMachine (saga : AccountCreationSaga) :
    MachineAgrees user payment (executeStateMachine saga) := by
  rcases executeStateMachine_cases saga with ⟨_, hrun⟩ | hrun <;>
    rw [hrun] <;> trivial

theorem machineAgrees_advance (env : Environment) (command : CreateCommand)
    (current : AccountCreationSaga) :
    MachineAgrees user payment (advance env command current).2 := by
  unfold advance
  repeat' split
  all_goals trivial

theorem machineAgrees_throw (reason : Thrown) (machine : Machine) :
    MachineAgrees user payment (machine.throw reason) := by
  cases machine <;> trivial

theorem machineAgrees_marked (saga : AccountCreationSaga) (machine : Machine) :
    MachineAgrees user payment (machine.marked saga) := by
  cases machine <;> simp only [Machine.marked] <;> (try split) <;> trivial

theorem sendRpc_ok {α : Type} {outcome : RpcOutcome α} {data : α}
    (h : sendRpc outcome = .ok data) : outcome = .resolved (.success data) := by
  cases outcome with
  | resolved response =>
      cases response <;> cases h
      rfl
  | rejected reason => cases reason <;> cases h

theorem machineAgrees_answerUser {outcome : RpcOutcome UserCreateResponsePayload}
    {machine next : Machine} (h : machine.answerUser outcome = some next)
    (hsame : ∀ answer, outcome = .resolved (.success answer) →
      answer.user = user) :
    MachineAgrees user payment next := by
  cases machine with
  | awaitingUser current =>
      obtain rfl := Option.some.inj h
      split
      · exact hsame _ (sendRpc_ok ‹_›)
      · trivial
  | _ => cases h

theorem machineAgrees_answerPayment {outcome : RpcOutcome PaymentIntentPayload}
    {machine next : Machine} (h : machine.answerPayment outcome = some next)
    (hsame : ∀ answer, outcome = .resolved (.success answer) →
      toPublicPayment answer = toPublicPayment payment) :
    MachineAgrees user payment next := by
  cases machine with
  | awaitingPayment current =>
      obtain rfl := Option.some.inj h
      split
      · exact hsame _ (sendRpc_ok ‹_›)
      · trivial
  | _ => cases h

theorem machineAgrees_answerCompensation
    {outcome : RpcOutcome CompensationResultPayload} {machine next : Machine}
    (h : machine.answerCompensation outcome = some next) :
    MachineAgrees user payment next := by
  cases machine with
  | awaitingCompensation current =>
      obtain rfl := Option.some.inj h
      split <;> trivial
  | _ => cases h

theorem workerAgrees_of_turn {env : Environment} {σ : World} {w : String}
    {store : SagaStore} {after : Worker} {e : Event}
    (hturn : Turn env σ.store w (σ.workers w) e store after)
    (hsame : SameAnswers key user payment σ e) :
    WorkerAgrees key user payment after := by
  generalize hw : σ.workers w = before at hturn
  cases hturn with
  | acquired | take =>
      exact workerAgrees_runMachine fun _ => machineAgrees_executeStateMachine _
  | poll =>
      unfold afterPoll
      repeat' split
      all_goals trivial
  | advance =>
      exact workerAgrees_runMachine fun _ => machineAgrees_advance _ _ _
  | answerUser hnext =>
      refine workerAgrees_runMachine fun hkey => machineAgrees_answerUser hnext ?_
      rintro answer rfl
      exact hsame _ _ _ _ _ hw hkey
  | answerPayment hnext =>
      refine workerAgrees_runMachine
        fun hkey => machineAgrees_answerPayment hnext ?_
      rintro answer rfl
      exact hsame _ _ _ _ _ hw hkey
  | answerCompensation hnext =>
      exact workerAgrees_runMachine fun _ => machineAgrees_answerCompensation hnext
  | refused =>
      exact workerAgrees_runMachine fun _ => machineAgrees_throw _ _
  | commit =>
      exact workerAgrees_runMachine fun _ => machineAgrees_marked _ _
  | @release origin => cases origin <;> trivial
  | fail hfail =>
      cases before with
      | running =>
          rw [afterFailure_running hfail]
          exact workerAgrees_runMachine fun _ => machineAgrees_throw _ _
      | releasing origin =>
          obtain rfl := Option.some.inj hfail
          cases origin <;> trivial
      | _ => cases hfail <;> trivial
  | _ => trivial

theorem agrees_change {machine : Machine} {dateNow now : Int} {change : Change}
    (hchange : change? dateNow machine = some change)
    (hmachine : MachineAgrees user payment machine) :
    (∀ userPayload,
      (change.apply now change.current).userPayload = some userPayload →
        userPayload = user ∨ change.current.userPayload = some userPayload) ∧
    (∀ paymentPayload,
      (change.apply now change.current).paymentPayload = some paymentPayload →
        paymentPayload = toPublicPayment payment ∨
          change.current.paymentPayload = some paymentPayload) := by
  cases machine with
  | markingUserCreated current userPayload =>
      cases hchange
      exact ⟨fun _ h => .inl ((Option.some.inj h).symm.trans hmachine),
        fun _ h => .inr h⟩
  | markingPaymentCreated current paymentPayload =>
      cases hchange
      exact ⟨fun _ h => .inr h,
        fun _ h => .inl ((Option.some.inj h).symm.trans hmachine)⟩
  | markingFailed | markingCompensated | markingCompleted =>
      cases hchange
      exact ⟨fun _ h => .inr h, fun _ h => .inr h⟩
  | _ => cases hchange

theorem agrees_init : Agrees key user payment World.init where
  workers := fun _ => trivial
  user := by
    intro saga hrow
    cases hrow
  payment := by
    intro saga hrow
    cases hrow

theorem agrees_step {env : Environment} {σ σ' : World} {e : Event}
    (hconsistent : Consistent σ) (h : Agrees key user payment σ)
    (hsame : SameAnswers key user payment σ e)
    (hstep : step env σ e = some σ') : Agrees key user payment σ' := by
  obtain ⟨w, store, after, hturn, rfl⟩ := turn_of_step hstep
  have hworkers : ∀ v, WorkerAgrees key user payment
      (Function.update σ.workers w after v) := by
    intro v
    by_cases hv : v = w
    · subst hv
      rw [Function.update_self]
      exact workerAgrees_of_turn hturn hsame
    · rw [Function.update_of_ne hv]
      exact h.workers v
  have hrows : ∀ saga, store.sagas.row key = some saga →
      (∀ userPayload, saga.userPayload = some userPayload →
        userPayload = user) ∧
      ∀ paymentPayload, saga.paymentPayload = some paymentPayload →
        paymentPayload = toPublicPayment payment := by
    intro saga hrow
    cases rowStep_of_turn hturn key with
    | absent _ hnew => cases hrow.symm.trans hnew
    | kept hold hnew hsame =>
        obtain rfl := Option.some.inj (hrow.symm.trans hnew)
        have hkept := And.intro (h.user _ hold) (h.payment _ hold)
        obtain ⟨_, _, _, rfl⟩ := hsame
        exact hkept
    | inserted _ _ _ _ hnew =>
        obtain rfl := Option.some.inj (hrow.symm.trans hnew)
        refine ⟨?_, ?_⟩ <;> rintro _ ⟨⟩
    | changed hw _ hchange hcurrent hold hlock hnew =>
        obtain rfl := Option.some.inj (hrow.symm.trans hnew)
        obtain ⟨rfl, _, _, hkey, _⟩ :=
          change_of_step hconsistent hw hchange (hcurrent ▸ hold) hlock
        have hworker := h.workers w
        rw [hw] at hworker
        obtain ⟨huser, hpayment⟩ :=
          agrees_change hchange (hworker (hkey.trans hcurrent))
        exact ⟨fun _ hsome => (huser _ hsome).elim id (h.user _ hold _),
          fun _ hsome => (hpayment _ hsome).elim id (h.payment _ hold _)⟩
  exact ⟨hworkers, fun saga hrow => (hrows saga hrow).1,
    fun saga hrow => (hrows saga hrow).2⟩

theorem agrees_of_run {env : Environment} {σ : World}
    {trace : List (World × Event)} (hrun : Run env trace σ)
    (hsame : ∀ p ∈ trace, SameAnswers key user payment p.1 p.2) :
    Agrees key user payment σ := by
  have hboth := StepSystem.Run.invariant
    (I := fun σ => Consistent σ ∧ Agrees key user payment σ) hrun
    (SameAnswers key user payment) ⟨consistent_init, agrees_init⟩
    (fun _ _ _ ⟨hconsistent, hagrees⟩ hok hstep =>
      ⟨consistent_step hconsistent hstep,
        agrees_step hconsistent hagrees hok hstep⟩) hsame
  exact hboth.2

theorem answer_of_agrees {σ : World} (hanswers : Answers σ)
    (hagrees : Agrees key user payment σ) {command : CreateCommand}
    {answer : CreateAccountResponse} (h : AnswerOk σ.store command answer)
    (hkey : command.payload.idempotencyKey = key) :
    ∃ row, σ.store.sagas.row key = some row ∧ row.status = .completed ∧
      row.requestHash = command.payload.requestHash ∧
      answer =
        { user := user
          payment := toPublicPayment payment
          metadata :=
            { correlationId := row.rootCorrelationId
              idempotencyKey := key
              replayed := answer.metadata.replayed } } := by
  subst hkey
  obtain ⟨row, response, hrow, hstatus, hhash, hresponse, hself⟩ := h
  refine ⟨row, hrow, hstatus, hhash, ?_⟩
  obtain ⟨_, hcompose⟩ := hanswers.responses _ row hrow response hresponse
  have hrowKey := key_of_row σ.store hrow
  cases huser : row.userPayload with
  | none => simp [composeResponse, huser] at hcompose
  | some userPayload =>
      cases hpayment : row.paymentPayload with
      | none => simp [composeResponse, huser, hpayment] at hcompose
      | some paymentPayload =>
          simp only [composeResponse, huser, hpayment, Except.ok.injEq]
            at hcompose
          rw [hself, ← hcompose, hagrees.user row hrow _ huser,
            hagrees.payment row hrow _ hpayment, hrowKey]
          rfl

end SameAnswers

/-- The stored row belongs to the request of a command. -/
def SameRequest (store : SagaStore) (command : CreateCommand) : Prop :=
  ∃ row, store.sagas.row command.payload.idempotencyKey = some row ∧
    row.requestHash = command.payload.requestHash

/-- A call that is past `tryAcquire` found a row of its own request, was told of
the conflict, or saw its repository call fail. -/
def Checked (trace : List (World × Event)) (store : SagaStore) (w : String) :
    Worker → Prop
  | .waiting command _ | .polling command _ | .running .command _ command _ _
  | .releasing .command _ command _ _ => SameRequest store command
  | .settled command outcome =>
      SameRequest store command ∨ outcome = .rejected idempotencyKeyReused ∨
        ∃ σ message, (σ, Event.fail w message) ∈ trace ∧
          outcome = .rejected (.error message)
  | _ => True

theorem sameRequest_of_step {env : Environment} {σ σ' : World} {e : Event}
    (hstep : step env σ e = some σ') {command : CreateCommand}
    (h : SameRequest σ.store command) : SameRequest σ'.store command := by
  obtain ⟨row, hrow, hhash⟩ := h
  obtain ⟨row', hrow', hsame, _⟩ := sameRoot_of_step hstep hrow
  exact ⟨row', hrow', hsame.trans hhash⟩

theorem checked_of_step {env : Environment} {σ σ' : World} {e : Event}
    (hstep : step env σ e = some σ') {trace : List (World × Event)} {w : String}
    {worker : Worker} (h : Checked trace σ.store w worker) :
    Checked (trace ++ [(σ, e)]) σ'.store w worker := by
  have hrequest := @sameRequest_of_step env σ σ' e hstep
  cases worker with
  | waiting | polling => exact hrequest h
  | running origin | releasing origin =>
      cases origin with
      | command => exact hrequest h
      | recovery => trivial
  | settled command outcome =>
      rcases h with hsame | hconflict | ⟨σ₀, message, hmem, houtcome⟩
      · exact .inl (hrequest hsame)
      · exact .inr (.inl hconflict)
      · exact .inr (.inr ⟨σ₀, message, List.mem_append_left _ hmem, houtcome⟩)
  | _ => trivial

theorem checked_runMachine {trace : List (World × Event)} {store : SagaStore}
    {w : String} {origin : Origin} {key : String} {command : CreateCommand}
    {machine : Machine} {queue : List AccountCreationSaga}
    (h : origin = .command → SameRequest store command) :
    Checked trace store w (runMachine origin key command machine queue) := by
  cases origin with
  | command =>
      cases machine with
      | settled outcome => exact h rfl
      | _ => exact h rfl
  | recovery => cases machine <;> trivial

theorem checked_of_turn {env : Environment} {σ σ' : World} {w : String}
    {after : Worker} {e : Event} {trace : List (World × Event)}
    (hturn : Turn env σ.store w (σ.workers w) e σ'.store after)
    (hstep : step env σ e = some σ') (h : Checked trace σ.store w (σ.workers w)) :
    Checked (trace ++ [(σ, e)]) σ'.store w after := by
  have hkept := checked_of_step hstep h
  generalize σ.workers w = before at hturn hkept
  have hrunning : ∀ {origin : Origin} {key : String} {command : CreateCommand}
      {machine next : Machine} {queue : List AccountCreationSaga},
      before = .running origin key command machine queue →
      Checked (trace ++ [(σ, e)]) σ'.store w
        (runMachine origin key command next queue) := by
    rintro origin key command machine next queue rfl
    refine checked_runMachine ?_
    rintro rfl
    exact hkept
  generalize hstore : σ'.store = store at hturn hkept hrunning ⊢
  cases hturn with
  | create | recover | claim | crash => trivial
  | hashConflict => exact .inr (.inl rfl)
  | leased _ hrow hhash => exact ⟨_, hrow, hhash⟩
  | @acquired command _ _ _ row saga _ _ hrow hhash hsaga hwrites =>
      have hkey : saga.idempotencyKey = command.payload.idempotencyKey := by
        rw [hsaga, hrow]
        exact key_rowToAcquire _ _ _
      refine checked_runMachine fun _ => ⟨saga, ?_, hsaga ▸ hhash⟩
      exact hkey ▸ (hwrites _).trans (if_pos rfl)
  | wake => exact hkept
  | giveUp => exact .inl hkept
  | poll =>
      unfold afterPoll
      split
      · exact .inl hkept
      · split
        · exact .inr (.inl rfl)
        · split
          · exact .inl hkept
          · split
            · exact .inl hkept
            · exact hkept
  | take => exact checked_runMachine fun horigin => by cases horigin
  | advance | answerUser | answerPayment | answerCompensation | refused
  | commit => exact hrunning rfl
  | @release origin =>
      cases origin with
      | command => exact .inl hkept
      | recovery => trivial
  | @fail before after message hfail =>
      cases before with
      | running =>
          rw [afterFailure_running hfail]
          exact hrunning rfl
      | releasing origin =>
          obtain rfl := Option.some.inj hfail
          cases origin with
          | command => exact .inl hkept
          | recovery => trivial
      | acquiring =>
          cases hfail
          exact .inr (.inr ⟨σ, message,
            List.mem_append_right _ (List.mem_singleton_self _), rfl⟩)
      | polling =>
          cases hfail
          exact .inl hkept
      | claiming =>
          cases hfail
          trivial
      | _ => cases hfail

/-- A `create` call took this command. -/
def Created (trace : List (World × Event)) (command : CreateCommand) : Prop :=
  ∃ σ w dateNow, (σ, Event.create w command dateNow) ∈ trace

/-- What the events of a run say about the state that it reaches. -/
structure History (trace : List (World × Event)) (σ : World) : Prop where
  acquiring : ∀ w command leaseUntil,
    σ.workers w = .acquiring command leaseUntil → Created trace command
  rows : ∀ key row, σ.store.sagas.row key = some row →
    ∃ command, Created trace command ∧ command.payload = row.requestPayload ∧
      command.correlationId = row.rootCorrelationId
  checked : ∀ w, Checked trace σ.store w (σ.workers w)

theorem created_snoc {trace : List (World × Event)} {p : World × Event}
    {command : CreateCommand} (h : Created trace command) :
    Created (trace ++ [p]) command := by
  obtain ⟨σ, w, dateNow, hmem⟩ := h
  exact ⟨σ, w, dateNow, List.mem_append_left _ hmem⟩

theorem acquiring_of_turn {env : Environment} {store store' : SagaStore}
    {w : String} {before : Worker} {e : Event} {command : CreateCommand}
    {leaseUntil : Int}
    (hturn : Turn env store w before e store' (.acquiring command leaseUntil)) :
    ∃ dateNow, e = .create w command dateNow := by
  generalize hafter : Worker.acquiring command leaseUntil = after at hturn
  have hmachine : ∀ {origin key command' machine queue},
      Worker.acquiring command leaseUntil ≠
        runMachine origin key command' machine queue := by
    intro origin key command' machine queue h
    cases machine <;> cases h
  cases hturn with
  | create =>
      cases hafter
      exact ⟨_, rfl⟩
  | acquired | take | advance | answerUser | answerPayment
  | answerCompensation | refused | commit => exact absurd hafter hmachine
  | poll =>
      unfold afterPoll at hafter
      repeat' split at hafter
      all_goals cases hafter
  | @release origin => cases origin <;> cases hafter
  | fail hfail =>
      cases before with
      | running =>
          rw [afterFailure_running hfail] at hafter
          exact absurd hafter hmachine
      | releasing origin =>
          obtain rfl := Option.some.inj hfail
          cases origin <;> cases hafter
      | _ => cases hfail <;> cases hafter
  | _ => cases hafter

theorem history_of_run {env : Environment} {σ : World}
    {trace : List (World × Event)} (hrun : Run env trace σ) :
    History trace σ := by
  induction hrun with
  | nil =>
      refine ⟨?_, ?_, fun _ => trivial⟩
      · intro w command leaseUntil h
        cases h
      · intro key row h
        cases h
  | @snoc trace σ σ' e hbefore hstep ih =>
      obtain ⟨w, store, after, hturn, rfl⟩ := turn_of_step hstep
      refine ⟨?_, ?_, ?_⟩
      · intro v command leaseUntil hv
        by_cases hvw : v = w
        · subst hvw
          simp only [Function.update_self] at hv
          obtain ⟨dateNow, rfl⟩ := acquiring_of_turn (hv ▸ hturn)
          exact ⟨σ, v, dateNow,
            List.mem_append_right _ (List.mem_singleton_self _)⟩
        · simp only [Function.update_of_ne hvw] at hv
          exact created_snoc (ih.acquiring v command leaseUntil hv)
      · intro key row hrow
        cases rowStep_of_turn hturn key with
        | absent _ hnew => cases hrow.symm.trans hnew
        | kept hold hnew hsame =>
            obtain rfl := Option.some.inj (hrow.symm.trans hnew)
            obtain ⟨_, _, _, rfl⟩ := hsame
            obtain ⟨command, hcreated, hroot⟩ := ih.rows key _ hold
            exact ⟨command, created_snoc hcreated, hroot⟩
        | inserted hw _ _ _ hnew =>
            obtain rfl := Option.some.inj (hrow.symm.trans hnew)
            exact ⟨_, created_snoc (ih.acquiring w _ _ hw), rfl, rfl⟩
        | changed _ _ _ _ hold _ hnew =>
            obtain rfl := Option.some.inj (hrow.symm.trans hnew)
            obtain ⟨command, hcreated, hroot⟩ := ih.rows key _ hold
            exact ⟨command, created_snoc hcreated, hroot⟩
      · intro v
        by_cases hvw : v = w
        · subst hvw
          simp only [Function.update_self]
          exact checked_of_turn hturn hstep (ih.checked v)
        · simp only [Function.update_of_ne hvw]
          exact checked_of_step hstep (ih.checked v)

/-- The command of a `create` call. -/
def commandOf : Worker → Option CreateCommand
  | .acquiring command _ | .waiting command _ | .polling command _
  | .running .command _ command _ _ | .releasing .command _ command _ _
  | .settled command _ => some command
  | _ => none

/-- A call whose request is not that of the row has not looked at the row yet or
was told so, unless its repository call failed. -/
theorem rejected_of_otherRequest {trace : List (World × Event)}
    {store : SagaStore} {w : String} {worker : Worker} {command : CreateCommand}
    (h : Checked trace store w worker) (hcommand : commandOf worker = some command)
    {row : AccountCreationSaga}
    (hrow : store.sagas.row command.payload.idempotencyKey = some row)
    (hother : row.requestHash ≠ command.payload.requestHash) :
    (∃ leaseUntil, worker = .acquiring command leaseUntil) ∨
      worker = .settled command (.rejected idempotencyKeyReused) ∨
      ∃ σ message, (σ, Event.fail w message) ∈ trace ∧
        worker = .settled command (.rejected (.error message)) := by
  have hrequest : ¬ SameRequest store command := by
    rintro ⟨row', hrow', hhash⟩
    obtain rfl := Option.some.inj (hrow.symm.trans hrow')
    exact hother hhash
  cases worker with
  | acquiring command' leaseUntil =>
      cases hcommand
      exact .inl ⟨leaseUntil, rfl⟩
  | waiting | polling =>
      cases hcommand
      exact absurd h hrequest
  | running origin | releasing origin =>
      cases origin with
      | command =>
          cases hcommand
          exact absurd h hrequest
      | recovery => cases hcommand
  | settled command' outcome =>
      cases hcommand
      rcases h with hsame | rfl | ⟨σ, message, hmem, rfl⟩
      · exact absurd hsame hrequest
      · exact .inr (.inl rfl)
      · exact .inr (.inr ⟨σ, message, hmem, rfl⟩)
  | _ => cases hcommand

theorem acquire_otherRequest (env : Environment) {σ : World} {w : String}
    {command : CreateCommand} {leaseUntil : Int} {row : AccountCreationSaga}
    (hw : σ.workers w = .acquiring command leaseUntil)
    (hrow : σ.store.sagas.row command.payload.idempotencyKey = some row)
    (hother : row.requestHash ≠ command.payload.requestHash)
    (dateNow now : Int) :
    step env σ (.acquire w dateNow now) =
      some (σ.setWorker w (.settled command (.rejected idempotencyKeyReused))) := by
  rcases tryAcquire_cases σ.store (acquireInput w command leaseUntil) dateNow now
    with ⟨_, _, _, hresult⟩ | ⟨row', hrow', hhash, _⟩ | ⟨hhash, _⟩
  · simp only [step, hw, hresult]
    rfl
  · obtain rfl := Option.some.inj (hrow.symm.trans hrow')
    exact absurd hhash hother
  · have hfound : rowToAcquire σ.store (acquireInput w command leaseUntil) now
        = row := by
      simp [rowToAcquire, acquireInput, hrow]
    rw [hfound] at hhash
    exact absurd hhash hother

/-- All successful answers for one key agree.  While identity and payment answer
success for the children of the key with the same data, every call for the key
that resolves does so with a completed row and returns, up to the replay flag,
what the call that created the row returns when it runs alone; at most one
answer is not marked as a replay; the response of a completed row stays; and
calls with another request are rejected and change nothing. -/
theorem answers_agree {env : Environment} {σ : World}
    {trace : List (World × Event)} (hrun : Run env trace σ) (key : String)
    (user : UserPayload) (payment : PaymentIntentPayload)
    (hsame : ∀ p ∈ trace, SameAnswers key user payment p.1 p.2) :
    (∀ w command answer, σ.workers w = .settled command (.resolved answer) →
      command.payload.idempotencyKey = key →
      ∃ row, σ.store.sagas.row key = some row ∧ row.status = .completed ∧
        row.requestHash = command.payload.requestHash ∧
        ∃ root, Created trace root ∧ root.payload.idempotencyKey = key ∧
          root.payload.requestHash = row.requestHash ∧
          root.correlationId = row.rootCorrelationId ∧
          answer = withReplayFlag (freshResponse root user payment)
            answer.metadata.replayed ∧
          ∀ v, ∃ single,
            StepSystem.replay (step env) World.init
              (singleRun v root user payment) = some single ∧
            single.workers v =
              .settled root (.resolved (freshResponse root user payment))) ∧
    (∀ v w command command' answer answer',
      σ.workers v = .settled command (.resolved answer) →
      σ.workers w = .settled command' (.resolved answer') →
      command.payload.idempotencyKey = key →
      command'.payload.idempotencyKey = key →
      answer.metadata.replayed = false → answer'.metadata.replayed = false →
      v = w) ∧
    (∀ p ∈ trace, ∀ row, p.1.store.sagas.row key = some row →
      row.status = .completed →
      ∃ row', σ.store.sagas.row key = some row' ∧ row'.status = .completed ∧
        row'.response = row.response) ∧
    (∀ w command row, commandOf (σ.workers w) = some command →
      command.payload.idempotencyKey = key →
      σ.store.sagas.row key = some row →
      row.requestHash ≠ command.payload.requestHash →
      (∃ leaseUntil, σ.workers w = .acquiring command leaseUntil ∧
        ∀ dateNow now, step env σ (.acquire w dateNow now) =
          some (σ.setWorker w
            (.settled command (.rejected idempotencyKeyReused)))) ∨
      σ.workers w = .settled command (.rejected idempotencyKeyReused) ∨
      ∃ σ₁ message, (σ₁, Event.fail w message) ∈ trace ∧
        σ.workers w = .settled command (.rejected (.error message))) := by
  have hreach : Reachable env σ := ⟨trace, hrun⟩
  have hanswers := answers_of_reachable hreach
  have hagrees := agrees_of_run hrun hsame
  have hhistory := history_of_run hrun
  refine ⟨?_, ?_, ?_, ?_⟩
  · intro w command answer hw hkey
    have hanswer := hanswers.answers w command answer (by rw [hw]; rfl)
    obtain ⟨row, hrow, hstatus, hhash, hself⟩ :=
      answer_of_agrees hanswers hagrees hanswer hkey
    obtain ⟨root, hcreated, hpayload, hroot⟩ := hhistory.rows key row hrow
    have hok := hanswers.consistent.rows key row hrow
    have hrowKey := key_of_row σ.store hrow
    have hrootKey : root.payload.idempotencyKey = key := by
      rw [hpayload, hok.payload_key, hrowKey]
    refine ⟨row, hrow, hstatus, hhash, root, hcreated, hrootKey, ?_, hroot, ?_,
      fun v => replay_singleRun env v root user payment⟩
    · rw [hpayload, hok.payload_hash]
    · rw [hself, freshResponse, hroot, hrootKey]
      rfl
  · intro v w command command' answer answer' hv hw hkey hkey' hfresh hfresh'
    exact hanswers.once v w command command' answer answer' (by rw [hv]; rfl)
      (by rw [hw]; rfl) (hkey.trans hkey'.symm) hfresh hfresh'
  · intro p hp row hrow hstatus
    obtain ⟨before, after, htrace⟩ := List.append_of_mem hp
    obtain ⟨τ, hbefore, hstep, hafter⟩ := hrun.split htrace
    have hshape := ((consistent_of_reachable ⟨before, hbefore⟩).rows key row
      hrow).shape
    simp only [SagaShape, hstatus] at hshape
    have hsuffix := StepSystem.Run.append
      (StepSystem.Run.snoc StepSystem.Run.nil hstep) hafter
    obtain ⟨row', hrow', _, _, _, rfl⟩ :=
      kept_of_run ⟨before, hbefore⟩ hsuffix hrow (.inr hshape.1)
    exact ⟨_, hrow', hstatus, rfl⟩
  · intro w command row hcommand hkey hrow hother
    rw [← hkey] at hrow
    refine (rejected_of_otherRequest (hhistory.checked w) hcommand hrow
      hother).imp_left ?_
    rintro ⟨leaseUntil, hw⟩
    exact ⟨leaseUntil, hw, acquire_otherRequest env hw hrow hother⟩

theorem sameAnswers_singleRun {σ : World} {w : String} {command : CreateCommand}
    {user : UserPayload} {payment : PaymentIntentPayload} {e : Event}
    (h : e ∈ singleRun w command user payment) (key : String) :
    SameAnswers key user payment σ e := by
  simp only [singleRun, SingleRun.userSteps, paymentSteps, List.cons_append,
    List.nil_append, List.mem_cons, List.not_mem_nil, or_false] at h
  rcases h with rfl | rfl | rfl | rfl | rfl | rfl | rfl | rfl | rfl | rfl | rfl
  case inr.inr.inr.inl => exact fun _ _ _ _ _ _ _ => rfl
  case inr.inr.inr.inr.inr.inr.inl => exact fun _ _ _ _ _ _ _ => rfl
  all_goals trivial

theorem answers_agree_sample :
    ∃ (σ : World) (row : AccountCreationSaga) (root : CreateCommand)
      (answer : CreateAccountResponse),
      σ.workers "worker-1" = .settled sampleCommand (.resolved answer) ∧
      σ.store.sagas.row "key-1" = some row ∧ row.status = .completed ∧
      root.correlationId = row.rootCorrelationId ∧
      answer.metadata.correlationId = root.correlationId := by
  obtain ⟨σ, hreplay, hsettled⟩ := replay_singleRun sampleEnvironment "worker-1"
    sampleCommand sampleUser samplePayment
  obtain ⟨hanswers, _⟩ := answers_agree (StepSystem.run_of_replay hreplay) "key-1"
    sampleUser samplePayment fun p hp =>
      sameAnswers_singleRun (StepSystem.event_mem_of_mem_traceOf hp) "key-1"
  obtain ⟨row, hrow, hstatus, _, root, _, _, _, hroot, hself, _⟩ :=
    hanswers _ _ _ hsettled rfl
  exact ⟨σ, row, root, _, hsettled, hrow, hstatus, hroot, by rw [hself]; rfl⟩

end Modularis.Onboarding.Agreement
