import Modularis.Onboarding.Agreement
import Modularis.Onboarding.SagaLog

namespace Modularis.Onboarding.Verdicts

open Modularis.Foundation
open Modularis.Onboarding.Contracts
open Modularis.Onboarding.Repository
open Modularis.Onboarding.Service
open Modularis.Onboarding.Workers
open Modularis.Onboarding.Turns
open Modularis.Onboarding.Invariant
open Modularis.Onboarding.SagaLog
open Modularis.Onboarding.Agreement

theorem stored_of_returnedRow {env : Environment} {σ : World} {w : String}
    {store : SagaStore} {after : Worker} {e : Event}
    (hturn : Turn env σ.store w (σ.workers w) e store after) {key : String}
    {saga : AccountCreationSaga} (h : returnedRow σ w key e = some saga) :
    store.sagas.row saga.idempotencyKey = some saga := by
  generalize hw : σ.workers w = before at hturn
  cases hturn with
  | hashConflict hresult | leased hresult | refused hresult =>
      simp [returnedRow, hw, hresult] at h
  | acquired hresult _ _ _ hwrites =>
      simp only [returnedRow, hw, hresult, true_and, Option.ite_none_right_eq_some,
        Option.some.injEq] at h
      obtain ⟨_, rfl⟩ := h
      exact (hwrites _).trans (if_pos rfl)
  | @claim leaseUntil now _ _ sagas _ hresult hsagas _ hrows =>
      simp only [returnedRow, hw, hresult, if_true] at h
      have hmem := List.mem_of_find?_eq_some h
      obtain ⟨row, hrow, _, hlocked⟩ := hsagas saga hmem
      rw [hrows, if_pos (List.mem_map_of_mem hmem), hrow, hlocked]
      rfl
  | commit hresult _ _ _ hwrites =>
      simp only [returnedRow, hw, hresult, true_and, Option.ite_none_right_eq_some,
        Option.some.injEq] at h
      obtain ⟨_, rfl⟩ := h
      exact (hwrites _).trans (if_pos rfl)
  | _ => cases h

section Verdicts

variable (requestOf : String → String → OnboardingAccountCreateCommandPayload)
  (userOf : String → String)
  (payable : OnboardingAccountCreateCommandPayload → Prop)

/-- The request is the one for which its key and its hash stand. -/
def Intended (payload : OnboardingAccountCreateCommandPayload) : Prop :=
  payload = requestOf payload.idempotencyKey payload.requestHash

/-- What an answer of the payment step says about the request. -/
structure Verdict (payload : OnboardingAccountCreateCommandPayload)
    (outcome : RpcOutcome PaymentIntentPayload) : Prop where
  success : ∀ data, sendRpc outcome = .ok data → payable payload
  refusal : ∀ reason, sendRpc outcome = .error reason →
    isRetryable (toProblem reason) = false → ¬ payable payload

/-- Requests are as intended, identity answers for a key with one user and the
payment answers are verdicts. -/
def Sane (σ : World) : Event → Prop
  | .create _ command _ => Intended requestOf command.payload
  | .answerUser w (.resolved (.success answer)) =>
      ∀ origin k command machine queue,
        σ.workers w = .running origin k command machine queue →
        answer.user.id = userOf command.payload.idempotencyKey
  | .answerPayment w outcome =>
      ∀ origin k command current queue,
        σ.workers w = .running origin k command (.awaitingPayment current) queue →
        Verdict payable command.payload outcome
  | _ => True

/-- The next action and the status of a row agree with its request. -/
structure RowFair (saga : AccountCreationSaga) : Prop where
  intended : Intended requestOf saga.requestPayload
  user : ∀ user, saga.userPayload = some user →
    user.id = userOf saga.idempotencyKey
  compensate : saga.nextAction = .compensateUser → ¬ payable saga.requestPayload
  complete : saga.nextAction = .complete ∨ saga.status = .completed →
    payable saga.requestPayload

/-- So does what a machine waits to record. -/
def MachineFair (command : CreateCommand) : Machine → Prop
  | .markingUserCreated _ user => user.id = userOf command.payload.idempotencyKey
  | .markingPaymentCreated _ _ => payable command.payload
  | .markingFailed _ error =>
      isRetryable (toProblem error) = false → ¬ payable command.payload
  | _ => True

/-- What a worker was answered fits its request. -/
def WorkerFair : Worker → Prop
  | .acquiring command _ => Intended requestOf command.payload
  | .running _ _ command machine _ =>
      Intended requestOf command.payload ∧ MachineFair userOf payable command machine
  | _ => True

/-- The copy has the request of the stored row. -/
def Rooted (store : SagaStore) (saga : AccountCreationSaga) : Prop :=
  ∃ row, store.sagas.row saga.idempotencyKey = some row ∧
    row.requestPayload = saga.requestPayload

/-- What rows, copies and workers hold fits their requests. -/
structure Fair (σ : World) : Prop where
  rows : ∀ key row, σ.store.sagas.row key = some row →
    RowFair requestOf userOf payable row
  copies : ∀ w, ∀ saga ∈ held (σ.workers w),
    RowFair requestOf userOf payable saga ∧ Rooted σ.store saga
  workers : ∀ w, WorkerFair requestOf userOf payable (σ.workers w)

variable {requestOf userOf payable}

theorem rowFair_sameContent {row row' : AccountCreationSaga}
    (h : RowFair requestOf userOf payable row) (hsame : SameContent row row') :
    RowFair requestOf userOf payable row' := by
  obtain ⟨_, _, _, rfl⟩ := hsame
  exact ⟨h.intended, h.user, h.compensate, h.complete⟩

theorem rowFair_startedRow {w : String} {command : CreateCommand} {leaseUntil : Int}
    (h : Intended requestOf command.payload) (now : Int) :
    RowFair requestOf userOf payable
      (startedRow (acquireInput w command leaseUntil) now) where
  intended := h
  user := nofun
  compensate := nofun
  complete := by
    rintro (hnext | hstatus)
    · cases hnext
    · cases hstatus

theorem payload_of_running {command : CreateCommand} {saga : AccountCreationSaga}
    (hcommand : Intended requestOf command.payload)
    (hsaga : Intended requestOf saga.requestPayload) (hok : SagaOk saga)
    (hkey : command.payload.idempotencyKey = saga.idempotencyKey)
    (hhash : command.payload.requestHash = saga.requestHash) :
    command.payload = saga.requestPayload := by
  rw [Intended, hkey, hhash, ← hok.payload_key, ← hok.payload_hash] at hcommand
  exact hcommand.trans hsaga.symm

/-- A change keeps the request; it leads to compensation after a final refusal and
to completion after a success. -/
theorem rowFair_change {machine : Machine} {dateNow now : Int} {change : Change}
    {command : CreateCommand} (hok : MachineOk machine)
    (hchange : change? dateNow machine = some change)
    (hrow : RowFair requestOf userOf payable change.current)
    (hmachine : MachineFair userOf payable command machine)
    (hkey : command.payload.idempotencyKey = change.current.idempotencyKey)
    (hpayload : command.payload = change.current.requestPayload) :
    RowFair requestOf userOf payable (change.apply now change.current) := by
  cases machine with
  | markingUserCreated current user =>
      cases hchange
      refine ⟨hrow.intended, ?_, nofun, ?_⟩
      · rintro _ ⟨⟩
        exact hmachine.trans (congrArg userOf hkey)
      · rintro (hnext | hstatus)
        · cases hnext
        · cases hstatus
  | markingPaymentCreated current payment =>
      cases hchange
      exact ⟨hrow.intended, hrow.user, nofun, fun _ => hpayload ▸ hmachine⟩
  | markingFailed current error =>
      cases hchange
      have hnext : ((failureChange current error dateNow).apply now
          (failureChange current error dateNow).current).nextAction =
            if isRetryable (toProblem error) then .processPayment
            else .compensateUser := rfl
      refine ⟨hrow.intended, hrow.user, ?_, ?_⟩
      · intro hcompensate
        rw [hnext] at hcompensate
        cases hretry : isRetryable (toProblem error) with
        | true => simp [hretry] at hcompensate
        | false => exact hpayload ▸ hmachine hretry
      · rintro (hcomplete | hstatus)
        · rw [hnext] at hcomplete
          split at hcomplete <;> cases hcomplete
        · cases hstatus
  | markingCompensated current =>
      cases hchange
      refine ⟨hrow.intended, hrow.user, nofun, ?_⟩
      rintro (hnext | hstatus)
      · cases hnext
      · cases hstatus
  | markingCompleted current response =>
      cases hchange
      exact ⟨hrow.intended, hrow.user, nofun, fun _ => hrow.complete (.inl hok.1)⟩
  | _ => cases hchange

theorem machineFair_executeStateMachine (command : CreateCommand)
    (saga : AccountCreationSaga) :
    MachineFair userOf payable command (executeStateMachine saga) := by
  rcases executeStateMachine_cases saga with ⟨_, hrun⟩ | hrun <;>
    rw [hrun] <;> trivial

theorem machineFair_advance (env : Environment) (command : CreateCommand)
    (current : AccountCreationSaga) :
    MachineFair userOf payable command (advance env command current).2 := by
  unfold advance
  split
  · trivial
  · split
    · rintro ⟨⟩
    · trivial
  · split <;> trivial
  · split <;> trivial
  · split
    · trivial
    · split <;> trivial

theorem machineFair_throw {command : CreateCommand} {reason : Thrown}
    (hreason : isRetryable (toProblem reason) = true) (machine : Machine) :
    MachineFair userOf payable command (machine.throw reason) := by
  have hfinal : isRetryable (toProblem reason) = false → ¬ payable command.payload := by
    rw [hreason]
    nofun
  cases machine with
  | awaitingPayment | markingPaymentCreated => exact hfinal
  | _ => trivial

theorem machineFair_marked (command : CreateCommand) (saga : AccountCreationSaga)
    (machine : Machine) :
    MachineFair userOf payable command (machine.marked saga) := by
  cases machine with
  | markingFailed =>
      simp only [Machine.marked]
      split <;> trivial
  | _ => trivial

theorem machineFair_answerUser {command : CreateCommand}
    {outcome : RpcOutcome UserCreateResponsePayload} {machine next : Machine}
    (h : machine.answerUser outcome = some next)
    (huser : ∀ answer, outcome = .resolved (.success answer) →
      answer.user.id = userOf command.payload.idempotencyKey) :
    MachineFair userOf payable command next := by
  cases machine with
  | awaitingUser current =>
      obtain rfl := Option.some.inj h
      split
      · exact huser _ (sendRpc_ok ‹_›)
      · trivial
  | _ => cases h

theorem machineFair_answerPayment {command : CreateCommand}
    {outcome : RpcOutcome PaymentIntentPayload} {machine next : Machine}
    (h : machine.answerPayment outcome = some next)
    (hverdict : ∀ current, machine = .awaitingPayment current →
      Verdict payable command.payload outcome) :
    MachineFair userOf payable command next := by
  cases machine with
  | awaitingPayment current =>
      obtain rfl := Option.some.inj h
      obtain ⟨hsuccess, hrefusal⟩ := hverdict current rfl
      split
      · exact hsuccess _ ‹_›
      · exact hrefusal _ ‹_›
  | _ => cases h

theorem machineFair_answerCompensation {command : CreateCommand}
    {outcome : RpcOutcome CompensationResultPayload} {machine next : Machine}
    (h : machine.answerCompensation outcome = some next) :
    MachineFair userOf payable command next := by
  cases machine with
  | awaitingCompensation current =>
      obtain rfl := Option.some.inj h
      split <;> trivial
  | _ => cases h

theorem workerFair_runMachine {origin : Origin} {key : String}
    {command : CreateCommand} {machine : Machine} {queue : List AccountCreationSaga}
    (hcommand : Intended requestOf command.payload)
    (hmachine : MachineFair userOf payable command machine) :
    WorkerFair requestOf userOf payable
      (runMachine origin key command machine queue) := by
  cases machine with
  | settled outcome => trivial
  | _ => exact ⟨hcommand, hmachine⟩

theorem workerFair_of_turn {env : Environment} {σ : World} {w : String}
    {store : SagaStore} {after : Worker} {e : Event}
    (h : Fair requestOf userOf payable σ)
    (hturn : Turn env σ.store w (σ.workers w) e store after)
    (hsane : Sane requestOf userOf payable σ e) :
    WorkerFair requestOf userOf payable after := by
  generalize hw : σ.workers w = before at hturn
  have hworker := h.workers w
  have hcopies := h.copies w
  rw [hw] at hworker hcopies
  cases hturn with
  | create => exact hsane
  | acquired =>
      exact workerFair_runMachine hworker (machineFair_executeStateMachine _ _)
  | poll =>
      unfold afterPoll
      repeat' split
      all_goals trivial
  | take =>
      refine workerFair_runMachine ?_ (machineFair_executeStateMachine _ _)
      exact (hcopies _ List.mem_cons_self).1.intended
  | advance =>
      exact workerFair_runMachine hworker.1 (machineFair_advance _ _ _)
  | answerUser hnext =>
      refine workerFair_runMachine hworker.1 (machineFair_answerUser hnext ?_)
      rintro answer rfl
      exact hsane _ _ _ _ _ hw
  | answerPayment hnext =>
      refine workerFair_runMachine hworker.1 (machineFair_answerPayment hnext ?_)
      rintro current rfl
      exact hsane _ _ _ _ _ hw
  | answerCompensation hnext =>
      exact workerFair_runMachine hworker.1 (machineFair_answerCompensation hnext)
  | refused =>
      exact workerFair_runMachine hworker.1 (machineFair_throw rfl _)
  | commit =>
      exact workerFair_runMachine hworker.1 (machineFair_marked _ _ _)
  | @release origin => cases origin <;> trivial
  | fail hfail =>
      cases before with
      | running =>
          rw [afterFailure_running hfail]
          exact workerFair_runMachine hworker.1 (machineFair_throw rfl _)
      | releasing origin =>
          obtain rfl := Option.some.inj hfail
          cases origin <;> trivial
      | _ => cases hfail <;> trivial
  | _ => trivial

theorem rowFair_of_turn {env : Environment} {σ : World} {w : String}
    {store : SagaStore} {after : Worker} {e : Event} (hc : Consistent σ)
    (h : Fair requestOf userOf payable σ)
    (hturn : Turn env σ.store w (σ.workers w) e store after) {key : String}
    {row : AccountCreationSaga} (hrow : store.sagas.row key = some row) :
    RowFair requestOf userOf payable row := by
  cases rowStep_of_turn hturn key with
  | absent _ hnew => cases hrow.symm.trans hnew
  | kept hold hnew hsame =>
      obtain rfl := Option.some.inj (hrow.symm.trans hnew)
      exact rowFair_sameContent (h.rows key _ hold) hsame
  | @inserted command leaseUntil _ now hw _ _ _ hnew =>
      obtain rfl := Option.some.inj (hrow.symm.trans hnew)
      have hworker := h.workers w
      rw [hw] at hworker
      have hstarted : RowFair requestOf userOf payable
          (startedRow (acquireInput w command leaseUntil) now) :=
        rowFair_startedRow hworker now
      exact rowFair_sameContent hstarted (sameContent_lock _ _ _ _)
  | changed hw _ hchange hcurrent hold hlock hnew =>
      obtain rfl := Option.some.inj (hrow.symm.trans hnew)
      obtain ⟨rfl, hok, _, hkey, hhash⟩ :=
        change_of_step hc hw hchange (hcurrent ▸ hold) hlock
      have hworker := h.workers w
      rw [hw] at hworker
      have hfair := h.rows key _ hold
      exact rowFair_change hok hchange hfair hworker.2 hkey
        (payload_of_running hworker.1 hfair.intended (hc.rows key _ hold) hkey hhash)

theorem rooted_of_step {env : Environment} {σ σ' : World} {e : Event}
    (hstep : step env σ e = some σ') {saga : AccountCreationSaga}
    (h : Rooted σ.store saga) : Rooted σ'.store saga := by
  obtain ⟨row, hrow, hpayload⟩ := h
  obtain ⟨row', hrow', _, hsame, _⟩ := sameRoot_of_step hstep hrow
  exact ⟨row', hrow', hsame.trans hpayload⟩

theorem fair_init : Fair requestOf userOf payable World.init where
  rows := by
    intro key row hrow
    cases hrow
  copies := by
    intro w saga hsaga
    cases hsaga
  workers := fun _ => trivial

theorem fair_step {env : Environment} {σ σ' : World} {e : Event}
    (hc : Consistent σ) (h : Fair requestOf userOf payable σ)
    (hsane : Sane requestOf userOf payable σ e)
    (hstep : step env σ e = some σ') : Fair requestOf userOf payable σ' := by
  have hrooted := fun saga => @rooted_of_step env σ σ' e hstep saga
  obtain ⟨w, store, after, hturn, rfl⟩ := turn_of_step hstep
  have hrows : ∀ key row, store.sagas.row key = some row →
      RowFair requestOf userOf payable row :=
    fun key row => rowFair_of_turn hc h hturn
  refine ⟨hrows, ?_, ?_⟩
  · intro v saga hsaga
    have hkept : saga ∈ held (σ.workers v) →
        RowFair requestOf userOf payable saga ∧ Rooted store saga :=
      fun hold => ⟨(h.copies v saga hold).1, hrooted saga (h.copies v saga hold).2⟩
    by_cases hv : v = w
    · subst hv
      simp only [Function.update_self] at hsaga
      rcases held_of_turn hc hturn saga hsaga with hnew | ⟨_, hold⟩
      · have hstored := stored_of_returnedRow hturn hnew
        exact ⟨hrows _ _ hstored, saga, hstored, rfl⟩
      · exact hkept hold
    · simp only [Function.update_of_ne hv] at hsaga
      exact hkept hsaga
  · intro v
    by_cases hv : v = w
    · subst hv
      simp only [Function.update_self]
      exact workerFair_of_turn h hturn hsane
    · simp only [Function.update_of_ne hv]
      exact h.workers v

variable (userOf payable)

/-- A command that was sent for the request of a stored row. -/
inductive Fitting (env : Environment) (store : SagaStore) : RpcRequest → Prop
  | userCreate {command : CreateCommand} :
      Fitting env store (requestUserCreation env command)
  | paymentCreate {command : CreateCommand} {user : UserPayload}
      {row : AccountCreationSaga} :
      store.sagas.row command.payload.idempotencyKey = some row →
      row.requestPayload = command.payload →
      user.id = userOf command.payload.idempotencyKey →
      Fitting env store (requestPaymentCreation env command user)
  | userCompensate {command : CreateCommand} {user : UserPayload}
      {row : AccountCreationSaga} :
      store.sagas.row command.payload.idempotencyKey = some row →
      row.requestPayload = command.payload → ¬ payable command.payload →
      Fitting env store (requestUserCompensation command user)

variable {userOf payable}

theorem fitting_of_sends {env : Environment} {σ : World} {e : Event}
    {request : RpcRequest} (hc : Consistent σ)
    (h : Fair requestOf userOf payable σ) (hsends : sends env σ e = some request) :
    Fitting userOf payable env σ.store request := by
  cases e with
  | advance w =>
      simp only [sends] at hsends
      split at hsends
      · rename_i origin k command current queue hw
        have hworker := hc.worker w
        have hrunning := h.workers w
        have hcurrent : current ∈ held (σ.workers w) := by
          rw [hw]
          exact List.mem_append_left _ (Option.mem_toList.mpr rfl)
        obtain ⟨hfair, row, hrow, hroot⟩ := h.copies w current hcurrent
        rw [hw] at hworker hrunning
        obtain ⟨rfl, _, hkeys⟩ := hworker
        obtain ⟨hkey, hhash⟩ := hkeys current rfl
        have hpayload := payload_of_running hrunning.1 hfair.intended
          (hc.copies w current hcurrent) hkey.symm hhash.symm
        rw [hkey] at hrow
        rw [← hpayload] at hroot
        unfold advance at hsends
        split at hsends
        · cases hsends
          exact .userCreate
        · split at hsends
          · cases hsends
          · cases hsends
            exact .paymentCreate hrow hroot (hkey ▸ hfair.user _ ‹_›)
        · split at hsends
          · cases hsends
          · cases hsends
            exact .userCompensate hrow hroot (hpayload ▸ hfair.compensate ‹_›)
        · split at hsends <;> cases hsends
        · split at hsends
          · cases hsends
          · split at hsends <;> cases hsends
      · cases hsends
  | _ => cases hsends

theorem fitting_of_step {env : Environment} {σ σ' : World} {e : Event}
    (hstep : step env σ e = some σ') {request : RpcRequest}
    (h : Fitting userOf payable env σ.store request) :
    Fitting userOf payable env σ'.store request := by
  cases h with
  | userCreate => exact .userCreate
  | paymentCreate hrow hroot huser =>
      obtain ⟨row', hrow', _, hsame, _⟩ := sameRoot_of_step hstep hrow
      exact .paymentCreate hrow' (hsame.trans hroot) huser
  | userCompensate hrow hroot hpayable =>
      obtain ⟨row', hrow', _, hsame, _⟩ := sameRoot_of_step hstep hrow
      exact .userCompensate hrow' (hsame.trans hroot) hpayable

end Verdicts

end Modularis.Onboarding.Verdicts
