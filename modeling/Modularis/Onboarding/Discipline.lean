import Modularis.Onboarding.Verdicts

namespace Modularis.Onboarding.Discipline

open Modularis.Foundation
open Modularis.Onboarding.Contracts
open Modularis.Onboarding.Repository
open Modularis.Onboarding.Service
open Modularis.Onboarding.Workers
open Modularis.Onboarding.Turns
open Modularis.Onboarding.Invariant
open Modularis.Onboarding.SagaLog
open Modularis.Onboarding.Agreement
open Modularis.Onboarding.Verdicts (Intended stored_of_returnedRow payload_of_running)

/-- Before the user step a row has no snapshots. -/
def Pristine (saga : AccountCreationSaga) : Prop :=
  saga.nextAction = .processUser → saga.userPayload = none ∧ saga.paymentPayload = none

/-- What an old row says that is still so in a newer one. -/
structure Ahead (old new : AccountCreationSaga) : Prop where
  requestPayload : new.requestPayload = old.requestPayload
  userPayload : ∀ user, old.userPayload = some user → new.userPayload = some user
  compensates : old.nextAction = .compensateUser → new.nextAction = .compensateUser

theorem Ahead.refl (saga : AccountCreationSaga) : Ahead saga saga :=
  ⟨rfl, fun _ => id, id⟩

theorem Ahead.trans {a b c : AccountCreationSaga} (h : Ahead a b) (h' : Ahead b c) :
    Ahead a c where
  requestPayload := h'.requestPayload.trans h.requestPayload
  userPayload := fun user huser => h'.userPayload user (h.userPayload user huser)
  compensates := fun hnext => h'.compensates (h.compensates hnext)

theorem ahead_sameContent {row row' : AccountCreationSaga} (h : SameContent row row') :
    Ahead row row' := by
  obtain ⟨_, _, _, rfl⟩ := h
  exact ⟨rfl, fun _ => id, id⟩

theorem pristine_sameContent {row row' : AccountCreationSaga} (h : SameContent row row')
    (hrow : Pristine row) : Pristine row' := by
  obtain ⟨_, _, _, rfl⟩ := h
  exact hrow

/-- The stored row of a copy has moved on from it. -/
def Behind (store : SagaStore) (copy : AccountCreationSaga) : Prop :=
  ∃ row, store.sagas.row copy.idempotencyKey = some row ∧ Ahead copy row

section Changes

variable {machine : Machine} {dateNow now : Int} {change : Change}

theorem pristine_change (hchange : change? dateNow machine = some change) :
    Pristine (change.apply now change.current) := by
  cases machine with
  | markingUserCreated | markingPaymentCreated | markingCompensated | markingCompleted =>
      cases hchange
      intro hnext
      cases hnext
  | markingFailed current error =>
      cases hchange
      intro hnext
      change (if isRetryable (toProblem error) then SagaNextAction.processPayment
        else .compensateUser) = .processUser at hnext
      split at hnext <;> cases hnext
  | _ => cases hchange

/-- A change writes the user snapshot once, and none touches a row that waits for its
compensation: nobody has it locked. -/
theorem ahead_change {w : String} (hok : MachineOk machine)
    (hchange : change? dateNow machine = some change)
    (hlock : change.current.lockedBy = some w) (hpristine : Pristine change.current) :
    Ahead change.current (change.apply now change.current) := by
  cases machine with
  | markingUserCreated current user =>
      cases hchange
      have hnone := (hpristine hok).1
      refine ⟨rfl, fun user' huser => ?_, fun hnext => ?_⟩
      · cases hnone.symm.trans huser
      · cases hok.symm.trans hnext
  | markingPaymentCreated current payment =>
      cases hchange
      exact ⟨rfl, fun _ => id, fun hnext => by cases hok.symm.trans hnext⟩
  | markingFailed current error =>
      cases hchange
      exact ⟨rfl, fun _ => id, fun hnext => by cases hok.symm.trans hnext⟩
  | markingCompensated current =>
      cases hchange
      cases hok.2.symm.trans hlock
  | markingCompleted current response =>
      cases hchange
      exact ⟨rfl, fun _ => id, fun hnext => by cases hok.1.symm.trans hnext⟩
  | _ => cases hchange

end Changes

/-- What is to be known of every row, and of every machine by the command that it
runs. -/
structure Rule where
  row : AccountCreationSaga → Prop
  machine : CreateCommand → Machine → Prop

/-- The local code keeps the discipline. -/
structure Local (D : Rule) : Prop where
  sameContent : ∀ {row row'}, SameContent row row' → D.row row → D.row row'
  started : ∀ input now, D.row (startedRow input now)
  change : ∀ {command machine dateNow now change}, MachineOk machine →
    change? dateNow machine = some change → D.row change.current →
    D.machine command machine → command.payload = change.current.requestPayload →
    command.payload.idempotencyKey = change.current.idempotencyKey →
    D.row (change.apply now change.current)
  executes : ∀ command saga, D.machine command (executeStateMachine saga)
  advances : ∀ env command current, D.machine command (advance env command current).2
  throws : ∀ {command} {machine : Machine} {reason}, isRetryable (toProblem reason) = true →
    D.machine command machine → D.machine command (machine.throw reason)
  marked : ∀ {command} {machine : Machine} saga, D.machine command (machine.marked saga)

/-- The answers keep it. -/
def Admits (D : Rule) (requestOf : String → String → OnboardingAccountCreateCommandPayload)
    (σ : World) : Event → Prop
  | .create _ command _ => Intended requestOf command.payload
  | .answerUser w outcome =>
      ∀ origin k command machine queue, σ.workers w = .running origin k command machine queue →
        ∀ next, machine.answerUser outcome = some next → D.machine command next
  | .answerPayment w outcome =>
      ∀ origin k command machine queue, σ.workers w = .running origin k command machine queue →
        ∀ next, machine.answerPayment outcome = some next → D.machine command next
  | .answerCompensation w outcome =>
      ∀ origin k command machine queue, σ.workers w = .running origin k command machine queue →
        ∀ next, machine.answerCompensation outcome = some next → D.machine command next
  | _ => True

section Disciplined

variable (D : Rule)
  (requestOf : String → String → OnboardingAccountCreateCommandPayload)

/-- A row belongs to a request that was made, and keeps the discipline. -/
structure RowKept (saga : AccountCreationSaga) : Prop where
  intended : Intended requestOf saga.requestPayload
  pristine : Pristine saga
  kept : D.row saga

/-- So does a worker in whatever it has read. -/
def WorkerKept : Worker → Prop
  | .acquiring command _ => Intended requestOf command.payload
  | .running _ _ command machine _ =>
      Intended requestOf command.payload ∧ D.machine command machine
  | _ => True

/-- Rows, the copies of workers and the workers keep the discipline. -/
structure Disciplined (σ : World) : Prop where
  rows : ∀ key row, σ.store.sagas.row key = some row → RowKept D requestOf row
  copies : ∀ w, ∀ saga ∈ held (σ.workers w), RowKept D requestOf saga ∧ Behind σ.store saga
  workers : ∀ w, WorkerKept D requestOf (σ.workers w)

variable {D requestOf}

theorem disciplined_init : Disciplined D requestOf World.init where
  rows := by
    intro key row hrow
    cases hrow
  copies := by
    intro w saga hsaga
    cases hsaga
  workers := fun _ => trivial

theorem Disciplined.mono {D' : Rule} {σ : World} (h : Disciplined D requestOf σ)
    (hrow : ∀ saga, D.row saga → D'.row saga)
    (hmachine : ∀ command machine, D.machine command machine → D'.machine command machine) :
    Disciplined D' requestOf σ where
  rows := fun key row hstored =>
    ⟨(h.rows key row hstored).intended, (h.rows key row hstored).pristine,
      hrow row (h.rows key row hstored).kept⟩
  copies := fun w saga hsaga =>
    have hkept := h.copies w saga hsaga
    ⟨⟨hkept.1.intended, hkept.1.pristine, hrow saga hkept.1.kept⟩, hkept.2⟩
  workers := by
    intro w
    have hworker := h.workers w
    cases hw : σ.workers w with
    | acquiring =>
        rw [hw] at hworker
        exact hworker
    | running =>
        rw [hw] at hworker
        exact ⟨hworker.1, hmachine _ _ hworker.2⟩
    | _ => trivial

theorem workerKept_runMachine {origin : Origin} {key : String} {command : CreateCommand}
    {machine : Machine} {queue : List AccountCreationSaga}
    (hcommand : Intended requestOf command.payload) (hmachine : D.machine command machine) :
    WorkerKept D requestOf (runMachine origin key command machine queue) := by
  cases machine with
  | settled outcome => trivial
  | _ => exact ⟨hcommand, hmachine⟩

section Steps

variable {env : Environment} {σ σ' : World} {w : String} {store : SagaStore} {after : Worker}
  {e : Event}

theorem workerKept_of_turn (hlocal : Local D) (h : Disciplined D requestOf σ)
    (hturn : Turn env σ.store w (σ.workers w) e store after)
    (hadmits : Admits D requestOf σ e) : WorkerKept D requestOf after := by
  generalize hw : σ.workers w = before at hturn
  have hworker := h.workers w
  have hcopies := h.copies w
  rw [hw] at hworker hcopies
  cases hturn with
  | create => exact hadmits
  | acquired => exact workerKept_runMachine hworker (hlocal.executes _ _)
  | poll =>
      unfold afterPoll
      repeat' split
      all_goals trivial
  | take =>
      refine workerKept_runMachine ?_ (hlocal.executes _ _)
      exact (hcopies _ List.mem_cons_self).1.intended
  | advance => exact workerKept_runMachine hworker.1 (hlocal.advances _ _ _)
  | answerUser hnext | answerPayment hnext | answerCompensation hnext =>
      exact workerKept_runMachine hworker.1 (hadmits _ _ _ _ _ hw _ hnext)
  | refused => exact workerKept_runMachine hworker.1 (hlocal.throws rfl hworker.2)
  | commit => exact workerKept_runMachine hworker.1 (hlocal.marked _)
  | @release origin => cases origin <;> trivial
  | fail hfail =>
      cases before with
      | running =>
          rw [afterFailure_running hfail]
          exact workerKept_runMachine hworker.1 (hlocal.throws rfl hworker.2)
      | releasing origin =>
          obtain rfl := Option.some.inj hfail
          cases origin <;> trivial
      | _ => cases hfail <;> trivial
  | _ => trivial

theorem rowKept_sameContent (hlocal : Local D) {row row' : AccountCreationSaga}
    (hsame : SameContent row row') (h : RowKept D requestOf row) :
    RowKept D requestOf row' where
  intended := (ahead_sameContent hsame).requestPayload ▸ h.intended
  pristine := pristine_sameContent hsame h.pristine
  kept := hlocal.sameContent hsame h.kept

theorem rowKept_of_turn (hlocal : Local D) (hc : Consistent σ) (h : Disciplined D requestOf σ)
    (hturn : Turn env σ.store w (σ.workers w) e store after) (key : String) :
    (∀ row, store.sagas.row key = some row → RowKept D requestOf row) ∧
      ∀ row, σ.store.sagas.row key = some row →
        ∃ row', store.sagas.row key = some row' ∧ Ahead row row' := by
  cases rowStep_of_turn hturn key with
  | absent hold hnew =>
      refine ⟨fun row hrow => ?_, fun row hrow => ?_⟩
      · cases hrow.symm.trans hnew
      · cases hrow.symm.trans hold
  | @kept old new hold hnew hsame =>
      refine ⟨fun row hrow => ?_, fun row hrow => ⟨new, hnew, ?_⟩⟩
      · obtain rfl := Option.some.inj (hrow.symm.trans hnew)
        exact rowKept_sameContent hlocal hsame (h.rows key old hold)
      · obtain rfl := Option.some.inj (hrow.symm.trans hold)
        exact ahead_sameContent hsame
  | @inserted command leaseUntil _ now hw _ _ hold hnew =>
      refine ⟨fun row hrow => ?_, fun row hrow => ?_⟩
      · obtain rfl := Option.some.inj (hrow.symm.trans hnew)
        have hworker := h.workers w
        rw [hw] at hworker
        have hstarted : RowKept D requestOf
            (startedRow (acquireInput w command leaseUntil) now) :=
          ⟨hworker, fun _ => ⟨rfl, rfl⟩, hlocal.started _ _⟩
        exact rowKept_sameContent hlocal (sameContent_lock _ _ _ _) hstarted
      · cases hrow.symm.trans hold
  | @changed _ _ command _ _ _ now change _ hw _ hchange hcurrent hold hlock hnew =>
      obtain ⟨rfl, hok, _, hkey, hhash⟩ :=
        change_of_step hc hw hchange (hcurrent ▸ hold) hlock
      have hworker := h.workers w
      rw [hw] at hworker
      have hrow := h.rows key _ hold
      have hpayload := payload_of_running hworker.1 hrow.intended (hc.rows key _ hold) hkey
        hhash
      refine ⟨fun row hnext => ?_, fun row hnext => ⟨_, hnew, ?_⟩⟩
      · obtain rfl := Option.some.inj (hnext.symm.trans hnew)
        exact ⟨hrow.intended, pristine_change hchange,
          hlocal.change hok hchange hrow.kept hworker.2 hpayload hkey⟩
      · obtain rfl := Option.some.inj (hnext.symm.trans hold)
        exact ahead_change hok hchange hlock hrow.pristine

theorem ahead_of_step (hlocal : Local D) (hc : Consistent σ) (h : Disciplined D requestOf σ)
    (hstep : step env σ e = some σ') {key : String} {row : AccountCreationSaga}
    (hrow : σ.store.sagas.row key = some row) :
    ∃ row', σ'.store.sagas.row key = some row' ∧ Ahead row row' := by
  obtain ⟨w, store, after, hturn, rfl⟩ := turn_of_step hstep
  exact (rowKept_of_turn hlocal hc h hturn key).2 row hrow

theorem behind_of_step (hlocal : Local D) (hc : Consistent σ) (h : Disciplined D requestOf σ)
    (hstep : step env σ e = some σ') {copy : AccountCreationSaga}
    (hcopy : Behind σ.store copy) : Behind σ'.store copy := by
  obtain ⟨row, hrow, hahead⟩ := hcopy
  obtain ⟨row', hrow', hahead'⟩ := ahead_of_step hlocal hc h hstep hrow
  exact ⟨row', hrow', hahead.trans hahead'⟩

theorem disciplined_step (hlocal : Local D) (hc : Consistent σ) (h : Disciplined D requestOf σ)
    (hadmits : Admits D requestOf σ e) (hstep : step env σ e = some σ') :
    Disciplined D requestOf σ' := by
  have hbehind := fun copy => @behind_of_step D requestOf env σ σ' e hlocal hc h hstep copy
  obtain ⟨w, store, after, hturn, rfl⟩ := turn_of_step hstep
  have hrows : ∀ key row, store.sagas.row key = some row → RowKept D requestOf row :=
    fun key => (rowKept_of_turn hlocal hc h hturn key).1
  refine ⟨hrows, ?_, ?_⟩
  · intro v saga hsaga
    have hkept : saga ∈ held (σ.workers v) → RowKept D requestOf saga ∧ Behind store saga :=
      fun hold => ⟨(h.copies v saga hold).1, hbehind saga (h.copies v saga hold).2⟩
    by_cases hv : v = w
    · subst hv
      simp only [Function.update_self] at hsaga
      rcases held_of_turn hc hturn saga hsaga with hnew | ⟨_, hold⟩
      · have hstored := stored_of_returnedRow hturn hnew
        exact ⟨hrows _ _ hstored, saga, hstored, .refl saga⟩
      · exact hkept hold
    · simp only [Function.update_of_ne hv] at hsaga
      exact hkept hsaga
  · intro v
    by_cases hv : v = w
    · subst hv
      simp only [Function.update_self]
      exact workerKept_of_turn hlocal h hturn hadmits
    · simp only [Function.update_of_ne hv]
      exact h.workers v

end Steps

end Disciplined

/-- A command that was sent for a stored row: it is of the request of that row, and it
names its user. -/
inductive Sent (env : Environment) (store : SagaStore) : RpcRequest → Prop
  | userCreate {command : CreateCommand} {row : AccountCreationSaga} :
      store.sagas.row command.payload.idempotencyKey = some row →
      row.requestPayload = command.payload →
      Sent env store (requestUserCreation env command)
  | paymentCreate {command : CreateCommand} {row : AccountCreationSaga} {user : UserPayload} :
      store.sagas.row command.payload.idempotencyKey = some row →
      row.requestPayload = command.payload → row.userPayload = some user →
      Sent env store (requestPaymentCreation env command user)
  | userCompensate {command : CreateCommand} {row : AccountCreationSaga}
      {user : UserPayload} :
      store.sagas.row command.payload.idempotencyKey = some row →
      row.requestPayload = command.payload → row.userPayload = some user →
      row.nextAction = .compensateUser →
      Sent env store (requestUserCompensation command user)

section Sent

variable {D : Rule}
  {requestOf : String → String → OnboardingAccountCreateCommandPayload} {env : Environment}
  {σ σ' : World} {e : Event} {request : RpcRequest}

theorem sent_of_sends (hc : Consistent σ) (h : Disciplined D requestOf σ)
    (hsends : sends env σ e = some request) : Sent env σ.store request := by
  cases e with
  | advance w =>
      simp only [sends] at hsends
      split at hsends
      · rename_i origin k command current queue hw
        have hworker := hc.worker w
        have hrunning := h.workers w
        have hcurrent : current ∈ held (σ.workers w) := by
          rw [hw]
          exact List.mem_append_left _ (Option.mem_toList.mpr rfl)
        obtain ⟨hkept, row, hrow, hahead⟩ := h.copies w current hcurrent
        rw [hw] at hworker hrunning
        obtain ⟨rfl, _, hkeys⟩ := hworker
        obtain ⟨hkey, hhash⟩ := hkeys current rfl
        have hpayload := payload_of_running hrunning.1 hkept.intended
          (hc.copies w current hcurrent) hkey.symm hhash.symm
        have hroot := hahead.requestPayload
        rw [hkey] at hrow
        rw [← hpayload] at hroot
        unfold advance at hsends
        split at hsends
        · cases hsends
          exact .userCreate hrow hroot
        · split at hsends
          · cases hsends
          · cases hsends
            exact .paymentCreate hrow hroot (hahead.userPayload _ ‹_›)
        · split at hsends
          · cases hsends
          · cases hsends
            exact .userCompensate hrow hroot (hahead.userPayload _ ‹_›)
              (hahead.compensates ‹_›)
        · split at hsends <;> cases hsends
        · split at hsends
          · cases hsends
          · split at hsends <;> cases hsends
      · cases hsends
  | _ => cases hsends

theorem sent_of_step (hlocal : Local D) (hc : Consistent σ) (h : Disciplined D requestOf σ)
    (hstep : step env σ e = some σ') (hsent : Sent env σ.store request) :
    Sent env σ'.store request := by
  cases hsent with
  | userCreate hrow hroot =>
      obtain ⟨row', hrow', hahead⟩ := ahead_of_step hlocal hc h hstep hrow
      exact .userCreate hrow' (hahead.requestPayload.trans hroot)
  | paymentCreate hrow hroot huser =>
      obtain ⟨row', hrow', hahead⟩ := ahead_of_step hlocal hc h hstep hrow
      exact .paymentCreate hrow' (hahead.requestPayload.trans hroot)
        (hahead.userPayload _ huser)
  | userCompensate hrow hroot huser hnext =>
      obtain ⟨row', hrow', hahead⟩ := ahead_of_step hlocal hc h hstep hrow
      exact .userCompensate hrow' (hahead.requestPayload.trans hroot)
        (hahead.userPayload _ huser) (hahead.compensates hnext)

end Sent

end Modularis.Onboarding.Discipline
