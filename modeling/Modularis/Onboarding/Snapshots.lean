import Modularis.Onboarding.Discipline

namespace Modularis.Onboarding.Snapshots

open Modularis.Onboarding.Contracts
open Modularis.Onboarding.Repository
open Modularis.Onboarding.Service
open Modularis.Onboarding.Workers
open Modularis.Onboarding.Turns
open Modularis.Onboarding.Invariant
open Modularis.Onboarding.Agreement (sendRpc_ok)
open Modularis.Onboarding.Discipline

structure Facts where
  provided : OnboardingAccountCreateCommandPayload → UserPayload → Prop
  paid : OnboardingAccountCreateCommandPayload → UserPayload →
    PublicPaymentIntentPayload → Prop
  payable : OnboardingAccountCreateCommandPayload → Prop

/-- The payment is one for the user of the copy. -/
def PaidFor (F : Facts) (payload : OnboardingAccountCreateCommandPayload)
    (saga : AccountCreationSaga) (payment : PublicPaymentIntentPayload) : Prop :=
  F.payable payload ∧ ∃ user, saga.userPayload = some user ∧ F.paid payload user payment

structure RowTrue (F : Facts) (saga : AccountCreationSaga) : Prop where
  user : ∀ user, saga.userPayload = some user → F.provided saga.requestPayload user
  payment : ∀ payment, saga.paymentPayload = some payment →
    PaidFor F saga.requestPayload saga payment
  unpaid : saga.nextAction = .processUser → saga.paymentPayload = none
  compensates : saga.nextAction = .compensateUser → ¬ F.payable saga.requestPayload

def MachineTrue (F : Facts) (command : CreateCommand) : Machine → Prop
  | .markingUserCreated _ user => F.provided command.payload user
  | .markingPaymentCreated current payment => PaidFor F command.payload current payment
  | .markingFailed _ error =>
      isRetryable (toProblem error) = false → ¬ F.payable command.payload
  | _ => True

def rule (F : Facts) : Rule where
  row := RowTrue F
  machine := MachineTrue F

section Answers

variable {F : Facts} {command : CreateCommand} {machine next : Machine}

theorem machineTrue_answerUser {outcome : RpcOutcome UserCreateResponsePayload}
    (h : machine.answerUser outcome = some next)
    (huser : ∀ answer, outcome = .resolved (.success answer) →
      F.provided command.payload answer.user) : MachineTrue F command next := by
  cases machine with
  | awaitingUser current =>
      obtain rfl := Option.some.inj h
      split
      · exact huser _ (sendRpc_ok ‹_›)
      · trivial
  | _ => cases h

theorem machineTrue_answerPayment {outcome : RpcOutcome PaymentIntentPayload}
    (h : machine.answerPayment outcome = some next)
    (hpaid : ∀ current data, machine = .awaitingPayment current →
      outcome = .resolved (.success data) →
      PaidFor F command.payload current (toPublicPayment data))
    (hrefused : ∀ reason, sendRpc outcome = .error reason →
      isRetryable (toProblem reason) = false → ¬ F.payable command.payload) :
    MachineTrue F command next := by
  cases machine with
  | awaitingPayment current =>
      obtain rfl := Option.some.inj h
      split
      · exact hpaid current _ rfl (sendRpc_ok ‹_›)
      · exact hrefused _ ‹_›
  | _ => cases h

theorem machineTrue_answerCompensation {outcome : RpcOutcome CompensationResultPayload}
    (h : machine.answerCompensation outcome = some next) : MachineTrue F command next := by
  cases machine with
  | awaitingCompensation current =>
      obtain rfl := Option.some.inj h
      split <;> trivial
  | _ => cases h

end Answers

section Rule

variable {F : Facts}

theorem rowTrue_startedRow (input : TryAcquireInput) (now : Int) :
    RowTrue F (startedRow input now) where
  user := nofun
  payment := nofun
  unpaid := fun _ => rfl
  compensates := nofun

theorem rowTrue_change {command : CreateCommand} {machine : Machine} {dateNow now : Int}
    {change : Change} (hok : MachineOk machine)
    (hchange : change? dateNow machine = some change) (hrow : RowTrue F change.current)
    (hmachine : MachineTrue F command machine)
    (hpayload : command.payload = change.current.requestPayload) :
    RowTrue F (change.apply now change.current) := by
  cases machine with
  | markingUserCreated current user =>
      cases hchange
      have hunpaid := hrow.unpaid hok
      refine ⟨?_, ?_, nofun, nofun⟩
      · rintro _ ⟨⟩
        exact hpayload ▸ hmachine
      · intro payment hpayment
        cases hunpaid.symm.trans hpayment
  | markingPaymentCreated current payment =>
      cases hchange
      refine ⟨hrow.user, ?_, nofun, nofun⟩
      rintro _ ⟨⟩
      exact hpayload ▸ hmachine
  | markingFailed current error =>
      cases hchange
      have hnext : ((failureChange current error dateNow).apply now
          (failureChange current error dateNow).current).nextAction =
            if isRetryable (toProblem error) then .processPayment
            else .compensateUser := rfl
      refine ⟨hrow.user, hrow.payment, ?_, ?_⟩
      · intro huser
        rw [hnext] at huser
        split at huser <;> cases huser
      · intro hcompensates
        rw [hnext] at hcompensates
        cases hretry : isRetryable (toProblem error) with
        | true => simp [hretry] at hcompensates
        | false => exact hpayload ▸ hmachine hretry
  | markingCompensated current =>
      cases hchange
      exact ⟨hrow.user, hrow.payment, nofun, nofun⟩
  | markingCompleted current response =>
      cases hchange
      exact ⟨hrow.user, hrow.payment, nofun, nofun⟩
  | _ => cases hchange

theorem machineTrue_advance (env : Environment) (command : CreateCommand)
    (current : AccountCreationSaga) : MachineTrue F command (advance env command current).2 := by
  unfold advance
  split
  · trivial
  · split
    · rintro ⟨⟩
    · trivial
  · split <;> trivial
  · split <;> trivial
  · split
    · trivial
    · split <;> trivial

theorem machineTrue_throw {command : CreateCommand} {machine : Machine} {reason : Thrown}
    (hreason : isRetryable (toProblem reason) = true) :
    MachineTrue F command (machine.throw reason) := by
  have hfinal : isRetryable (toProblem reason) = false → ¬ F.payable command.payload := by
    rw [hreason]
    nofun
  cases machine with
  | awaitingPayment | markingPaymentCreated => exact hfinal
  | _ => trivial

theorem local_rule (F : Facts) : Local (rule F) where
  sameContent := by
    intro row row' hsame h
    obtain ⟨_, _, _, rfl⟩ := hsame
    exact ⟨h.user, h.payment, h.unpaid, h.compensates⟩
  started := rowTrue_startedRow
  change := fun hok hchange hrow hmachine hpayload _ =>
    rowTrue_change hok hchange hrow hmachine hpayload
  executes := by
    intro command saga
    rcases executeStateMachine_cases saga with ⟨_, hrun⟩ | hrun <;>
      rw [hrun] <;> trivial
  advances := machineTrue_advance
  throws := fun hreason _ => machineTrue_throw hreason
  marked := by
    intro command machine saga
    cases machine with
    | markingFailed =>
        simp only [Machine.marked]
        split <;> trivial
    | _ => trivial

theorem disciplined_grows {F F' : Facts}
    {requestOf : String → String → OnboardingAccountCreateCommandPayload} {σ : World}
    (h : Disciplined (rule F) requestOf σ)
    (hprovided : ∀ payload user, F.provided payload user → F'.provided payload user)
    (hpaid : ∀ payload user payment, F.paid payload user payment →
      F'.paid payload user payment)
    (hpayable : F'.payable = F.payable) : Disciplined (rule F') requestOf σ := by
  have hfor : ∀ payload saga payment, PaidFor F payload saga payment →
      PaidFor F' payload saga payment := by
    rintro payload saga payment ⟨hable, user, huser, hpayment⟩
    exact ⟨hpayable ▸ hable, user, huser, hpaid payload user payment hpayment⟩
  refine h.mono (fun saga hrow => ?_) fun command machine hmachine => ?_
  · exact ⟨fun user huser => hprovided _ user (hrow.user user huser),
      fun payment hpayment => hfor _ _ payment (hrow.payment payment hpayment),
      hrow.unpaid, fun hcompensates => hpayable ▸ hrow.compensates hcompensates⟩
  · cases machine with
    | markingUserCreated => exact hprovided _ _ hmachine
    | markingPaymentCreated => exact hfor _ _ _ hmachine
    | markingFailed => exact fun hfinal => hpayable ▸ hmachine hfinal
    | _ => trivial

end Rule

end Modularis.Onboarding.Snapshots
