import Modularis.Onboarding.Invariant

namespace Modularis.Onboarding.Recovery

open Modularis.Foundation
open Modularis.Onboarding.Contracts
open Modularis.Onboarding.Repository
open Modularis.Onboarding.Service
open Modularis.Onboarding.Workers
open Modularis.Onboarding.Turns
open Modularis.Onboarding.SingleRun
open Modularis.Onboarding.Invariant

/-- The lease and the retry time of a row, where set, lie in the past. -/
def Due (now : Int) (saga : AccountCreationSaga) : Prop :=
  (∀ lockedUntil, saga.lockedUntil = some lockedUntil → lockedUntil < now) ∧
    ∀ nextRetryAt, saga.nextRetryAt = some nextRetryAt → nextRetryAt < now

/-- A due row with work left is selected, and the recovery pass that claims it
enters the loop with the next action of the row. -/
def PickedUp (env : Environment) (σ : World) (key : String)
    (saga : AccountCreationSaga) : Prop :=
  ∀ now, Due now saga → recoverable now saga = true ∧
    ∀ w leaseUntil limit skipLocked, σ.workers w = .claiming leaseUntil →
      σ.store.sagas.keys.length ≤ limit → skipLocked key = false →
      ∃ σ' sagas claimed,
        step env σ (.claim w limit skipLocked now) = some σ' ∧
          σ'.workers w = .queued sagas ∧ claimed ∈ sagas ∧
          claimed.idempotencyKey = key ∧
          claimed.nextAction = saga.nextAction ∧
          executeStateMachine claimed = .advancing claimed

/-- No row with work left is stranded. -/
def NoneStranded (env : Environment) (σ : World) : Prop :=
  ∀ key saga, σ.store.sagas.row key = some saga → saga.nextAction ≠ .noop →
    PickedUp env σ key saga

/-- The step by which a worker that still has the lock records a payment
failure that is not to be retried. -/
def RecordsRefusal (σ : World) : Event → Prop
  | .mark w _ _ =>
      ∃ origin key command current error queue row,
        σ.workers w =
          .running origin key command (.markingFailed current error) queue ∧
        isRetryable (toProblem error) = false ∧
        σ.store.sagas.row current.idempotencyKey = some row ∧
        row.lockedBy = some w
  | _ => False

/-- The row of a refused payment. -/
def Refused (saga : AccountCreationSaga) : Prop :=
  saga.status = .failed ∧ saga.retryable = false

theorem not_recoverable_of_refused {saga : AccountCreationSaga}
    (h : Refused saga) (now : Int) : recoverable now saga = false := by
  simp [recoverable, h.1, h.2]

theorem nextAction_of_refused {saga : AccountCreationSaga}
    (hshape : SagaShape saga) (h : Refused saga) :
    saga.nextAction = .compensateUser := by
  simp only [SagaShape, h.1, h.2] at hshape
  exact hshape.2.2

theorem recoverable_of_shape {saga : AccountCreationSaga} {now : Int}
    (hshape : SagaShape saga) (hnoop : saga.nextAction ≠ .noop)
    (hrefused : ¬ Refused saga) (hdue : Due now saga) :
    recoverable now saga = true := by
  have hretry : saga.nextRetryAt.getD now ≤ now := by
    cases htime : saga.nextRetryAt with
    | none => exact le_refl now
    | some time => exact (hdue.2 time htime).le
  have hlease : leaseOver now saga.lockedUntil = true := by
    cases htime : saga.lockedUntil with
    | none => rfl
    | some time => exact decide_eq_true (hdue.1 time htime)
  simp only [recoverable, hretry, hlease, decide_true, Bool.and_true,
    Bool.and_eq_true, decide_eq_true_eq, Bool.or_eq_true]
  cases hstatus : saga.status with
  | started | userCreated | paymentCreated => simp
  | failed =>
      have hretryable : saga.retryable = true := by
        by_contra hretryable
        exact hrefused ⟨hstatus, Bool.eq_false_iff.mpr hretryable⟩
      simp [hretryable]
  | completed | compensated =>
      simp only [SagaShape, hstatus] at hshape
      exact absurd hshape.1 hnoop

theorem executeStateMachine_of_open {saga : AccountCreationSaga}
    (hshape : SagaShape saga) (hnoop : saga.nextAction ≠ .noop)
    (hrefused : ¬ Refused saga) :
    executeStateMachine saga = .advancing saga := by
  have hdone : tryCompletedReplay saga = none := by
    refine if_neg fun hstatus => ?_
    simp only [SagaShape, hstatus] at hshape
    exact hnoop hshape.1
  have hterminal : terminalFailure saga = none := by
    refine if_neg ?_
    rintro ⟨hstatus | hstatus, hretryable⟩
    · exact hrefused ⟨hstatus, hretryable⟩
    · simp only [SagaShape, hstatus] at hshape
      exact hnoop hshape.1
  simp only [executeStateMachine, hdone, hterminal]

theorem pickedUp_of_open (env : Environment) {σ : World} {key : String}
    {saga : AccountCreationSaga} (hconsistent : Consistent σ)
    (hrow : σ.store.sagas.row key = some saga) (hnoop : saga.nextAction ≠ .noop)
    (hrefused : ¬ Refused saga) : PickedUp env σ key saga := by
  intro now hdue
  have hshape := (hconsistent.rows key saga hrow).shape
  have hselected := recoverable_of_shape hshape hnoop hrefused hdue
  refine ⟨hselected, ?_⟩
  intro w leaseUntil limit skipLocked hw hlimit hskip
  have hkey := key_of_row σ.store hrow
  refine ⟨_, _, lock w leaseUntil now saga, by simp only [step, hw]; rfl,
    Function.update_self .., List.mem_map_of_mem ?_, hkey, rfl,
    executeStateMachine_of_open hshape hnoop hrefused⟩
  refine Table.mem_select_of_le _ _ _ hlimit (hkey.symm ▸ hrow) ?_
  simp [hselected, hkey, hskip]

theorem refused_of_recordsRefusal {env : Environment} {σ σ' : World}
    {e : Event} (hrefusal : RecordsRefusal σ e)
    (hstep : step env σ e = some σ') :
    ∃ key saga, σ'.store.sagas.row key = some saga ∧ Refused saga := by
  cases e with
  | mark w dateNow now =>
      obtain ⟨origin, key, command, current, error, queue, row, hw, hretryable,
        hrow, hlock⟩ := hrefusal
      obtain ⟨v, store, after, hturn, rfl⟩ := turn_of_step hstep
      generalize hv : σ.workers v = before at hturn
      cases hturn with
      | refused _ hchange hnotLocked =>
          obtain ⟨⟩ := hw.symm.trans hv
          cases hchange
          exact absurd hlock (hnotLocked row hrow)
      | commit _ hchange _ _ hwrites _ =>
          obtain ⟨⟩ := hw.symm.trans hv
          cases hchange
          exact ⟨_, _, (hwrites _).trans (if_pos rfl), rfl, hretryable⟩
  | _ => exact absurd hrefusal id

theorem recordsRefusal_of_refused {env : Environment} {σ σ' : World}
    {e : Event} (hstep : step env σ e = some σ') {key : String}
    {saga : AccountCreationSaga} (hrow : σ'.store.sagas.row key = some saga)
    (hrefused : Refused saga) :
    RecordsRefusal σ e ∨
      ∃ old, σ.store.sagas.row key = some old ∧ Refused old := by
  obtain ⟨w, store, after, hturn, rfl⟩ := turn_of_step hstep
  cases rowStep_of_turn hturn key with
  | absent _ hnew => cases hrow.symm.trans hnew
  | kept hold hnew hsame =>
      obtain rfl := Option.some.inj (hrow.symm.trans hnew)
      obtain ⟨_, _, _, rfl⟩ := hsame
      exact .inr ⟨_, hold, hrefused⟩
  | inserted _ _ _ _ hnew =>
      obtain rfl := Option.some.inj (hrow.symm.trans hnew)
      exact absurd hrefused.1 (by simp [lock, startedRow])
  | @changed origin k command machine queue _ _ change row hw he hchange
      hcurrent hold hlock hnew =>
      obtain rfl := Option.some.inj (hrow.symm.trans hnew)
      refine .inl ?_
      cases machine with
      | markingFailed current error =>
          cases hchange
          rw [he]
          exact ⟨origin, k, command, current, error, queue, row, hw,
            hrefused.2, hcurrent ▸ hold, hlock⟩
      | markingUserCreated | markingPaymentCreated | markingCompensated
      | markingCompleted =>
          cases hchange
          cases hrefused.1
      | _ => cases hchange

theorem exists_refused_iff {env : Environment} {σ : World}
    {trace : List (World × Event)} (hrun : Run env trace σ) :
    (∃ key saga, σ.store.sagas.row key = some saga ∧ Refused saga) ↔
      ∃ p ∈ trace, RecordsRefusal p.1 p.2 := by
  induction hrun with
  | nil => simp [World.init, SagaStore.empty]
  | @snoc trace σ σ' e hbefore hstep ih =>
      have hconsistent := consistent_of_reachable ⟨trace, hbefore⟩
      simp only [List.mem_append, List.mem_singleton, or_and_right, exists_or,
        exists_eq_left]
      rw [← ih]
      constructor
      · rintro ⟨key, saga, hrow, hrefused⟩
        rcases recordsRefusal_of_refused hstep hrow hrefused with
          hrefusal | ⟨old, hold, hrefused⟩
        · exact .inr hrefusal
        · exact .inl ⟨key, old, hold, hrefused⟩
      · rintro (⟨key, saga, hrow, hrefused⟩ | hrefusal)
        · have haction := nextAction_of_refused
            (hconsistent.rows key saga hrow).shape hrefused
          obtain ⟨saga', hrow', _, _, _, rfl⟩ :=
            kept_of_step hconsistent hstep hrow (.inl haction)
          exact ⟨key, _, hrow', hrefused⟩
        · exact refused_of_recordsRefusal hrefusal hstep

theorem exists_due (saga : AccountCreationSaga) : ∃ now, Due now saga := by
  refine ⟨max (saga.lockedUntil.getD 0) (saga.nextRetryAt.getD 0) + 1, ?_, ?_⟩
  · intro time htime
    simp only [htime, Option.getD_some]
    omega
  · intro time htime
    simp only [htime, Option.getD_some]
    omega

theorem not_noneStranded_of_refused {env : Environment} {σ : World}
    (hconsistent : Consistent σ) {key : String} {saga : AccountCreationSaga}
    (hrow : σ.store.sagas.row key = some saga) (hrefused : Refused saga) :
    ¬ NoneStranded env σ := by
  intro hnone
  have haction := nextAction_of_refused (hconsistent.rows key saga hrow).shape
    hrefused
  obtain ⟨now, hdue⟩ := exists_due saga
  have hselected := (hnone key saga hrow (by simp [haction]) now hdue).1
  simp [not_recoverable_of_refused hrefused now] at hselected

/-- A run leaves no row stranded if and only if no step of it recorded a
refusal of the payment. -/
theorem noneStranded_iff {env : Environment} {σ : World}
    {trace : List (World × Event)} (hrun : Run env trace σ) :
    NoneStranded env σ ↔ ∀ p ∈ trace, ¬ RecordsRefusal p.1 p.2 := by
  have hconsistent := consistent_of_reachable ⟨trace, hrun⟩
  constructor
  · intro hnone p hp hrefusal
    obtain ⟨key, saga, hrow, hrefused⟩ :=
      (exists_refused_iff hrun).mpr ⟨p, hp, hrefusal⟩
    exact not_noneStranded_of_refused hconsistent hrow hrefused hnone
  · intro hsteps key saga hrow hnoop
    refine pickedUp_of_open env hconsistent hrow hnoop fun hrefused => ?_
    obtain ⟨p, hp, hrefusal⟩ :=
      (exists_refused_iff hrun).mp ⟨key, saga, hrow, hrefused⟩
    exact hsteps p hp hrefusal

theorem noneStranded_iff_singleRun :
    ∃ (σ : World) (trace : List (World × Event)),
      Run sampleEnvironment trace σ ∧
      σ.workers "worker-1" = .settled sampleCommand (.resolved
        (freshResponse sampleCommand sampleUser samplePayment)) ∧
      (NoneStranded sampleEnvironment σ ↔
        ∀ p ∈ trace, ¬ RecordsRefusal p.1 p.2) := by
  obtain ⟨σ, hreplay, hsettled⟩ := replay_singleRun sampleEnvironment "worker-1"
    sampleCommand sampleUser samplePayment
  have hrun := StepSystem.run_of_replay hreplay
  exact ⟨σ, _, hrun, hsettled, noneStranded_iff hrun⟩

/-- After the payment of a new saga is refused its row is never selected. -/
theorem stranded_by_refusal :
    ∃ σ, StepSystem.replay (step sampleEnvironment) World.init
        (userSteps "worker-1" sampleCommand sampleUser ++
          refusalSteps "worker-1" sampleRefusal 0 0) = some σ ∧
      ¬ NoneStranded sampleEnvironment σ := by
  obtain ⟨σ₁, hreplay₁, hworking⟩ := replay_userSteps sampleEnvironment
    "worker-1" sampleCommand sampleUser
  obtain ⟨σ₂, hreplay₂, hworking, _⟩ := replay_refusalSteps sampleEnvironment
    hworking rfl rfl rfl (show Permanent sampleRefusal from .inl rfl) 0 0
  have hreplay := StepSystem.replay_append hreplay₁ hreplay₂
  exact ⟨σ₂, hreplay, not_noneStranded_of_refused
    (consistent_of_reachable ⟨_, StepSystem.run_of_replay hreplay⟩)
    hworking.row ⟨rfl, rfl⟩⟩

end Modularis.Onboarding.Recovery
