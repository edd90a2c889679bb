import Modularis.Onboarding.Invariant

namespace Modularis.Onboarding.SagaLog

open Modularis.Foundation
open Modularis.Onboarding.Contracts
open Modularis.Onboarding.Repository
open Modularis.Onboarding.Service
open Modularis.Onboarding.Workers
open Modularis.Onboarding.Turns
open Modularis.Onboarding.SingleRun
open Modularis.Onboarding.Invariant

/-- The log rows lead from one status to another. -/
def Chain : SagaStatus → List SagaTransition → SagaStatus → Prop
  | start, [], final => start = final
  | start, link :: links, final =>
      link.fromStatus = start ∧ Chain link.toStatus links final

theorem chain_append {start final : SagaStatus} {links : List SagaTransition}
    {link : SagaTransition} (h : Chain start links final)
    (hlink : link.fromStatus = final) :
    Chain start (links ++ [link]) link.toStatus := by
  induction links generalizing start with
  | nil =>
      obtain rfl : start = final := h
      exact ⟨hlink, rfl⟩
  | cons first links ih => exact ⟨h.1, ih h.2⟩

/-- The status changes that the service makes. -/
def allowedLinks : List (SagaStatus × SagaStatus) :=
  [(.started, .userCreated), (.userCreated, .paymentCreated),
   (.userCreated, .failed), (.failed, .failed), (.failed, .paymentCreated),
   (.failed, .compensated), (.paymentCreated, .completed)]

/-- A link that `attempts` counts. -/
def countsAttempt (link : SagaTransition) : Bool :=
  decide (link.toStatus = .failed ∨ link.toStatus = .compensated)

/-- The log of a row. -/
structure Logged (saga : AccountCreationSaga) (links : List SagaTransition) :
    Prop where
  chain : Chain .started links saga.status
  allowed : ∀ link ∈ links, (link.fromStatus, link.toStatus) ∈ allowedLinks
  attempts : saga.attempts = links.countP countsAttempt

theorem logged_sameContent {row row' : AccountCreationSaga}
    {links : List SagaTransition} (h : Logged row links)
    (hsame : SameContent row row') : Logged row' links := by
  obtain ⟨lockedBy, lockedUntil, updatedAt, rfl⟩ := hsame
  exact ⟨h.chain, h.allowed, h.attempts⟩

theorem logged_startedRow (input : TryAcquireInput) (w : String)
    (leaseUntil now : Int) :
    Logged (lock w leaseUntil now (startedRow input now)) [] :=
  ⟨rfl, by simp, rfl⟩

theorem allowed_change {machine : Machine} {dateNow : Int} {change : Change}
    (hok : MachineOk machine) (hchange : change? dateNow machine = some change)
    (hshape : SagaShape change.current) :
    (change.current.status, change.nextStatus) ∈ allowedLinks := by
  cases machine with
  | markingUserCreated current user =>
      cases hchange
      change SagaShape current at hshape
      simp [of_processUser hshape hok, allowedLinks]
  | markingPaymentCreated current payment =>
      cases hchange
      change SagaShape current at hshape
      obtain ⟨hstatus | ⟨hstatus, _⟩, _⟩ := of_processPayment hshape hok
      · simp [hstatus, allowedLinks]
      · simp [hstatus, allowedLinks]
  | markingFailed current error =>
      cases hchange
      change SagaShape current at hshape
      obtain ⟨hstatus | ⟨hstatus, _⟩, _⟩ := of_processPayment hshape hok
      · simp [failureChange, hstatus, allowedLinks]
      · simp [failureChange, hstatus, allowedLinks]
  | markingCompensated current =>
      cases hchange
      change SagaShape current at hshape
      obtain ⟨hstatus, _⟩ := of_compensateUser hshape hok.1
      simp [hstatus, allowedLinks]
  | markingCompleted current response =>
      cases hchange
      change SagaShape current at hshape
      obtain ⟨hstatus, _⟩ := of_complete hshape hok.1
      simp [hstatus, allowedLinks]
  | _ => cases hchange

theorem attempts_change {machine : Machine} {dateNow : Int} {change : Change}
    (hchange : change? dateNow machine = some change) (now : Int)
    (row : AccountCreationSaga) (command : CreateCommand) :
    (change.apply now row).attempts =
      row.attempts + [change.link command row].countP countsAttempt := by
  cases machine <;> cases hchange <;> rfl

theorem logged_change {machine : Machine} {dateNow now : Int} {change : Change}
    {links : List SagaTransition} (hok : MachineOk machine)
    (hchange : change? dateNow machine = some change)
    (hshape : SagaShape change.current) (hlogged : Logged change.current links)
    (command : CreateCommand) :
    Logged (change.apply now change.current)
      (links ++ [change.link command change.current]) where
  chain := chain_append hlogged.chain rfl
  allowed := by
    intro link hlink
    rcases List.mem_append.mp hlink with hold | hnew
    · exact hlogged.allowed link hold
    · rw [List.mem_singleton.mp hnew]
      exact allowed_change hok hchange hshape
  attempts := by
    rw [attempts_change hchange now change.current command, hlogged.attempts,
      List.countP_append]

/-- The log of every key is the log of its row, and a key without a row has
none. -/
def LogOk (σ : World) : Prop :=
  ∀ key, match σ.store.sagas.row key with
    | none => σ.store.links key = []
    | some saga => Logged saga (σ.store.links key)

theorem logOk_step {env : Environment} {σ σ' : World} {e : Event}
    (hconsistent : Consistent σ) (h : LogOk σ)
    (hstep : step env σ e = some σ') : LogOk σ' := by
  obtain ⟨w, store, after, hturn, rfl⟩ := turn_of_step hstep
  intro key
  have hkey := h key
  cases rowStep_of_turn hturn key with
  | absent hold hnew hlinks =>
      rw [hold] at hkey
      simpa only [hnew, hlinks] using hkey
  | kept hold hnew hsame hlinks =>
      rw [hold] at hkey
      simpa only [hnew, hlinks] using logged_sameContent hkey hsame
  | inserted _ _ _ hold hnew hlinks =>
      rw [hold] at hkey
      simp only [hnew, hlinks, hkey]
      exact logged_startedRow _ _ _ _
  | @changed _ _ _ machine _ _ _ change row hw _ hchange hcurrent hold hlock
      hnew hlinks =>
      rw [hold] at hkey
      simp only [hnew, hlinks]
      have hworker := hconsistent.worker w
      have hcopies := hconsistent.copies w
      obtain rfl := current_of_locked hconsistent hw hchange (hcurrent ▸ hold)
        hlock
      rw [hw] at hworker hcopies
      have hshape := (hcopies change.current
        (by simp [held, current?_of_change? hchange])).shape
      exact logged_change hworker.2.1 hchange hshape hkey _

theorem logOk_of_reachable {env : Environment} {σ : World}
    (hreach : Reachable env σ) : LogOk σ := by
  have hboth : Consistent σ ∧ LogOk σ :=
    StepSystem.Reachable.invariant (I := fun σ => Consistent σ ∧ LogOk σ)
      hreach ⟨consistent_init, fun _ => rfl⟩ fun _ _ _ ⟨hconsistent, hlog⟩ hstep =>
        ⟨consistent_step hconsistent hstep, logOk_step hconsistent hlog hstep⟩
  exact hboth.2

/-- The row of a key that an event returns to the worker: the one that it
acquires or claims, or the one that its transition has written. -/
def returnedRow (σ : World) (w key : String) :
    Event → Option AccountCreationSaga
  | .acquire v dateNow now =>
      match σ.workers v with
      | .acquiring command leaseUntil =>
          match (tryAcquire σ.store (acquireInput v command leaseUntil)
            dateNow now).1 with
          | .acquired saga =>
              if v = w ∧ saga.idempotencyKey = key then some saga else none
          | _ => none
      | _ => none
  | .claim v limit skipLocked now =>
      match σ.workers v with
      | .claiming leaseUntil =>
          if v = w then
            (claimRecoverable σ.store v leaseUntil limit skipLocked now).1.find?
              fun saga => saga.idempotencyKey = key
          else none
      | _ => none
  | .mark v dateNow now =>
      match σ.workers v with
      | .running _ _ command machine _ =>
          match machine.mark σ.store command v dateNow now with
          | some (.ok (saga, _)) =>
              if v = w ∧ saga.idempotencyKey = key then some saga else none
          | _ => none
      | _ => none
  | _ => none

/-- What a worker last read or wrote of the row of a key. -/
def lastKnown (w key : String) (trace : List (World × Event)) :
    Option AccountCreationSaga :=
  trace.foldl (fun known p => (returnedRow p.1 w key p.2).or known) none

theorem lastKnown_snoc (w key : String) (trace : List (World × Event))
    (σ : World) (e : Event) :
    lastKnown w key (trace ++ [(σ, e)]) =
      (returnedRow σ w key e).or (lastKnown w key trace) := by
  simp [lastKnown]

theorem returnedRow_other {env : Environment} {σ : World} {v : String}
    {store : SagaStore} {after : Worker} {e : Event}
    (hturn : Turn env σ.store v (σ.workers v) e store after) {w : String}
    (hw : w ≠ v) (key : String) : returnedRow σ w key e = none := by
  generalize hv : σ.workers v = before at hturn
  cases hturn with
  | hashConflict hresult => simp [returnedRow, hv, hresult]
  | leased hresult => simp [returnedRow, hv, hresult]
  | acquired hresult => simp [returnedRow, hv, hresult, hw.symm]
  | claim hresult => simp [returnedRow, hv, hw.symm]
  | refused hresult => simp [returnedRow, hv, hresult]
  | commit hresult => simp [returnedRow, hv, hresult, hw.symm]
  | _ => rfl

theorem held_of_turn {env : Environment} {σ : World} {w : String}
    {store : SagaStore} {after : Worker} {e : Event} (h : Consistent σ)
    (hturn : Turn env σ.store w (σ.workers w) e store after) :
    ∀ saga ∈ held after,
      returnedRow σ w saga.idempotencyKey e = some saga ∨
        (returnedRow σ w saga.idempotencyKey e = none ∧
          saga ∈ held (σ.workers w)) := by
  generalize hw : σ.workers w = before at hturn ⊢
  have hworker := h.worker w
  have hnodup := h.nodup w
  rw [hw] at hworker hnodup
  cases hturn with
  | create | recover | hashConflict | leased | wake | giveUp | crash =>
      intro saga hsaga
      cases hsaga
  | @poll command deadline =>
      intro saga hsaga
      rw [(held_afterPoll command deadline _).1] at hsaga
      cases hsaga
  | @acquired command _ _ _ _ saga _ hresult =>
      intro copy hcopy
      rw [held_runMachine, List.append_nil] at hcopy
      obtain rfl := List.mem_singleton.mp
        ((sublist_executeStateMachine saga).subset hcopy)
      simp [returnedRow, hw, hresult]
  | @claim leaseUntil now limit skipLocked sagas store' hresult _ hdistinct =>
      intro saga hsaga
      refine .inl ?_
      simp only [returnedRow, hw, hresult, if_true]
      exact Table.find?_key hdistinct hsaga
  | @take saga queue messageId =>
      intro copy hcopy
      rw [held_runMachine] at hcopy
      exact .inr ⟨rfl, ((sublist_executeStateMachine saga).append_right
        queue).subset hcopy⟩
  | advance =>
      intro saga hsaga
      exact .inr ⟨rfl, mem_held_of_follows (follows_advance env _ hworker.2.1) hsaga⟩
  | answerUser hnext =>
      intro saga hsaga
      exact .inr ⟨rfl,
        mem_held_of_follows (follows_answerUser hworker.2.1 hnext) hsaga⟩
  | answerPayment hnext =>
      intro saga hsaga
      exact .inr ⟨rfl,
        mem_held_of_follows (follows_answerPayment hworker.2.1 hnext) hsaga⟩
  | answerCompensation hnext =>
      intro saga hsaga
      exact .inr ⟨rfl,
        mem_held_of_follows (follows_answerCompensation hworker.2.1 hnext) hsaga⟩
  | refused hresult =>
      intro saga hsaga
      exact .inr ⟨by simp [returnedRow, hw, hresult],
        mem_held_of_follows (follows_throw _ hworker.2.1) hsaga⟩
  | @commit _ _ command machine queue _ now change row _ hresult hchange hrow =>
      intro copy hcopy
      rw [held_runMachine] at hcopy
      have hkey := key_of_row σ.store hrow
      rcases List.mem_append.mp hcopy with hcurrent | hqueue
      · rw [Option.mem_toList] at hcurrent
        obtain rfl := current?_marked hcurrent
        simp [returnedRow, hw, hresult]
      · have hother : change.current.idempotencyKey ≠ copy.idempotencyKey := by
          simp only [held, current?_of_change? hchange, Option.toList_some,
            List.singleton_append, List.map_cons] at hnodup
          intro hsame
          exact (List.nodup_cons.mp hnodup).1
            (hsame ▸ List.mem_map_of_mem hqueue)
        refine .inr ⟨?_, List.mem_append_right _ hqueue⟩
        simp [returnedRow, hw, hresult, hkey, hother]
  | @release origin _ command outcome queue =>
      intro saga hsaga
      exact .inr ⟨rfl,
        (held_afterRelease origin command outcome queue).1.subset hsaga⟩
  | fail hafter =>
      intro saga hsaga
      exact .inr ⟨rfl, held_afterFailure hafter saga hsaga⟩

theorem lastKnown_of_held {env : Environment} {σ : World}
    {trace : List (World × Event)} (hrun : Run env trace σ) (w : String) :
    ∀ saga ∈ held (σ.workers w),
      lastKnown w saga.idempotencyKey trace = some saga := by
  induction hrun with
  | nil =>
      intro saga hsaga
      cases hsaga
  | @snoc trace σ σ' e hbefore hstep ih =>
      intro saga hsaga
      have hconsistent := consistent_of_reachable ⟨trace, hbefore⟩
      rw [lastKnown_snoc]
      obtain ⟨v, store, after, hturn, rfl⟩ := turn_of_step hstep
      by_cases hv : w = v
      · subst hv
        simp only [Function.update_self] at hsaga
        rcases held_of_turn hconsistent hturn saga hsaga with hnew | ⟨hnone, hold⟩
        · rw [hnew, Option.some_or]
        · rw [hnone, Option.none_or]
          exact ih saga hold
      · simp only [Function.update_of_ne hv] at hsaga
        rw [returnedRow_other hturn hv, Option.none_or]
        exact ih saga hsaga

/-- Lease fencing and the faithful log: in every run, whatever a worker commits
is applied to the row that it last read or wrote, and the log of a key chains
allowed changes from the first status of its row to the present one, among them
as many failures as the row counts attempts. -/
theorem fenced_transitions_and_faithful_log {env : Environment} {σ : World}
    {trace : List (World × Event)} (hrun : Run env trace σ) :
    (∀ w origin key command machine queue dateNow now saga store,
      σ.workers w = .running origin key command machine queue →
      machine.mark σ.store command w dateNow now = some (.ok (saga, store)) →
      ∃ row, σ.store.sagas.row key = some row ∧
        lastKnown w key trace = some row) ∧
    ∀ key, match σ.store.sagas.row key with
      | none => σ.store.links key = []
      | some saga =>
          Chain .started (σ.store.links key) saga.status ∧
          (∀ link ∈ σ.store.links key,
            (link.fromStatus, link.toStatus) ∈ allowedLinks) ∧
          saga.attempts = (σ.store.links key).countP countsAttempt := by
  constructor
  · intro w origin key command machine queue dateNow now saga store hw hmark
    have hconsistent := consistent_of_reachable ⟨trace, hrun⟩
    rw [mark_eq] at hmark
    obtain ⟨change, hchange, htransition⟩ := Option.map_eq_some_iff.mp hmark
    obtain ⟨row, hrow, hlock, _⟩ := transition_ok σ.store htransition
    obtain rfl := current_of_locked hconsistent hw hchange hrow hlock
    have hcurrent := current?_of_change? hchange
    have hworker := hconsistent.worker w
    rw [hw] at hworker
    obtain ⟨rfl, _⟩ := hworker.2.2 _ hcurrent
    refine ⟨change.current, hrow, lastKnown_of_held hrun w _ ?_⟩
    simp [hw, held, hcurrent]
  · intro key
    have hlog := logOk_of_reachable ⟨trace, hrun⟩ key
    cases hrow : σ.store.sagas.row key with
    | none => simpa only [hrow] using hlog
    | some saga =>
        simp only [hrow] at hlog
        exact ⟨hlog.chain, hlog.allowed, hlog.attempts⟩

theorem faithful_log_singleRun :
    ∃ (σ : World) (trace : List (World × Event)),
      Run sampleEnvironment trace σ ∧
      σ.workers "worker-1" = .settled sampleCommand (.resolved
        (freshResponse sampleCommand sampleUser samplePayment)) ∧
      (∀ w origin key command machine queue dateNow now saga store,
        σ.workers w = .running origin key command machine queue →
        machine.mark σ.store command w dateNow now = some (.ok (saga, store)) →
        ∃ row, σ.store.sagas.row key = some row ∧
          lastKnown w key trace = some row) ∧
      ∀ key, match σ.store.sagas.row key with
        | none => σ.store.links key = []
        | some saga =>
            Chain .started (σ.store.links key) saga.status ∧
            (∀ link ∈ σ.store.links key,
              (link.fromStatus, link.toStatus) ∈ allowedLinks) ∧
            saga.attempts = (σ.store.links key).countP countsAttempt := by
  obtain ⟨σ, hreplay, hsettled⟩ := replay_singleRun sampleEnvironment "worker-1"
    sampleCommand sampleUser samplePayment
  have hrun := StepSystem.run_of_replay hreplay
  exact ⟨σ, _, hrun, hsettled, fenced_transitions_and_faithful_log hrun⟩

end Modularis.Onboarding.SagaLog
