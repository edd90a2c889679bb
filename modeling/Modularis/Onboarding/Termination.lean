import Modularis.Onboarding.FailureStatus
import Modularis.Onboarding.LockedSends

namespace Modularis.Onboarding.Termination

open Modularis.Foundation
open Modularis.Onboarding.Contracts
open Modularis.Onboarding.Repository
open Modularis.Onboarding.Service
open Modularis.Onboarding.Workers
open Modularis.Onboarding.Turns
open Modularis.Onboarding.SingleRun (sampleCommand sampleEnvironment)
open Modularis.Onboarding.FailureStatus (sampleRow)
open Modularis.Onboarding.Invariant (afterFailure_running current?_marked
  executeStateMachine_cases)
open Modularis.Onboarding.LockedSends (LockedBy Locking lock_of_turn)

/-- The worker is in the loop of `executeStateMachine`. -/
def InLoop (σ : World) (w : String) : Prop :=
  ∃ origin key command machine queue,
    σ.workers w = .running origin key command machine queue

/-- How many of the events are turns of the worker. -/
def turnsOf (w : String) (trace : List (World × Event)) : Nat :=
  trace.countP fun p => p.2.worker = w

/-- The routing key of the command that a step sends. -/
def sentKey (env : Environment) (σ : World) (e : Event) : Option String :=
  (sends env σ e).map fun request => request.command.routingKey

/-- How often the worker sends a command with the routing key. -/
def sentBy (env : Environment) (w routingKey : String)
    (trace : List (World × Event)) : Nat :=
  trace.countP fun p =>
    p.2.worker = w ∧ sentKey env p.1 p.2 = some routingKey

/-- The worker in the loop waits for something, and whatever comes lets it go on: an
RPC with any outcome, a repository call that is made and one that fails. -/
structure GoesOn (env : Environment) (σ : World) (w : String)
    (machine : Machine) : Prop where
  waits : (∃ current, machine = .advancing current) ∨
    (∃ current, machine = .awaitingUser current) ∨
    (∃ current, machine = .awaitingPayment current) ∨
    (∃ current, machine = .awaitingCompensation current) ∨
    ∃ change, change? 0 machine = some change
  advancing : (∃ current, machine = .advancing current) →
    (step env σ (.advance w)).isSome
  user : (∃ current, machine = .awaitingUser current) →
    ∀ outcome, (step env σ (.answerUser w outcome)).isSome
  payment : (∃ current, machine = .awaitingPayment current) →
    ∀ outcome, (step env σ (.answerPayment w outcome)).isSome
  compensation : (∃ current, machine = .awaitingCompensation current) →
    ∀ outcome, (step env σ (.answerCompensation w outcome)).isSome
  marking : (∃ change, change? 0 machine = some change) →
    (∀ dateNow now, (step env σ (.mark w dateNow now)).isSome) ∧
      ∀ message, (step env σ (.fail w message)).isSome

section Loop

/-- Where in the loop a machine stands. -/
inductive Stage where
  | advancing (nextAction : SagaNextAction)
  | awaitingUser
  | markingUserCreated
  | awaitingPayment
  | markingPaymentCreated
  | markingFailed
  | awaitingCompensation
  | markingCompensated
  | markingCompleted
  | settled
deriving DecidableEq, Repr

def stage : Machine → Stage
  | .advancing current => .advancing current.nextAction
  | .awaitingUser _ => .awaitingUser
  | .markingUserCreated _ _ => .markingUserCreated
  | .awaitingPayment _ => .awaitingPayment
  | .markingPaymentCreated _ _ => .markingPaymentCreated
  | .markingFailed _ _ => .markingFailed
  | .awaitingCompensation _ => .awaitingCompensation
  | .markingCompensated _ => .markingCompensated
  | .markingCompleted _ _ => .markingCompleted
  | .settled _ => .settled

/-- Where a turn that commits nothing may lead, with the routing key of the command
that it sends. -/
def moves : Stage → List (Stage × Option String)
  | .advancing .processUser => [(.awaitingUser, some "identity.user.create")]
  | .advancing .processPayment =>
      [(.markingFailed, none), (.awaitingPayment, some "payment.intent.create")]
  | .advancing .compensateUser =>
      [(.settled, none), (.awaitingCompensation, some "identity.user.compensate")]
  | .advancing .complete => [(.settled, none), (.markingCompleted, none)]
  | .advancing .noop => [(.settled, none)]
  | .awaitingUser => [(.markingUserCreated, none), (.settled, none)]
  | .awaitingPayment => [(.markingPaymentCreated, none), (.markingFailed, none)]
  | .markingPaymentCreated => [(.markingFailed, none)]
  | .awaitingCompensation => [(.markingCompensated, none), (.settled, none)]
  | .markingUserCreated | .markingFailed | .markingCompensated | .markingCompleted =>
      [(.settled, none)]
  | .settled => []

/-- Where a commit leads, with whether the lock is kept. -/
def commits : Stage → List (Stage × Bool)
  | .markingUserCreated => [(.advancing .processPayment, true)]
  | .markingPaymentCreated => [(.advancing .complete, true)]
  | .markingFailed =>
      [(.advancing .processPayment, false), (.advancing .compensateUser, false)]
  | .markingCompensated | .markingCompleted => [(.settled, false)]
  | _ => []

/-- `next` may follow `machine` without a commit, by a turn that sends a command with
this routing key. -/
structure Goes (machine next : Machine) (sent : Option String) : Prop where
  move : (stage next, sent) ∈ moves (stage machine)
  current : ∀ saga, next.current? = some saga → machine.current? = some saga

theorem goes_settled {machine : Machine} {sent : Option String} (outcome : Outcome)
    (hmove : (.settled, sent) ∈ moves (stage machine)) :
    Goes machine (.settled outcome) sent :=
  ⟨hmove, by simp [Machine.current?]⟩

theorem goes_advance (env : Environment) (command : CreateCommand)
    (current : AccountCreationSaga) :
    Goes (.advancing current) (advance env command current).2
      ((advance env command current).1.map fun request => request.command.routingKey) := by
  have hstage : stage (.advancing current) = .advancing current.nextAction := rfl
  unfold advance
  cases haction : current.nextAction with
  | processUser =>
      rw [haction] at hstage
      exact ⟨hstage ▸ List.mem_cons_self, fun _ => id⟩
  | processPayment =>
      rw [haction] at hstage
      cases current.userPayload with
      | none => exact ⟨hstage ▸ List.mem_cons_self, fun _ => id⟩
      | some user =>
          exact ⟨hstage ▸ List.mem_cons_of_mem _ List.mem_cons_self, fun _ => id⟩
  | compensateUser =>
      rw [haction] at hstage
      cases current.userPayload with
      | none => exact goes_settled _ (hstage ▸ List.mem_cons_self)
      | some user =>
          exact ⟨hstage ▸ List.mem_cons_of_mem _ List.mem_cons_self, fun _ => id⟩
  | complete =>
      rw [haction] at hstage
      cases composeResponse current.rootCorrelationId current.idempotencyKey
        current.userPayload current.paymentPayload false with
      | error error => exact goes_settled _ (hstage ▸ List.mem_cons_self)
      | ok response =>
          exact ⟨hstage ▸ List.mem_cons_of_mem _ List.mem_cons_self, fun _ => id⟩
  | noop =>
      rw [haction] at hstage
      cases tryCompletedReplay current with
      | some replay => exact goes_settled _ (hstage ▸ List.mem_cons_self)
      | none =>
          cases current.error <;> exact goes_settled _ (hstage ▸ List.mem_cons_self)

theorem goes_answerUser {machine next : Machine}
    {outcome : RpcOutcome UserCreateResponsePayload}
    (hnext : machine.answerUser outcome = some next) : Goes machine next none := by
  cases machine with
  | awaitingUser current =>
      obtain rfl := Option.some.inj hnext
      cases sendRpc outcome with
      | ok data => exact ⟨List.mem_cons_self, fun _ => id⟩
      | error reason =>
          exact goes_settled (.rejected reason)
            (List.mem_cons_of_mem _ List.mem_cons_self)
  | _ => cases hnext

theorem goes_answerPayment {machine next : Machine}
    {outcome : RpcOutcome PaymentIntentPayload}
    (hnext : machine.answerPayment outcome = some next) : Goes machine next none := by
  cases machine with
  | awaitingPayment current =>
      obtain rfl := Option.some.inj hnext
      cases sendRpc outcome with
      | ok data => exact ⟨List.mem_cons_self, fun _ => id⟩
      | error reason => exact ⟨List.mem_cons_of_mem _ List.mem_cons_self, fun _ => id⟩
  | _ => cases hnext

theorem goes_answerCompensation {machine next : Machine}
    {outcome : RpcOutcome CompensationResultPayload}
    (hnext : machine.answerCompensation outcome = some next) :
    Goes machine next none := by
  cases machine with
  | awaitingCompensation current =>
      obtain rfl := Option.some.inj hnext
      cases sendRpc outcome with
      | ok data => exact ⟨List.mem_cons_self, fun _ => id⟩
      | error reason =>
          exact goes_settled (.rejected reason)
            (List.mem_cons_of_mem _ List.mem_cons_self)
  | _ => cases hnext

theorem goes_throw {dateNow : Int} {machine : Machine} {change : Change}
    (hchange : change? dateNow machine = some change) (reason : Thrown) :
    Goes machine (machine.throw reason) none := by
  cases machine with
  | markingPaymentCreated => exact ⟨List.mem_cons_self, fun _ => id⟩
  | markingUserCreated | markingFailed | markingCompensated | markingCompleted =>
      exact goes_settled (.rejected reason) List.mem_cons_self
  | _ => cases hchange

theorem marked_mem_commits {dateNow : Int} (now : Int) {machine : Machine}
    {change : Change} (hchange : change? dateNow machine = some change)
    (row : AccountCreationSaga) :
    ∃ kept, (stage (machine.marked (change.apply now row)), kept) ∈
        commits (stage machine) ∧
      (kept = false → (change.apply now row).lockedBy = none) := by
  cases machine with
  | markingUserCreated | markingPaymentCreated =>
      cases hchange
      exact ⟨true, List.mem_cons_self, nofun⟩
  | markingFailed current error =>
      cases hchange
      refine ⟨false, ?_, fun _ => rfl⟩
      simp only [Machine.marked, Change.apply, SagaUpdates.apply, failureChange,
        reduceCtorEq, if_false, stage, SagaUpdates.failed, Assignment.apply]
      split
      · exact List.mem_cons_self
      · exact List.mem_cons_of_mem _ List.mem_cons_self
  | markingCompensated | markingCompleted =>
      cases hchange
      exact ⟨false, List.mem_cons_self, fun _ => rfl⟩
  | _ => cases hchange

end Loop

section Budget

/-- What the loop spends: turns and commands. -/
inductive Spend where
  | turn
  | userCreate
  | paymentCreate
  | userCompensate
deriving DecidableEq, Repr

/-- What of this a turn spends that sends a command with the routing key. -/
def cost : Spend → Option String → Nat
  | .turn, _ => 1
  | .userCreate, sent => if sent = some "identity.user.create" then 1 else 0
  | .paymentCreate, sent => if sent = some "payment.intent.create" then 1 else 0
  | .userCompensate, sent => if sent = some "identity.user.compensate" then 1 else 0

def allow (turns userCreates paymentCreates userCompensates : Nat) : Spend → Nat
  | .turn => turns
  | .userCreate => userCreates
  | .paymentCreate => paymentCreates
  | .userCompensate => userCompensates

/-- What may still be spent, with the lock of the row and without it.  The payment
step comes back once, when its failure has been recorded; then the lock is gone. -/
def budget (locked : Bool) : Stage → Spend → Nat
  | .advancing .processUser => if locked then allow 11 1 2 1 else allow 3 1 0 0
  | .awaitingUser => if locked then allow 10 0 2 1 else allow 2 0 0 0
  | .markingUserCreated => if locked then allow 9 0 2 1 else allow 1 0 0 0
  | .advancing .processPayment => if locked then allow 8 0 2 1 else allow 4 0 1 0
  | .awaitingPayment => if locked then allow 7 0 1 1 else allow 3 0 0 0
  | .markingPaymentCreated => if locked then allow 6 0 1 1 else allow 2 0 0 0
  | .markingFailed => if locked then allow 5 0 1 1 else allow 1 0 0 0
  | .advancing .compensateUser => allow 3 0 0 1
  | .awaitingCompensation => allow 2 0 0 0
  | .markingCompensated => allow 1 0 0 0
  | .advancing .complete => allow 2 0 0 0
  | .markingCompleted => allow 1 0 0 0
  | .advancing .noop => allow 1 0 0 0
  | .settled => allow 0 0 0 0

def Spend.all : List Spend := [.turn, .userCreate, .paymentCreate, .userCompensate]

theorem Spend.mem_all (spend : Spend) : spend ∈ Spend.all := by
  cases spend <;> decide

theorem budget_advancing_le (locked : Bool) (nextAction : SagaNextAction) (spend : Spend) :
    budget locked (.advancing nextAction) spend ≤ allow 11 1 2 1 spend := by
  cases locked <;> cases nextAction <;> cases spend <;> decide

theorem budget_mono {locked locked' : Bool} (h : locked' = true → locked = true)
    (stage : Stage) (spend : Spend) :
    budget locked' stage spend ≤ budget locked stage spend := by
  cases locked with
  | true =>
      cases stage with
      | advancing nextAction =>
          cases nextAction <;> cases locked' <;> cases spend <;> decide
      | _ => cases locked' <;> cases spend <;> decide
  | false =>
      cases locked' with
      | false => exact le_rfl
      | true => cases h rfl

theorem budget_move (locked : Bool) (stage : Stage) :
    ∀ move ∈ moves stage, ∀ spend ∈ Spend.all,
      budget locked move.1 spend + cost spend move.2 ≤ budget locked stage spend := by
  cases stage with
  | advancing nextAction => cases locked <;> cases nextAction <;> decide
  | _ => cases locked <;> decide

theorem budget_commit (stage : Stage) :
    ∀ commit ∈ commits stage, ∀ spend ∈ Spend.all,
      budget commit.2 commit.1 spend + cost spend none ≤ budget true stage spend := by
  cases stage with
  | advancing nextAction => cases nextAction <;> decide
  | _ => decide

end Budget

section Turns

variable {env : Environment} {σ : World} {store' : SagaStore} {w : String}
  {e : Event} {origin : Origin} {key : String} {command : CreateCommand}
  {machine next : Machine} {queue : List AccountCreationSaga} {after : Worker}

/-- A turn of a worker in the loop moves its machine on, commits or is a crash. -/
theorem turn_cases (hw : σ.workers w = .running origin key command machine queue)
    (hturn : Turn env σ.store w (.running origin key command machine queue) e store'
      after) :
    (∃ next, Goes machine next (sentKey env σ e) ∧ store' = σ.store ∧
      after = runMachine origin key command next queue) ∨
    (∃ dateNow now change row, change? dateNow machine = some change ∧
      sentKey env σ e = none ∧
      σ.store.sagas.row change.current.idempotencyKey = some row ∧
      row.lockedBy = some w ∧ Writes σ.store (change.apply now row) store' ∧
      after = runMachine origin key command (machine.marked (change.apply now row))
        queue) ∨
    sentKey env σ e = none ∧ after = .crashed := by
  cases hturn with
  | @advance _ _ _ current =>
      have hsent : sentKey env σ (.advance w) =
          (advance env command current).1.map
            fun request => request.command.routingKey := by
        simp only [sentKey, sends, hw]
      exact .inl ⟨_, hsent ▸ goes_advance env command current, rfl, rfl⟩
  | answerUser hnext => exact .inl ⟨_, goes_answerUser hnext, rfl, rfl⟩
  | answerPayment hnext => exact .inl ⟨_, goes_answerPayment hnext, rfl, rfl⟩
  | answerCompensation hnext => exact .inl ⟨_, goes_answerCompensation hnext, rfl, rfl⟩
  | refused _ hchange _ => exact .inl ⟨_, goes_throw hchange _, rfl, rfl⟩
  | commit _ hchange hrow hlock hwrites _ =>
      exact .inr (.inl ⟨_, _, _, _, hchange, rfl, hrow, hlock, hwrites, rfl⟩)
  | fail hafter =>
      obtain ⟨change, hchange⟩ : ∃ change, change? 0 machine = some change := by
        cases machine <;> first | exact ⟨_, rfl⟩ | cases hafter
      exact .inl ⟨_, goes_throw hchange _, rfl, afterFailure_running hafter⟩
  | crash => exact .inr (.inr ⟨rfl, rfl⟩)

/-- The worker has the lock of the row that its machine works on. -/
def locked (store : SagaStore) (w : String) (machine : Machine) : Bool :=
  (machine.current?.bind fun current => store.sagas.row current.idempotencyKey).any
    fun row => decide (row.lockedBy = some w)

theorem locked_iff (store : SagaStore) (w : String) (machine : Machine) :
    locked store w machine = true ↔ ∃ current, machine.current? = some current ∧
      LockedBy store w current.idempotencyKey := by
  cases hcurrent : machine.current? with
  | none => simp [locked, hcurrent]
  | some current =>
      cases hrow : store.sagas.row current.idempotencyKey <;>
        simp [locked, LockedBy, hcurrent, hrow]

/-- What the worker may still spend in the loop. -/
def left (store : SagaStore) (w : String) (spend : Spend) : Worker → Nat
  | .running _ _ _ machine _ => budget (locked store w machine) (stage machine) spend
  | _ => 0

theorem left_runMachine (store : SagaStore) (w : String) (spend : Spend)
    (origin : Origin) (key : String) (command : CreateCommand) (machine : Machine)
    (queue : List AccountCreationSaga) :
    left store w spend (runMachine origin key command machine queue) =
      budget (locked store w machine) (stage machine) spend := by
  cases machine with
  | settled outcome => cases spend <;> rfl
  | _ => rfl

theorem Goes.left_le {sent : Option String} (h : Goes machine next sent)
    (store : SagaStore) (w : String) (spend : Spend) (origin : Origin) (key : String)
    (command : CreateCommand) (queue : List AccountCreationSaga) :
    left store w spend (runMachine origin key command next queue) + cost spend sent ≤
      budget (locked store w machine) (stage machine) spend := by
  have hlock : locked store w next = true → locked store w machine = true := by
    rw [locked_iff, locked_iff]
    rintro ⟨current, hcurrent, hlock⟩
    exact ⟨current, h.current current hcurrent, hlock⟩
  rw [left_runMachine]
  exact (Nat.add_le_add_right (budget_mono hlock _ spend) _).trans
    (budget_move _ _ _ h.move spend spend.mem_all)

theorem left_commit_le {dateNow now : Int} {change : Change} {row : AccountCreationSaga}
    (hchange : change? dateNow machine = some change)
    (hrow : σ.store.sagas.row change.current.idempotencyKey = some row)
    (hlock : row.lockedBy = some w) (hwrites : Writes σ.store (change.apply now row) store')
    (spend : Spend) (origin : Origin) (key : String) (command : CreateCommand)
    (queue : List AccountCreationSaga) :
    left store' w spend (runMachine origin key command
        (machine.marked (change.apply now row)) queue) + cost spend none ≤
      budget (locked σ.store w machine) (stage machine) spend := by
  have hbefore : locked σ.store w machine = true :=
    (locked_iff σ.store w machine).mpr
      ⟨change.current, current?_of_change? hchange, row, hrow, hlock⟩
  obtain ⟨kept, hcommit, hfree⟩ := marked_mem_commits now hchange row
  have hafter : locked store' w (machine.marked (change.apply now row)) = true →
      kept = true := by
    rw [locked_iff]
    rintro ⟨copy, hcopy, row', hrow', hlock'⟩
    rw [current?_marked hcopy, hwrites, if_pos rfl] at hrow'
    obtain rfl := Option.some.inj hrow'
    by_contra hnot
    rw [hfree (by simpa using hnot)] at hlock'
    cases hlock'
  rw [left_runMachine, hbefore]
  exact (Nat.add_le_add_right (budget_mono hafter _ spend) _).trans
    (budget_commit _ _ hcommit spend spend.mem_all)

/-- The machine of a worker in the loop has not settled. -/
def Unsettled : Worker → Prop
  | .running _ _ _ machine _ => stage machine ≠ .settled
  | _ => True

theorem unsettled_runMachine (origin : Origin) (key : String) (command : CreateCommand)
    (machine : Machine) (queue : List AccountCreationSaga) :
    Unsettled (runMachine origin key command machine queue) := by
  cases machine <;> simp [Unsettled, runMachine, stage]

theorem unsettled_of_turn {store : SagaStore} {before : Worker}
    (hturn : Turn env store w before e store' after) (h : Unsettled before) :
    Unsettled after := by
  cases hturn with
  | acquired | take | advance | answerUser | answerPayment | answerCompensation
  | refused | commit => exact unsettled_runMachine _ _ _ _ _
  | poll =>
      unfold afterPoll
      repeat' split
      all_goals exact trivial
  | release =>
      unfold afterRelease
      split <;> exact trivial
  | fail hafter =>
      cases before with
      | running =>
          rw [afterFailure_running hafter]
          exact unsettled_runMachine _ _ _ _ _
      | releasing origin =>
          obtain rfl := Option.some.inj hafter
          cases origin <;> exact trivial
      | _ => cases hafter <;> exact trivial
  | _ => exact trivial

theorem cost_le_budget (locked : Bool) {stage : Stage} (h : stage ≠ .settled)
    (spend : Spend) : cost spend none ≤ budget locked stage spend := by
  cases stage with
  | settled => exact absurd rfl h
  | advancing nextAction => cases locked <;> cases nextAction <;> cases spend <;> decide
  | _ => cases locked <;> cases spend <;> decide

theorem left_of_turn (hw : σ.workers w = .running origin key command machine queue)
    (hmachine : stage machine ≠ .settled)
    (hturn : Turn env σ.store w (.running origin key command machine queue) e store'
      after) (spend : Spend) :
    left store' w spend after + cost spend (sentKey env σ e) ≤
      left σ.store w spend (.running origin key command machine queue) := by
  rcases turn_cases hw hturn with ⟨next, hgoes, rfl, rfl⟩ |
    ⟨dateNow, now, change, row, hchange, hsent, hrow, hlock, hwrites, rfl⟩ |
    ⟨hsent, rfl⟩
  · exact hgoes.left_le σ.store w spend origin key command queue
  · rw [hsent]
    exact left_commit_le hchange hrow hlock hwrites spend origin key command queue
  · rw [hsent]
    exact (Nat.zero_add _).trans_le (cost_le_budget _ hmachine spend)

/-- A turn of another worker gives nothing back: it does not lock the row for this
one. -/
theorem left_of_other {v : String} {before : Worker}
    (hturn : Turn env σ.store v before e store' after) (hv : w ≠ v) (spend : Spend)
    (worker : Worker) : left store' w spend worker ≤ left σ.store w spend worker := by
  cases worker with
  | running origin key command machine queue =>
      refine budget_mono ?_ (stage machine) spend
      rw [locked_iff, locked_iff]
      rintro ⟨current, hcurrent, row', hrow', hlock'⟩
      rcases lock_of_turn hturn hrow' hlock' with ⟨hsame, _⟩ | ⟨row, hrow, hlock, _⟩
      · exact absurd hsame hv
      · exact ⟨current, hcurrent, row, hrow, hlock⟩
  | _ => exact le_rfl

end Turns

section Runs

variable {env : Environment} {σ σ' : World} {w : String} {e : Event}

theorem unsettled_of_step (hstep : step env σ e = some σ')
    (h : Unsettled (σ.workers w)) : Unsettled (σ'.workers w) := by
  obtain ⟨v, store', after, hturn, rfl⟩ := turn_of_step hstep
  by_cases hv : w = v
  · subst hv
    simpa only [Function.update_self] using unsettled_of_turn hturn h
  · simpa only [Function.update_of_ne hv] using h

theorem left_of_step (hstep : step env σ e = some σ') (hloop : InLoop σ w)
    (h : Unsettled (σ.workers w)) (spend : Spend) :
    left σ'.store w spend (σ'.workers w) +
        (if e.worker = w then cost spend (sentKey env σ e) else 0) ≤
      left σ.store w spend (σ.workers w) := by
  obtain ⟨v, store', after, hturn, rfl⟩ := turn_of_step hstep
  rw [worker_of_turn hturn]
  by_cases hv : v = w
  · subst hv
    obtain ⟨origin, key, command, machine, queue, hw⟩ := hloop
    rw [hw] at hturn h
    simp only [Function.update_self, if_true, hw]
    exact left_of_turn hw h hturn spend
  · simp only [Function.update_of_ne (Ne.symm hv), if_neg hv, Nat.add_zero]
    exact left_of_other hturn (Ne.symm hv) spend (σ.workers w)

theorem goesOn_of_running {origin : Origin} {key : String} {command : CreateCommand}
    {machine : Machine} {queue : List AccountCreationSaga} (env : Environment)
    (hw : σ.workers w = .running origin key command machine queue)
    (hmachine : stage machine ≠ .settled) : GoesOn env σ w machine where
  waits := by
    cases machine <;> simp_all [stage, Turns.change?]
  advancing := by
    rintro ⟨current, rfl⟩
    simp [step, hw]
  user := by
    rintro ⟨current, rfl⟩ outcome
    simp [step, hw, Machine.answerUser]
  payment := by
    rintro ⟨current, rfl⟩ outcome
    simp [step, hw, Machine.answerPayment]
  compensation := by
    rintro ⟨current, rfl⟩ outcome
    simp [step, hw, Machine.answerCompensation]
  marking := by
    rintro ⟨change, hchange⟩
    cases machine <;> cases hchange <;>
      exact ⟨fun _ _ => by simp [step, hw, Machine.mark], fun _ => by
        simp [step, hw, afterFailure]⟩

theorem left_start_le (store : SagaStore) (w : String) (spend : Spend) {origin : Origin}
    {key : String} {command : CreateCommand} {saga : AccountCreationSaga}
    {queue : List AccountCreationSaga} :
    left store w spend (runMachine origin key command (executeStateMachine saga) queue) ≤
      allow 11 1 2 1 spend := by
  rw [left_runMachine]
  rcases executeStateMachine_cases saga with ⟨outcome, hrun⟩ | hrun
  · rw [hrun]
    cases spend <;> exact Nat.zero_le _
  · rw [hrun]
    exact budget_advancing_le _ saga.nextAction spend

section Spent

variable {σ₀ : World} {trace : List (World × Event)}

theorem unsettled_of_run (hrun : StepSystem.Run (step env) σ₀ trace σ)
    (hstart : Unsettled (σ₀.workers w)) :
    (∀ p ∈ trace, Unsettled (p.1.workers w)) ∧ Unsettled (σ.workers w) :=
  hrun.always (fun _ _ => True) hstart
    (fun _ _ _ h _ hstep => unsettled_of_step hstep h) fun _ _ => trivial

theorem spent_le (hrun : StepSystem.Run (step env) σ₀ trace σ)
    (hstart : Unsettled (σ₀.workers w)) (hloop : ∀ p ∈ trace, InLoop p.1 w)
    (spend : Spend) :
    trace.countP (fun p => decide
        (p.2.worker = w ∧ cost spend (sentKey env p.1 p.2) = 1)) ≤
      left σ₀.store w spend (σ₀.workers w) := by
  have hunsettled := (unsettled_of_run hrun hstart).1
  have hspent := hrun.countP_add_le
    (fun σ _ => InLoop σ w ∧ Unsettled (σ.workers w))
    (fun σ e => decide (e.worker = w ∧ cost spend (sentKey env σ e) = 1))
    (fun σ => left σ.store w spend (σ.workers w)) ?_
    fun p hp => ⟨hloop p hp, hunsettled p hp⟩
  · omega
  · rintro σ e σ' ⟨hloop, hunsettled⟩ hstep
    refine le_trans (Nat.add_le_add_left ?_ _) (left_of_step hstep hloop hunsettled spend)
    by_cases hw : e.worker = w
    · simp only [hw, true_and, if_true, decide_eq_true_eq]
      split <;> omega
    · simp [hw]

end Spent

end Runs

/-- From any row that `executeStateMachine` is handed, in any world, whatever the RPCs
answer, the repository calls do and the other workers do: as long as the worker is in
the loop it has taken at most eleven turns and has sent at most one command to create
the user, two to create the payment and one to compensate; each answer lets it go on;
and no infinite sequence of steps in which its turn comes again and again leaves it in
the loop. -/
theorem saga_loop_ends (env : Environment) {σ₀ : World} {w : String} {origin : Origin}
    {key : String} {command : CreateCommand} {saga : AccountCreationSaga}
    {queue : List AccountCreationSaga}
    (hw : σ₀.workers w =
      runMachine origin key command (executeStateMachine saga) queue) :
    (∀ trace σ, StepSystem.Run (step env) σ₀ trace σ → (∀ p ∈ trace, InLoop p.1 w) →
      turnsOf w trace ≤ 11 ∧
      sentBy env w "identity.user.create" trace ≤ 1 ∧
      sentBy env w "payment.intent.create" trace ≤ 2 ∧
      sentBy env w "identity.user.compensate" trace ≤ 1) ∧
    (∀ trace σ, StepSystem.Run (step env) σ₀ trace σ →
      ∀ origin key command machine queue,
        σ.workers w = .running origin key command machine queue →
        GoesOn env σ w machine) ∧
    ∀ (states : Nat → World) (events : Nat → Event), states 0 = σ₀ →
      (∀ n, step env (states n) (events n) = some (states (n + 1))) →
      (∀ n, ∃ m, n ≤ m ∧ (events m).worker = w) → ∃ n, ¬ InLoop (states n) w := by
  have hstart : Unsettled (σ₀.workers w) := hw ▸ unsettled_runMachine _ _ _ _ _
  have hspent : ∀ trace σ, StepSystem.Run (step env) σ₀ trace σ →
      (∀ p ∈ trace, InLoop p.1 w) → ∀ spend, trace.countP (fun p => decide
        (p.2.worker = w ∧ cost spend (sentKey env p.1 p.2) = 1)) ≤ allow 11 1 2 1 spend :=
    fun trace σ hrun hloop spend =>
      (spent_le hrun hstart hloop spend).trans (hw ▸ left_start_le σ₀.store w spend)
  have hturns : ∀ trace σ, StepSystem.Run (step env) σ₀ trace σ →
      (∀ p ∈ trace, InLoop p.1 w) → turnsOf w trace ≤ 11 := by
    intro trace σ hrun hloop
    simpa [turnsOf, cost, allow] using hspent trace σ hrun hloop .turn
  refine ⟨fun trace σ hrun hloop => ⟨hturns trace σ hrun hloop, ?_, ?_, ?_⟩, ?_, ?_⟩
  · simpa [sentBy, cost, allow] using hspent trace σ hrun hloop .userCreate
  · simpa [sentBy, cost, allow] using hspent trace σ hrun hloop .paymentCreate
  · simpa [sentBy, cost, allow] using hspent trace σ hrun hloop .userCompensate
  · intro trace σ hrun origin key command machine queue hw
    have hmachine : Unsettled (.running origin key command machine queue) :=
      hw ▸ (unsettled_of_run hrun hstart).2
    exact goesOn_of_running env hw hmachine
  · rintro states events rfl hsteps hagain
    by_contra hnot
    have hloop : ∀ n, InLoop (states n) w := fun n => by
      by_contra hn
      exact hnot ⟨n, hn⟩
    obtain ⟨n, hn⟩ := StepSystem.exists_countP_ge
      (P := fun e : Event => decide (e.worker = w)) (fun n => by simpa using hagain n) 12
    have hbound := hturns _ _ (StepSystem.run_of_sequence hsteps n) fun p hp => by
      obtain ⟨i, _, rfl⟩ := List.mem_map.mp hp
      exact hloop i
    rw [turnsOf, List.countP_map] at hbound
    exact absurd (hn.trans hbound) (by decide)

section Sample

/-- Some worker has just handed the row of the sample key to the state machine. -/
def sampleWorld : World :=
  World.init.setWorker "worker-1"
    (runMachine .command "key-1" sampleCommand (executeStateMachine sampleRow) [])

theorem saga_loop_ends_sample :
    (∀ trace σ, StepSystem.Run (step sampleEnvironment) sampleWorld trace σ →
      (∀ p ∈ trace, InLoop p.1 "worker-1") →
      turnsOf "worker-1" trace ≤ 11 ∧
      sentBy sampleEnvironment "worker-1" "identity.user.create" trace ≤ 1 ∧
      sentBy sampleEnvironment "worker-1" "payment.intent.create" trace ≤ 2 ∧
      sentBy sampleEnvironment "worker-1" "identity.user.compensate" trace ≤ 1) ∧
    ∀ (states : Nat → World) (events : Nat → Event), states 0 = sampleWorld →
      (∀ n, step sampleEnvironment (states n) (events n) = some (states (n + 1))) →
      (∀ n, ∃ m, n ≤ m ∧ (events m).worker = "worker-1") →
      ∃ n, ¬ InLoop (states n) "worker-1" := by
  have hw : sampleWorld.workers "worker-1" =
      runMachine .command "key-1" sampleCommand (executeStateMachine sampleRow) [] := by
    simp only [sampleWorld, World.setWorker, Function.update_self]
  have hends := saga_loop_ends sampleEnvironment hw
  exact ⟨hends.1, hends.2.2⟩

end Sample

end Modularis.Onboarding.Termination
