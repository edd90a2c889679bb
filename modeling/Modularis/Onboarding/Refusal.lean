import Modularis.Onboarding.Agreement

namespace Modularis.Onboarding.Refusal

open Modularis.Foundation
open Modularis.Foundation.StepSystem
open Modularis.Onboarding.Contracts
open Modularis.Onboarding.Repository
open Modularis.Onboarding.Service
open Modularis.Onboarding.Workers
open Modularis.Onboarding.Turns
open Modularis.Onboarding.SingleRun
open Modularis.Onboarding.Invariant
open Modularis.Onboarding.Recovery
open Modularis.Onboarding.Agreement

/-- The request creates the user or the payment of a key. -/
def CreatesChildOf (key : String) (request : RpcRequest) : Prop :=
  match request.command with
  | .userCreate payload => payload.idempotencyKey = userStepKey key
  | .paymentCreate payload => payload.idempotencyKey = paymentStepKey key
  | .userCompensate _ => False

/-- By this event the `create` call of a command comes to reject with a problem
that identity answered to its user step or that a payment step has recorded. -/
def Refuses (σ : World) (command : CreateCommand) (problem : ProblemSnapshot) :
    Event → Prop
  | .answerUser w outcome =>
      ∃ key current queue,
        σ.workers w = .running .command key command (.awaitingUser current) queue ∧
        sendRpc outcome = .error (toException problem)
  | .acquire w dateNow now =>
      ∃ leaseUntil saga store,
        σ.workers w = .acquiring command leaseUntil ∧
        tryAcquire σ.store (acquireInput w command leaseUntil) dateNow now =
          (.acquired saga, store) ∧
        terminalFailure saga = some problem
  | .poll w =>
      ∃ deadline saga,
        σ.workers w = .polling command deadline ∧
        σ.store.sagas.row command.payload.idempotencyKey = some saga ∧
        saga.requestHash = command.payload.requestHash ∧
        terminalFailure saga = some problem
  | .mark w dateNow now =>
      ∃ key machine queue saga store,
        σ.workers w = .running .command key command machine queue ∧
        machine.mark σ.store command w dateNow now = some (.ok (saga, store)) ∧
        machine.marked saga = .settled (.rejected (toException problem))
  | _ => False

/-- After every refusal in the run nobody asks for the user or the payment of
the key again, and every later call with the same request is told the same. -/
def RefusalFinal (env : Environment) (trace : List (World × Event)) (σ : World)
    (key : String) : Prop :=
  ∀ before σ₁ e after command problem,
    trace = before ++ (σ₁, e) :: after →
    command.payload.idempotencyKey = key → Permanent problem →
    Refuses σ₁ command problem e →
    (∀ p ∈ after, ∀ request, sends env p.1 p.2 = some request →
      ¬ CreatesChildOf key request) ∧
    ∀ σ₂ v later dateNow, (σ₂, Event.create v later dateNow) ∈ after →
      later.payload.idempotencyKey = key →
      later.payload.requestHash = command.payload.requestHash →
      ∀ outcome, σ.workers v = .settled later outcome →
        outcome = .rejected (toException problem)

/-- The row of the key is a terminal failure. -/
def Closed (σ : World) (key : String) : Prop :=
  ∃ row problem, σ.store.sagas.row key = some row ∧
    terminalFailure row = some problem

/-- The steps after which a refusal stays final: identity refuses no call its
user; once the row is closed, no worker without its lock goes on from a copy
that is out of date, and no call waits in vain or fails to read the row. -/
def Orderly (key : String) (σ : World) : Event → Prop
  | .answerUser w outcome =>
      ∀ k command current queue problem,
        σ.workers w = .running .command k command (.awaitingUser current) queue →
        command.payload.idempotencyKey = key → Permanent problem →
          sendRpc outcome ≠ .error (toException problem)
  | .advance w =>
      Closed σ key → ∀ origin k command current queue row,
        σ.workers w = .running origin k command (.advancing current) queue →
        command.payload.idempotencyKey = key →
        σ.store.sagas.row key = some row → row.lockedBy ≠ some w →
          current.nextAction = row.nextAction
  | .wake w dateNow =>
      Closed σ key → ∀ command deadline,
        σ.workers w = .waiting command deadline →
        command.payload.idempotencyKey = key → dateNow < deadline
  | .fail w _ =>
      Closed σ key → ∀ command time,
        σ.workers w = .acquiring command time ∨
          σ.workers w = .polling command time →
        command.payload.idempotencyKey ≠ key
  | _ => True

/-- The row of the key is closed with a problem, for a request. -/
def ClosedWith (σ : World) (key hash : String) (problem : ProblemSnapshot) :
    Prop :=
  ∃ row, σ.store.sagas.row key = some row ∧ row.requestHash = hash ∧
    terminalFailure row = some problem

theorem terminalFailure_some {saga : AccountCreationSaga}
    {problem : ProblemSnapshot} (h : terminalFailure saga = some problem) :
    (saga.status = .failed ∨ saga.status = .compensated) ∧
      saga.retryable = false ∧ saga.error = some problem := by
  unfold terminalFailure at h
  split at h
  · exact ⟨‹_ ∧ _›.1, ‹_ ∧ _›.2, h⟩
  · cases h

theorem nextAction_of_terminal {saga : AccountCreationSaga}
    {problem : ProblemSnapshot} (hshape : SagaShape saga)
    (h : terminalFailure saga = some problem) :
    saga.nextAction = .compensateUser ∨ saga.nextAction = .noop := by
  obtain ⟨hstatus | hstatus, hretryable, _⟩ := terminalFailure_some h
  · exact .inl (nextAction_of_refused hshape ⟨hstatus, hretryable⟩)
  · simp only [SagaShape, hstatus] at hshape
    exact .inr hshape.1

theorem closedWith_of_step {env : Environment} {σ σ' : World} {e : Event}
    (hconsistent : Consistent σ) (hstep : step env σ e = some σ')
    {key hash : String} {problem : ProblemSnapshot}
    (h : ClosedWith σ key hash problem) : ClosedWith σ' key hash problem := by
  obtain ⟨row, hrow, hhash, hterminal⟩ := h
  have haction := nextAction_of_terminal (hconsistent.rows key row hrow).shape
    hterminal
  obtain ⟨row', hrow', _, _, _, rfl⟩ :=
    kept_of_step hconsistent hstep hrow haction
  exact ⟨_, hrow', hhash, hterminal⟩

theorem append_left_cancel {pre a b : String} (h : pre ++ a = pre ++ b) :
    a = b := by
  have hdata := congrArg String.toList h
  simp only [String.toList_append, List.append_cancel_left_eq] at hdata
  exact String.toList_injective hdata

/-- Only the loop of a worker on the key sends its commands to create, and only
from a copy that is due for them. -/
theorem of_createsChildOf {env : Environment} {σ : World} {e : Event}
    {key : String} {request : RpcRequest}
    (hsends : sends env σ e = some request)
    (hchild : CreatesChildOf key request) :
    ∃ w origin k command current queue, e = .advance w ∧
      σ.workers w = .running origin k command (.advancing current) queue ∧
      command.payload.idempotencyKey = key ∧
      (current.nextAction = .processUser ∨
        current.nextAction = .processPayment) := by
  cases e with
  | advance w =>
      simp only [sends] at hsends
      split at hsends
      · rename_i origin k command current queue hw
        refine ⟨w, origin, k, command, current, queue, rfl, hw, ?_⟩
        unfold advance at hsends
        split at hsends
        · cases hsends
          exact ⟨append_left_cancel hchild, .inl ‹_›⟩
        · split at hsends
          · cases hsends
          · cases hsends
            exact ⟨append_left_cancel hchild, .inr ‹_›⟩
        · split at hsends <;> cases hsends
          cases hchild
        · split at hsends <;> cases hsends
        · split at hsends
          · cases hsends
          · split at hsends <;> cases hsends
      · cases hsends
  | _ => cases hsends

theorem closedWith_of_run {env : Environment} {σ τ : World}
    {trace : List (World × Event)} (hreach : Reachable env σ)
    (hrun : StepSystem.Run (step env) σ trace τ) {key hash : String}
    {problem : ProblemSnapshot} (h : ClosedWith σ key hash problem) :
    ClosedWith τ key hash problem := by
  induction hrun with
  | nil => exact h
  | snoc hbefore hstep ih =>
      exact closedWith_of_step (consistent_of_reachable
        ⟨_, hreach.choose_spec.append hbefore⟩) hstep ih

/-- From a closed row nobody sends what creates: the copy of the lock's holder
is the row, and other copies have the row's next action. -/
theorem not_createsChildOf_of_closed {env : Environment} {σ : World} {e : Event}
    {key hash : String} {problem : ProblemSnapshot} (hconsistent : Consistent σ)
    (horderly : Orderly key σ e) (hclosed : ClosedWith σ key hash problem)
    {request : RpcRequest} (hsends : sends env σ e = some request) :
    ¬ CreatesChildOf key request := by
  intro hchild
  obtain ⟨w, origin, k, command, current, queue, rfl, hw, hkey, haction⟩ :=
    of_createsChildOf hsends hchild
  obtain ⟨row, hrow, _, hterminal⟩ := hclosed
  have hsame : current.nextAction = row.nextAction := by
    by_cases hlock : row.lockedBy = some w
    · have hworker := hconsistent.worker w
      rw [hw] at hworker
      obtain ⟨hkey', _, hkeys⟩ := hworker
      obtain ⟨hcurrent, _⟩ := hkeys current rfl
      have hstored : σ.store.sagas.row current.idempotencyKey = some row := by
        rw [hcurrent, ← hkey', hkey]
        exact hrow
      have hfenced := hconsistent.fenced w current
        (by simp [hw, held, Machine.current?]) row hstored hlock
      rw [hfenced]
    · exact horderly ⟨row, problem, hrow, hterminal⟩ origin k command current
        queue row hw hkey hrow hlock
  have hfinal := nextAction_of_terminal (hconsistent.rows key row hrow).shape
    hterminal
  rw [← hsame] at hfinal
  rcases haction with haction | haction <;> simp [haction] at hfinal

theorem closedWith_of_refuses {env : Environment} {σ σ' : World} {e : Event}
    {key : String} {command : CreateCommand} {problem : ProblemSnapshot}
    (hconsistent : Consistent σ) (hstep : step env σ e = some σ')
    (horderly : Orderly key σ e)
    (hkey : command.payload.idempotencyKey = key) (hpermanent : Permanent problem)
    (h : Refuses σ command problem e) :
    ClosedWith σ' key command.payload.requestHash problem := by
  cases e with
  | answerUser w outcome =>
      obtain ⟨k, current, queue, hw, houtcome⟩ := h
      exact absurd houtcome (horderly k command current queue problem hw hkey
        hpermanent)
  | acquire w dateNow now =>
      obtain ⟨leaseUntil, saga, store, hw, hacquire, hterminal⟩ := h
      obtain ⟨v, store', after, hturn, rfl⟩ := turn_of_step hstep
      generalize hv : σ.workers v = before at hturn
      cases hturn with
      | hashConflict hresult =>
          obtain ⟨⟩ := hw.symm.trans hv
          cases hresult.symm.trans hacquire
      | leased hresult =>
          obtain ⟨⟩ := hw.symm.trans hv
          cases hresult.symm.trans hacquire
      | acquired hresult hrow hhash hsaga hwrites =>
          obtain ⟨⟩ := hw.symm.trans hv
          obtain ⟨⟩ := hresult.symm.trans hacquire
          have hsagaKey : saga.idempotencyKey = key := by
            rw [hsaga, hrow, ← hkey]
            exact key_rowToAcquire _ _ _
          exact ⟨saga, hsagaKey ▸ (hwrites _).trans (if_pos rfl), hsaga ▸ hhash,
            hterminal⟩
  | poll w =>
      obtain ⟨deadline, saga, hw, hrow, hhash, hterminal⟩ := h
      obtain ⟨v, store', after, hturn, rfl⟩ := turn_of_step hstep
      generalize σ.workers v = before at hturn
      cases hturn
      exact ⟨saga, hkey ▸ hrow, hhash, hterminal⟩
  | mark w dateNow now =>
      obtain ⟨k, machine, queue, saga, store, hw, hmark, hmarked⟩ := h
      rw [mark_eq] at hmark
      obtain ⟨change, hchange, htransition⟩ := Option.map_eq_some_iff.mp hmark
      obtain ⟨row, hrow, hlock, rfl, _⟩ := transition_ok σ.store htransition
      obtain ⟨rfl, hok, _⟩ := change_of_step hconsistent hw hchange hrow hlock
      cases machine with
      | markingFailed current error =>
          cases hchange
          cases hmarked
      | markingCompensated current =>
          cases hchange
          cases hok.2.symm.trans hlock
      | markingUserCreated | markingPaymentCreated | markingCompleted =>
          cases hchange
          cases hmarked
      | _ => cases hchange
  | _ => exact absurd h id

/-- The states of a call that begins after the row was closed. -/
def Refusing (problem : ProblemSnapshot) (command : CreateCommand) :
    Worker → Prop
  | .acquiring later _ | .waiting later _ | .polling later _ => later = command
  | .releasing .command _ later outcome _ | .settled later outcome =>
      later = command ∧ outcome = .rejected (toException problem)
  | .crashed => True
  | _ => False

theorem refusing_of_turn {env : Environment} {σ : World} {w : String}
    {store : SagaStore} {after : Worker} {e : Event} {key : String}
    {command : CreateCommand} {problem : ProblemSnapshot}
    (hturn : Turn env σ.store w (σ.workers w) e store after)
    (horderly : Orderly key σ e)
    (hkey : command.payload.idempotencyKey = key)
    (hclosed : ClosedWith σ key command.payload.requestHash problem)
    (h : Refusing problem command (σ.workers w)) :
    Refusing problem command after := by
  obtain ⟨row, hrow, hhash, hterminal⟩ := hclosed
  have hclosed' : Closed σ key := ⟨row, problem, hrow, hterminal⟩
  obtain ⟨hstatus, hretryable, herror⟩ := terminalFailure_some hterminal
  have hopen : tryCompletedReplay row = none := by
    refine if_neg fun hcompleted => ?_
    rcases hstatus with hstatus | hstatus <;> cases hcompleted.symm.trans hstatus
  generalize hw : σ.workers w = before at hturn h
  cases hturn with
  | hashConflict _ hfound hother =>
      obtain rfl : _ = command := h
      rw [hkey] at hfound
      obtain rfl := Option.some.inj (hrow.symm.trans hfound)
      exact absurd hhash hother
  | leased => exact h
  | @acquired _ _ _ _ found saga _ _ hfound _ hsaga =>
      obtain rfl : _ = command := h
      have hsame : found = row := by
        rw [hfound, rowToAcquire, acquireInput, hkey, hrow]
        rfl
      have hrun : executeStateMachine saga =
          .settled (.rejected (toException problem)) := by
        have hopen' : tryCompletedReplay saga = none := by
          rw [hsaga, hsame]
          exact hopen
        have hterminal' : terminalFailure saga = some problem := by
          rw [hsaga, hsame]
          exact hterminal
        simp only [executeStateMachine, hopen', hterminal']
      rw [hrun]
      exact ⟨rfl, rfl⟩
  | wake => exact h
  | giveUp hdeadline =>
      obtain rfl : _ = command := h
      exact absurd (horderly hclosed' _ _ hw hkey) hdeadline
  | poll =>
      obtain rfl : _ = command := h
      rw [hkey, hrow]
      simp only [afterPoll, hhash, ne_eq, not_true_eq_false, if_false, hopen,
        hterminal]
      exact ⟨rfl, rfl⟩
  | @release origin =>
      cases origin with
      | command => exact h
      | recovery => exact absurd h id
  | fail hfail =>
      cases before with
      | acquiring later time =>
          obtain rfl : later = command := h
          exact absurd hkey (horderly hclosed' later time (.inl hw))
      | polling later time =>
          obtain rfl : later = command := h
          exact absurd hkey (horderly hclosed' later time (.inr hw))
      | releasing origin =>
          obtain rfl := Option.some.inj hfail
          cases origin with
          | command => exact h
          | recovery => exact absurd h id
      | running => exact absurd h id
      | claiming => exact absurd h id
      | _ => cases hfail
  | crash => trivial
  | _ => exact absurd h id

theorem refusing_of_run {env : Environment} {σ τ : World}
    {trace : List (World × Event)} (hreach : Reachable env σ)
    (hrun : StepSystem.Run (step env) σ trace τ) {key hash : String}
    {problem : ProblemSnapshot} (hclosed : ClosedWith σ key hash problem)
    (horderly : ∀ p ∈ trace, Orderly key p.1 p.2) :
    ∀ σ₂ v later dateNow, (σ₂, Event.create v later dateNow) ∈ trace →
      later.payload.idempotencyKey = key → later.payload.requestHash = hash →
      Refusing problem later (τ.workers v) := by
  induction hrun with
  | nil =>
      intro σ₂ v later dateNow hmem
      cases hmem
  | @snoc trace τ τ' e hbefore hstep ih =>
      intro σ₂ v later dateNow hmem hkey hhash
      have hnow := closedWith_of_run hreach hbefore hclosed
      have hlast := horderly (τ, e)
        (List.mem_append_right _ (List.mem_singleton_self _))
      obtain ⟨w, store, after, hturn, rfl⟩ := turn_of_step hstep
      rcases List.mem_append.mp hmem with hold | hnew
      · have hrefusing := ih (fun p hp => horderly p (List.mem_append_left _ hp))
          σ₂ v later dateNow hold hkey hhash
        by_cases hv : v = w
        · subst hv
          simp only [Function.update_self]
          exact refusing_of_turn hturn hlast hkey (hhash ▸ hnow) hrefusing
        · simpa only [Function.update_of_ne hv] using hrefusing
      · obtain ⟨_, he⟩ := Prod.mk.inj (List.mem_singleton.mp hnew)
        subst he
        generalize τ.workers w = before at hturn
        cases hturn
        simp only [Function.update_self]
        rfl

/-- In every run whose steps are orderly a refusal is final. -/
theorem refusal_final {env : Environment} {σ : World}
    {trace : List (World × Event)} (hrun : Run env trace σ) (key : String)
    (horderly : ∀ p ∈ trace, Orderly key p.1 p.2) :
    RefusalFinal env trace σ key := by
  intro before σ₁ e after command problem htrace hkey hpermanent hrefuses
  obtain ⟨τ, hbefore, hstep, hafter⟩ := hrun.split htrace
  have hmem : ∀ p ∈ (σ₁, e) :: after, Orderly key p.1 p.2 :=
    fun p hp => horderly p (htrace ▸ List.mem_append_right before hp)
  have hreach : Reachable env τ := ⟨_, hbefore.snoc hstep⟩
  have hclosed := closedWith_of_refuses
    (consistent_of_reachable ⟨before, hbefore⟩) hstep
    (hmem _ List.mem_cons_self) hkey hpermanent hrefuses
  constructor
  · intro p hp request hsends
    obtain ⟨first, rest, hcut⟩ := List.append_of_mem hp
    obtain ⟨_, hfirst, _, _⟩ := hafter.split hcut
    exact not_createsChildOf_of_closed (consistent_of_reachable
      ⟨_, hreach.choose_spec.append hfirst⟩) (hmem p (List.mem_cons_of_mem _ hp))
      (closedWith_of_run hreach hfirst hclosed) hsends
  · intro σ₂ v later dateNow hcreate hlater hhash outcome hv
    have hrefusing := refusing_of_run hreach hafter hclosed
      (fun p hp => hmem p (List.mem_cons_of_mem _ hp)) σ₂ v later dateNow hcreate
      hlater hhash
    rw [hv] at hrefusing
    exact hrefusing.2

section Sample

variable {env : Environment} {key : String}

/-- A run with the proof that its steps are orderly. -/
def OrderlyRun (env : Environment) (key : String) (trace : List (World × Event))
    (σ : World) : Prop :=
  Run env trace σ ∧ ∀ p ∈ trace, Orderly key p.1 p.2

theorem OrderlyRun.snoc {trace : List (World × Event)} {σ σ' : World} {e : Event}
    (h : OrderlyRun env key trace σ) (hstep : step env σ e = some σ')
    (horderly : Orderly key σ e) :
    OrderlyRun env key (trace ++ [(σ, e)]) σ' := by
  refine ⟨h.1.snoc hstep, ?_⟩
  intro p hp
  rcases List.mem_append.mp hp with hold | hnew
  · exact h.2 p hold
  · rw [List.mem_singleton.mp hnew]
    exact horderly

theorem not_closed {σ : World} {saga : AccountCreationSaga}
    (hrow : σ.store.sagas.row key = some saga)
    (hopen : terminalFailure saga = none) : ¬ Closed σ key := by
  rintro ⟨row, problem, hrow', hterminal⟩
  obtain rfl := Option.some.inj (hrow.symm.trans hrow')
  cases hopen.symm.trans hterminal

theorem orderly_refusal (env : Environment) :
    ∃ σ trace saga, OrderlyRun env "key-1" trace σ ∧
      σ.store.sagas.row "key-1" = some saga ∧
      saga.requestHash = "hash-1" ∧ saga.lockedBy = none ∧
      terminalFailure saga = some sampleRefusal ∧
      σ.workers "worker-2" = .fresh ∧ σ.workers "worker-3" = .fresh := by
  obtain ⟨σ₁, hstep₁, hstore₁, hw₁⟩ := create_fresh env sampleCommand 0
    (show World.init.workers "worker-1" = .fresh from rfl)
  obtain ⟨σ₂, hstep₂, hstarted⟩ := acquire_first env 0 0 hw₁ (hstore₁ ▸ rfl)
  obtain ⟨σ₃, hstep₃, _, hawaiting⟩ := hstarted.advance env rfl rfl
  obtain ⟨σ₄, hstep₄, _, hmarking⟩ := hawaiting.answerUser env
    { user := sampleUser, replayed := false }
  obtain ⟨σ₅, hstep₅, hw₅, hrow₅, _⟩ := hmarking.commit env rfl 0 0 rfl
  have hcreated : Working σ₅ "worker-1" sampleCommand _ _ := ⟨hw₅, rfl, hrow₅⟩
  obtain ⟨σ₆, hstep₆, _, hpaying⟩ := hcreated.advance env rfl rfl
  obtain ⟨σ₇, hstep₇, _, hfailing⟩ := hpaying.refusePayment env sampleRefusal
  obtain ⟨σ₈, hstep₈, _, hrow₈, _⟩ := hfailing.commit env rfl 0 0 rfl
  have hnil : OrderlyRun env "key-1" [] World.init := ⟨.nil, by simp⟩
  have hsuccess : Orderly "key-1" σ₃ (.answerUser "worker-1"
      (.resolved (.success { user := sampleUser, replayed := false }))) := by
    intro _ _ _ _ problem _ _ _ h
    cases h
  have hrun₂ := (hnil.snoc hstep₁ trivial).snoc hstep₂ trivial
  have hrun₃ := hrun₂.snoc hstep₃
    fun hclosed => absurd hclosed (not_closed hstarted.row rfl)
  have hrun₅ := (hrun₃.snoc hstep₄ hsuccess).snoc hstep₅ trivial
  have hrun₆ := hrun₅.snoc hstep₆
    fun hclosed => absurd hclosed (not_closed hcreated.row rfl)
  have hrun₈ := (hrun₆.snoc hstep₇ trivial).snoc hstep₈ trivial
  have hfresh : ∀ v, v ≠ "worker-1" → σ₈.workers v = .fresh := by
    intro v hv
    rw [workers_of_step hstep₈ hv.symm, workers_of_step hstep₇ hv.symm,
      workers_of_step hstep₆ hv.symm, workers_of_step hstep₅ hv.symm,
      workers_of_step hstep₄ hv.symm, workers_of_step hstep₃ hv.symm,
      workers_of_step hstep₂ hv.symm, workers_of_step hstep₁ hv.symm]
    rfl
  exact ⟨σ₈, _, _, hrun₈, hrow₈, rfl, rfl, rfl, hfresh _ (by decide),
    hfresh _ (by decide)⟩

theorem orderly_replay {σ : World} {trace : List (World × Event)}
    {w : String} {saga : AccountCreationSaga} {problem : ProblemSnapshot}
    (hrun : OrderlyRun env "key-1" trace σ)
    (hrow : σ.store.sagas.row "key-1" = some saga)
    (hhash : saga.requestHash = "hash-1") (hfree : saga.lockedBy = none)
    (hterminal : terminalFailure saga = some problem)
    (hw : σ.workers w = .fresh) :
    ∃ σ₁ σ₂ σ₃, OrderlyRun env "key-1" (trace ++ [(σ, .create w sampleCommand 0)] ++
        [(σ₁, .acquire w 0 0)] ++ [(σ₂, .release w 0)]) σ₃ ∧
      Refuses σ₁ sampleCommand problem (.acquire w 0 0) ∧
      σ₃.workers w = .settled sampleCommand (.rejected (toException problem)) ∧
      σ₃.store.sagas.row "key-1" =
        some (unlock 0 (lock w (0 + defaultSagaLeaseMs) 0 saga)) ∧
      ∀ v, v ≠ w → σ₃.workers v = σ.workers v := by
  obtain ⟨σ₁, hstep₁, hstore₁, hw₁⟩ := create_fresh env sampleCommand 0 hw
  rw [← hstore₁] at hrow
  obtain ⟨σ₂, store, hacquire, hstep₂, hw₂, hrow₂⟩ :=
    acquire_unlocked env 0 0 hw₁ hrow hhash hfree
  have hopen : tryCompletedReplay (lock w (0 + defaultSagaLeaseMs) 0 saga) =
      none := by
    refine if_neg fun hcompleted => ?_
    obtain ⟨hstatus | hstatus, _⟩ := terminalFailure_some hterminal
    · cases hcompleted.symm.trans hstatus
    · cases hcompleted.symm.trans hstatus
  have hterminal' : terminalFailure (lock w (0 + defaultSagaLeaseMs) 0 saga) =
      some problem := hterminal
  simp only [executeStateMachine, hopen, hterminal', runMachine] at hw₂
  obtain ⟨σ₃, hstep₃, hw₃, hrow₃⟩ := release_own env 0 hw₂ hrow₂ rfl
  refine ⟨σ₁, σ₂, σ₃, ((hrun.snoc hstep₁ trivial).snoc hstep₂ trivial).snoc hstep₃
    trivial, ⟨_, _, _, hw₁, hacquire, hterminal⟩, hw₃, hrow₃, ?_⟩
  intro v hv
  rw [workers_of_step hstep₃ hv.symm, workers_of_step hstep₂ hv.symm,
    workers_of_step hstep₁ hv.symm]

theorem refusal_final_sample :
    ∃ (σ : World) (trace : List (World × Event)) (outcome : Outcome),
      Run sampleEnvironment trace σ ∧
      σ.workers "worker-3" = .settled sampleCommand outcome ∧
      outcome = .rejected (toException sampleRefusal) := by
  let env := sampleEnvironment
  obtain ⟨σ, trace, saga, hrun, hrow, hhash, hfree, hterminal, hw₂, hw₃⟩ :=
    orderly_refusal env
  obtain ⟨σ₁, σ₂, σ₃, hrun, hrefuses, _, hrow, hframe⟩ :=
    orderly_replay hrun hrow hhash hfree hterminal hw₂
  obtain ⟨σ₄, σ₅, σ₆, hrun, _, hsettled, _, _⟩ := orderly_replay hrun hrow hhash
    rfl hterminal ((hframe "worker-3" (by decide)).trans hw₃)
  have hfinal := refusal_final hrun.1 "key-1" hrun.2
  obtain ⟨_, hlater⟩ := hfinal (trace ++ [(σ, .create "worker-2" sampleCommand 0)])
    σ₁ (.acquire "worker-2" 0 0)
    [(σ₂, .release "worker-2" 0), (σ₃, .create "worker-3" sampleCommand 0),
      (σ₄, .acquire "worker-3" 0 0), (σ₅, .release "worker-3" 0)]
    sampleCommand sampleRefusal (by simp) rfl (.inl rfl) hrefuses
  exact ⟨σ₆, _, _, hrun.1, hsettled, hlater σ₃ "worker-3" sampleCommand 0 (by simp)
    rfl rfl _ hsettled⟩

end Sample

/-- The refusal that the sample is about. -/
def emailAlreadyExists : ProblemSnapshot where
  status := 409
  title := "Conflict"
  detail := "Email is already registered"
  code := some "EMAIL_ALREADY_EXISTS"

/-- A call is refused its user; a second call with the same request asks
identity for the user again. -/
theorem user_refusal_not_final :
    ∃ (σ : World) (trace : List (World × Event)),
      Run sampleEnvironment trace σ ∧
      ¬ RefusalFinal sampleEnvironment trace σ "key-1" := by
  let env := sampleEnvironment
  obtain ⟨σ₁, hstep₁, hstore₁, hw₁⟩ := create_fresh env sampleCommand 0
    (show World.init.workers "worker-1" = .fresh from rfl)
  obtain ⟨σ₂, hstep₂, hstarted⟩ := acquire_first env 0 0 hw₁ (hstore₁ ▸ rfl)
  obtain ⟨σ₃, hstep₃, _, hstarted⟩ := hstarted.advance env rfl rfl
  obtain ⟨σ₄, hstep₄, hstore₄, hrejected⟩ :=
    hstarted.refuseUser env emailAlreadyExists
  have hrow := hstarted.row
  rw [← hstore₄] at hrow
  obtain ⟨σ₅, hstep₅, _, hrow₅⟩ := release_own env 0 hrejected hrow rfl
  have hfresh : σ₅.workers "worker-2" = .fresh := by
    rw [workers_of_step hstep₅ (by decide), workers_of_step hstep₄ (by decide),
      workers_of_step hstep₃ (by decide), workers_of_step hstep₂ (by decide),
      workers_of_step hstep₁ (by decide)]
    rfl
  obtain ⟨σ₆, hstep₆, hstore₆, hw₆⟩ := create_fresh env sampleCommand 0 hfresh
  rw [← hstore₆] at hrow₅
  obtain ⟨σ₇, _, _, hstep₇, hw₇, _⟩ :=
    acquire_unlocked env 0 0 hw₆ hrow₅ rfl rfl
  have hsends : sends env σ₇ (.advance "worker-2") =
      some (requestUserCreation env sampleCommand) := by
    simp only [sends, hw₇]
    rfl
  have hstep₈ : ∃ σ₈, step env σ₇ (.advance "worker-2") = some σ₈ := by
    simp only [step, hw₇]
    exact ⟨_, rfl⟩
  obtain ⟨σ₈, hstep₈⟩ := hstep₈
  have hrun : Run env _ σ₈ := .snoc (.snoc (.snoc (.snoc (.snoc (.snoc (.snoc
    (.snoc .nil hstep₁) hstep₂) hstep₃) hstep₄) hstep₅) hstep₆) hstep₇) hstep₈
  refine ⟨σ₈, _, hrun, fun hfinal => ?_⟩
  obtain ⟨hnone, _⟩ := hfinal [(World.init, _), (σ₁, _), (σ₂, _)] σ₃ _
    [(σ₄, _), (σ₅, _), (σ₆, _), (σ₇, _)] sampleCommand emailAlreadyExists rfl rfl
    (.inr rfl) ⟨_, _, _, hstarted.worker, rfl⟩
  exact hnone (σ₇, .advance "worker-2") (by simp)
    (requestUserCreation env sampleCommand) hsends rfl

end Modularis.Onboarding.Refusal
