import Modularis.Onboarding.Invariant

namespace Modularis.Onboarding.LockedSends

open Modularis.Foundation
open Modularis.Onboarding.Contracts
open Modularis.Onboarding.Repository
open Modularis.Onboarding.Service
open Modularis.Onboarding.Workers
open Modularis.Onboarding.Turns
open Modularis.Onboarding.SingleRun
open Modularis.Onboarding.Invariant

/-- The name of the origin in a worker's id. -/
def Origin.kind : Origin → String
  | .command => "command"
  | .recovery => "recovery"

/-- The id that a worker locks rows with. -/
def workerId (runtimeInstanceId : String) (kind : Origin) (randomUUID : String) :
    String :=
  runtimeInstanceId ++ ":" ++ Origin.kind kind ++ ":" ++ randomUUID

theorem workerId_ne_empty (runtimeInstanceId : String) (kind : Origin)
    (randomUUID : String) : workerId runtimeInstanceId kind randomUUID ≠ "" := by
  simp [workerId, String.append_eq_empty_iff]

/-- A command or recovery pass runs under an id that `workerId` makes. -/
def Named : Event → Prop
  | .create w _ _ => ∃ runtimeInstanceId randomUUID,
      w = workerId runtimeInstanceId .command randomUUID
  | .recover w _ => ∃ runtimeInstanceId randomUUID,
      w = workerId runtimeInstanceId .recovery randomUUID
  | _ => True

/-- By the clock that the step compares leases with, none has run out. -/
def LeasesHold (store : SagaStore) : Event → Prop
  | .acquire _ dateNow _ => ∀ key row lockedUntil,
      store.sagas.row key = some row → row.lockedUntil = some lockedUntil →
        dateNow < lockedUntil
  | .claim _ _ _ now => ∀ key row lockedUntil,
      store.sagas.row key = some row → row.lockedUntil = some lockedUntil →
        now ≤ lockedUntil
  | _ => True

/-- The stored row of the key has `locked_by = w`. -/
def LockedBy (store : SagaStore) (w key : String) : Prop :=
  ∃ row, store.sagas.row key = some row ∧ row.lockedBy = some w

/-- Whichever worker is about to send a downstream command has the row of its
saga locked. -/
def SendsUnderLock (env : Environment) (σ : World) : Prop :=
  ∀ w origin key command machine queue request,
    σ.workers w = .running origin key command machine queue →
    sends env σ (.advance w) = some request →
      LockedBy σ.store w command.payload.idempotencyKey

/-- The worker has sent a downstream command for the saga and waits for the
answer. -/
def InFlight (σ : World) (w key : String) : Prop :=
  ∃ origin k command machine queue current,
    σ.workers w = .running origin k command machine queue ∧
    command.payload.idempotencyKey = key ∧
    (machine = .awaitingUser current ∨ machine = .awaitingPayment current ∨
      machine = .awaitingCompensation current)

/-- Commands are sent under the lock, and no two workers have commands for one
saga in flight. -/
structure Guarded (env : Environment) (σ : World) : Prop where
  sends : SendsUnderLock env σ
  alone : ∀ key v w, InFlight σ v key → InFlight σ w key → v = w

/-- The step by which a worker that still has the lock records that the payment
step failed. -/
def RecordsFailure (σ : World) : Event → Prop
  | .mark w _ _ =>
      ∃ origin key command current error queue,
        σ.workers w =
          .running origin key command (.markingFailed current error) queue ∧
        LockedBy σ.store w current.idempotencyKey
  | _ => False

section Locks

theorem leasedToOther_of_lease {saga : AccountCreationSaga} {v w : String}
    {dateNow lockedUntil : Int} (hlock : saga.lockedBy = some v) (hv : v ≠ "")
    (hother : v ≠ w) (huntil : saga.lockedUntil = some lockedUntil)
    (hlease : dateNow < lockedUntil) : leasedToOther saga w dateNow = true := by
  simp [leasedToOther, hlock, huntil, hv, hother, hlease]

theorem not_leasedToOther {store store' : SagaStore} {input : TryAcquireInput}
    {dateNow now : Int} {row saga : AccountCreationSaga}
    (hresult : tryAcquire store input dateNow now = (.acquired saga, store'))
    (hrow : store.sagas.row input.idempotencyKey = some row) :
    leasedToOther row input.workerId dateNow = false := by
  by_contra hleased
  rw [Bool.not_eq_false] at hleased
  have hsame : store.sagas.insertIfAbsent (startedRow input now) = store.sagas :=
    Table.insertIfAbsent_of_some (s := row) hrow
  by_cases hhash : row.requestHash = input.requestHash
  · simp [tryAcquire, hsame, hrow, hhash, hleased] at hresult
  · simp [tryAcquire, hsame, hrow, hhash] at hresult

/-- A worker that may take locks has an id and a lease to write. -/
def Locking : Worker → Prop
  | .acquiring _ _ | .claiming _ => True
  | _ => False

/-- A row that is locked after a turn was locked by the same worker before it,
with the same lease, or has just been locked by the worker whose turn it was. -/
theorem lock_of_turn {env : Environment} {store store' : SagaStore}
    {w : String} {before after : Worker} {e : Event}
    (hturn : Turn env store w before e store' after) {key v : String}
    {row' : AccountCreationSaga} (hrow' : store'.sagas.row key = some row')
    (hlock : row'.lockedBy = some v) :
    (v = w ∧ Locking before ∧ row'.lockedUntil.isSome) ∨
      ∃ row, store.sagas.row key = some row ∧ row.lockedBy = some v ∧
        row.lockedUntil = row'.lockedUntil := by
  cases hturn with
  | acquired _ _ _ hsaga hwrites _ =>
      rw [hwrites key] at hrow'
      split at hrow'
      · obtain rfl := Option.some.inj hrow'
        subst hsaga
        exact .inl ⟨(Option.some.inj hlock).symm, trivial, rfl⟩
      · exact .inr ⟨row', hrow', hlock, rfl⟩
  | claim _ _ _ hrows _ =>
      rw [hrows key] at hrow'
      split at hrow'
      · obtain ⟨row, hrow, rfl⟩ := Option.map_eq_some_iff.mp hrow'
        exact .inl ⟨(Option.some.inj hlock).symm, trivial, rfl⟩
      · exact .inr ⟨row', hrow', hlock, rfl⟩
  | @commit _ _ _ machine _ _ _ _ row _ _ hchange hrow _ hwrites _ =>
      rw [hwrites key] at hrow'
      split at hrow'
      · rename_i hkey
        obtain rfl := Option.some.inj hrow'
        rw [hkey, Change.key_apply, key_of_row store hrow]
        cases machine <;> cases hchange <;>
          first
          | exact .inr ⟨row, hrow, hlock, rfl⟩
          | exact absurd hlock (by simp [Change.apply, SagaUpdates.apply,
              failureChange, SagaUpdates.failed, SagaUpdates.compensated,
              SagaUpdates.completed, Assignment.apply])
      · exact .inr ⟨row', hrow', hlock, rfl⟩
  | release =>
      rw [row_release] at hrow'
      split at hrow'
      · obtain ⟨row, hrow, rfl⟩ := Option.map_eq_some_iff.mp hrow'
        unfold unlockOwn at hlock ⊢
        split at hlock
        · cases hlock
        · rename_i hother
          exact .inr ⟨row, hrow, hlock, by rw [if_neg hother]⟩
      · exact .inr ⟨row', hrow', hlock, rfl⟩
  | _ => exact .inr ⟨row', hrow', hlock, rfl⟩

theorem LockedBy.of_turn {env : Environment} {store store' : SagaStore}
    {v w key : String} {before after : Worker} {e : Event}
    (h : LockedBy store v key) (hother : v ≠ w)
    (hlease : LeasesHold store e)
    (hcolumns : ∀ row, store.sagas.row key = some row →
      row.lockedBy = some v → v ≠ "" ∧ row.lockedUntil.isSome)
    (hturn : Turn env store w before e store' after) :
    LockedBy store' v key := by
  obtain ⟨row, hrow, hlock⟩ := h
  obtain ⟨hname, huntil⟩ := hcolumns row hrow hlock
  obtain ⟨lockedUntil, huntil⟩ := Option.isSome_iff_exists.mp huntil
  cases hturn with
  | @acquired command _ dateNow _ found saga _ hresult hfound _ hsaga hwrites _ =>
      have hkey : saga.idempotencyKey = command.payload.idempotencyKey := by
        rw [hsaga, hfound]
        exact key_rowToAcquire _ _ _
      refine ⟨row, ?_, hlock⟩
      rw [hwrites key, if_neg, hrow]
      rintro rfl
      rw [hkey] at hrow
      have hfree := not_leasedToOther hresult hrow
      have hleased := leasedToOther_of_lease hlock hname hother huntil
        (hlease _ row lockedUntil hrow huntil)
      exact absurd (hfree.symm.trans hleased) (by simp)
  | claim _ hsagas _ hrows _ =>
      refine ⟨row, ?_, hlock⟩
      rw [hrows key, if_neg, hrow]
      intro hmem
      obtain ⟨saga, hsaga, rfl⟩ := List.mem_map.mp hmem
      obtain ⟨claimed, hclaimed, hrecoverable, _⟩ := hsagas saga hsaga
      obtain rfl := Option.some.inj (hrow.symm.trans hclaimed)
      have hheld := hlease _ row lockedUntil hrow huntil
      simp only [recoverable, leaseOver, huntil, Bool.and_eq_true,
        decide_eq_true_eq] at hrecoverable
      omega
  | @commit _ _ _ _ _ _ _ change old _ _ _ hold hown hwrites _ =>
      refine ⟨row, ?_, hlock⟩
      rw [hwrites key, if_neg, hrow]
      intro hkey
      rw [hkey, Change.key_apply, key_of_row store hold, hold] at hrow
      obtain rfl := Option.some.inj hrow
      exact hother (Option.some.inj (hlock.symm.trans hown))
  | release =>
      refine ⟨row, ?_, hlock⟩
      rw [row_release, hrow]
      split
      · have hnot : row.lockedBy ≠ some w := by
          rw [hlock]
          exact fun hsame => hother (Option.some.inj hsame)
        simp [unlockOwn, hnot]
      · rfl
  | _ => exact ⟨row, hrow, hlock⟩

end Locks

/-- The saga whose lock a worker is about to give up is not one of those whose
turn has not come. -/
def Apart : Worker → Prop
  | .running _ key _ _ queue | .releasing _ key _ _ queue =>
      key ∉ queue.map AccountCreationSaga.idempotencyKey
  | _ => True

/-- A locked row has a lease and the name of its worker, and a worker has the
lock of every row that it holds a copy of. -/
structure Locked (σ : World) : Prop where
  columns : ∀ key row v, σ.store.sagas.row key = some row →
    row.lockedBy = some v → v ≠ "" ∧ row.lockedUntil.isSome
  nameless : ¬ Locking (σ.workers "")
  apart : ∀ w, Apart (σ.workers w)
  locked : ∀ w, ∀ saga ∈ held (σ.workers w),
    LockedBy σ.store w saga.idempotencyKey

theorem locked_init : Locked World.init where
  columns := by
    intro key row v hrow
    simp [World.init, SagaStore.empty] at hrow
  nameless := id
  apart := fun _ => trivial
  locked := by
    intro w saga hsaga
    cases hsaga

section Turn

variable {env : Environment} {σ : World} {w : String} {e : Event}
  {store : SagaStore} {after : Worker}

theorem apart_runMachine {origin : Origin} {key : String}
    {command : CreateCommand} {machine : Machine}
    {queue : List AccountCreationSaga}
    (h : key ∉ queue.map AccountCreationSaga.idempotencyKey) :
    Apart (runMachine origin key command machine queue) := by
  cases machine <;> exact h

theorem apart_of_turn (hc : Consistent σ) (h : Apart (σ.workers w))
    (hturn : Turn env σ.store w (σ.workers w) e store after) : Apart after := by
  have hnodup := hc.nodup w
  generalize hw : σ.workers w = before at h hturn hnodup
  cases hturn with
  | create | recover | hashConflict | leased | wake | giveUp | claim | crash =>
      trivial
  | acquired => exact apart_runMachine (List.not_mem_nil)
  | poll =>
      unfold afterPoll
      repeat' split
      all_goals trivial
  | take => exact apart_runMachine (List.nodup_cons.mp hnodup).1
  | advance | answerUser | answerPayment | answerCompensation | refused
  | commit => exact apart_runMachine h
  | @release origin =>
      cases origin <;> trivial
  | fail hafter =>
      cases before with
      | running origin key command machine queue =>
          rw [afterFailure_running hafter]
          exact apart_runMachine h
      | releasing origin key command outcome queue =>
          cases hafter
          cases origin <;> trivial
      | _ => cases hafter <;> trivial

theorem lockedBy_marked {machine : Machine} {dateNow now : Int}
    {change : Change} {row copy : AccountCreationSaga}
    (hchange : change? dateNow machine = some change)
    (hfailed : ∀ current error, machine ≠ .markingFailed current error)
    (hcopy : (machine.marked (change.apply now row)).current? = some copy) :
    (change.apply now row).lockedBy = row.lockedBy := by
  cases machine with
  | markingUserCreated | markingPaymentCreated => cases hchange; rfl
  | markingFailed current error => exact absurd rfl (hfailed current error)
  | markingCompensated | markingCompleted => cases hcopy
  | _ => cases hchange

/-- As long as a worker records no failure of the payment step, it has the lock
of every row that it goes on to hold. -/
theorem lockedBy_own (h : Locked σ) (hc : Consistent σ)
    (hfailure : ¬ RecordsFailure σ e)
    (hturn : Turn env σ.store w (σ.workers w) e store after)
    {copy : AccountCreationSaga} (hcopy : copy ∈ held after) :
    LockedBy store w copy.idempotencyKey := by
  have hlocked := h.locked w
  have happart := h.apart w
  have hworker := hc.worker w
  generalize hw : σ.workers w = before at hturn hlocked happart hworker
  cases hturn with
  | create | recover | hashConflict | leased | wake | giveUp | crash =>
      cases hcopy
  | @acquired command _ _ _ _ saga _ _ _ _ hsaga hwrites _ =>
      rw [held_runMachine, List.append_nil] at hcopy
      obtain rfl := List.mem_singleton.mp
        ((sublist_executeStateMachine saga).subset hcopy)
      exact ⟨copy, (hwrites _).trans (if_pos rfl), by rw [hsaga]; rfl⟩
  | @poll command deadline =>
      rw [(held_afterPoll command deadline _).1] at hcopy
      cases hcopy
  | @claim leaseUntil now _ _ sagas _ _ hsagas _ hrows _ =>
      have hmem : copy.idempotencyKey ∈
          sagas.map AccountCreationSaga.idempotencyKey :=
        List.mem_map_of_mem hcopy
      obtain ⟨row, hrow, _, rfl⟩ := hsagas copy hcopy
      refine ⟨lock w leaseUntil now row, ?_, rfl⟩
      rw [hrows, if_pos hmem, hrow]
      rfl
  | @take saga queue =>
      rw [held_runMachine] at hcopy
      exact hlocked copy
        (((sublist_executeStateMachine saga).append_right queue).subset hcopy)
  | advance =>
      exact hlocked copy
        (mem_held_of_follows (follows_advance env _ hworker.2.1) hcopy)
  | answerUser hnext =>
      exact hlocked copy
        (mem_held_of_follows (follows_answerUser hworker.2.1 hnext) hcopy)
  | answerPayment hnext =>
      exact hlocked copy
        (mem_held_of_follows (follows_answerPayment hworker.2.1 hnext) hcopy)
  | answerCompensation hnext =>
      exact hlocked copy
        (mem_held_of_follows (follows_answerCompensation hworker.2.1 hnext) hcopy)
  | refused =>
      exact hlocked copy (mem_held_of_follows (follows_throw _ hworker.2.1) hcopy)
  | @commit origin key command machine queue _ now change row _ _ hchange hrow
      hlock hwrites _ =>
      obtain ⟨_, _, hkeys⟩ := hworker
      obtain ⟨hkey, _⟩ := hkeys _ (current?_of_change? hchange)
      rw [held_runMachine] at hcopy
      rcases List.mem_append.mp hcopy with hcurrent | hqueue
      · rw [Option.mem_toList] at hcurrent
        obtain rfl := current?_marked hcurrent
        refine ⟨_, (hwrites _).trans (if_pos rfl), ?_⟩
        rw [lockedBy_marked hchange ?_ hcurrent, hlock]
        rintro current error rfl
        cases hchange
        exact hfailure
          ⟨origin, key, command, current, error, queue, hw, row, hrow, hlock⟩
      · obtain ⟨old, hold, hown⟩ :=
          hlocked copy (List.mem_append_right _ hqueue)
        refine ⟨old, ?_, hown⟩
        rw [hwrites, if_neg, hold]
        rw [Change.key_apply, key_of_row σ.store hrow, hkey]
        rintro hsame
        exact happart (hsame ▸ List.mem_map_of_mem hqueue)
  | @release origin key _ _ queue =>
      have hqueue := (held_afterRelease origin _ _ queue).1.subset hcopy
      obtain ⟨old, hold, hown⟩ := hlocked copy hqueue
      refine ⟨old, ?_, hown⟩
      rw [row_release, if_neg, hold]
      rintro hsame
      exact happart (hsame ▸ List.mem_map_of_mem hqueue)
  | fail hafter => exact hlocked copy (held_afterFailure hafter copy hcopy)

end Turn

/-- Only the start of a command or of a recovery pass leads to a worker that
takes locks. -/
theorem not_locking_of_turn {env : Environment} {store store' : SagaStore}
    {w : String} {before after : Worker} {e : Event} (hnamed : Named e)
    (hnameless : w = "") (hturn : Turn env store w before e store' after) :
    ¬ Locking after := by
  have hmachine : ∀ origin key command (machine : Machine) queue,
      ¬ Locking (runMachine origin key command machine queue) := by
    intro origin key command machine queue
    cases machine <;> exact id
  cases hturn with
  | create | recover =>
      obtain ⟨instance', uuid, hname⟩ := hnamed
      exact absurd (hname.symm.trans hnameless) (workerId_ne_empty _ _ _)
  | acquired | take | advance | answerUser | answerPayment | answerCompensation
  | refused | commit => exact hmachine _ _ _ _ _
  | poll =>
      unfold afterPoll
      repeat' split
      all_goals exact id
  | @release origin => cases origin <;> exact id
  | fail hafter =>
      cases before with
      | running origin key command machine queue =>
          rw [afterFailure_running hafter]
          exact hmachine _ _ _ _ _
      | releasing origin key command outcome queue =>
          cases hafter
          cases origin <;> exact id
      | _ => cases hafter <;> exact id
  | _ => exact id

theorem locked_step {env : Environment} {σ σ' : World} {e : Event}
    (h : Locked σ) (hc : Consistent σ) (hnamed : Named e)
    (hlease : LeasesHold σ.store e) (hfailure : ¬ RecordsFailure σ e)
    (hstep : step env σ e = some σ') : Locked σ' := by
  obtain ⟨w, store, after, hturn, rfl⟩ := turn_of_step hstep
  refine ⟨?_, ?_, ?_, ?_⟩
  · intro key row v hrow hlock
    rcases lock_of_turn hturn hrow hlock with
      ⟨rfl, hlocking, huntil⟩ | ⟨old, hold, hown, huntil⟩
    · refine ⟨?_, huntil⟩
      rintro rfl
      exact h.nameless hlocking
    · exact huntil ▸ h.columns key old v hold hown
  · by_cases hw : w = ""
    · subst hw
      simpa using not_locking_of_turn hnamed rfl hturn
    · simpa [Function.update_of_ne (Ne.symm hw)] using h.nameless
  · intro v
    by_cases hv : v = w
    · subst hv
      simpa using apart_of_turn hc (h.apart v) hturn
    · simpa [Function.update_of_ne hv] using h.apart v
  · intro v copy hcopy
    by_cases hv : v = w
    · subst hv
      exact lockedBy_own h hc hfailure hturn (by simpa using hcopy)
    · have hcopy : copy ∈ held (σ.workers v) := by
        simpa [Function.update_of_ne hv] using hcopy
      exact (h.locked v copy hcopy).of_turn hv hlease
        (fun row hrow => h.columns _ row v hrow) hturn

theorem guarded_of_locked (env : Environment) {σ : World} (h : Locked σ)
    (hc : Consistent σ) : Guarded env σ := by
  have hholds : ∀ {w origin k command machine queue} current,
      σ.workers w = .running origin k command machine queue →
        machine.current? = some current →
          LockedBy σ.store w command.payload.idempotencyKey := by
    intro w origin k command machine queue current hw hcurrent
    have hworker := hc.worker w
    have hlocked := h.locked w
    rw [hw] at hworker hlocked
    obtain ⟨hkey, _, hkeys⟩ := hworker
    rw [hkey, ← (hkeys current hcurrent).1]
    exact hlocked current (by simp [held, hcurrent])
  constructor
  · intro w origin key command machine queue request hw hsends
    cases machine with
    | advancing current => exact hholds current hw rfl
    | _ => simp [sends, hw] at hsends
  · have hcurrent : ∀ {key w}, InFlight σ w key → LockedBy σ.store w key := by
      rintro key w ⟨origin, k, command, machine, queue, current, hw, rfl, hsent⟩
      refine hholds current hw ?_
      rcases hsent with rfl | rfl | rfl <;> rfl
    intro key v w hv hw
    obtain ⟨row, hrow, hlock⟩ := hcurrent hv
    obtain ⟨row', hrow', hlock'⟩ := hcurrent hw
    obtain rfl := Option.some.inj (hrow.symm.trans hrow')
    exact Option.some.inj (hlock.symm.trans hlock')

/-- After it has recorded a failure, a worker is about to send the next command
for a row that nobody has locked. -/
theorem not_sendsUnderLock_of_recordsFailure {env : Environment} {σ σ' : World}
    {e : Event} (hc : Consistent σ) (hfailure : RecordsFailure σ e)
    (hstep : step env σ e = some σ') : ¬ SendsUnderLock env σ' := by
  have hc' := consistent_step hc hstep
  cases e with
  | mark w dateNow now =>
      obtain ⟨origin, key, command, current, error, queue, hw, row, hrow, hlock⟩ :=
        hfailure
      have hworker := hc.worker w
      rw [hw] at hworker
      obtain ⟨hkey, _, hkeys⟩ := hworker
      obtain ⟨v, store, after, hturn, rfl⟩ := turn_of_step hstep
      generalize hv : σ.workers v = before at hturn
      cases hturn with
      | refused _ hchange hnotLocked =>
          obtain ⟨⟩ := hw.symm.trans hv
          cases hchange
          exact absurd hlock (hnotLocked row hrow)
      | @commit _ _ _ _ _ _ _ change found _ _ hchange hfound _ hwrites _ =>
          obtain ⟨⟩ := hw.symm.trans hv
          cases hchange
          set next := (failureChange current error dateNow).apply now found
          have hrunning : Function.update σ.workers w
              (runMachine origin key command
                ((Machine.markingFailed current error).marked next) queue) w =
              .running origin key command (.advancing next) queue :=
            Function.update_self ..
          have hshape : SagaShape next := by
            refine (hc'.copies w next ?_).shape
            change next ∈ held (Function.update σ.workers w _ w)
            rw [hrunning]
            exact List.mem_cons_self
          obtain ⟨_, huser, haction⟩ : next.error.isSome ∧
              next.userPayload.isSome ∧ next.nextAction =
                (if next.retryable then .processPayment else .compensateUser) :=
            hshape
          obtain ⟨user, huser⟩ := Option.isSome_iff_exists.mp huser
          have hsends : ∃ request, (advance env command next).1 = some request := by
            cases hretryable : next.retryable <;>
              simp [advance, haction, hretryable, huser]
          obtain ⟨request, hsends⟩ := hsends
          intro hall
          have hfoundKey : found.idempotencyKey = current.idempotencyKey :=
            key_of_row σ.store hfound
          have hnextKey : next.idempotencyKey = command.payload.idempotencyKey := by
            rw [hkey, ← (hkeys current rfl).1]
            exact hfoundKey
          obtain ⟨stored, hstored, hown⟩ := hall w origin key command _ queue
            request hrunning (by simp only [sends, hrunning, hsends])
          rw [← hnextKey, hwrites, if_pos rfl] at hstored
          obtain rfl := Option.some.inj hstored
          cases hown
  | _ => exact absurd hfailure id

/-- In a run in which no lease runs out, commands are sent under the lock
throughout exactly if no step records a failure of the payment step. -/
theorem guarded_iff {env : Environment} {σ : World}
    {trace : List (World × Event)} (hrun : Run env trace σ)
    (hnamed : ∀ p ∈ trace, Named p.2)
    (hleases : ∀ p ∈ trace, LeasesHold p.1.store p.2) :
    ((∀ p ∈ trace, Guarded env p.1) ∧ Guarded env σ) ↔
      ∀ p ∈ trace, ¬ RecordsFailure p.1 p.2 := by
  constructor
  · rintro ⟨hall, hlast⟩ p hp hfailure
    obtain ⟨hreach, t, hstep, hguarded⟩ := hrun.next hall hlast hp
    exact not_sendsUnderLock_of_recordsFailure (consistent_of_reachable hreach)
      hfailure hstep hguarded.sends
  · intro hfailures
    have hinvariant := hrun.always (I := fun σ => Locked σ ∧ Consistent σ)
      (fun σ e => Named e ∧ LeasesHold σ.store e ∧ ¬ RecordsFailure σ e)
      ⟨locked_init, consistent_init⟩ ?_
      fun p hp => ⟨hnamed p hp, hleases p hp, hfailures p hp⟩
    · exact ⟨fun p hp => guarded_of_locked env (hinvariant.1 p hp).1
        (hinvariant.1 p hp).2,
        guarded_of_locked env hinvariant.2.1 hinvariant.2.2⟩
    · rintro σ e σ' ⟨hlocked, hconsistent⟩ ⟨hname, hlease, hfailure⟩ hstep
      exact ⟨locked_step hlocked hconsistent hname hlease hfailure hstep,
        consistent_step hconsistent hstep⟩

def sampleWorker : String := workerId "runtime-1" .command "uuid-1"

theorem undisturbed_of_first (env : Environment) (command : CreateCommand)
    (user : UserPayload) {rest : List Event}
    (hrest : ∀ e ∈ rest, Named e ∧ ∀ store, LeasesHold store e) :
    ∀ p ∈ StepSystem.traceOf (step env) World.init
        (userSteps sampleWorker command user ++ rest),
      Named p.2 ∧ LeasesHold p.1.store p.2 := by
  intro p hp
  rcases List.mem_cons.mp hp with rfl | hp
  · exact ⟨⟨"runtime-1", "uuid-1", rfl⟩, trivial⟩
  · rcases List.mem_cons.mp hp with rfl | hp
    · refine ⟨trivial, ?_⟩
      intro key row lockedUntil hrow
      simp [World.init, SagaStore.empty, World.setWorker] at hrow
    · split at hp
      · rcases List.mem_cons.mp (StepSystem.event_mem_of_mem_traceOf hp) with
          h | h
        · exact h ▸ ⟨trivial, trivial⟩
        rcases List.mem_cons.mp h with h | h
        · exact h ▸ ⟨trivial, trivial⟩
        rcases List.mem_cons.mp h with h | h
        · exact h ▸ ⟨trivial, trivial⟩
        · exact ⟨(hrest _ h).1, (hrest _ h).2 _⟩
      · cases hp

theorem guarded_iff_singleRun :
    ∃ (σ : World) (trace : List (World × Event)),
      Run sampleEnvironment trace σ ∧
      σ.workers sampleWorker = .settled sampleCommand (.resolved
        (freshResponse sampleCommand sampleUser samplePayment)) ∧
      (((∀ p ∈ trace, Guarded sampleEnvironment p.1) ∧
          Guarded sampleEnvironment σ) ↔
        ∀ p ∈ trace, ¬ RecordsFailure p.1 p.2) := by
  obtain ⟨σ, hreplay, hsettled⟩ := replay_singleRun sampleEnvironment
    sampleWorker sampleCommand sampleUser samplePayment
  have hrest : ∀ e ∈ paymentSteps sampleWorker samplePayment,
      Named e ∧ ∀ store, LeasesHold store e := by
    simp [paymentSteps, Named, LeasesHold]
  have hquiet := undisturbed_of_first sampleEnvironment sampleCommand sampleUser
    hrest
  have hrun := StepSystem.run_of_replay hreplay
  exact ⟨σ, _, hrun, hsettled, guarded_iff hrun (fun p hp => (hquiet p hp).1)
    fun p hp => (hquiet p hp).2⟩

/-- A refused payment is followed by `identity.user.compensate` while nobody has
the saga locked. -/
theorem compensation_sent_without_lock :
    ∃ σ trace request, Run sampleEnvironment trace σ ∧
      (∀ p ∈ trace, Named p.2 ∧ LeasesHold p.1.store p.2) ∧
      sends sampleEnvironment σ (.advance sampleWorker) = some request ∧
      request.command.routingKey = "identity.user.compensate" ∧
      ∀ w, ¬ LockedBy σ.store w "key-1" := by
  obtain ⟨σ₁, hreplay₁, hworking⟩ := replay_userSteps sampleEnvironment
    sampleWorker sampleCommand sampleUser
  obtain ⟨σ₂, hreplay₂, hworking, _⟩ := replay_refusalSteps sampleEnvironment
    hworking rfl rfl rfl (show Permanent sampleRefusal from .inl rfl) 0 0
  have hreplay := StepSystem.replay_append hreplay₁ hreplay₂
  refine ⟨σ₂, _, requestUserCompensation sampleCommand sampleUser,
    StepSystem.run_of_replay hreplay, undisturbed_of_first _ _ _ ?_, ?_, rfl, ?_⟩
  · simp [refusalSteps, Named, LeasesHold]
  · simp only [sends, hworking.worker]
    rfl
  · rintro w ⟨row, hrow, hlock⟩
    obtain rfl := Option.some.inj (hrow.symm.trans hworking.row)
    cases hlock

end Modularis.Onboarding.LockedSends
