import Modularis.Payments.Decision
import Modularis.Payments.MemoryRepository
import Modularis.Payments.Redelivery

namespace Modularis.Payments.Reservation

open Modularis.Foundation
open Modularis.Foundation.GoTime
open Modularis.Foundation.Program
open Modularis.Shared.Messaging
open Modularis.Payments.Models
open Modularis.Payments.Repository
open Modularis.Payments.Operations
open Modularis.Payments.Handlers
open Modularis.Payments.Effects
open Modularis.Payments.Changes
open Modularis.Payments.Conduct (quiet_retryFrom)
open Modularis.Payments.CallbackRun (Turn Undisturbed)
open Modularis.Payments.Decision (Leaves leaves_of_quiet leaves_transition samplePayment
  sampleStore)
open Modularis.Payments.Redelivery (processReserved_eq announce)
open Modularis.Payments.Lifecycle (sampleService)

/-- `HandleProcessRequested` to its end. -/
def runProcess (s : Service) (i : String)
    (envelope : Envelope PaymentProcessRequestedPayload) (turns : Nat → Turn)
    (store : Store) : Except String Unit × Store :=
  (handleProcessRequested s envelope).run
    (disturbed (act i (.processRequested envelope))) turns store

/-- What a request that is processed at `now` should make of a pending payment. -/
def Due (now expiresAt : Int) (status : PaymentStatus) : Prop :=
  if now < expiresAt then status = .processing ∨ status = .failed
  else status = .expired

instance (now expiresAt : Int) (status : PaymentStatus) :
    Decidable (Due now expiresAt status) :=
  inferInstanceAs (Decidable (if now < expiresAt then
    status = .processing ∨ status = .failed else status = .expired))

/-- The request has moved the payment as it should. -/
def Moves (s : Service) (i : String) (envelope : Envelope PaymentProcessRequestedPayload)
    (turns : Nat → Turn) (store : Store) (payment : Payment) : Prop :=
  Leaves i (.processRequested envelope) payment.id
    (fun q => Due (turns 0).1.now payment.expiresAt q.paymentStatus)
    (handleProcessRequested s envelope) turns store

theorem date_lt_date_iff (now time : Int) : date now < date time ↔ now < date time := by
  unfold date
  omega

theorem reserved_in_memory_iff {payment : Payment} (now : Int)
    (hpending : payment.paymentStatus = .pending) :
    (MemoryRepository.reserveForProcessing now payment).1 ≠ .payment none ↔
      now < payment.expiresAt := by
  rw [MemoryRepository.reserveForProcessing]
  by_cases hnow : now < payment.expiresAt
  · simp [hpending, hnow]
  · simp [hnow]

section Run

variable {s : Service} {i : String} {request : Request} {store : Store}
  {payment q : Payment} {turns : Nat → Turn} {post : Payment → Prop}

theorem leaves_pure {α : Type} (value : α)
    (hrow : store.payments.row payment.id = some payment) (hpost : post payment) :
    Leaves i request payment.id post (pure value : Program α) turns store :=
  ⟨payment, hrow, hpost⟩

theorem leaves_call {α : Type} {op : Op} {f : Reply op → Program α} {reply : Reply op}
    {t : Store} (hact : act i request store op (turns 0).1 = (reply, t))
    (hrow : t.payments.row payment.id = some q) (hturns : Undisturbed turns payment.id)
    (h : ∀ t', t'.payments.row payment.id = some q →
      Leaves i request payment.id post (f reply) (fun n => turns (n + 1)) t') :
    Leaves i request payment.id post (call op >>= f) turns store := by
  have hturn : disturbed (act i request) store op (turns 0) =
      (reply, (turns 0).2 t) := by
    rw [disturbed, hact]
  rw [Leaves, run_perform_bind hturn]
  exact h _ ((hturns.leaves 0 t).trans hrow)

theorem act_enqueueMessages (i : String) (request : Request) {choice : Choice}
    (hchoice : choice.failure = none)
    (hrow : store.payments.row payment.id = some payment) (message : PendingMessage) :
    ∃ t, act i request store (.enqueueMessages payment.id [message]) choice = (.ok (), t) ∧
      t.payments.row payment.id =
        some ((enqueueUpdate [message] choice.now).apply payment) := by
  have hupdated : findOneAndUpdate store.payments payment.id
      (enqueueUpdate [message] choice.now) = _ := findOneAndUpdate_of_filter hrow rfl
  simp only [act, writeCall, hchoice, if_neg (List.cons_ne_nil message []), hupdated]
  exact ⟨_, rfl, (row_updated hrow payment.id).trans (if_pos rfl)⟩

theorem act_reserve_some (i : String) (request : Request) {choice : Choice} {now : Int}
    (hchoice : choice.failure = none)
    (hrow : store.payments.row payment.id = some payment)
    (hpending : payment.paymentStatus = .pending) (hnow : date now < payment.expiresAt) :
    ∃ t, act i request store (.reserveForProcessing payment.id now) choice =
        (.ok (some ((reserveUpdate now).apply payment)), t) ∧
      t.payments.row payment.id = some ((reserveUpdate now).apply payment) := by
  have hupdated : findOneAndUpdate store.payments payment.id (reserveUpdate now) = _ :=
    findOneAndUpdate_of_filter hrow (decide_eq_true ⟨hpending, hnow⟩)
  simp only [act, writeCall, hchoice, hupdated]
  exact ⟨_, rfl, (row_updated hrow payment.id).trans (if_pos rfl)⟩

theorem act_reserve_none (i : String) (request : Request) {choice : Choice} {now : Int}
    (hchoice : choice.failure = none)
    (hrow : store.payments.row payment.id = some payment)
    (hnow : ¬ date now < payment.expiresAt) :
    act i request store (.reserveForProcessing payment.id now) choice =
      (.ok none, store) := by
  have hnone : findOneAndUpdate store.payments payment.id (reserveUpdate now) =
      (none, store.payments) :=
    findOneAndUpdate_of_not_filter hrow (decide_eq_false fun hfilter => hnow hfilter.2)
  simp only [act, writeCall, hchoice, hnone, record_none]
  rfl

/-- A reserved payment stays `PROCESSING`, or is `FAILED` if the gateway refuses it. -/
def Taken (q : Payment) : Prop :=
  q.paymentStatus = .processing ∨ q.paymentStatus = .failed

theorem leaves_concludeProcessing {envelope : Envelope PaymentProcessRequestedPayload}
    {copy : Payment} (hturns : Undisturbed turns payment.id)
    (hrow : store.payments.row payment.id = some payment) (hid : copy.id = payment.id)
    (hstatus : payment.paymentStatus = .processing)
    (result : Except ProcessError (Option GatewayResult)) :
    Leaves i request payment.id Taken (concludeProcessing s envelope copy result) turns
      store := by
  cases result with
  | error error =>
      refine leaves_of_quiet (quiet_statusMessages (fun _ _ => rfl) (fun _ _ => rfl)
        _ _ _ _ _) hturns hrow fun messages k t _ hturns hrow => ?_
      rw [hid]
      refine leaves_transition (failedUpdate error.message messages) (fun _ _ => rfl)
        hturns hrow (fun reply => ?_) fun now => ?_
      · cases reply <;> exact ⟨_, rfl⟩
      · have hfilter : (failedUpdate error.message messages now).filter payment = true :=
          decide_eq_true hstatus
        rw [if_pos hfilter]
        exact .inr rfl
  | ok result =>
      change Leaves _ _ _ _ (if _ then _ else _) turns store
      split
      · refine leaves_of_quiet (quiet_pendingMessage (fun _ _ => rfl) (fun _ _ => rfl)
          _ _) hturns hrow fun message k t _ hturns hrow => ?_
        obtain ⟨t', hact, hrow⟩ := act_enqueueMessages i request (hturns.succeeds 0) hrow
          message
        rw [hid]
        exact leaves_call (f := pure) hact hrow hturns fun t hrow =>
          ⟨_, hrow, .inl hstatus⟩
      · exact leaves_pure _ hrow (.inl hstatus)

theorem leaves_announce {envelope : Envelope PaymentProcessRequestedPayload}
    (payment copy : Payment) (hid : payment.id = copy.id)
    (hturns : Undisturbed turns copy.id)
    (hrow : store.payments.row copy.id = some payment)
    (hstatus : payment.paymentStatus = .processing) :
    Leaves i request copy.id Taken (announce s envelope copy (.ok ())) turns store := by
  rw [← hid] at hturns hrow ⊢
  exact leaves_of_quiet (quiet_retryFrom _ _ _ copy 1 _) hturns hrow
    fun result _ _ _ hturns hrow =>
      leaves_concludeProcessing hturns hrow hid.symm hstatus result

theorem leaves_processReserved {envelope : Envelope PaymentProcessRequestedPayload}
    (payment : Payment)
    (hturns : Undisturbed turns payment.id)
    (hrow : store.payments.row payment.id = some payment)
    (hstatus : payment.paymentStatus = .processing) :
    Leaves i request payment.id Taken (processReserved s envelope payment) turns store := by
  rw [processReserved_eq]
  refine leaves_of_quiet (quiet_statusMessages (fun _ _ => rfl) (fun _ _ => rfl)
    _ _ _ _ _) hturns hrow ?_
  rintro _ k t ⟨message, rfl, _⟩ hturns hrow
  obtain ⟨t', hact, hrow⟩ := act_enqueueMessages i request (hturns.succeeds 0) hrow message
  refine leaves_call hact hrow hturns fun t hrow => ?_
  exact leaves_announce ((enqueueUpdate [message] _).apply payment) payment rfl
    (hturns.shift 1) hrow hstatus

theorem leaves_processMissed {envelope : Envelope PaymentProcessRequestedPayload}
    {now : Int} (hturns : Undisturbed turns payment.id)
    (hid : envelope.payload.paymentId = payment.id)
    (hrow : store.payments.row payment.id = some payment)
    (hpending : payment.paymentStatus = .pending) :
    Leaves i request payment.id
      (fun q => q.paymentStatus = if payment.expiresAt < now then .expired else .pending)
      (processMissed s envelope now) turns store := by
  have hread : act i request store (.findById envelope.payload.paymentId) (turns 0).1 =
      (.ok (some payment), store) := by
    simp only [act, readCall, hturns.succeeds, findById, hid, hrow]
  refine leaves_call hread hrow hturns fun t hrow => ?_
  change Leaves _ _ _ _ (if _ then _ else _) _ t
  by_cases hexpired : payment.expiresAt < now
  · simp only [if_pos hexpired]
    rw [if_pos ⟨hpending, hexpired⟩]
    refine leaves_of_quiet (quiet_statusMessages (fun _ _ => rfl) (fun _ _ => rfl)
      _ _ _ _ _) (hturns.shift 1) hrow fun messages k t _ hturns hrow => ?_
    refine leaves_transition (expiredUpdate messages) (fun _ _ => rfl)
      hturns hrow (fun reply => ?_) fun now => ?_
    · cases reply <;> exact ⟨_, rfl⟩
    · have hopen : (expiredUpdate messages now).filter payment = true := by
        simp [expiredUpdate, isOpen, hpending]
      rw [if_pos hopen]
      rfl
  · simp only [if_neg hexpired]
    rw [if_neg fun h => hexpired h.2]
    exact leaves_pure _ hrow hpending

theorem leaves_handleProcessRequested (i : String) (request : Request)
    {envelope : Envelope PaymentProcessRequestedPayload} (payment : Payment)
    (hturns : Undisturbed turns payment.id)
    (hid : envelope.payload.paymentId = payment.id)
    (hrow : store.payments.row payment.id = some payment)
    (hpending : payment.paymentStatus = .pending) :
    Leaves i request payment.id
      (fun q => if date (turns 0).1.now < payment.expiresAt then Taken q
        else q.paymentStatus =
          if payment.expiresAt < (turns 0).1.now then .expired else .pending)
      (handleProcessRequested s envelope) turns store := by
  rw [handleProcessRequested_eq, hid]
  have hread : act i request store .timeNow (turns 0).1 = ((turns 0).1.now, store) := rfl
  refine leaves_call hread hrow hturns fun t hrow => ?_
  by_cases hnow : date (turns 0).1.now < payment.expiresAt
  · simp only [if_pos hnow]
    obtain ⟨t', hact, hreserved⟩ := act_reserve_some i request
      (hturns.succeeds 1) hrow hpending hnow
    refine leaves_call hact hreserved (hturns.shift 1) fun t'' hrow => ?_
    exact leaves_processReserved ((reserveUpdate (turns 0).1.now).apply payment)
      ((hturns.shift 1).shift 1) hrow rfl
  · simp only [if_neg hnow]
    have hact := act_reserve_none i request (hturns.succeeds 1) hrow hnow
    exact leaves_call hact hrow (hturns.shift 1) fun t'' hrow =>
      leaves_processMissed ((hturns.shift 1).shift 1) hid hrow hpending

end Run

/-- A process request moves the pending payment as it should exactly if it is not
processed at the very instant at which the payment expires: at that instant the
repository does not reserve the payment and the handler does not expire it. -/
theorem moves_iff (s : Service) (i : String) {store : Store} {payment : Payment}
    {turns : Nat → Turn} {envelope : Envelope PaymentProcessRequestedPayload}
    (hturns : Undisturbed turns payment.id)
    (hid : envelope.payload.paymentId = payment.id)
    (hrow : store.payments.row payment.id = some (Payment.stored payment))
    (hpending : payment.paymentStatus = .pending) :
    Moves s i envelope turns store (Payment.stored payment) ↔
      (turns 0).1.now ≠ (Payment.stored payment).expiresAt := by
  obtain ⟨q, hq, hstatus⟩ := leaves_handleProcessRequested (s := s) i
    (.processRequested envelope) (Payment.stored payment) hturns hid hrow hpending
  have hdate : date (turns 0).1.now < (Payment.stored payment).expiresAt ↔
      (turns 0).1.now < (Payment.stored payment).expiresAt := date_lt_date_iff _ _
  have hmoves : Moves s i envelope turns store (Payment.stored payment) ↔
      Due (turns 0).1.now (Payment.stored payment).expiresAt q.paymentStatus := by
    refine ⟨?_, fun h => ⟨q, hq, h⟩⟩
    rintro ⟨q', hq', h⟩
    obtain rfl : q = q' := Option.some.inj (hq.symm.trans hq')
    exact h
  rw [hmoves, Due]
  by_cases hbefore : (turns 0).1.now < (Payment.stored payment).expiresAt
  · rw [if_pos (hdate.mpr hbefore)] at hstatus
    rw [if_pos hbefore]
    exact iff_of_true hstatus hbefore.ne
  · rw [if_neg (mt hdate.mp hbefore)] at hstatus
    rw [if_neg hbefore, hstatus]
    by_cases hafter : (Payment.stored payment).expiresAt < (turns 0).1.now
    · exact iff_of_true (if_pos hafter) hafter.ne'
    · have hsame : (turns 0).1.now = (Payment.stored payment).expiresAt :=
        le_antisymm (not_lt.mp hafter) (not_lt.mp hbefore)
      rw [if_neg hafter]
      exact iff_of_false (by decide) fun h => h hsame

section Sample

def sampleEnvelope : Envelope PaymentProcessRequestedPayload :=
  newEnvelopeWithMetadata "payment.process.requested" "m-2" "c-1" "m-1" ""
    "payment-service"
    { paymentId := "payment-1"
      paymentReference := "ref-1" }

/-- Nobody else acts, the clock shows `now` and the gateway takes the payment. -/
def turnsAt (now : Int) : Nat → Turn := fun _ =>
  ({ now := now
     newId := "message-1"
     failure := none
     intent := .error ""
     processed := .error (.other "") }, id)

theorem undisturbed_turnsAt (now : Int) :
    Undisturbed (turnsAt now) samplePayment.id where
  succeeds := fun _ => rfl
  leaves := fun _ _ => rfl

theorem moves_iff_sample :
    (Moves sampleService "i-1" sampleEnvelope (turnsAt minute) sampleStore
        (Payment.stored samplePayment) ↔
      minute ≠ (Payment.stored samplePayment).expiresAt) ∧
    Moves sampleService "i-1" sampleEnvelope (turnsAt minute) sampleStore
      (Payment.stored samplePayment) :=
  have hiff := moves_iff sampleService "i-1" (undisturbed_turnsAt minute) rfl rfl rfl
  ⟨hiff, hiff.mpr (by decide)⟩

/-- At the instant of the expiry the request is handled without an error, and the
payment is still pending. -/
theorem pending_at_expiry :
    (runProcess sampleService "i-1" sampleEnvelope (turnsAt (31 * minute))
        sampleStore).1 = .ok () ∧
    ¬ Moves sampleService "i-1" sampleEnvelope (turnsAt (31 * minute)) sampleStore
      (Payment.stored samplePayment) := by
  refine ⟨rfl, ?_⟩
  rintro ⟨q, hq, hdue⟩
  have hrun : (runProcess sampleService "i-1" sampleEnvelope (turnsAt (31 * minute))
      sampleStore).2.payments.row "payment-1" = some samplePayment := rfl
  obtain rfl : samplePayment = q := Option.some.inj (hrun.symm.trans hq)
  exact absurd hdue (by decide)

end Sample

end Modularis.Payments.Reservation
