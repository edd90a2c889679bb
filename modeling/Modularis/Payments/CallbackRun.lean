import Modularis.Payments.Conduct

namespace Modularis.Payments.CallbackRun

open Modularis.Foundation
open Modularis.Foundation.GoTime
open Modularis.Foundation.Program
open Modularis.Shared.Durations
open Modularis.Shared.Messaging
open Modularis.Payments.Models
open Modularis.Payments.Repository
open Modularis.Payments.Operations
open Modularis.Payments.Handlers
open Modularis.Payments.Effects
open Modularis.Payments.Changes
open Modularis.Payments.Conduct

/-- A turn of the handler: one call of its own, then whatever the other
invocations do. -/
abbrev Turn := Choice × (Store → Store)

/-- No repository call fails and the others leave the payment alone. -/
structure Undisturbed (turns : Nat → Turn) (paymentId : String) : Prop where
  succeeds : ∀ n, (turns n).1.failure = none
  leaves : ∀ n store, ((turns n).2 store).payments.row paymentId =
    store.payments.row paymentId

/-- The payment that the callback names, which it could complete. -/
structure Names (store : Store) (payload : PaymentCallbackConfirmedPayload)
    (payment : Payment) : Prop where
  found : findByReference store.payments payload.paymentReference = some payment
  isOpen : payment.paymentStatus ∈ [.pending, .processing, .failed]
  amount : payment.amount = payload.amount
  currency : payment.currency = payload.currency
  expiry : ∀ eventTime, parseRFC3339Nano payload.occurredAt = some eventTime →
    eventTime ≤ payment.expiresAt

/-- The handler takes the callback for a recent one. -/
def InTime (s : Service) (now : Int) (occurredAt : String) : Prop :=
  ∃ eventTime, parseRFC3339Nano occurredAt = some eventTime ∧
    absDuration (sub now eventTime) ≤ s.config.webhookTolerance

section Run

variable {s : Service} {i : String} {store : Store} {payment : Payment}
  {turns : Nat → Turn}
  {envelope : Envelope PaymentCallbackConfirmedPayload}

/-- `HandleCallbackConfirmed` to its end. -/
def runCallback (s : Service) (i : String)
    (envelope : Envelope PaymentCallbackConfirmedPayload) (turns : Nat → Turn)
    (store : Store) : Except String Unit × Store :=
  (handleCallbackConfirmed s envelope).run
    (disturbed (act i (.callbackConfirmed envelope))) turns store

theorem act_markCompleted {choice : Choice} (hchoice : choice.failure = none)
    (hrow : store.payments.row payment.id = some payment)
    (hopen : payment.paymentStatus ∈ [.pending, .processing, .failed])
    (i : String) (request : Request) (eventId : String) (confirmedAt : Int)
    (messages : List PendingMessage) :
    ∃ reply t q, act i request store
        (.markCompleted payment.id eventId confirmedAt messages) choice = (reply, t) ∧
      t.payments.row payment.id = some q ∧ q.paymentStatus = .completed := by
  have hupdated : findOneAndUpdate store.payments payment.id
      (completedUpdate eventId confirmedAt messages choice.now) = _ :=
    findOneAndUpdate_of_filter hrow (decide_eq_true hopen)
  simp only [act, transition, writeCall, hchoice, hupdated]
  exact ⟨_, _, _, rfl, (row_updated hrow payment.id).trans (if_pos rfl), rfl⟩

theorem Undisturbed.shift {paymentId : String} (h : Undisturbed turns paymentId)
    (k : Nat) : Undisturbed (fun n => turns (n + k)) paymentId where
  succeeds := fun n => h.succeeds (n + k)
  leaves := fun n => h.leaves (n + k)

/-- The program leaves the payment completed. -/
def Completes {α : Type} (i : String) (request : Request) (paymentId : String)
    (p : Program α) (turns : Nat → Turn) (store : Store) : Prop :=
  ∃ q, (p.run (disturbed (act i request)) turns store).2.payments.row paymentId =
    some q ∧ q.paymentStatus = .completed

theorem Completes.completed_iff {α : Type} {request : Request} {paymentId : String}
    {p : Program α} (h : Completes i request paymentId p turns store) {inTime : Prop}
    (hinTime : inTime) :
    ∃ q, (p.run (disturbed (act i request)) turns store).2.payments.row paymentId =
      some q ∧ (q.paymentStatus = .completed ↔ inTime) := by
  obtain ⟨q, hq, hstatus⟩ := h
  exact ⟨q, hq, ⟨fun _ => hinTime, fun _ => hstatus⟩⟩

theorem completes_of_quiet {α β : Type} {request : Request} {mid : α → Prop}
    {p : Program α} {f : α → Program β} (hp : p.Quiet (act i request) mid)
    (hturns : Undisturbed turns payment.id)
    (hrow : store.payments.row payment.id = some payment)
    (h : ∀ value k t, Undisturbed (fun n => turns (n + k)) payment.id →
      t.payments.row payment.id = some payment →
      Completes i request payment.id (f value) (fun n => turns (n + k)) t) :
    Completes i request payment.id (p >>= f) turns store := by
  obtain ⟨value, k, t, _, ht, hrun⟩ := hp.run_bind f
    (fun n store h => (hturns.leaves n store).trans h) hrow
  rw [Completes, hrun]
  exact h value k t (hturns.shift k) ht

theorem completes_markCompleted {α : Type} {request : Request} {eventId : String}
    {confirmedAt : Int} {messages : List PendingMessage}
    {f : Except String (Option Payment × Bool) → Program α}
    (hturns : Undisturbed turns payment.id)
    (hrow : store.payments.row payment.id = some payment)
    (hopen : payment.paymentStatus ∈ [.pending, .processing, .failed])
    (hf : ∀ reply, ∃ value, f reply = pure value) :
    Completes i request payment.id
      (call (.markCompleted payment.id eventId confirmedAt messages) >>= f) turns
        store := by
  obtain ⟨reply, t, q, hact, hq, hstatus⟩ := act_markCompleted
    (hturns.succeeds 0) hrow hopen i request eventId confirmedAt messages
  obtain ⟨value, hvalue⟩ := hf reply
  have hturn : disturbed (act i request) store
      (.markCompleted payment.id eventId confirmedAt messages) (turns 0) =
        (reply, (turns 0).2 t) := by
    rw [disturbed, hact]
  rw [Completes, run_perform_bind hturn, hvalue]
  exact ⟨q, (hturns.leaves 0 t).trans hq, hstatus⟩

theorem completed_iff_inTime (hturns : Undisturbed turns payment.id)
    (hnames : Names store envelope.payload payment) :
    ∃ q, (runCallback s i envelope turns store).2.payments.row payment.id = some q ∧
      (q.paymentStatus = .completed ↔
        InTime s (turns 1).1.now envelope.payload.occurredAt) := by
  have hrow := (store.payments.mem_rows_iff payment).mp
    (List.mem_of_find?_eq_some hnames.found)
  have hstatus : payment.paymentStatus ≠ .completed := by
    intro hcompleted
    have hopen := hnames.isOpen
    simp [hcompleted] at hopen
  have hkeep : ∀ n store, store.payments.row payment.id = some payment →
      ((turns n).2 store).payments.row payment.id = some payment :=
    fun n store h => (hturns.leaves n store).trans h
  have hread : disturbed (act i (.callbackConfirmed envelope)) store
      (.findByReference envelope.payload.paymentReference) (turns 0) =
        (.ok (some payment), (turns 0).2 store) := by
    simp only [disturbed, act, readCall, hturns.succeeds, hnames.found]
  rw [runCallback, handleCallbackConfirmed, run_perform_bind hread]
  have hkept := hkeep 0 store hrow
  cases hparse : parseRFC3339Nano envelope.payload.occurredAt with
  | none =>
      refine ⟨payment, hkept, iff_of_false hstatus ?_⟩
      rintro ⟨eventTime, hsome, _⟩
      rw [hparse] at hsome
      cases hsome
  | some eventTime =>
      have hinTime : InTime s (turns 1).1.now envelope.payload.occurredAt ↔
          absDuration (sub (turns 1).1.now eventTime) ≤ s.config.webhookTolerance := by
        simp [InTime, hparse]
      have hclock : disturbed (act i (.callbackConfirmed envelope))
          ((turns 0).2 store) .timeNow (turns (0 + 1)) =
            ((turns 1).1.now, (turns 1).2 ((turns 0).2 store)) := rfl
      have hkept := hkeep 1 _ hkept
      dsimp only
      rw [hinTime, run_perform_bind hclock]
      by_cases hrecent : absDuration (sub (turns 1).1.now eventTime) ≤
          s.config.webhookTolerance
      · have hconsistent : ¬ (payment.amount ≠ envelope.payload.amount ∨
            payment.currency ≠ envelope.payload.currency) := by
          simp [hnames.amount, hnames.currency]
        have hunexpired : ¬ payment.expiresAt < eventTime :=
          not_lt_of_ge (hnames.expiry eventTime hparse)
        rw [if_neg (not_lt_of_ge hrecent), if_neg hconsistent, if_neg hunexpired]
        refine Completes.completed_iff ?_ hrecent
        refine completes_of_quiet (quiet_statusMessages (fun _ _ => rfl)
          (fun _ _ => rfl) _ _ _ _ _) (hturns.shift 2) hkept fun messages k t hturns hkept => ?_
        refine completes_of_quiet (quiet_pendingMessage (fun _ _ => rfl)
          (fun _ _ => rfl) _ _) hturns hkept
          fun message l t hturns hkept => ?_
        refine completes_markCompleted hturns hkept hnames.isOpen fun reply => ?_
        cases reply <;> exact ⟨_, rfl⟩
      · rw [if_pos (lt_of_not_ge hrecent)]
        exact ⟨payment, hkept, iff_of_false hstatus hrecent⟩

end Run

end Modularis.Payments.CallbackRun
