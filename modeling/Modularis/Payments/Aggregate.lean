import Modularis.Payments.Effects

namespace Modularis.Payments.Aggregate

open Modularis.Foundation
open Modularis.Payments.Models
open Modularis.Payments.Repository
open Modularis.Payments.Operations
open Modularis.Payments.Effects

/-- The moves between statuses that a write can make. -/
inductive StatusMove : PaymentStatus → PaymentStatus → Prop
  | reserve : StatusMove .pending .processing
  | fail : StatusMove .processing .failed
  | complete {status : PaymentStatus} :
      status ∈ [.pending, .processing, .failed] → StatusMove status .completed
  | expire {status : PaymentStatus} :
      status ∈ [.pending, .processing, .failed] → StatusMove status .expired

/-- The fields that a payment keeps from its creation on. -/
structure SameIdentity (p q : Payment) : Prop where
  id : q.id = p.id
  userId : q.userId = p.userId
  paymentReference : q.paymentReference = p.paymentReference
  amount : q.amount = p.amount
  currency : q.currency = p.currency
  expiresAt : q.expiresAt = p.expiresAt
  idempotencyKey : q.idempotencyKey = p.idempotencyKey
  requestHash : q.requestHash = p.requestHash

/-- How the fields of a payment hang together. -/
structure AggregateOk (payment : Payment) : Prop where
  confirmed : payment.confirmedAt.isSome ↔ payment.paymentStatus = .completed
  started :
    payment.processingStartedAt.isSome ↔ payment.paymentStatus = .processing
  delivery : payment.deliveryStatus = .pending ∨
    payment.deliveryStatus = .delivered ∧ payment.paymentStatus = .completed
  attempts : payment.processingAttempts ≤ 1
  unattempted : payment.paymentStatus = .pending → payment.processingAttempts = 0

theorem AggregateOk.delivery_pending {payment : Payment}
    (h : AggregateOk payment) (hstatus : payment.paymentStatus ≠ .completed) :
    payment.deliveryStatus = .pending :=
  h.delivery.resolve_right fun hdelivered => hstatus hdelivered.2

theorem AggregateOk.not_confirmed {payment : Payment}
    (h : AggregateOk payment) (hstatus : payment.paymentStatus ≠ .completed) :
    ¬ payment.confirmedAt.isSome :=
  fun hconfirmed => hstatus (h.confirmed.mp hconfirmed)

theorem aggregateOk_of_fresh {payment : Payment} (h : Fresh payment) :
    AggregateOk payment where
  confirmed := by simp [h.confirmed, h.status]
  started := by simp [h.started, h.status]
  delivery := .inl h.delivery
  attempts := by simp [h.attempts]
  unattempted := fun _ => h.attempts

theorem SameIdentity.refl (payment : Payment) : SameIdentity payment payment :=
  ⟨rfl, rfl, rfl, rfl, rfl, rfl, rfl, rfl⟩

theorem SameIdentity.trans {p q r : Payment} (hpq : SameIdentity p q)
    (hqr : SameIdentity q r) : SameIdentity p r where
  id := hqr.id.trans hpq.id
  userId := hqr.userId.trans hpq.userId
  paymentReference := hqr.paymentReference.trans hpq.paymentReference
  amount := hqr.amount.trans hpq.amount
  currency := hqr.currency.trans hpq.currency
  expiresAt := hqr.expiresAt.trans hpq.expiresAt
  idempotencyKey := hqr.idempotencyKey.trans hpq.idempotencyKey
  requestHash := hqr.requestHash.trans hpq.requestHash

/-- What at most one write does to a payment. -/
structure Moves (p q : Payment) : Prop where
  same : SameIdentity p q
  status : q.paymentStatus = p.paymentStatus ∨
    StatusMove p.paymentStatus q.paymentStatus

theorem Moves.refl (payment : Payment) : Moves payment payment where
  same := .refl payment
  status := .inl rfl

/-- A later state of the same payment. -/
structure Later (p q : Payment) : Prop where
  same : SameIdentity p q
  path : Relation.ReflTransGen StatusMove p.paymentStatus q.paymentStatus

theorem Later.refl (payment : Payment) : Later payment payment where
  same := .refl payment
  path := .refl

theorem Later.trans {p q r : Payment} (hpq : Later p q) (hqr : Later q r) :
    Later p r where
  same := hpq.same.trans hqr.same
  path := hpq.path.trans hqr.path

theorem Moves.later {p q : Payment} (h : Moves p q) : Later p q where
  same := h.same
  path := by
    rcases h.status with hkept | hmove
    · rw [hkept]
    · exact .single hmove

theorem eq_of_final {status status' : PaymentStatus}
    (hpath : Relation.ReflTransGen StatusMove status status')
    (hfinal : status = .completed ∨ status = .expired) : status' = status := by
  rcases Relation.ReflTransGen.cases_head hpath with heq | ⟨next, hmove, _⟩
  · exact heq.symm
  · rcases hfinal with rfl | rfl
    · cases hmove with
      | complete hopen | expire hopen => simp at hopen
    · cases hmove with
      | complete hopen | expire hopen => simp at hopen

theorem isOpen_iff {payment : Payment} :
    isOpen payment = true ↔
      payment.paymentStatus ∈ [.pending, .processing, .failed] :=
  decide_eq_true_iff

theorem ne_completed_of_isOpen {payment : Payment} (h : isOpen payment = true) :
    payment.paymentStatus ≠ .completed := by
  intro hcompleted
  have hopen := isOpen_iff.mp h
  simp [hcompleted] at hopen

section Permitted

variable {store : Store} {invocation : String} {request : Request}
  {payment : Payment} {update : Update}

theorem move_of_permitted
    (hpermitted : Permitted store invocation request payment update)
    (hfilter : update.filter payment = true) :
    (update.apply payment).paymentStatus = payment.paymentStatus ∨
      StatusMove payment.paymentStatus (update.apply payment).paymentStatus := by
  cases hpermitted with
  | reserve now =>
      rw [show payment.paymentStatus = .pending from (of_decide_eq_true hfilter).1]
      exact .inr .reserve
  | announce | simulate | deliver => exact .inl rfl
  | fail reason now =>
      rw [show payment.paymentStatus = .processing from of_decide_eq_true hfilter]
      exact .inr .fail
  | expire now => exact .inr (.expire (isOpen_iff.mp hfilter))
  | complete confirmedAt now => exact .inr (.complete (isOpen_iff.mp hfilter))

theorem sameIdentity_of_permitted
    (hpermitted : Permitted store invocation request payment update) :
    SameIdentity payment (update.apply payment) := by
  cases hpermitted with
  | _ => exact ⟨rfl, rfl, rfl, rfl, rfl, rfl, rfl, rfl⟩

theorem moves_of_permitted
    (hpermitted : Permitted store invocation request payment update)
    (hfilter : update.filter payment = true) :
    Moves payment (update.apply payment) where
  same := sameIdentity_of_permitted hpermitted
  status := move_of_permitted hpermitted hfilter

theorem aggregateOk_of_permitted (h : AggregateOk payment)
    (hpermitted : Permitted store invocation request payment update)
    (hfilter : update.filter payment = true) :
    AggregateOk (update.apply payment) := by
  cases hpermitted with
  | reserve now =>
      obtain ⟨hpending, _⟩ := of_decide_eq_true hfilter
      have hstatus : payment.paymentStatus ≠ .completed := by simp [hpending]
      exact
        { confirmed := iff_of_false (h.not_confirmed hstatus) nofun
          started := ⟨fun _ => rfl, fun _ => rfl⟩
          delivery := .inl (h.delivery_pending hstatus)
          attempts := by
            change payment.processingAttempts + 1 ≤ 1
            rw [h.unattempted hpending]
          unattempted := nofun }
  | announce | simulate =>
      exact
        { confirmed := h.confirmed
          started := h.started
          delivery := h.delivery
          attempts := h.attempts
          unattempted := h.unattempted }
  | fail reason now =>
      have hprocessing : payment.paymentStatus = .processing :=
        of_decide_eq_true hfilter
      have hstatus : payment.paymentStatus ≠ .completed := by simp [hprocessing]
      exact
        { confirmed := iff_of_false (h.not_confirmed hstatus) nofun
          started := iff_of_false nofun nofun
          delivery := .inl (h.delivery_pending hstatus)
          attempts := h.attempts
          unattempted := nofun }
  | expire now =>
      have hstatus := ne_completed_of_isOpen hfilter
      exact
        { confirmed := iff_of_false (h.not_confirmed hstatus) nofun
          started := iff_of_false nofun nofun
          delivery := .inl (h.delivery_pending hstatus)
          attempts := h.attempts
          unattempted := nofun }
  | complete confirmedAt now =>
      have hstatus := ne_completed_of_isOpen hfilter
      exact
        { confirmed := ⟨fun _ => rfl, fun _ => rfl⟩
          started := iff_of_false nofun nofun
          delivery := .inl (h.delivery_pending hstatus)
          attempts := h.attempts
          unattempted := nofun }
  | deliver now =>
      obtain ⟨hcompleted, _⟩ := of_decide_eq_true hfilter
      exact
        { confirmed := h.confirmed
          started := h.started
          delivery := .inr ⟨rfl, hcompleted⟩
          attempts := h.attempts
          unattempted := h.unattempted }

end Permitted

end Modularis.Payments.Aggregate
