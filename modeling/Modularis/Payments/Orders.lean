import Modularis.Payments.Refusals

namespace Modularis.Payments.Orders

open Modularis.Foundation
open Modularis.Foundation.Program
open Modularis.Shared.Messaging
open Modularis.Shared.Text
open Modularis.Payments.Models
open Modularis.Payments.Repository
open Modularis.Payments.Operations
open Modularis.Payments.Handlers
open Modularis.Payments.Effects
open Modularis.Payments.Aggregate
open Modularis.Payments.Changes
open Modularis.Payments.Uniqueness (Stored Kept stored_created)
open Modularis.Payments.Settlement (kept_of_changed)
open Modularis.Payments.Refusals (Supported)

/-- The payment is what the command has asked for. -/
structure OrderedBy (s : Service) (payload : PaymentCreateCommandPayload)
    (payment : Payment) : Prop where
  idempotencyKey : payment.idempotencyKey = payload.idempotencyKey
  requestHash : payment.requestHash = payload.requestHash
  userId : payment.userId = payload.userId
  amount : payment.amount = payload.amount
  currency : payment.currency = toUpper s.unicodeToUpper payload.currency
  supported : Supported s payload.currency

theorem OrderedBy.same {s : Service} {payload : PaymentCreateCommandPayload}
    {p q : Payment} (h : OrderedBy s payload p) (hsame : SameIdentity p q) :
    OrderedBy s payload q where
  idempotencyKey := hsame.idempotencyKey.trans h.idempotencyKey
  requestHash := hsame.requestHash.trans h.requestHash
  userId := hsame.userId.trans h.userId
  amount := hsame.amount.trans h.amount
  currency := hsame.currency.trans h.currency
  supported := h.supported

/-- What an invocation inserts is to the order of its command. -/
def Places (s : Service) (request : Request) : Op → Prop
  | .create payment =>
      ∃ envelope, request = .createPayment envelope ∧ OrderedBy s envelope.payload payment
  | _ => True

section Calls

variable {s : Service}

theorem places_rpcResponse (request : Request) (command : Envelope PaymentCreateCommandPayload)
    (response : RpcResponse) : (rpcResponse command response).Calls (Places s request) :=
  ⟨trivial, fun _ => ⟨trivial, fun _ => trivial⟩⟩

theorem places_createPayment (envelope : Envelope PaymentCreateCommandPayload) :
    (createPayment s envelope).Calls (Places s (.createPayment envelope)) := by
  refine ⟨trivial, fun reply => ?_⟩
  match reply with
  | .error _ => exact places_rpcResponse _ _ _
  | .ok (some existing) =>
      change Program.Calls _ (if _ then _ else _)
      split
      · exact places_rpcResponse _ _ _
      · exact places_rpcResponse _ _ _
  | .ok none =>
      change Program.Calls _ (if _ then _ else _)
      split
      · exact places_rpcResponse _ _ _
      · rename_i hcurrency
        refine ⟨trivial, fun _ => ⟨trivial, fun _ => ⟨trivial, fun _ => ⟨trivial,
          fun reply => ?_⟩⟩⟩⟩
        match reply with
        | .error _ => exact places_rpcResponse _ _ _
        | .ok intent =>
            refine ⟨trivial, fun _ => (calls_pendingMessage trivial trivial _ _).bind
              fun _ => ⟨⟨envelope, rfl, rfl, rfl, rfl, rfl, rfl, not_not.mp hcurrency⟩,
                fun reply => ?_⟩⟩
            cases reply with
            | error => exact places_rpcResponse _ _ _
            | ok => exact places_rpcResponse _ _ _

theorem places_program (request : Request) :
    (program s request).Calls (Places s request) := by
  cases request with
  | createPayment envelope => exact (places_createPayment envelope).bind fun _ => trivial
  | processRequested | callbackConfirmed | deliveryRequested =>
      refine (calls_program s _).mono fun op hop => ?_
      cases op with
      | create => exact hop.elim
      | _ => exact trivial

end Calls

/-- What a call of an invocation does to the payments: they stay, and a new one is to
the order of its command. -/
structure Adds (s : Service) (request : Request) (σ τ : Store) : Prop where
  kept : Kept σ τ
  new : ∀ q, Stored τ q → (∃ p, Stored σ p ∧ SameIdentity p q) ∨
    ∃ envelope, request = .createPayment envelope ∧ OrderedBy s envelope.payload q

theorem Adds.refl (s : Service) (request : Request) (σ : Store) : Adds s request σ σ where
  kept := .refl σ
  new := fun q hq => .inl ⟨q, hq, .refl q⟩

theorem adds_of_changed {s : Service} {i : String} {request : Request} {σ τ : Store}
    {choice : Choice} {op : Op} (hop : Places s request op)
    (h : Changed i request σ choice op τ) : Adds s request σ τ := by
  refine ⟨kept_of_changed h, fun q hq => ?_⟩
  cases h with
  | kept => exact .inl ⟨q, hq, .refl q⟩
  | @created payment hcreate hnew =>
      subst hcreate
      have hid : σ.payments.row
          (Payment.stored (stamped payment choice.newId choice.now)).id = none :=
        row_of_not_duplicate hnew
      rw [create, hnew, if_neg Bool.false_ne_true, stored_created hid] at hq
      rcases hq with rfl | hold
      · obtain ⟨envelope, hrequest, hordered⟩ := hop
        exact .inr ⟨envelope, hrequest, hordered.idempotencyKey, hordered.requestHash,
          hordered.userId, hordered.amount, hordered.currency, hordered.supported⟩
      · exact .inl ⟨q, hold, .refl q⟩
  | @updated payment update hupdate hrow _ =>
      rw [Stored, row_updated hrow] at hq
      split at hq
      · obtain rfl := Option.some.inj hq
        exact .inl ⟨payment, hrow, sameIdentity_of_update hupdate payment⟩
      · exact .inl ⟨q, hq, .refl q⟩

/-- Each call keeps the payments that there are and adds those of its own command. -/
def rules (s : Service) : Pool.Rules act where
  inv := fun _ => True
  rely := fun _ => Kept
  guar := fun _ => Adds s
  ready := fun _ _ => True
  rely_refl := fun _ => .refl
  rely_trans := fun _ _ _ _ => .trans
  guar_refl := fun _ => Adds.refl s
  inv_of_guar := fun _ _ _ _ _ _ => trivial
  rely_of_guar := fun _ _ _ _ _ _ _ h => h.kept
  ready_of_rely := fun _ _ _ _ _ => trivial

/-- Nothing is asked of the answers here. -/
def Replied (_ : String) (_ : Request) (_ : Answer) (_ : Store) : Prop := True

/-- Every handler follows the rules. -/
abbrev Sound (s : Service) (world : Interleaving.World) : Prop :=
  Pool.Orderly (rules s) Replied world

section Steps

variable {s : Service} {world next : Interleaving.World}

theorem sound_init : Sound s Interleaving.World.init :=
  Pool.orderly_init trivial fun _ => trivial

theorem sound_of_step (h : Sound s world) {event : Interleaving.Event}
    (hstep : Interleaving.step s world event = some next) :
    Sound s next ∧ Pool.Moved (rules s) world next.shared := by
  refine h.step (fun i request σ _ _ => ?_) hstep
  exact (places_program request).safe
    (fun op hop τ _ choice => adds_of_changed hop (changed_act i request τ op choice))
    fun _ _ _ => trivial

end Steps

end Modularis.Payments.Orders
