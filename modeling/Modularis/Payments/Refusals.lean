import Modularis.Payments.Settlement

namespace Modularis.Payments.Refusals

open Modularis.Foundation
open Modularis.Foundation.Program
open Modularis.Shared.Messaging
open Modularis.Shared.Text
open Modularis.Payments.Models
open Modularis.Payments.Repository
open Modularis.Payments.Operations
open Modularis.Payments.Handlers
open Modularis.Payments.Effects
open Modularis.Payments.Aggregate
open Modularis.Payments.Changes
open Modularis.Payments.Uniqueness (Stored Kept act_create stored_created)
open Modularis.Payments.Settlement (kept_of_changed)

/-- The currency is allowed. -/
def Supported (s : Service) (currency : String) : Prop :=
  toUpper s.unicodeToUpper currency ∈ s.config.allowedCurrencies

/-- The payment belongs to the key and the hash of the command, whose currency is allowed.
-/
structure MadeFor (s : Service) (payload : PaymentCreateCommandPayload)
    (payment : Payment) : Prop where
  idempotencyKey : payment.idempotencyKey = payload.idempotencyKey
  requestHash : payment.requestHash = payload.requestHash
  supported : Supported s payload.currency

theorem MadeFor.same {s : Service} {payload : PaymentCreateCommandPayload}
    {p q : Payment} (h : MadeFor s payload p) (hsame : SameIdentity p q) :
    MadeFor s payload q where
  idempotencyKey := hsame.idempotencyKey.trans h.idempotencyKey
  requestHash := hsame.requestHash.trans h.requestHash
  supported := h.supported

/-- What a call of an invocation does to the payments: they stay, and a new one is
made for the command of the invocation. -/
structure Makes (s : Service) (request : Request) (σ τ : Store) : Prop where
  kept : Kept σ τ
  new : ∀ q, Stored τ q → (∃ p, Stored σ p ∧ SameIdentity p q) ∨
    ∃ envelope, request = .createPayment envelope ∧ MadeFor s envelope.payload q

theorem Makes.refl (s : Service) (request : Request) (σ : Store) :
    Makes s request σ σ where
  kept := .refl σ
  new := fun q hq => .inl ⟨q, hq, .refl q⟩

/-- What the answer to a command says about its currency and about the payments. -/
def Explained (s : Service) (payload : PaymentCreateCommandPayload) (σ : Store) :
    RpcResponse → Prop
  | .success _ => ∃ payment, Stored σ payment ∧
      payment.idempotencyKey = payload.idempotencyKey ∧
      payment.requestHash = payload.requestHash
  | .error status _ _ _ => 500 ≤ status ∨
      (status = 400 ∧ ¬ Supported s payload.currency) ∨
      (status = 409 ∧ ∃ payment, Stored σ payment ∧
        payment.idempotencyKey = payload.idempotencyKey ∧
        payment.requestHash ≠ payload.requestHash)

theorem Explained.mono {s : Service} {payload : PaymentCreateCommandPayload}
    {σ τ : Store} {response : RpcResponse} (h : Explained s payload σ response)
    (hkept : Kept σ τ) : Explained s payload τ response := by
  cases response with
  | success data =>
      obtain ⟨p, hp, hkey, hhash⟩ := h
      obtain ⟨q, hq, hsame⟩ := hkept p hp
      exact ⟨q, hq, hsame.idempotencyKey.trans hkey, hsame.requestHash.trans hhash⟩
  | error status title detail code =>
      rcases h with hfailure | hcurrency | ⟨hstatus, p, hp, hkey, hhash⟩
      · exact .inl hfailure
      · exact .inr (.inl hcurrency)
      · obtain ⟨q, hq, hsame⟩ := hkept p hp
        exact .inr (.inr ⟨hstatus, q, hq, hsame.idempotencyKey.trans hkey,
          fun hother => hhash (hsame.requestHash.symm.trans hother)⟩)

section Calls

variable {s : Service} {i : String} {request : Request} {σ τ : Store}
  {choice : Choice} {op : Op}

/-- The record that the call stores is made for the command of the invocation. -/
def MakesCall (s : Service) (request : Request) : Op → Prop
  | .create payment =>
      ∃ envelope, request = .createPayment envelope ∧ MadeFor s envelope.payload payment
  | _ => True

theorem makes_of_changed (hop : MakesCall s request op)
    (h : Changed i request σ choice op τ) : Makes s request σ τ := by
  refine ⟨kept_of_changed h, fun q hq => ?_⟩
  cases h with
  | kept => exact .inl ⟨q, hq, .refl q⟩
  | @created payment hcreate hnew =>
      subst hcreate
      have hid : σ.payments.row
          (Payment.stored (stamped payment choice.newId choice.now)).id = none :=
        row_of_not_duplicate hnew
      rw [create, hnew, if_neg Bool.false_ne_true, stored_created hid] at hq
      rcases hq with rfl | hold
      · obtain ⟨envelope, hrequest, hmade⟩ := hop
        exact .inr ⟨envelope, hrequest, hmade.idempotencyKey, hmade.requestHash,
          hmade.supported⟩
      · exact .inl ⟨q, hold, .refl q⟩
  | @updated payment update hupdate hrow _ =>
      rw [Stored, row_updated hrow] at hq
      split at hq
      · obtain rfl := Option.some.inj hq
        exact .inl ⟨payment, hrow, sameIdentity_of_update hupdate payment⟩
      · exact .inl ⟨q, hq, .refl q⟩

end Calls

/-- Each call keeps the payments that there are and makes those of its own command. -/
def rules (s : Service) : Pool.Rules act where
  inv := fun _ => True
  rely := fun _ => Kept
  guar := fun _ => Makes s
  ready := fun _ _ => True
  rely_refl := fun _ => .refl
  rely_trans := fun _ _ _ _ => .trans
  guar_refl := fun _ => Makes.refl s
  inv_of_guar := fun _ _ _ _ _ _ => trivial
  rely_of_guar := fun _ _ _ _ _ _ _ h => h.kept
  ready_of_rely := fun _ _ _ _ _ => trivial

section Handlers

variable {s : Service} {i : String} {request : Request} {σ : Store} {α : Type}

abbrev Keeps (s : Service) (i : String) (request : Request)
    (post : α → Store → Prop) (p : Program α) (σ : Store) : Prop :=
  p.Safe ((rules s).contract i request) post σ

theorem keeps_call {post : α → Store → Prop} {op : Op} {f : Reply op → Program α}
    (hop : MakesCall s request op)
    (h : ∀ reply τ, Keeps s i request post (f reply) τ) :
    Keeps s i request post (call op >>= f) σ :=
  safe_perform_bind fun τ _ _ choice =>
    ⟨makes_of_changed hop (changed_act i request τ op choice), h _ _⟩

theorem keeps_findByIdempotencyKey {post : α → Store → Prop} {idempotencyKey : String}
    {f : Except String (Option Payment) → Program α}
    (herror : ∀ error τ, Keeps s i request post (f (.error error)) τ)
    (hnone : ∀ τ, Keeps s i request post (f (.ok none)) τ)
    (h : ∀ payment τ, Stored τ payment → payment.idempotencyKey = idempotencyKey →
      Keeps s i request post (f (.ok (some payment))) τ) :
    Keeps s i request post (call (.findByIdempotencyKey idempotencyKey) >>= f) σ := by
  refine safe_perform_bind fun τ _ _ choice => ?_
  change Makes s request τ (readCall τ choice _).2 ∧
    Keeps s i request post (f (readCall τ choice _).1) (readCall τ choice _).2
  refine readCall_rule (fun error => ⟨.refl s request τ, herror error τ⟩)
    ⟨.refl s request τ, ?_⟩
  cases hfind : findByIdempotencyKey τ.payments idempotencyKey with
  | none => exact hnone τ
  | some payment =>
      have hstored := List.mem_of_find?_eq_some hfind
      have hkey := List.find?_some hfind
      exact h payment τ ((τ.payments.mem_rows_iff payment).mp hstored)
        (of_decide_eq_true hkey)

theorem keeps_create {post : α → Store → Prop} {payment : Payment}
    {f : Except String Payment → Program α}
    (hop : MakesCall s request (.create payment))
    (herror : ∀ error τ, Keeps s i request post (f (.error error)) τ)
    (h : ∀ created stored τ, Stored τ stored →
      stored.idempotencyKey = payment.idempotencyKey →
      stored.requestHash = payment.requestHash →
      Keeps s i request post (f (.ok created)) τ) :
    Keeps s i request post (call (.create payment) >>= f) σ := by
  refine safe_perform_bind fun τ _ _ choice => ?_
  refine ⟨makes_of_changed hop (changed_act i request τ (.create payment) choice), ?_⟩
  change Keeps s i request post (f (act i request τ (.create payment) choice).1)
    (act i request τ (.create payment) choice).2
  rcases act_create payment choice with ⟨error, hact⟩ | ⟨hnew, hact⟩
  · rw [hact]
    exact herror error τ
  · have hid : τ.payments.row
        (Payment.stored (stamped payment choice.newId choice.now)).id = none :=
      row_of_not_duplicate hnew
    rw [hact, create, hnew, if_neg Bool.false_ne_true]
    exact h _ _ _ ((stored_created hid _).mpr (.inl rfl)) rfl rfl

theorem keeps_rpcResponse {command : Envelope PaymentCreateCommandPayload}
    {response : RpcResponse} (h : Explained s command.payload σ response) :
    Keeps s i request (fun answer τ => Explained s command.payload τ answer.payload)
      (rpcResponse command response) σ := by
  have hquiet : (rpcResponse command response).Quiet (act i request)
      fun answer => answer.payload = response :=
    ⟨fun _ _ => rfl, fun _ => ⟨fun _ _ => rfl, fun _ => rfl⟩⟩
  refine hquiet.safe_of_rely fun answer τ hkept _ hanswer => ?_
  rw [hanswer]
  exact h.mono hkept

theorem keeps_pendingMessage {post : α → Store → Prop} {routingKey : String}
    {body : Body} {f : PendingMessage → Program α}
    (h : ∀ message τ, Keeps s i request post (f message) τ) :
    Keeps s i request post (pendingMessage s routingKey body >>= f) σ :=
  Quiet.safe_bind
    (quiet_pendingMessage (fun _ _ => rfl) (fun _ _ => rfl) routingKey body) trivial
    fun message τ _ _ _ => h message τ

theorem keeps_createPayment (envelope : Envelope PaymentCreateCommandPayload) :
    Keeps s i (.createPayment envelope)
      (fun answer τ => Explained s envelope.payload τ answer.payload)
      (createPayment s envelope) σ := by
  refine keeps_findByIdempotencyKey (fun _ τ => ?_) (fun τ => ?_)
    fun existing τ hstored hkey => ?_
  · exact keeps_rpcResponse (.inl (by decide))
  · change Keeps s i _ _ (if _ then _ else _) τ
    split
    · rename_i hcurrency
      exact keeps_rpcResponse (.inr (.inl ⟨rfl, hcurrency⟩))
    · rename_i hcurrency
      rw [not_not] at hcurrency
      refine keeps_call trivial fun id τ => ?_
      refine keeps_call trivial fun reference τ => ?_
      refine keeps_call trivial fun now τ => ?_
      refine keeps_call trivial fun reply τ => ?_
      cases reply with
      | error => exact keeps_rpcResponse (.inl (by decide))
      | ok intent =>
          refine keeps_call trivial fun occurredAt τ => ?_
          refine keeps_pendingMessage fun message τ => ?_
          refine keeps_create ⟨envelope, rfl, rfl, rfl, hcurrency⟩ ?_ ?_
          · exact fun _ _ => keeps_rpcResponse (.inl (by decide))
          · exact fun _ stored τ hstored hkey hhash =>
              keeps_rpcResponse ⟨stored, hstored, hkey, hhash⟩
  · change Keeps s i _ _ (if _ then _ else _) τ
    split
    · rename_i hhash
      exact keeps_rpcResponse (.inr (.inr ⟨rfl, existing, hstored, hkey, hhash⟩))
    · rename_i hhash
      exact keeps_rpcResponse ⟨existing, hstored, hkey, not_not.mp hhash⟩

/-- The answer to a command is explained. -/
def Replied (s : Service) (_ : String) (request : Request) (answer : Answer)
    (σ : Store) : Prop :=
  ∀ envelope reply, request = .createPayment envelope → answer = .replied reply →
    Explained s envelope.payload σ reply.payload

theorem keeps_program (request : Request) :
    Keeps s i request (Replied s i request) (program s request) σ := by
  by_cases hcommand : ∃ envelope, request = .createPayment envelope
  · obtain ⟨envelope, rfl⟩ := hcommand
    refine (keeps_createPayment envelope).bind trivial fun reply τ _ hexplained => ?_
    rintro υ hkept _ _ _ ⟨⟩ ⟨⟩
    exact hexplained.mono hkept
  · refine (calls_program s request).safe (fun op hop τ _ choice => ?_) ?_
    · refine makes_of_changed ?_ (changed_act i request τ op choice)
      cases op with
      | create =>
          cases request with
          | createPayment envelope => exact absurd ⟨envelope, rfl⟩ hcommand
          | _ => exact hop.elim
      | _ => exact trivial
    · exact fun _ _ _ envelope _ hrequest => absurd ⟨envelope, hrequest⟩ hcommand

end Handlers

/-- The handlers over one store: their answers are explained. -/
abbrev Sound (s : Service) (world : Interleaving.World) : Prop :=
  Pool.Orderly (rules s) (Replied s) world

section Steps

variable {s : Service} {world next : Interleaving.World}

theorem sound_init : Sound s Interleaving.World.init :=
  Pool.orderly_init trivial fun _ => trivial

theorem sound_of_step (h : Sound s world) {event : Interleaving.Event}
    (hstep : Interleaving.step s world event = some next) :
    Sound s next ∧ Pool.Moved (rules s) world next.shared :=
  h.step (fun _ request _ _ _ => keeps_program request) hstep

theorem explained_of_replied (h : Sound s world) {i : String}
    {envelope : Envelope PaymentCreateCommandPayload} {reply : Envelope RpcResponse}
    (hi : world.invocations i = some
      { request := .createPayment envelope, rest := some (.done (.replied reply)) }) :
    Explained s envelope.payload world.shared reply.payload := by
  have hfollows := h.follows i
  rw [hi] at hfollows
  exact hfollows world.shared (.refl _) trivial envelope reply rfl rfl

end Steps

end Modularis.Payments.Refusals
