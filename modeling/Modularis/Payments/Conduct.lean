import Modularis.Payments.Interleaving
import Modularis.Payments.Changes

namespace Modularis.Payments.Conduct

open Modularis.Foundation
open Modularis.Foundation.Program
open Modularis.Foundation.GoTime
open Modularis.Shared.Messaging
open Modularis.Payments.Models
open Modularis.Payments.Repository
open Modularis.Payments.Operations
open Modularis.Payments.Handlers
open Modularis.Payments.Effects
open Modularis.Payments.Aggregate
open Modularis.Payments.Ledger
open Modularis.Payments.Interleaving
open Modularis.Payments.Changes

variable {s : Service} {i : String} {request : Request} {σ : Store}
  {α β : Type}

/-- Safety of a program of the invocation `i`, whatever its value. -/
abbrev Keeps (i : String) (request : Request) (p : Program α) (σ : Store) : Prop :=
  p.Safe (rules.contract i request) (fun _ _ => True) σ

theorem keeps_pure (value : α) : Keeps i request (pure value : Program α) σ :=
  fun _ _ _ => trivial

section Calls

theorem keeps_call {op : Op} {f : Reply op → Program α}
    (h : ∀ τ choice, Interference i σ τ → StoreOk τ →
      Effect i request τ (act i request τ op choice).2 ∧
        Keeps i request (f (act i request τ op choice).1)
          (act i request τ op choice).2) :
    Keeps i request (call op >>= f) σ :=
  safe_perform_bind fun τ hτ hok choice => h τ choice hτ hok

theorem keeps_ask {op : Op} {f : Reply op → Program α}
    (hop : ∀ τ choice, (act i request τ op choice).2 = τ)
    (h : ∀ reply τ, Interference i σ τ → StoreOk τ →
      Keeps i request (f reply) τ) :
    Keeps i request (call op >>= f) σ := by
  refine keeps_call fun τ choice hτ hok => ?_
  rw [hop]
  exact ⟨.kept, h _ τ hτ hok⟩

theorem keeps_readCall {f : Except String β → Program α} {choice : Choice}
    {answer : β} (herror : ∀ error, Keeps i request (f (.error error)) σ)
    (h : Keeps i request (f (.ok answer)) σ) :
    Effect i request σ (readCall σ choice answer).2 ∧
      Keeps i request (f (readCall σ choice answer).1)
        (readCall σ choice answer).2 :=
  readCall_rule (fun error => ⟨.kept, herror error⟩) ⟨.kept, h⟩

theorem keeps_writeCall {f : Except String β → Program α} {choice : Choice}
    {result : Option Write × Collection} {answer : Option Write → Except String β}
    (heffect : Effect i request σ (σ.record i request result))
    (herror : ∀ error, Keeps i request (f (.error error)) σ)
    (h : Keeps i request (f (answer result.1)) (σ.record i request result)) :
    Effect i request σ (writeCall i request σ choice result answer).2 ∧
      Keeps i request (f (writeCall i request σ choice result answer).1)
        (writeCall i request σ choice result answer).2 :=
  writeCall_rule (fun error => ⟨.kept, herror error⟩) ⟨heffect, h⟩

theorem keeps_findByIdempotencyKey {idempotencyKey : String}
    {f : Except String (Option Payment) → Program α}
    (h : ∀ reply τ, StoreOk τ → Keeps i request (f reply) τ) :
    Keeps i request (call (.findByIdempotencyKey idempotencyKey) >>= f) σ :=
  keeps_call fun τ _ _ hok =>
    keeps_readCall (fun _ => h _ τ hok) (h _ τ hok)

theorem keeps_findById {paymentId : String}
    {f : Except String (Option Payment) → Program α}
    (herror : ∀ error τ, Keeps i request (f (.error error)) τ)
    (h : ∀ answer τ, Interference i σ τ → StoreOk τ →
      findById τ.payments paymentId = answer → Keeps i request (f (.ok answer)) τ) :
    Keeps i request (call (.findById paymentId) >>= f) σ :=
  keeps_call fun τ _ hτ hok =>
    keeps_readCall (fun error => herror error τ) (h _ τ hτ hok rfl)

theorem keeps_findByReference {reference : String}
    {f : Except String (Option Payment) → Program α}
    (herror : ∀ error τ, Keeps i request (f (.error error)) τ)
    (h : ∀ answer τ, Interference i σ τ → StoreOk τ →
      findByReference τ.payments reference = answer →
      Keeps i request (f (.ok answer)) τ) :
    Keeps i request (call (.findByReference reference) >>= f) σ :=
  keeps_call fun τ _ hτ hok =>
    keeps_readCall (fun error => herror error τ) (h _ τ hτ hok rfl)

theorem keeps_reserve {paymentId : String} {now : Int}
    {f : Except String (Option Payment) → Program α} (hunused : Unused i σ)
    (herror : ∀ error τ, Keeps i request (f (.error error)) τ)
    (hnone : ∀ τ, Keeps i request (f (.ok none)) τ)
    (h : ∀ copy τ, StoreOk τ → Known copy τ → copy.paymentStatus = .processing →
      Holds τ i copy.id → Keeps i request (f (.ok (some copy))) τ) :
    Keeps i request (call (.reserveForProcessing paymentId now) >>= f) σ := by
  refine keeps_call fun τ choice hτ hok => ?_
  have heffect : Effect i request τ (τ.record i request
      (findOneAndUpdate τ.payments paymentId (reserveUpdate now))) :=
    effect_findOneAndUpdate fun _ _ _ => .reserve now
  refine keeps_writeCall heffect (fun error => herror error τ) ?_
  rcases findOneAndUpdate_cases τ.payments paymentId (reserveUpdate now) with
    hmissing | ⟨p, hrow, rfl, hfilter⟩
  · rw [hmissing]
    exact hnone _
  · rw [findOneAndUpdate_of_filter hrow hfilter] at heffect ⊢
    have hafter := storeOk_of_effect hok heffect
    refine h _ _ hafter ?_ rfl (holds_of_reserved (hunused.mono hτ) hfilter)
    exact known_of_row hafter ((row_updated hrow p.id).trans (if_pos rfl))

theorem keeps_enqueue {paymentId : String} {message : PendingMessage}
    {f : Except String Unit → Program α}
    (hpermitted : ∀ now τ p, Interference i σ τ → StoreOk τ →
      τ.payments.row paymentId = some p →
      Permitted τ i request p (enqueueUpdate [message] now))
    (herror : ∀ error τ, Keeps i request (f (.error error)) τ)
    (h : ∀ τ, StoreOk τ → Grows σ τ → Keeps i request (f (.ok ())) τ) :
    Keeps i request (call (.enqueueMessages paymentId [message]) >>= f) σ := by
  refine keeps_call fun τ choice hτ hok => ?_
  have heffect : Effect i request τ (τ.record i request
      (findOneAndUpdate τ.payments paymentId (enqueueUpdate [message] choice.now))) :=
    effect_findOneAndUpdate fun p hrow _ => hpermitted choice.now τ p hτ hok hrow
  exact keeps_writeCall heffect (fun error => herror error τ)
    (h _ (storeOk_of_effect hok heffect) (hτ.grows.trans (grows_of_effect heffect)))

theorem keeps_create {payment : Payment} {f : Except String Payment → Program α}
    (hfresh : Fresh payment)
    (h : ∀ reply τ, StoreOk τ → Keeps i request (f reply) τ) :
    Keeps i request (call (.create payment) >>= f) σ := by
  refine keeps_call fun τ choice _ hok => ?_
  have heffect : Effect i request τ (τ.record i request
      (create τ.payments (stamped payment choice.newId choice.now))) :=
    effect_create (hfresh.stored choice.newId choice.now)
  exact keeps_writeCall heffect (fun _ => h _ τ hok)
    (h _ _ (storeOk_of_effect hok heffect))

theorem keeps_last {op : Op} {f : Reply op → Program α}
    (hf : ∀ reply, ∃ value, f reply = pure value)
    (h : ∀ τ choice, Interference i σ τ → StoreOk τ →
      Effect i request τ (act i request τ op choice).2) :
    Keeps i request (call op >>= f) σ := by
  refine keeps_call fun τ choice hτ hok => ⟨h τ choice hτ hok, ?_⟩
  obtain ⟨value, hvalue⟩ := hf (act i request τ op choice).1
  rw [hvalue]
  exact keeps_pure value

end Calls

section Messages

theorem keeps_pendingMessage {routingKey : String} {body : Body}
    {f : PendingMessage → Program α} (hok : StoreOk σ)
    (h : ∀ message τ, Interference i σ τ → StoreOk τ →
      message.routingKey = routingKey → message.body = body →
      Keeps i request (f message) τ) :
    Keeps i request (pendingMessage s routingKey body >>= f) σ :=
  Quiet.safe_bind
    (quiet_pendingMessage (fun _ _ => rfl) (fun _ _ => rfl) routingKey body) hok
    fun message τ hτ hok hmessage => h message τ hτ hok hmessage.1 hmessage.2

theorem keeps_statusMessages {copy : Payment} {status : PaymentStatus}
    {delivery : DeliveryStatus} {correlationId causationId : String}
    {f : List PendingMessage → Program α} (hok : StoreOk σ)
    (h : ∀ message τ, Interference i σ τ → StoreOk τ →
      Announces copy status delivery message → Keeps i request (f [message]) τ) :
    Keeps i request
      (statusMessages s copy status delivery correlationId causationId >>= f) σ := by
  refine Quiet.safe_bind (quiet_statusMessages (fun _ _ => rfl) (fun _ _ => rfl)
    copy status delivery _ _) hok ?_
  rintro _ τ hτ hok ⟨message, rfl, hannounces⟩
  exact h message τ hτ hok hannounces

theorem quiet_retryFrom (attempts delay backoff : Int) (payment : Payment)
    (attempt remaining : Nat) :
    (retryFrom attempts delay backoff
      (fun attempt => call (.process payment attempt)) attempt remaining).Quiet
        (act i request) fun _ => True := by
  induction remaining generalizing attempt with
  | zero => exact trivial
  | succ remaining ih =>
      refine ⟨fun _ _ => rfl, fun reply => ?_⟩
      match reply with
      | .ok _ => exact trivial
      | .error (.other _) => exact trivial
      | .error (.gateway _ false) => exact trivial
      | .error (.gateway _ true) =>
          change Quiet _ _ (if _ then _ else _)
          split
          · exact trivial
          · exact ⟨fun _ _ => rfl, fun _ => ih (attempt + 1)⟩

theorem keeps_rpcResponse (command : Envelope PaymentCreateCommandPayload)
    (response : RpcResponse) : Keeps i request (rpcResponse command response) σ := by
  have hquiet : (rpcResponse command response).Quiet (act i request) fun _ => True :=
    ⟨fun _ _ => rfl, fun _ => ⟨fun _ _ => rfl, fun _ => trivial⟩⟩
  exact hquiet.safe fun _ _ _ => trivial

end Messages

section Transitions

variable {copy : Payment} {choice : Choice} {message : PendingMessage}

theorem effect_markExpired (hknown : Known copy σ)
    (hannounces : Announces copy .expired copy.deliveryStatus message) :
    Effect i request σ
      (act i request σ (.markExpired copy.id [message]) choice).2 := by
  refine effect_writeCall (effect_findOneAndUpdate fun p hrow hopen => ?_)
  have hlater := hknown.later hrow
  rw [delivery_of_known hknown.ok hlater hopen] at hannounces
  exact .expire choice.now (announces_of_later hlater hannounces)

theorem effect_markFailed {reason : String} (hknown : Known copy σ)
    (hstatus : copy.paymentStatus = .processing)
    (hannounces : Announces copy .failed copy.deliveryStatus message) :
    Effect i request σ
      (act i request σ (.markFailed copy.id reason [message]) choice).2 := by
  refine effect_writeCall (effect_findOneAndUpdate fun p hrow _ => ?_)
  rw [hknown.ok.delivery_pending (by simp [hstatus])] at hannounces
  exact .fail reason choice.now (announces_of_later (hknown.later hrow) hannounces)

theorem effect_markCompleted
    {envelope : Envelope PaymentCallbackConfirmedPayload} {confirmedAt : Int}
    {delivery : PendingMessage} (hknown : Known copy σ)
    (hrequest : request = .callbackConfirmed envelope)
    (hannounces : Announces copy .completed copy.deliveryStatus message)
    (hdelivery : RequestsDelivery copy delivery) :
    Effect i request σ (act i request σ (.markCompleted copy.id
      envelope.payload.eventId confirmedAt [message, delivery]) choice).2 := by
  refine effect_writeCall (effect_findOneAndUpdate fun p hrow hopen => ?_)
  have hlater := hknown.later hrow
  rw [delivery_of_known hknown.ok hlater hopen] at hannounces
  exact .complete confirmedAt choice.now hrequest
    (announces_of_later hlater hannounces) (requestsDelivery_of_later hlater hdelivery)

theorem effect_markDelivery {confirmation : PendingMessage} (hknown : Known copy σ)
    (hannounces : Announces copy .completed .delivered message)
    (hconfirms : Confirms copy confirmation) :
    Effect i request σ (act i request σ
      (.markDelivery copy.id .delivered "" [message, confirmation]) choice).2 := by
  refine effect_writeCall (effect_findOneAndUpdate fun p hrow _ => ?_)
  have hlater := hknown.later hrow
  exact .deliver choice.now (announces_of_later hlater hannounces)
    (confirms_of_later hlater hconfirms)

end Transitions

section Handlers

variable {copy : Payment} {correlationId causationId : String}

theorem keeps_delivered {messageId occurredAt : String} (hok : StoreOk σ)
    (hknown : Known copy σ) :
    Keeps i request (do
      let messages ← statusMessages s copy .completed .delivered correlationId
        causationId
      let message ← pendingMessage s "payment.confirmed" (.confirmed
        (newEnvelopeWithMetadata "payment.confirmed" messageId correlationId
          causationId occurredAt "payment-service"
          (statusPayload copy .completed .delivered)))
      match ← call (.markDelivery copy.id .delivered "" (messages ++ [message])) with
      | .error error => return .error error
      | .ok _ => return (.ok () : Except String Unit)) σ := by
  refine keeps_statusMessages hok fun message τ hτ hok hannounces => ?_
  refine keeps_pendingMessage hok fun confirmation υ hυ hok hkey hbody => ?_
  refine keeps_last ?_ fun ν _ hν hok => ?_
  · intro reply
    cases reply <;> exact ⟨_, rfl⟩
  have hgrows := (hτ.grows.trans hυ.grows).trans hν.grows
  exact effect_markDelivery (hknown.mono hgrows) hannounces
    ⟨hkey, _, hbody, rfl, rfl⟩

theorem keeps_handleDeliveryRequested
    (envelope : Envelope PaymentDeliveryRequestedPayload) :
    Keeps i request (handleDeliveryRequested s envelope) σ := by
  refine keeps_findById (fun _ _ => keeps_pure _) fun answer τ _ hok hrow => ?_
  cases answer with
  | none => exact keeps_pure _
  | some copy =>
      have hknown := known_of_row hok hrow
      change Keeps i request (if _ then _ else _) τ
      split
      · exact keeps_pure _
      · change Keeps i request (if _ then _ else _) τ
        split
        · refine keeps_ask (fun _ _ => rfl) fun reply υ hυ hok => ?_
          exact keeps_delivered hok (hknown.mono hυ.grows)
        · rw [Program.pure_bind]
          exact keeps_delivered hok hknown

theorem keeps_expired (hok : StoreOk σ) (hknown : Known copy σ) :
    Keeps i request (do
      let messages ← statusMessages s copy .expired copy.deliveryStatus
        correlationId causationId
      match ← call (.markExpired copy.id messages) with
      | .error error => return .error error
      | .ok _ => return (.ok () : Except String Unit)) σ := by
  refine keeps_statusMessages hok fun message τ hτ hok hannounces => ?_
  refine keeps_last ?_ fun υ _ hυ hok => ?_
  · intro reply
    cases reply <;> exact ⟨_, rfl⟩
  exact effect_markExpired (hknown.mono (hτ.grows.trans hυ.grows)) hannounces

theorem keeps_handleCallbackConfirmed
    (envelope : Envelope PaymentCallbackConfirmedPayload) :
    Keeps i (.callbackConfirmed envelope) (handleCallbackConfirmed s envelope) σ := by
  refine keeps_findByReference (fun _ _ => keeps_pure _) fun answer τ _ hok hfind => ?_
  cases answer with
  | none => exact keeps_pure _
  | some copy =>
      have hknown := known_of_find hok hfind
      cases parseRFC3339Nano envelope.payload.occurredAt with
      | none => exact keeps_pure _
      | some eventTime =>
          refine keeps_ask (fun _ _ => rfl) fun now υ hυ hok => ?_
          split
          · exact keeps_pure _
          · split
            · exact keeps_pure _
            · split
              · exact keeps_expired hok (hknown.mono hυ.grows)
              · refine keeps_statusMessages hok fun message ν hν hok hannounces => ?_
                refine keeps_pendingMessage hok fun delivery ξ hξ hok hkey hbody => ?_
                refine keeps_last ?_ fun ρ _ hρ hok => ?_
                · intro reply
                  cases reply <;> exact ⟨_, rfl⟩
                have hgrows := ((hυ.grows.trans hν.grows).trans hξ.grows).trans hρ.grows
                exact effect_markCompleted (hknown.mono hgrows) rfl hannounces
                  ⟨hkey, _, hbody, rfl, rfl⟩

theorem keeps_handleProcessRequested (hunused : Unused i σ)
    (envelope : Envelope PaymentProcessRequestedPayload) :
    Keeps i request (handleProcessRequested s envelope) σ := by
  refine keeps_ask (fun _ _ => rfl) fun now τ hτ _ => ?_
  refine keeps_reserve (hunused.mono hτ) (fun _ _ => keeps_pure _) ?_ ?_
  · intro τ
    refine keeps_findById (fun _ _ => keeps_pure _) fun answer τ _ hok hrow => ?_
    cases answer with
    | none => exact keeps_pure _
    | some copy =>
        have hknown := known_of_row hok hrow
        change Keeps i request (if _ then _ else _) τ
        split
        · exact keeps_expired hok hknown
        · exact keeps_pure _
  · intro copy τ hok hknown hstatus hholds
    refine keeps_statusMessages hok fun message υ hυ hok hannounces => ?_
    refine keeps_enqueue ?_ (fun _ _ => keeps_pure _) fun υ hok hτυ => ?_
    · intro now ν p hν hok hrow
      have hlater := (hknown.mono (hυ.grows.trans hν.grows)).later hrow
      rw [hknown.ok.delivery_pending (by simp [hstatus])] at hannounces
      have hholds := holds_mono (holds_mono hholds hυ) hν
      rw [← hlater.same.id] at hholds
      exact .announce now (announces_of_later hlater hannounces) hholds
    · refine Quiet.safe_bind (quiet_retryFrom _ _ _ copy 1 _) hok
        fun result ν hν hok _ => ?_
      cases result with
      | error error =>
          refine keeps_statusMessages hok fun message ξ hξ hok hannounces => ?_
          refine keeps_last ?_ fun ρ _ hρ hok => ?_
          · intro reply
            cases reply <;> exact ⟨_, rfl⟩
          have hgrows := ((hτυ.trans hν.grows).trans hξ.grows).trans hρ.grows
          exact effect_markFailed (hknown.mono (hυ.grows.trans hgrows)) hstatus hannounces
      | ok result =>
          change Keeps i request (if _ then _ else _) ν
          split
          · refine keeps_pendingMessage hok fun message ξ _ hok hkey _ => ?_
            refine keeps_enqueue (f := pure) ?_ (fun _ _ => keeps_pure _)
              fun _ _ _ => keeps_pure _
            exact fun now _ _ _ _ _ => .simulate now hkey
          · exact keeps_pure _

theorem keeps_createPayment (envelope : Envelope PaymentCreateCommandPayload) :
    Keeps i request (createPayment s envelope) σ := by
  refine keeps_findByIdempotencyKey fun reply τ hok => ?_
  match reply with
  | .error _ => exact keeps_rpcResponse _ _
  | .ok (some existing) =>
      change Keeps i request (if _ then _ else _) τ
      split <;> exact keeps_rpcResponse _ _
  | .ok none =>
      change Keeps i request (if _ then _ else _) τ
      split
      · exact keeps_rpcResponse _ _
      · refine keeps_ask (fun _ _ => rfl) fun id τ _ _ => ?_
        refine keeps_ask (fun _ _ => rfl) fun reference τ _ _ => ?_
        refine keeps_ask (fun _ _ => rfl) fun now τ _ _ => ?_
        refine keeps_ask (fun _ _ => rfl) fun reply τ _ _ => ?_
        cases reply with
        | error error => exact keeps_rpcResponse _ _
        | ok intent =>
            refine keeps_ask (fun _ _ => rfl) fun occurredAt τ _ hok => ?_
            refine keeps_pendingMessage hok fun message τ _ hok hkey _ => ?_
            refine keeps_create ⟨rfl, rfl, rfl, rfl, rfl, rfl, ?_⟩ fun reply τ _ => ?_
            · intro other hother
              rwa [List.mem_singleton.mp hother]
            · cases reply <;> exact keeps_rpcResponse _ _

theorem keeps_program (hok : StoreOk σ) (hunused : Unused i σ) (request : Request) :
    Keeps i request (program s request) σ := by
  cases request with
  | createPayment envelope =>
      exact (keeps_createPayment envelope).bind hok fun _ _ _ _ => keeps_pure _
  | processRequested envelope =>
      exact (keeps_handleProcessRequested hunused envelope).bind hok
        fun _ _ _ _ => keeps_pure _
  | callbackConfirmed envelope =>
      exact (keeps_handleCallbackConfirmed envelope).bind hok
        fun _ _ _ _ => keeps_pure _
  | deliveryRequested envelope =>
      exact (keeps_handleDeliveryRequested envelope).bind hok
        fun _ _ _ _ => keeps_pure _

end Handlers

end Modularis.Payments.Conduct
