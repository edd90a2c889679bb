import Modularis.Payments.Uniqueness

namespace Modularis.Payments.Settlement

open Modularis.Foundation
open Modularis.Foundation.GoTime
open Modularis.Foundation.Program
open Modularis.Shared.Messaging
open Modularis.Payments.Models
open Modularis.Payments.Repository
open Modularis.Payments.Operations
open Modularis.Payments.Handlers
open Modularis.Payments.Effects
open Modularis.Payments.Aggregate
open Modularis.Payments.Ledger
open Modularis.Payments.Changes
open Modularis.Payments.Uniqueness (Stored Kept)

/-- The callback names the payment, with its amount and in time. -/
structure Settles (callback : PaymentCallbackConfirmedPayload) (payment : Payment) :
    Prop where
  paymentReference : callback.paymentReference = payment.paymentReference
  amount : callback.amount = payment.amount
  currency : callback.currency = payment.currency
  inTime : ∃ eventTime, parseRFC3339Nano callback.occurredAt = some eventTime ∧
    eventTime ≤ payment.expiresAt

theorem Settles.same {callback : PaymentCallbackConfirmedPayload} {p q : Payment}
    (h : Settles callback p) (hsame : SameIdentity p q) : Settles callback q where
  paymentReference := h.paymentReference.trans hsame.paymentReference.symm
  amount := h.amount.trans hsame.amount.symm
  currency := h.currency.trans hsame.currency.symm
  inTime := hsame.expiresAt.symm ▸ h.inTime

/-- If the write completed its payment for a callback, it was right to do so. -/
def Due (commit : Commit) : Prop :=
  ∀ envelope, commit.request = .callbackConfirmed envelope →
    completes commit = true → Settles envelope.payload commit.write.after

/-- What a call of an invocation does to the history. -/
structure Writes (i : String) (request : Request) (σ τ : Store) : Prop where
  kept : Kept σ τ
  added : ∃ added, τ.history = σ.history ++ added ∧ ∀ commit ∈ added,
    commit.invocation = i ∧ commit.request = request ∧
      Stored τ commit.write.after ∧ Due commit

/-- Each write was right, and is about a stored payment. -/
structure Settled (σ : Store) : Prop where
  stored : ∀ commit ∈ σ.history, ∃ q, Stored σ q ∧
    SameIdentity commit.write.after q
  due : ∀ commit ∈ σ.history, Due commit

theorem Writes.refl (i : String) (request : Request) (σ : Store) :
    Writes i request σ σ where
  kept := .refl σ
  added := Interleaving.appended_refl _ _

theorem Settled.writes {i : String} {request : Request} {σ τ : Store}
    (h : Settled σ) (hwrites : Writes i request σ τ) : Settled τ := by
  obtain ⟨added, hhistory, hadded⟩ := hwrites.added
  constructor
  · intro commit hcommit
    rw [hhistory] at hcommit
    rcases List.mem_append.mp hcommit with hold | hnew
    · obtain ⟨p, hp, hsame⟩ := h.stored commit hold
      obtain ⟨q, hq, hpq⟩ := hwrites.kept p hp
      exact ⟨q, hq, hsame.trans hpq⟩
    · exact ⟨_, (hadded commit hnew).2.2.1, .refl _⟩
  · intro commit hcommit
    rw [hhistory] at hcommit
    rcases List.mem_append.mp hcommit with hold | hnew
    · exact h.due commit hold
    · exact (hadded commit hnew).2.2.2

theorem settled_empty : Settled Store.empty where
  stored := fun _ hcommit => absurd hcommit List.not_mem_nil
  due := fun _ hcommit => absurd hcommit List.not_mem_nil

section Calls

variable {i : String} {request : Request} {σ τ : Store} {choice : Choice} {op : Op}

/-- The call does not complete a payment unless the callback settles it. -/
def DueCall (request : Request) (σ : Store) : Op → Prop
  | .create _ => ∀ envelope, request ≠ .callbackConfirmed envelope
  | .markCompleted paymentId _ _ _ => ∀ envelope,
      request = .callbackConfirmed envelope → ∀ payment,
        σ.payments.row paymentId = some payment → Settles envelope.payload payment
  | _ => True

theorem kept_of_changed (h : Changed i request σ choice op τ) : Kept σ τ := by
  intro p hp
  obtain ⟨q, hq, hsame⟩ := row_of_changed h hp
  rw [← hsame.id] at hq
  exact ⟨q, hq, hsame⟩

theorem markCompleted_of_update {now : Int} {payment : Payment} {update : Update}
    (hupdate : updateOf now op = some (payment.id, update))
    (hbefore : payment.paymentStatus ≠ .completed)
    (hafter : (update.apply payment).paymentStatus = .completed) :
    ∃ eventId confirmedAt messages,
      op = .markCompleted payment.id eventId confirmedAt messages := by
  cases op with
  | markCompleted paymentId eventId confirmedAt messages =>
      obtain ⟨rfl, rfl⟩ := Prod.mk.inj (Option.some.inj hupdate)
      exact ⟨eventId, confirmedAt, messages, rfl⟩
  | enqueueMessages paymentId messages =>
      obtain ⟨_, hupdate⟩ := Option.ite_none_left_eq_some.mp hupdate
      obtain ⟨rfl, rfl⟩ := Prod.mk.inj (Option.some.inj hupdate)
      exact absurd hafter hbefore
  | markDelivery =>
      obtain ⟨rfl, rfl⟩ := Prod.mk.inj (Option.some.inj hupdate)
      exact absurd hafter hbefore
  | reserveForProcessing | markFailed | markExpired =>
      obtain ⟨rfl, rfl⟩ := Prod.mk.inj (Option.some.inj hupdate)
      cases hafter
  | _ => cases hupdate

theorem writes_of_changed (hop : DueCall request σ op)
    (h : Changed i request σ choice op τ) : Writes i request σ τ := by
  refine ⟨kept_of_changed h, ?_⟩
  cases h with
  | kept => exact (Writes.refl i request σ).added
  | @created payment hcreate hnew =>
      subst hcreate
      have hid : σ.payments.row
          (Payment.stored (stamped payment choice.newId choice.now)).id = none :=
        row_of_not_duplicate hnew
      rw [create, hnew, if_neg Bool.false_ne_true]
      refine ⟨_, rfl, fun commit hcommit => ?_⟩
      obtain rfl := List.mem_singleton.mp hcommit
      refine ⟨rfl, rfl, (row_created hid _).trans (if_pos rfl), ?_⟩
      rintro envelope rfl
      exact absurd rfl (hop envelope)
  | @updated payment update hupdate hrow _ =>
      refine ⟨_, rfl, fun commit hcommit => ?_⟩
      obtain rfl := List.mem_singleton.mp hcommit
      have hsame := sameIdentity_of_update hupdate payment
      refine ⟨rfl, rfl, (row_updated hrow _).trans (if_pos hsame.id), ?_⟩
      rintro envelope rfl hcompletes
      rw [completes, Bool.and_eq_true, decide_eq_true_eq, decide_eq_true_eq] at hcompletes
      have hbefore : payment.paymentStatus ≠ .completed :=
        fun hstatus => hcompletes.1 (congrArg some hstatus)
      obtain ⟨eventId, confirmedAt, messages, rfl⟩ :=
        markCompleted_of_update hupdate hbefore hcompletes.2
      exact (hop envelope rfl payment hrow).same hsame

end Calls

/-- Each call keeps what is settled and writes what its request asks for. -/
def rules : Pool.Rules act where
  inv := Settled
  rely := fun _ => Kept
  guar := Writes
  ready := fun _ _ => True
  rely_refl := fun _ => .refl
  rely_trans := fun _ _ _ _ => .trans
  guar_refl := Writes.refl
  inv_of_guar := fun _ _ _ _ => Settled.writes
  rely_of_guar := fun _ _ _ _ _ _ _ h => h.kept
  ready_of_rely := fun _ _ _ _ _ => trivial

section Handlers

variable {s : Service} {i : String} {request : Request} {σ : Store} {α : Type}

abbrev Keeps (i : String) (request : Request) (p : Program α) (σ : Store) : Prop :=
  p.Safe (rules.contract i request) (fun _ _ => True) σ

theorem keeps_pure (value : α) : Keeps i request (pure value : Program α) σ :=
  fun _ _ _ => trivial

theorem keeps_call {op : Op} {f : Reply op → Program α}
    (hop : ∀ τ, Kept σ τ → DueCall request τ op)
    (h : ∀ reply τ, Kept σ τ → Settled τ → Keeps i request (f reply) τ) :
    Keeps i request (call op >>= f) σ := by
  refine safe_perform_bind fun τ hτ hsettled choice => ?_
  have hwrites := writes_of_changed (hop τ hτ) (changed_act i request τ op choice)
  exact ⟨hwrites, h _ _ (hτ.trans hwrites.kept) (hsettled.writes hwrites)⟩

theorem keeps_findByReference {reference : String}
    {f : Except String (Option Payment) → Program α}
    (herror : ∀ error τ, Keeps i request (f (.error error)) τ)
    (hnone : ∀ τ, Keeps i request (f (.ok none)) τ)
    (h : ∀ copy τ, Settled τ → Stored τ copy → copy.paymentReference = reference →
      Keeps i request (f (.ok (some copy))) τ) :
    Keeps i request (call (.findByReference reference) >>= f) σ := by
  refine safe_perform_bind fun τ _ hsettled choice => ?_
  change Writes i request τ (readCall τ choice _).2 ∧
    Keeps i request (f (readCall τ choice _).1) (readCall τ choice _).2
  refine readCall_rule (fun error => ⟨.refl i request τ, herror error τ⟩)
    ⟨.refl i request τ, ?_⟩
  cases hfind : findByReference τ.payments reference with
  | none => exact hnone τ
  | some copy =>
      have hstored := List.mem_of_find?_eq_some hfind
      have hreference := List.find?_some hfind
      exact h copy τ hsettled ((τ.payments.mem_rows_iff copy).mp hstored)
        (of_decide_eq_true hreference)

theorem keeps_pendingMessage {routingKey : String} {body : Body}
    {f : PendingMessage → Program α} (hsettled : Settled σ)
    (h : ∀ message τ, Kept σ τ → Settled τ → Keeps i request (f message) τ) :
    Keeps i request (pendingMessage s routingKey body >>= f) σ :=
  Quiet.safe_bind
    (quiet_pendingMessage (fun _ _ => rfl) (fun _ _ => rfl) routingKey body) hsettled
    fun message τ hτ hsettled _ => h message τ hτ hsettled

theorem keeps_statusMessages {copy : Payment} {status : PaymentStatus}
    {delivery : DeliveryStatus} {correlationId causationId : String}
    {f : List PendingMessage → Program α} (hsettled : Settled σ)
    (h : ∀ messages τ, Kept σ τ → Settled τ → Keeps i request (f messages) τ) :
    Keeps i request
      (statusMessages s copy status delivery correlationId causationId >>= f) σ :=
  Quiet.safe_bind (quiet_statusMessages (fun _ _ => rfl) (fun _ _ => rfl)
    copy status delivery correlationId causationId) hsettled
    fun messages τ hτ hsettled _ => h messages τ hτ hsettled

theorem keeps_last {op : Op} {f : Reply op → Program α}
    (hf : ∀ reply, ∃ value, f reply = pure value)
    (hop : ∀ τ, Kept σ τ → DueCall request τ op) :
    Keeps i request (call op >>= f) σ := by
  refine keeps_call hop fun reply τ _ _ => ?_
  obtain ⟨value, hvalue⟩ := hf reply
  rw [hvalue]
  exact keeps_pure value

theorem dueCall_markCompleted {envelope : Envelope PaymentCallbackConfirmedPayload}
    {copy : Payment} (hstored : Stored σ copy) (hsettles : Settles envelope.payload copy)
    (eventId : String) (confirmedAt : Int) (messages : List PendingMessage)
    {τ : Store} (hτ : Kept σ τ) :
    DueCall (.callbackConfirmed envelope) τ
      (.markCompleted copy.id eventId confirmedAt messages) := by
  rintro _ ⟨⟩ payment hrow
  obtain ⟨q, hq, hsame⟩ := hτ copy hstored
  rw [Stored, hsame.id, hrow] at hq
  obtain rfl := Option.some.inj hq
  exact hsettles.same hsame

theorem keeps_handleCallbackConfirmed
    (envelope : Envelope PaymentCallbackConfirmedPayload) :
    Keeps i (.callbackConfirmed envelope) (handleCallbackConfirmed s envelope) σ := by
  refine keeps_findByReference (fun _ _ => keeps_pure _) (fun _ => keeps_pure _)
    fun copy τ hsettled hstored hreference => ?_
  cases hparse : parseRFC3339Nano envelope.payload.occurredAt with
  | none =>
      dsimp only
      exact keeps_pure _
  | some eventTime =>
      dsimp only
      refine keeps_call (fun _ _ => trivial) fun now υ hυ hsettled => ?_
      split
      · exact keeps_pure _
      · split
        · exact keeps_pure _
        · rename_i hvalues
          rw [not_or, not_not, not_not] at hvalues
          split
          · refine keeps_statusMessages hsettled fun messages ν _ _ => ?_
            refine keeps_last (fun reply => ?_) fun _ _ => trivial
            cases reply <;> exact ⟨_, rfl⟩
          · rename_i hexpiry
            have hsettles : Settles envelope.payload copy :=
              ⟨hreference.symm, hvalues.1.symm, hvalues.2.symm,
                eventTime, hparse, not_lt.mp hexpiry⟩
            refine keeps_statusMessages hsettled fun messages ν hν hsettled => ?_
            refine keeps_pendingMessage hsettled fun message ξ hξ _ => ?_
            refine keeps_last (fun reply => ?_) fun ρ hρ => ?_
            · cases reply <;> exact ⟨_, rfl⟩
            · exact dueCall_markCompleted hstored hsettles _ _ _
                (((hυ.trans hν).trans hξ).trans hρ)

theorem keeps_program (hsettled : Settled σ) (request : Request) :
    Keeps i request (program s request) σ := by
  by_cases hcallback : ∃ envelope, request = .callbackConfirmed envelope
  · obtain ⟨envelope, rfl⟩ := hcallback
    exact (keeps_handleCallbackConfirmed envelope).bind hsettled
      fun _ _ _ _ => keeps_pure _
  · refine (calls_program s request).safe (fun op _ τ _ choice => ?_) fun _ _ _ => trivial
    refine writes_of_changed ?_ (changed_act i request τ op choice)
    cases op with
    | create => exact fun envelope heq => hcallback ⟨envelope, heq⟩
    | markCompleted => exact fun envelope heq => absurd ⟨envelope, heq⟩ hcallback
    | _ => exact trivial

end Handlers

section Confirmations

variable {i : String} {request : Request} {σ τ : Store}

/-- Each `payment.confirmed` of the history is about the payment of its write. -/
def Announced (σ : Store) : Prop :=
  ∀ commit ∈ σ.history, ∀ message ∈ commit.write.pushed,
    message.routingKey = "payment.confirmed" → Confirms commit.write.after message

theorem confirms_of_permitted {payment : Payment} {update : Update}
    (h : Permitted σ i request payment update) {message : PendingMessage}
    (hmem : message ∈ update.push) (hkey : message.routingKey = "payment.confirmed") :
    Confirms (update.apply payment) message := by
  cases h with
  | reserve => cases hmem
  | announce _ hannounces | fail _ _ hannounces | expire _ hannounces =>
      obtain rfl := List.mem_singleton.mp hmem
      rw [hannounces.1] at hkey
      exact absurd hkey (by decide)
  | simulate _ hcallback =>
      obtain rfl := List.mem_singleton.mp hmem
      rw [hcallback] at hkey
      exact absurd hkey (by decide)
  | complete _ _ _ hannounces hrequests =>
      rcases List.mem_pair.mp hmem with rfl | rfl
      · rw [hannounces.1] at hkey
        exact absurd hkey (by decide)
      · rw [hrequests.1] at hkey
        exact absurd hkey (by decide)
  | deliver _ hannounces hconfirms =>
      rcases List.mem_pair.mp hmem with rfl | rfl
      · rw [hannounces.1] at hkey
        exact absurd hkey (by decide)
      · exact hconfirms

theorem announced_of_effect (h : Announced σ) (heffect : Effect i request σ τ) :
    Announced τ := by
  cases heffect with
  | kept => exact h
  | created hfresh _ =>
      intro commit hcommit message hmem hkey
      rcases List.mem_append.mp hcommit with hold | hnew
      · exact h commit hold message hmem hkey
      · obtain rfl := List.mem_singleton.mp hnew
        rw [hfresh.messages message hmem] at hkey
        exact absurd hkey (by decide)
  | updated _ _ hpermitted =>
      intro commit hcommit message hmem hkey
      rcases List.mem_append.mp hcommit with hold | hnew
      · exact h commit hold message hmem hkey
      · obtain rfl := List.mem_singleton.mp hnew
        obtain ⟨original, horiginal, rfl⟩ := List.mem_map.mp hmem
        have hconfirms : Confirms _ original :=
          confirms_of_permitted hpermitted horiginal hkey
        exact hconfirms

/-- The payment is delivered, and so it should. -/
structure Paid (σ : Store) (payment : Payment) : Prop where
  stored : Stored σ payment
  completed : payment.paymentStatus = .completed
  delivered : payment.deliveryStatus = .delivered
  callback : ∃ commit ∈ commits σ payment.id, ∃ envelope,
    commit.request = .callbackConfirmed envelope ∧ completes commit = true ∧
      Settles envelope.payload payment

theorem delivered_of_confirmed {payment : Payment} {commits : List Commit}
    (h : LedgerOk payment commits) {message : PendingMessage}
    (hmem : message ∈ messagesOf commits)
    (hkey : message.routingKey = "payment.confirmed") :
    payment.deliveryStatus = .delivered := by
  by_contra hdelivery
  have hcount := h.confirmed
  rw [if_neg hdelivery, countKey, List.countP_eq_zero] at hcount
  exact hcount message hmem (decide_eq_true hkey)

theorem paid_of_confirmed (hok : StoreOk σ) (hsettled : Settled σ)
    (hannounced : Announced σ) {paymentId : String} {message : PendingMessage}
    (hmem : message ∈ enqueued σ paymentId)
    (hkey : message.routingKey = "payment.confirmed") :
    ∃ payment envelope, Paid σ payment ∧ message.body = .confirmed envelope ∧
      envelope.payload.userId = payment.userId := by
  obtain ⟨commit, hcommit, hpushed⟩ := List.mem_flatMap.mp hmem
  obtain ⟨hhistory, hid⟩ := List.mem_filter.mp hcommit
  obtain ⟨_, envelope, hbody, _, huser⟩ := hannounced commit hhistory message hpushed hkey
  obtain ⟨payment, hstored, hsame⟩ := hsettled.stored commit hhistory
  obtain rfl : payment.id = paymentId := hsame.id.trans (of_decide_eq_true hid)
  obtain ⟨haggregate, hledger⟩ := hok.payment payment.id payment hstored
  have hdelivered := delivered_of_confirmed hledger hmem hkey
  have hcompleted : payment.paymentStatus = .completed := by
    rcases haggregate.delivery with hpending | ⟨_, hcompleted⟩
    · rw [hdelivered] at hpending
      cases hpending
    · exact hcompleted
  refine ⟨payment, envelope, ⟨hstored, hcompleted, hdelivered, ?_⟩, hbody,
    huser.trans hsame.userId.symm⟩
  obtain ⟨completion, callback, hfilter, hrequest, _⟩ := hledger.completed hcompleted
  have hmember : completion ∈ (commits σ payment.id).filter completes := by
    rw [hfilter]
    exact List.mem_singleton_self completion
  obtain ⟨hcompletion, hcompletes⟩ := List.mem_filter.mp hmember
  obtain ⟨hwritten, hwrittenId⟩ := List.mem_filter.mp hcompletion
  obtain ⟨other, hother, hsameOther⟩ := hsettled.stored completion hwritten
  have hotherId : other.id = payment.id :=
    hsameOther.id.trans (of_decide_eq_true hwrittenId)
  rw [Stored, hotherId, hstored] at hother
  obtain rfl := Option.some.inj hother
  exact ⟨completion, hcompletion, callback, hrequest, hcompletes,
    (hsettled.due completion hwritten callback hrequest hcompletes).same hsameOther⟩

end Confirmations

end Modularis.Payments.Settlement
