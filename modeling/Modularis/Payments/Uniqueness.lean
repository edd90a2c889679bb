import Modularis.Payments.Changes
import Modularis.Payments.Lifecycle

namespace Modularis.Payments.Uniqueness

open Modularis.Foundation
open Modularis.Foundation.Program
open Modularis.Shared.Messaging
open Modularis.Payments.Models
open Modularis.Payments.Repository
open Modularis.Payments.Operations
open Modularis.Payments.Handlers
open Modularis.Payments.Effects
open Modularis.Payments.Aggregate
open Modularis.Payments.Changes
open Modularis.Payments.Interleaving
open Modularis.Payments.Lifecycle (sampleService sampleCreate sampleChoice)

/-- The payment is in the collection. -/
def Stored (store : Store) (payment : Payment) : Prop :=
  store.payments.row payment.id = some payment

/-- The unique index on `idempotencyKey`. -/
def UniqueKeys (store : Store) : Prop :=
  ∀ p q, Stored store p → Stored store q →
    p.idempotencyKey = q.idempotencyKey → p = q

/-- The outbox of a payment holds one message, the request to process it. -/
def Requested (payment : Payment) : Prop :=
  ∃ message envelope, payment.pendingMessages = [message] ∧
    message.routingKey = "payment.process.requested" ∧
    message.body = .processRequested envelope ∧
    envelope.payload.paymentId = payment.id ∧
    envelope.payload.paymentReference = payment.paymentReference

/-- Every stored payment stays, with its identity. -/
def Kept (σ τ : Store) : Prop :=
  ∀ p, Stored σ p → ∃ q, Stored τ q ∧ SameIdentity p q

/-- What a call of a handler may do to the payments. -/
structure Inserts (σ τ : Store) : Prop where
  kept : Kept σ τ
  unique : UniqueKeys σ → UniqueKeys τ
  requested : ∀ q, σ.payments.row q.id = none → Stored τ q → Requested q

theorem Kept.refl (σ : Store) : Kept σ σ :=
  fun p hp => ⟨p, hp, SameIdentity.refl p⟩

theorem Kept.trans {σ τ υ : Store} (hστ : Kept σ τ) (hτυ : Kept τ υ) : Kept σ υ := by
  intro p hp
  obtain ⟨q, hq, hpq⟩ := hστ p hp
  obtain ⟨r, hr, hqr⟩ := hτυ q hq
  exact ⟨r, hr, hpq.trans hqr⟩

theorem Inserts.refl (σ : Store) : Inserts σ σ where
  kept := .refl σ
  unique := id
  requested := by
    intro q hnew hq
    rw [Stored, hnew] at hq
    cases hq

section Changes

variable {invocation : String} {request : Request} {σ : Store}

theorem inserts_updated {w : Option Write} {payment : Payment} {update : Update}
    (hrow : σ.payments.row payment.id = some payment)
    (hsame : SameIdentity payment (update.apply payment)) :
    Inserts σ (σ.record invocation request (w, σ.payments.modify payment.id
      update.apply update.id_apply)) := by
  have hback : ∀ q, Stored (σ.record invocation request (w,
      σ.payments.modify payment.id update.apply update.id_apply)) q →
      ∃ p, Stored σ p ∧ SameIdentity p q := by
    intro q hq
    rw [Stored, row_updated hrow] at hq
    split at hq
    · obtain rfl := Option.some.inj hq
      exact ⟨payment, hrow, hsame⟩
    · exact ⟨q, hq, .refl q⟩
  constructor
  · intro p hp
    by_cases hid : p.id = payment.id
    · have heq : payment = p := Option.some.inj (hrow.symm.trans (hid ▸ hp))
      subst heq
      exact ⟨update.apply payment, (row_updated hrow _).trans
        (if_pos hsame.id), hsame⟩
    · exact ⟨p, (row_updated hrow p.id).trans ((if_neg hid).trans hp), .refl p⟩
  · intro hunique q r hq hr hkey
    obtain ⟨p, hp, hpq⟩ := hback q hq
    obtain ⟨p', hp', hpr⟩ := hback r hr
    have heq : p = p' := hunique p p' hp hp'
      (by rw [← hpq.idempotencyKey, ← hpr.idempotencyKey, hkey])
    have hid : q.id = r.id := by rw [hpq.id, hpr.id, heq]
    rw [Stored, hid] at hq
    exact Option.some.inj (hq.symm.trans hr)
  · intro q hnew hq
    obtain ⟨p, hp, hpq⟩ := hback q hq
    rw [hpq.id, hp] at hnew
    cases hnew

theorem not_duplicate {payment : Payment}
    (h : duplicateKey σ.payments payment = false) :
    σ.payments.row payment.id = none ∧
      ∀ p, Stored σ p → p.idempotencyKey ≠ payment.idempotencyKey := by
  refine ⟨row_of_not_duplicate h, ?_⟩
  intro p hp hkey
  rw [duplicateKey, Bool.or_eq_false_iff, List.any_eq_false] at h
  exact h.2 p ((σ.payments.mem_rows_iff p).mpr hp) (decide_eq_true (.inl hkey))

theorem stored_created {w : Option Write} {payment : Payment}
    (hnew : σ.payments.row payment.id = none) (q : Payment) :
    Stored (σ.record invocation request
      (w, σ.payments.insertIfAbsent payment)) q ↔ q = payment ∨ Stored σ q := by
  rw [Stored, row_created hnew]
  constructor
  · intro hq
    split at hq
    · exact .inl (Option.some.inj hq).symm
    · exact .inr hq
  · rintro (rfl | hq)
    · exact if_pos rfl
    · rw [if_neg]
      · exact hq
      · intro hid
        rw [Stored, hid, hnew] at hq
        cases hq

theorem inserts_created {payment : Payment}
    (hnew : duplicateKey σ.payments payment = false)
    (hrequested : Requested (Payment.stored payment)) :
    Inserts σ (σ.record invocation request (create σ.payments payment)) ∧
      Stored (σ.record invocation request (create σ.payments payment))
        (Payment.stored payment) := by
  obtain ⟨hrow, hkeys⟩ := not_duplicate hnew
  have hid : σ.payments.row (Payment.stored payment).id = none := hrow
  have hstored (q : Payment) : Stored (σ.record invocation request
      (create σ.payments payment)) q ↔ q = Payment.stored payment ∨ Stored σ q := by
    rw [create, hnew, if_neg Bool.false_ne_true]
    exact stored_created hid q
  refine ⟨⟨?_, ?_, ?_⟩, (hstored _).mpr (.inl rfl)⟩
  · exact fun p hp => ⟨p, (hstored p).mpr (.inr hp), .refl p⟩
  · intro hunique p q hp hq hkey
    rcases (hstored p).mp hp with rfl | hp
    · rcases (hstored q).mp hq with rfl | hq
      · rfl
      · exact absurd hkey.symm (hkeys q hq)
    · rcases (hstored q).mp hq with rfl | hq
      · exact absurd hkey (hkeys p hp)
      · exact hunique p q hp hq hkey
  · intro q hnone hq
    rcases (hstored q).mp hq with rfl | hq
    · exact hrequested
    · rw [Stored, hnone] at hq
      cases hq

end Changes

/-- The service never draws an empty id. -/
def drawn (choice : Choice) : Choice :=
  { choice with newId := if choice.newId = "" then "0" else choice.newId }

theorem newId_drawn (choice : Choice) : (drawn choice).newId ≠ "" := by
  simp only [drawn]
  split
  · decide
  · assumption

theorem drawn_of_newId {choice : Choice} (h : choice.newId ≠ "") :
    drawn choice = choice := by
  simp [drawn, h]

/-- A call that draws no empty id. -/
def drawnAct (invocation : String) (request : Request) (store : Store) (op : Op)
    (choice : Choice) : Reply op × Store :=
  act invocation request store op (drawn choice)

/-- Keys stay unique, whatever is inserted meanwhile. -/
def rules : Pool.Rules drawnAct where
  inv := UniqueKeys
  rely := fun _ => Kept
  guar := fun _ _ => Inserts
  ready := fun _ _ => True
  rely_refl := fun _ => Kept.refl
  rely_trans := fun _ _ _ _ => Kept.trans
  guar_refl := fun _ _ => Inserts.refl
  inv_of_guar := fun _ _ _ _ hunique h => h.unique hunique
  rely_of_guar := fun _ _ _ _ _ _ _ h => h.kept
  ready_of_rely := fun _ _ _ _ _ => trivial

section Answers

/-- What a success answer says about the payment for its command. -/
structure AnswersFor (payment : Payment) (payload : PaymentCreateCommandPayload)
    (data : PaymentIntentPayload) : Prop where
  idempotencyKey : payment.idempotencyKey = payload.idempotencyKey
  requestHash : payment.requestHash = payload.requestHash
  id : data.id = payment.id
  paymentReference : data.paymentReference = payment.paymentReference
  amount : data.amount = payment.amount
  currency : data.currency = payment.currency

theorem AnswersFor.same {p q : Payment} {payload : PaymentCreateCommandPayload}
    {data : PaymentIntentPayload} (h : AnswersFor p payload data)
    (hsame : SameIdentity p q) : AnswersFor q payload data where
  idempotencyKey := hsame.idempotencyKey.trans h.idempotencyKey
  requestHash := hsame.requestHash.trans h.requestHash
  id := h.id.trans hsame.id.symm
  paymentReference := h.paymentReference.trans hsame.paymentReference.symm
  amount := h.amount.trans hsame.amount.symm
  currency := h.currency.trans hsame.currency.symm

/-- A success answer is about a stored payment. -/
def Backed (payload : PaymentCreateCommandPayload) (response : RpcResponse)
    (σ : Store) : Prop :=
  ∀ data, response = .success data →
    ∃ payment, Stored σ payment ∧ AnswersFor payment payload data

theorem Backed.mono {payload : PaymentCreateCommandPayload}
    {response : RpcResponse} {σ τ : Store} (h : Backed payload response σ)
    (hkept : Kept σ τ) : Backed payload response τ := by
  intro data hdata
  obtain ⟨p, hp, hanswers⟩ := h data hdata
  obtain ⟨q, hq, hsame⟩ := hkept p hp
  exact ⟨q, hq, hanswers.same hsame⟩

theorem backed_error {payload : PaymentCreateCommandPayload} {σ : Store}
    (status : Nat) (title detail code : String) :
    Backed payload (.error status title detail code) σ := nofun

abbrev Keeps {α : Type} (i : String) (request : Request)
    (post : α → Store → Prop) (p : Program α) (σ : Store) : Prop :=
  p.Safe (rules.contract i request) post σ

variable {s : Service} {i : String} {request : Request} {σ : Store}

theorem inserts_of_changed {τ : Store} {op : Op} {choice : Choice}
    (hop : ∀ payment, op ≠ .create payment)
    (h : Changed i request σ choice op τ) : Inserts σ τ := by
  cases h with
  | kept => exact .refl σ
  | created hcreate => exact absurd hcreate (hop _)
  | @updated payment _ hupdate hrow _ =>
      exact inserts_updated hrow (sameIdentity_of_update hupdate payment)

theorem act_create (payment : Payment) (choice : Choice) :
    (∃ error, act i request σ (.create payment) choice = (.error error, σ)) ∨
      duplicateKey σ.payments (stamped payment choice.newId choice.now) = false ∧
        act i request σ (.create payment) choice =
          (.ok (stamped payment choice.newId choice.now), σ.record i request
            (create σ.payments (stamped payment choice.newId choice.now))) := by
  simp only [act, writeCall]
  split
  · exact .inl ⟨_, rfl⟩
  · cases hduplicate : duplicateKey σ.payments
        (stamped payment choice.newId choice.now) with
    | true =>
        refine .inl ⟨"duplicate key", ?_⟩
        rw [create, if_pos hduplicate, record_none]
    | false =>
        refine .inr ⟨rfl, ?_⟩
        rw [create, hduplicate, if_neg Bool.false_ne_true]

theorem keeps_ask {α : Type} {post : α → Store → Prop} {op : Op}
    {f : Reply op → Program α} (hop : ∀ payment, op ≠ .create payment)
    (h : ∀ reply τ, UniqueKeys τ → Keeps i request post (f reply) τ) :
    Keeps i request post (call op >>= f) σ := by
  refine safe_perform_bind fun τ _ hunique choice => ?_
  have hinserts := inserts_of_changed hop
    (changed_act i request τ op (drawn choice))
  exact ⟨hinserts, h _ _ (hinserts.unique hunique)⟩

theorem keeps_newString {α : Type} {post : α → Store → Prop}
    {f : String → Program α}
    (h : ∀ id τ, id ≠ "" → UniqueKeys τ → Keeps i request post (f id) τ) :
    Keeps i request post (call .newString >>= f) σ :=
  safe_perform_bind fun τ _ hunique choice =>
    ⟨.refl τ, h _ τ (newId_drawn choice) hunique⟩

theorem keeps_pendingMessage {α : Type} {post : α → Store → Prop}
    {routingKey : String} {body : Body} {f : PendingMessage → Program α}
    (hunique : UniqueKeys σ)
    (h : ∀ message τ, UniqueKeys τ → message.routingKey = routingKey →
      message.body = body → Keeps i request post (f message) τ) :
    Keeps i request post (pendingMessage s routingKey body >>= f) σ := by
  have hquiet : (pendingMessage s routingKey body).Quiet (drawnAct i request)
      fun message => message.routingKey = routingKey ∧ message.body = body :=
    ⟨fun _ _ => rfl, fun _ => ⟨fun _ _ => rfl, fun _ => ⟨rfl, rfl⟩⟩⟩
  exact hquiet.safe_bind hunique
    fun message τ _ hunique hmessage => h message τ hunique hmessage.1 hmessage.2

theorem keeps_rpcResponse {command : Envelope PaymentCreateCommandPayload}
    {response : RpcResponse} (h : Backed command.payload response σ) :
    Keeps i request (fun answer => Backed command.payload answer.payload)
      (rpcResponse command response) σ := by
  have hquiet : (rpcResponse command response).Quiet (drawnAct i request)
      fun answer => answer.payload = response :=
    ⟨fun _ _ => rfl, fun _ => ⟨fun _ _ => rfl, fun _ => rfl⟩⟩
  refine hquiet.safe_of_rely fun answer τ hkept _ hanswer => ?_
  rw [hanswer]
  exact h.mono hkept

theorem backed_existing {payload : PaymentCreateCommandPayload} {payment : Payment}
    (hfind : findByIdempotencyKey σ.payments payload.idempotencyKey = some payment)
    (hhash : payment.requestHash = payload.requestHash) :
    Backed payload (.success (toIntentPayload payment true)) σ := by
  rintro data ⟨⟩
  have hstored := List.mem_of_find?_eq_some hfind
  have hkey := List.find?_some hfind
  exact ⟨payment, (σ.payments.mem_rows_iff payment).mp hstored,
    of_decide_eq_true hkey, hhash, rfl, rfl, rfl, rfl⟩

theorem keeps_findByIdempotencyKey {α : Type} {post : α → Store → Prop}
    {idempotencyKey : String} {f : Except String (Option Payment) → Program α}
    (herror : ∀ error τ, Keeps i request post (f (.error error)) τ)
    (h : ∀ τ, Keeps i request post
      (f (.ok (findByIdempotencyKey τ.payments idempotencyKey))) τ) :
    Keeps i request post (call (.findByIdempotencyKey idempotencyKey) >>= f) σ := by
  refine safe_perform_bind fun τ _ _ choice => ?_
  change Inserts τ (readCall τ (drawn choice) _).2 ∧
    Keeps i request post (f (readCall τ (drawn choice) _).1)
      (readCall τ (drawn choice) _).2
  exact readCall_rule (fun error => ⟨.refl τ, herror error τ⟩) ⟨.refl τ, h τ⟩

theorem Requested.stamped {payment : Payment} (h : Requested payment) (now : Int) :
    Requested (Payment.stored (stamped payment payment.id now)) := by
  obtain ⟨message, envelope, hmessages, hkey, hbody, hid, hreference⟩ := h
  refine ⟨PendingMessage.stored message, envelope, ?_, hkey, hbody, ?_, hreference⟩
  · simp [Payment.stored, Repository.stamped, hmessages]
  · rw [hid]
    simp [Payment.stored, Repository.stamped]

theorem keeps_create {α : Type} {post : α → Store → Prop} {payment : Payment}
    {f : Except String Payment → Program α} (hid : payment.id ≠ "")
    (hrequested : Requested payment)
    (herror : ∀ error τ, Keeps i request post (f (.error error)) τ)
    (h : ∀ now τ, Stored τ (Payment.stored (stamped payment payment.id now)) →
      Keeps i request post (f (.ok (stamped payment payment.id now))) τ) :
    Keeps i request post (call (.create payment) >>= f) σ := by
  refine safe_perform_bind fun τ _ _ choice => ?_
  change Inserts τ (act i request τ (.create payment) (drawn choice)).2 ∧
    Keeps i request post (f (act i request τ (.create payment) (drawn choice)).1)
      (act i request τ (.create payment) (drawn choice)).2
  have hstamped : stamped payment (drawn choice).newId (drawn choice).now =
      stamped payment payment.id (drawn choice).now := by
    simp [stamped, hid]
  rcases act_create payment (drawn choice) with ⟨error, hact⟩ | ⟨hnew, hact⟩
  · rw [hact]
    exact ⟨.refl τ, herror error τ⟩
  · rw [hact]
    rw [hstamped] at hnew ⊢
    obtain ⟨hinserts, hstored⟩ := inserts_created hnew (hrequested.stamped _)
    exact ⟨hinserts, h _ _ hstored⟩

theorem keeps_createPayment (envelope : Envelope PaymentCreateCommandPayload) :
    Keeps i request (fun answer => Backed envelope.payload answer.payload)
      (createPayment s envelope) σ := by
  refine keeps_findByIdempotencyKey (fun _ τ => ?_) fun τ => ?_
  · exact keeps_rpcResponse (backed_error _ _ _ _)
  cases hfind : findByIdempotencyKey τ.payments envelope.payload.idempotencyKey with
  | some existing =>
      change Keeps i request _ (if _ then _ else _) τ
      split
      · exact keeps_rpcResponse (backed_error _ _ _ _)
      · rename_i hhash
        exact keeps_rpcResponse (backed_existing hfind (not_not.mp hhash))
  | none =>
      change Keeps i request _ (if _ then _ else _) τ
      split
      · exact keeps_rpcResponse (backed_error _ _ _ _)
      · refine keeps_newString fun id τ hid _ => ?_
        refine keeps_newString fun reference τ _ _ => ?_
        refine keeps_ask (by simp) fun now τ _ => ?_
        refine keeps_ask (by simp) fun reply τ _ => ?_
        cases reply with
        | error => exact keeps_rpcResponse (backed_error _ _ _ _)
        | ok intent =>
            refine keeps_ask (by simp) fun occurredAt τ hunique => ?_
            refine keeps_pendingMessage hunique fun message τ _ hkey hbody => ?_
            refine keeps_create hid ⟨message, _, rfl, hkey, hbody, rfl, rfl⟩ ?_ ?_
            · exact fun _ _ => keeps_rpcResponse (backed_error _ _ _ _)
            · intro now τ hstored
              refine keeps_rpcResponse ?_
              rintro data ⟨⟩
              exact ⟨_, hstored, rfl, rfl, rfl, rfl, rfl, rfl⟩

/-- A success reply is about a stored payment. -/
def Replied (_ : String) (request : Request) (answer : Answer) (σ : Store) : Prop :=
  ∀ envelope reply, request = .createPayment envelope → answer = .replied reply →
    Backed envelope.payload reply.payload σ

theorem safe_program (hunique : UniqueKeys σ) :
    (program s request).Safe (rules.contract i request) (Replied i request) σ := by
  have hevent (hcreate : ∀ envelope, request ≠ .createPayment envelope) :
      (program s request).Safe (rules.contract i request) (Replied i request) σ := by
    refine (calls_program s request).safe (fun op hop τ _ choice => ?_) ?_
    · refine inserts_of_changed ?_ (changed_act i request τ op (drawn choice))
      rintro payment rfl
      cases request with
      | createPayment envelope => exact hcreate envelope rfl
      | _ => exact hop
    · exact fun _ _ _ envelope _ hrequest => absurd hrequest (hcreate envelope)
  cases request with
  | createPayment envelope =>
      refine (keeps_createPayment envelope).bind hunique fun reply τ _ hbacked => ?_
      rintro υ hkept _ _ _ ⟨⟩ ⟨⟩
      exact hbacked.mono hkept
  | _ => exact hevent (by simp)

end Answers

/-- The service draws no empty id. -/
def DrawsIds : Event → Prop
  | .act _ choice => choice.newId ≠ ""
  | _ => True

theorem step_drawn {s : Service} {world : World} {event : Event}
    (h : DrawsIds event) :
    Pool.step (program s) drawnAct world event = step s world event := by
  cases event with
  | act i choice =>
      have hact : ∀ request σ op, drawnAct i request σ op choice =
          act i request σ op choice := by
        intro request σ op
        rw [drawnAct, drawn_of_newId h]
      simp only [Pool.step, hact]
  | _ => rfl

/-- The invocation has answered its command. -/
def Answered (world : World) (i : String)
    (envelope : Envelope PaymentCreateCommandPayload) (response : RpcResponse) :
    Prop :=
  ∃ reply, world.invocations i = some
      { request := .createPayment envelope, rest := some (.done (.replied reply)) } ∧
    reply.payload = response

/-- What an earlier state of a run and a later one agree on. -/
structure OnePerKey (earlier later : World) : Prop where
  unique : ∀ p q, Stored earlier.shared p → Stored later.shared q →
    p.idempotencyKey = q.idempotencyKey → SameIdentity p q
  answered : ∀ i envelope data, Answered earlier i envelope (.success data) →
    ∃ payment, Stored later.shared payment ∧
      AnswersFor payment envelope.payload data
  refused : ∀ i envelope data payment, Stored later.shared payment →
    payment.idempotencyKey = envelope.payload.idempotencyKey →
    payment.requestHash ≠ envelope.payload.requestHash →
    ¬Answered earlier i envelope (.success data)

section Runs

variable {s : Service}

/-- Every handler follows the rules. -/
abbrev Sound (world : World) : Prop := Pool.Orderly rules Replied world

theorem sound_of_reachable {world : World}
    (h : StepSystem.Reachable (Pool.step (program s) drawnAct) World.init world) :
    Sound world :=
  Pool.orderly_of_reachable (fun _ _ _ hunique _ => safe_program hunique)
    (by simp [rules, UniqueKeys, Stored, Store.empty]) (fun _ => trivial) h

theorem inserts_of_step {world next : World} {event : Event} (h : Sound world)
    (hstep : Pool.step (program s) drawnAct world event = some next) :
    Inserts world.shared next.shared := by
  obtain ⟨_, hmoved⟩ := h.step (fun _ _ _ hunique _ => safe_program hunique) hstep
  cases hmoved with
  | kept hsame => exact hsame ▸ .refl _
  | acted _ _ _ hinserts => exact hinserts

theorem kept_of_run {world later : World} {trace : List (World × Event)}
    (h : StepSystem.Reachable (Pool.step (program s) drawnAct) World.init world)
    (hrun : StepSystem.Run (Pool.step (program s) drawnAct) world trace later) :
    Kept world.shared later.shared := by
  induction hrun with
  | nil => exact .refl _
  | snoc hbefore hstep ih =>
      have hsound := sound_of_reachable (h.run hbefore)
      exact ih.trans (inserts_of_step hsound hstep).kept

theorem backed_of_answered {world : World} (h : Sound world) {i : String}
    {envelope : Envelope PaymentCreateCommandPayload} {response : RpcResponse}
    (hanswered : Answered world i envelope response) :
    Backed envelope.payload response world.shared := by
  obtain ⟨reply, hinvocation, rfl⟩ := hanswered
  have hfollows := h.follows i
  rw [hinvocation] at hfollows
  exact hfollows world.shared (.refl _) h.inv envelope reply rfl rfl

theorem onePerKey_of_run {world later : World} {trace : List (World × Event)}
    (h : StepSystem.Reachable (Pool.step (program s) drawnAct) World.init world)
    (hrun : StepSystem.Run (Pool.step (program s) drawnAct) world trace later) :
    OnePerKey world later := by
  have hkept := kept_of_run h hrun
  have hunique : UniqueKeys later.shared := (sound_of_reachable (h.run hrun)).inv
  have hbacked {i envelope data} (hanswered : Answered world i envelope (.success data)) :
      ∃ payment, Stored later.shared payment ∧
        AnswersFor payment envelope.payload data :=
    (backed_of_answered (sound_of_reachable h) hanswered).mono hkept data rfl
  constructor
  · intro p q hp hq hkey
    obtain ⟨p', hp', hsame⟩ := hkept p hp
    obtain rfl := hunique p' q hp' hq (hsame.idempotencyKey.trans hkey)
    exact hsame
  · exact fun i envelope data => hbacked
  · intro i envelope data payment hpayment hkey hhash hanswered
    obtain ⟨other, hother, hanswers⟩ := hbacked hanswered
    obtain rfl := hunique other payment hother hpayment
      (hanswers.idempotencyKey.trans hkey.symm)
    exact hhash hanswers.requestHash

end Runs

/-- For every run of the handlers, `CreatePayment` among them: two states of the
run have the same payment under a key, every success answer is about it, none goes
to a command with another hash, and it enters with its one request. -/
theorem one_payment_per_key (s : Service) {trace : List (World × Event)}
    {world : World} (hrun : Run s trace world)
    (hids : ∀ p ∈ trace, DrawsIds p.2) :
    (∀ earlier ∈ StepSystem.states trace world, OnePerKey earlier world) ∧
    ∀ p ∈ trace, ∀ next, step s p.1 p.2 = some next →
      ∀ payment, p.1.shared.payments.row payment.id = none →
        Stored next.shared payment → Requested payment := by
  have hdrawn : StepSystem.Run (Pool.step (program s) drawnAct) World.init trace world :=
    hrun.congr fun p hp => step_drawn (hids p hp)
  constructor
  · intro earlier hearlier
    obtain ⟨before, after, _, hbefore, hafter⟩ := hdrawn.split_states hearlier
    exact onePerKey_of_run hbefore.reachable hafter
  · intro p hp next hstep payment hnew hstored
    obtain ⟨before, after, rfl⟩ := List.append_of_mem hp
    obtain ⟨_, hbefore, _, _⟩ := hdrawn.split rfl
    have hsound := sound_of_reachable hbefore.reachable
    rw [← step_drawn (hids p hp)] at hstep
    exact (inserts_of_step hsound hstep).requested payment hnew hstored

section Sample

def sampleOther : Request :=
  .createPayment (newEnvelopeWithMetadata "payment.intent.create" "m-2" "c-2" ""
    "" "onboarding-service"
    { idempotencyKey := "key-1"
      requestHash := "hash-2"
      userId := "user-2"
      customerName := "Bob"
      customerEmail := "bob@modularis.dev"
      customerCellphone := ""
      customerTaxId := ""
      amount := 200
      currency := "BRL" })

/-- Two commands with one key pass the lookup together; the second insertion is
refused. -/
def sampleRace : List Event :=
  .start "i-1" sampleCreate :: .start "i-2" sampleOther ::
    .act "i-2" sampleChoice :: List.replicate 11 (.act "i-1" sampleChoice) ++
    List.replicate 10 (.act "i-2" sampleChoice)

theorem one_payment_per_key_sample : ∃ (world : World) (envelope : _)
    (data : PaymentIntentPayload), Reachable sampleService world ∧
    Answered world "i-1" envelope (.success data) ∧ OnePerKey world world := by
  obtain ⟨world, hworld, envelope, data, hanswered⟩ : ∃ world,
      StepSystem.replay (step sampleService) World.init sampleRace = some world ∧
      ∃ envelope data, Answered world "i-1" envelope (.success data) :=
    ⟨_, rfl, _, _, _, rfl, rfl⟩
  have hrun := StepSystem.run_of_replay hworld
  have hids : ∀ event ∈ sampleRace, DrawsIds event := by
    simp [sampleRace, DrawsIds, sampleChoice]
  have honce := one_payment_per_key sampleService hrun fun p hp =>
    hids p.2 (StepSystem.event_mem_of_mem_traceOf hp)
  exact ⟨world, envelope, data, hrun.reachable, hanswered,
    honce.1 world (by simp [StepSystem.states])⟩

end Sample

end Modularis.Payments.Uniqueness
