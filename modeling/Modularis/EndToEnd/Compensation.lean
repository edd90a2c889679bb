import Modularis.Onboarding.Refusal
import Modularis.Onboarding.Verdicts
import Modularis.Payments.Refusals

namespace Modularis.EndToEnd.Compensation

open Modularis.Foundation
open Modularis.Shared.Messaging
open Modularis.Onboarding.Contracts
open Modularis.Onboarding.Repository (AccountCreationSaga)
open Modularis.Onboarding.Service
open Modularis.Onboarding.Workers (Worker sends)
open Modularis.Onboarding.Invariant (Consistent)
open Modularis.Onboarding.Refusal (append_left_cancel)
open Modularis.Onboarding.SingleRun (sampleEnvironment sampleCommand sampleUser)
open Modularis.Onboarding.Verdicts
open Modularis.Payments.Models (PaymentStatus DeliveryStatus)
open Modularis.Payments.Operations (Request)
open Modularis.Payments.Handlers (Service)
open Modularis.Payments.Lifecycle (sampleService sampleChoice)
open Modularis.Payments.Uniqueness (Stored)
open Modularis.Payments.Refusals (Supported MadeFor Explained explained_of_replied)

/-- The status, as it is sent. -/
def paymentStatusText : PaymentStatus → String
  | .pending => "PENDING"
  | .processing => "PROCESSING"
  | .completed => "COMPLETED"
  | .failed => "FAILED"
  | .expired => "EXPIRED"

/-- The delivery status, as it is sent. -/
def deliveryStatusText : DeliveryStatus → String
  | .pending => "PENDING"
  | .delivered => "DELIVERED"
  | .failed => "FAILED"

/-- A field with `omitempty`. -/
def omitempty (text : String) : Option String := if text = "" then none else some text

/-- What Go reads of the payload of a command. -/
def readPayload (payload : PaymentCreateCommandPayload) :
    Payments.Models.PaymentCreateCommandPayload where
  idempotencyKey := payload.idempotencyKey
  requestHash := payload.requestHash
  userId := payload.userId
  customerName := payload.customerName
  customerEmail := payload.customerEmail
  customerCellphone := payload.customerCellphone
  customerTaxId := payload.customerTaxId
  amount := payload.amount
  currency := payload.currency

/-- A payment, as the worker reads it. -/
def readIntent (data : Payments.Models.PaymentIntentPayload) :
    PaymentIntentPayload where
  id := data.id
  paymentReference := data.paymentReference
  amount := data.amount
  currency := data.currency
  paymentStatus := paymentStatusText data.paymentStatus
  deliveryStatus := deliveryStatusText data.deliveryStatus
  expiresAt := data.expiresAt
  qrCode := data.qrCode
  qrCodeImageUrl := omitempty data.qrCodeImageUrl
  replayed := data.replayed

/-- What `onRpcReply` hands to the worker. -/
def readResponse : Payments.Handlers.RpcResponse → RpcResponse PaymentIntentPayload
  | .success data => .success (readIntent data)
  | .error status title detail code =>
      .failure
        { status := status
          title := title
          detail := detail
          code := omitempty code }

/-- The payload that arrives where the request is a `payment.intent.create`. -/
def paymentCommand (request : RpcRequest) :
    Option Payments.Models.PaymentCreateCommandPayload :=
  match request.command with
  | .paymentCreate payload => some (readPayload payload)
  | _ => none

/-- What stays as it is: both services, the request for which a key and a hash stand
and the user with which identity answers for a key. -/
structure Setting where
  env : Environment
  service : Service
  requestOf : String → String → OnboardingAccountCreateCommandPayload
  userOf : String → String

/-- Both services and the commands that were sent so far. -/
structure World where
  onboarding : Onboarding.Workers.World
  payments : Payments.Interleaving.World
  sent : List RpcRequest

/-- Nothing has happened in either service. -/
def World.init : World where
  onboarding := .init
  payments := .init
  sent := []

/-- `reply w i` hands the reply of the invocation `i` to the worker `w`. -/
inductive Event where
  | worker (event : Onboarding.Workers.Event)
  | payment (event : Payments.Interleaving.Event)
  | reply (w i : String)

/-- Requests with one key and hash are equal, identity answers for a key with one user
and an RPC to the payment service without a reply ends in an error. -/
def admits (S : Setting) (onboarding : Onboarding.Workers.World) :
    Onboarding.Workers.Event → Bool
  | .create _ command _ => decide (command.payload =
      S.requestOf command.payload.idempotencyKey command.payload.requestHash)
  | .answerUser w (.resolved (.success answer)) =>
      match onboarding.workers w with
      | .running _ _ command _ _ =>
          decide (answer.user.id = S.userOf command.payload.idempotencyKey)
      | _ => true
  | .answerPayment _ (.rejected (.error _)) => true
  | .answerPayment _ _ => false
  | _ => true

/-- A delivered command was sent. -/
def delivers (sent : List RpcRequest) : Payments.Interleaving.Event → Bool
  | .start _ (.createPayment envelope) =>
      decide (some envelope.payload ∈ sent.map paymentCommand)
  | _ => true

/-- The command to whose reply the worker listens. -/
def awaited (env : Environment) : Worker → Option RpcRequest
  | .running _ _ command (.awaitingPayment current) _ =>
      current.userPayload.map (requestPaymentCreation env command)
  | _ => none

/-- The reply of an invocation, if it is to the command.  The bus tells commands apart
by a random id; here the reply to an equal command may be taken as well. -/
def replyTo (payments : Payments.Interleaving.World)
    (payload : Payments.Models.PaymentCreateCommandPayload) (i : String) :
    Option Payments.Handlers.RpcResponse :=
  match payments.invocations i with
  | some { request := .createPayment envelope, rest := some (.done (.replied reply)) } =>
      if envelope.payload = payload then some reply.payload else none
  | _ => none

/-- A step of the workers or of the payment service. A command that was sent may be
delivered at any time, any number of times and in any order, and so may the replies. -/
def step (S : Setting) (world : World) : Event → Option World
  | .worker event =>
      if admits S world.onboarding event then
        (Onboarding.Workers.step S.env world.onboarding event).map fun onboarding =>
          { world with
            onboarding := onboarding
            sent := world.sent ++ (sends S.env world.onboarding event).toList }
      else none
  | .payment event =>
      if delivers world.sent event then
        (Payments.Interleaving.step S.service world.payments event).map fun payments =>
          { world with payments := payments }
      else none
  | .reply w i =>
      ((awaited S.env (world.onboarding.workers w)).bind paymentCommand).bind
        fun payload => (replyTo world.payments payload i).bind fun response =>
          (Onboarding.Workers.step S.env world.onboarding
            (.answerPayment w (.resolved (readResponse response)))).map fun onboarding =>
              { world with onboarding := onboarding }

abbrev Run (S : Setting) := StepSystem.Run (step S) World.init

abbrev Reachable (S : Setting) := StepSystem.Reachable (step S) World.init

/-- The command was sent. -/
def Commanded (sent : List RpcRequest)
    (payload : Payments.Models.PaymentCreateCommandPayload) : Prop :=
  ∃ request ∈ sent, paymentCommand request = some payload

/-- The payment service allows the currency of the request. -/
def Payable (S : Setting) (payload : OnboardingAccountCreateCommandPayload) : Prop :=
  Supported S.service payload.currency

/-- Both services, and what is on its way between them. -/
structure Sound (S : Setting) (world : World) : Prop where
  consistent : Consistent world.onboarding
  fair : Fair S.requestOf S.userOf (Payable S) world.onboarding
  sent : ∀ request ∈ world.sent,
    Fitting S.userOf (Payable S) S.env world.onboarding.store request
  payments : Payments.Refusals.Sound S.service world.payments
  delivered : ∀ i invocation, world.payments.invocations i = some invocation →
    ∀ envelope, invocation.request = .createPayment envelope →
      Commanded world.sent envelope.payload
  made : ∀ payment, Stored world.payments.shared payment →
    ∃ payload, Commanded world.sent payload ∧ MadeFor S.service payload payment

section Commands

variable {S : Setting} {world : World}

theorem commanded_mono {sent : List RpcRequest}
    {payload : Payments.Models.PaymentCreateCommandPayload} (h : Commanded sent payload)
    (added : List RpcRequest) : Commanded (sent ++ added) payload := by
  obtain ⟨request, hmem, hcommand⟩ := h
  exact ⟨request, List.mem_append_left _ hmem, hcommand⟩

theorem of_commanded (h : Sound S world)
    {payload : Payments.Models.PaymentCreateCommandPayload}
    (hcommanded : Commanded world.sent payload) :
    ∃ command user row, paymentCommand (requestPaymentCreation S.env command user) =
        some payload ∧
      world.onboarding.store.sagas.row command.payload.idempotencyKey = some row ∧
      row.requestPayload = command.payload ∧
      user.id = S.userOf command.payload.idempotencyKey := by
  obtain ⟨request, hmem, hpayload⟩ := hcommanded
  cases h.sent request hmem with
  | paymentCreate hrow hroot huser => exact ⟨_, _, _, hpayload, hrow, hroot, huser⟩
  | _ => cases hpayload

theorem commanded_unique (h : Sound S world)
    {p q : Payments.Models.PaymentCreateCommandPayload} (hp : Commanded world.sent p)
    (hq : Commanded world.sent q) (hkey : p.idempotencyKey = q.idempotencyKey) :
    p = q := by
  obtain ⟨command, user, row, hpayload, hrow, hroot, huser⟩ := of_commanded h hp
  obtain ⟨command', user', row', hpayload', hrow', hroot', huser'⟩ := of_commanded h hq
  obtain rfl := Option.some.inj hpayload
  obtain rfl := Option.some.inj hpayload'
  have hsame : command.payload.idempotencyKey = command'.payload.idempotencyKey :=
    append_left_cancel hkey
  rw [hsame] at hrow huser
  obtain rfl := Option.some.inj (hrow.symm.trans hrow')
  have hpayload := hroot.symm.trans hroot'
  have huser := huser.trans huser'.symm
  simp only [readPayload, hpayload, huser]

theorem madeFor_of_key (h : Sound S world) {payment : Payments.Models.Payment}
    (hstored : Stored world.payments.shared payment)
    {payload : Payments.Models.PaymentCreateCommandPayload}
    (hcommanded : Commanded world.sent payload)
    (hkey : payment.idempotencyKey = payload.idempotencyKey) :
    MadeFor S.service payload payment := by
  obtain ⟨payload', hcommanded', hmade⟩ := h.made payment hstored
  obtain rfl := commanded_unique h hcommanded' hcommanded
    (hmade.idempotencyKey.symm.trans hkey)
  exact hmade

theorem verdict_of_explained (h : Sound S world)
    {payload : Payments.Models.PaymentCreateCommandPayload}
    (hcommanded : Commanded world.sent payload) {response : Payments.Handlers.RpcResponse}
    (hexplained : Explained S.service payload world.payments.shared response)
    {request : OnboardingAccountCreateCommandPayload}
    (hcurrency : payload.currency = request.currency) :
    Verdict (Payable S) request (.resolved (readResponse response)) := by
  have hpayable : Payable S request ↔ Supported S.service payload.currency := by
    rw [Payable, hcurrency]
  cases response with
  | success data =>
      obtain ⟨payment, hstored, hkey, _⟩ := hexplained
      have hmade := madeFor_of_key h hstored hcommanded hkey
      exact ⟨fun _ _ => hpayable.mpr hmade.supported, nofun⟩
  | error status title detail code =>
      refine ⟨nofun, ?_⟩
      rintro _ ⟨⟩ hfinal
      rw [isRetryable_toProblem_toException, Bool.not_eq_false', decide_eq_true_eq] at hfinal
      have hstatus : status = 400 ∨ status = 409 := by
        simp only [Permanent] at hfinal
        omega
      rw [hpayable]
      rcases hexplained with hfailure | ⟨_, hcurrency⟩ | ⟨_, payment, hstored, hkey, hhash⟩
      · omega
      · exact hcurrency
      · exact absurd (madeFor_of_key h hstored hcommanded hkey).requestHash hhash

end Commands

section Steps

variable {S : Setting} {world next : World}

theorem sound_init (S : Setting) : Sound S World.init where
  consistent := Onboarding.Invariant.consistent_init
  fair := fair_init
  sent := fun _ hrequest => absurd hrequest List.not_mem_nil
  payments := Payments.Refusals.sound_init
  delivered := by
    intro i invocation hi
    cases hi
  made := by
    intro payment hstored
    cases hstored

theorem sound_of_onboarding (h : Sound S world) {event : Onboarding.Workers.Event}
    {onboarding : Onboarding.Workers.World}
    (hsane : Sane S.requestOf S.userOf (Payable S) world.onboarding event)
    (hstep : Onboarding.Workers.step S.env world.onboarding event = some onboarding) :
    Sound S
      { world with
        onboarding := onboarding
        sent := world.sent ++ (sends S.env world.onboarding event).toList } where
  consistent := Onboarding.Invariant.consistent_step h.consistent hstep
  fair := fair_step h.consistent h.fair hsane hstep
  sent := by
    intro request hrequest
    apply fitting_of_step hstep
    rcases List.mem_append.mp hrequest with hold | hnew
    · exact h.sent request hold
    · exact fitting_of_sends h.consistent h.fair (Option.mem_toList.mp hnew)
  payments := h.payments
  delivered := fun i invocation hi envelope hrequest =>
    commanded_mono (h.delivered i invocation hi envelope hrequest) _
  made := by
    intro payment hstored
    obtain ⟨payload, hcommanded, hmade⟩ := h.made payment hstored
    exact ⟨payload, commanded_mono hcommanded _, hmade⟩

theorem sane_of_admits {event : Onboarding.Workers.Event}
    {onboarding : Onboarding.Workers.World} (hadmits : admits S onboarding event = true) :
    Sane S.requestOf S.userOf (Payable S) onboarding event := by
  cases event with
  | create =>
      simp only [admits, decide_eq_true_eq] at hadmits
      exact hadmits
  | answerUser w outcome =>
      match outcome with
      | .resolved (.success answer) =>
          intro origin k command machine queue hw
          simp only [admits, hw] at hadmits
          exact of_decide_eq_true hadmits
      | .resolved (.failure _) | .rejected _ => trivial
  | answerPayment w outcome =>
      match outcome with
      | .rejected (.error message) => exact fun _ _ _ _ _ _ => ⟨nofun, by rintro _ ⟨⟩ ⟨⟩⟩
      | .resolved _ | .rejected (.http _ _) | .rejected (.problemResponse _)
      | .rejected (.sagaError _) | .rejected .other => cases hadmits
  | _ => trivial

theorem awaited_some {env : Environment} {worker : Worker} {request : RpcRequest}
    (h : awaited env worker = some request) :
    ∃ origin key command current queue user,
      worker = .running origin key command (.awaitingPayment current) queue ∧
      request = requestPaymentCreation env command user := by
  unfold awaited at h
  split at h
  · rename_i origin key command current queue
    obtain ⟨user, _, rfl⟩ := Option.map_eq_some_iff.mp h
    exact ⟨origin, key, command, current, queue, user, rfl, rfl⟩
  · cases h

theorem replyTo_some {payments : Payments.Interleaving.World}
    {payload : Payments.Models.PaymentCreateCommandPayload} {i : String}
    {response : Payments.Handlers.RpcResponse}
    (h : replyTo payments payload i = some response) :
    ∃ envelope reply, payments.invocations i = some
        { request := .createPayment envelope
          rest := some (.done (.replied reply)) } ∧
      envelope.payload = payload ∧ reply.payload = response := by
  unfold replyTo at h
  split at h
  · rename_i envelope reply hi
    obtain ⟨hpayload, hreply⟩ := Option.ite_none_right_eq_some.mp h
    exact ⟨envelope, reply, hi, hpayload, Option.some.inj hreply⟩
  · cases h

theorem sane_of_reply (h : Sound S world) {w i : String}
    {payload : Payments.Models.PaymentCreateCommandPayload}
    {response : Payments.Handlers.RpcResponse}
    (hawaited : (awaited S.env (world.onboarding.workers w)).bind paymentCommand =
      some payload)
    (hreply : replyTo world.payments payload i = some response) :
    Sane S.requestOf S.userOf (Payable S) world.onboarding
      (.answerPayment w (.resolved (readResponse response))) := by
  intro origin k command current queue hw
  obtain ⟨envelope, reply, hi, rfl, rfl⟩ := replyTo_some hreply
  obtain ⟨request, hrequest, hcommand⟩ := Option.bind_eq_some_iff.mp hawaited
  obtain ⟨_, _, _, _, _, user, hother, rfl⟩ := awaited_some hrequest
  cases hother.symm.trans hw
  have hcurrency : envelope.payload.currency = command.payload.currency := by
    rw [← Option.some.inj hcommand]
    rfl
  exact verdict_of_explained h (h.delivered i _ hi envelope rfl)
    (explained_of_replied h.payments hi) hcurrency

theorem sound_of_payment (h : Sound S world) {event : Payments.Interleaving.Event}
    {payments : Payments.Interleaving.World} (hdelivers : delivers world.sent event = true)
    (hstep : Payments.Interleaving.step S.service world.payments event = some payments) :
    Sound S { world with payments := payments } := by
  obtain ⟨hpayments, hmoved⟩ := Payments.Refusals.sound_of_step h.payments hstep
  refine ⟨h.consistent, h.fair, h.sent, hpayments, ?_, ?_⟩
  · intro i invocation hi envelope hrequest
    rcases Pool.started_of_step hstep hi with rfl | ⟨rest, hbefore⟩
    · rw [hrequest] at hdelivers
      obtain ⟨request, hmem, hcommand⟩ := List.mem_map.mp (of_decide_eq_true hdelivers)
      exact ⟨request, hmem, hcommand⟩
    · exact h.delivered i _ hbefore envelope hrequest
  · intro payment hstored
    cases hmoved with
    | kept hsame =>
        refine h.made payment ?_
        rw [← hsame]
        exact hstored
    | acted i invocation hi hmakes =>
        rcases hmakes.new payment hstored with ⟨p, hp, hsame⟩ | ⟨envelope, hrequest, hmade⟩
        · obtain ⟨payload, hcommanded, hmade⟩ := h.made p hp
          exact ⟨payload, hcommanded, hmade.same hsame⟩
        · exact ⟨envelope.payload, h.delivered i invocation hi envelope hrequest, hmade⟩

theorem sound_of_step {event : Event} (h : Sound S world)
    (hstep : step S world event = some next) : Sound S next := by
  cases event with
  | worker event =>
      obtain ⟨hadmits, hstep⟩ := Option.ite_none_right_eq_some.mp hstep
      obtain ⟨onboarding, honboarding, rfl⟩ := Option.map_eq_some_iff.mp hstep
      exact sound_of_onboarding h (sane_of_admits hadmits) honboarding
  | payment event =>
      obtain ⟨hdelivers, hstep⟩ := Option.ite_none_right_eq_some.mp hstep
      obtain ⟨payments, hpayments, rfl⟩ := Option.map_eq_some_iff.mp hstep
      exact sound_of_payment h hdelivers hpayments
  | reply w i =>
      obtain ⟨payload, hawaited, hstep⟩ := Option.bind_eq_some_iff.mp hstep
      obtain ⟨response, hreply, hstep⟩ := Option.bind_eq_some_iff.mp hstep
      obtain ⟨onboarding, honboarding, rfl⟩ := Option.map_eq_some_iff.mp hstep
      have hsound := sound_of_onboarding h (sane_of_reply h hawaited hreply) honboarding
      simpa only [sends, Option.toList_none, List.append_nil] using hsound

theorem sound_of_reachable (h : Reachable S world) : Sound S world :=
  h.invariant (sound_init S) fun _ _ _ => sound_of_step

theorem sent_of_step {event : Event} (hstep : step S world event = some next) :
    world.sent ⊆ next.sent := by
  cases event with
  | worker event =>
      obtain ⟨_, hstep⟩ := Option.ite_none_right_eq_some.mp hstep
      obtain ⟨_, _, rfl⟩ := Option.map_eq_some_iff.mp hstep
      exact List.subset_append_left _ _
  | payment event =>
      obtain ⟨_, hstep⟩ := Option.ite_none_right_eq_some.mp hstep
      obtain ⟨_, _, rfl⟩ := Option.map_eq_some_iff.mp hstep
      exact List.Subset.refl _
  | reply w i =>
      obtain ⟨_, _, hstep⟩ := Option.bind_eq_some_iff.mp hstep
      obtain ⟨_, _, hstep⟩ := Option.bind_eq_some_iff.mp hstep
      obtain ⟨_, _, rfl⟩ := Option.map_eq_some_iff.mp hstep
      exact List.Subset.refl _

theorem sent_of_run {later : World} {trace : List (World × Event)}
    (hrun : StepSystem.Run (step S) world trace later) : world.sent ⊆ later.sent := by
  induction hrun with
  | nil => exact List.Subset.refl _
  | snoc _ hstep ih => exact List.Subset.trans ih (sent_of_step hstep)

end Steps

/-- A worker has sent `identity.user.compensate` for the saga of the key. -/
def Compensated (world : World) (key : String) : Prop :=
  ∃ request ∈ world.sent, ∃ payload, request.command = .userCompensate payload ∧
    payload.idempotencyKey = compensationStepKey key

/-- The user of the saga has no payment: none is stored, no command on its way to the
payment service is accepted there, and the saga is not completed. -/
structure Unpaid (S : Setting) (world : World) (key : String) : Prop where
  stored : ∀ payment, Stored world.payments.shared payment →
    payment.idempotencyKey ≠ paymentStepKey key
  commanded : ∀ payload, Commanded world.sent payload →
    payload.idempotencyKey = paymentStepKey key → ¬ Supported S.service payload.currency
  completed : ∀ row, world.onboarding.store.sagas.row key = some row →
    row.status ≠ .completed

theorem unpaid_of_compensated {S : Setting} {world : World} (h : Sound S world)
    {key : String} (hcompensated : Compensated world key) : Unpaid S world key := by
  obtain ⟨request, hmem, payload, hpayload, hkey⟩ := hcompensated
  cases h.sent request hmem with
  | @userCompensate command user row hrow hroot hpayable =>
      obtain rfl := RpcCommand.userCompensate.inj hpayload
      obtain rfl : command.payload.idempotencyKey = key := append_left_cancel hkey
      have hcommanded : ∀ payload, Commanded world.sent payload →
          payload.idempotencyKey = paymentStepKey command.payload.idempotencyKey →
          ¬ Supported S.service payload.currency := by
        intro payload hcommanded hkey
        obtain ⟨command', user', row', hcommand, hrow', hroot', _⟩ :=
          of_commanded h hcommanded
        obtain rfl := Option.some.inj hcommand
        rw [append_left_cancel hkey, hrow] at hrow'
        obtain rfl := Option.some.inj hrow'
        have hcurrency : command'.payload.currency = command.payload.currency := by
          rw [← hroot', hroot]
        change ¬ Supported S.service command'.payload.currency
        rw [hcurrency]
        exact hpayable
      refine ⟨?_, hcommanded, ?_⟩
      · intro payment hstored hsame
        obtain ⟨payload, hsent, hmade⟩ := h.made payment hstored
        exact hcommanded payload hsent (hmade.idempotencyKey.symm.trans hsame)
          hmade.supported
      · intro other hother hstatus
        obtain rfl := Option.some.inj (hrow.symm.trans hother)
        have hfair := h.fair.rows _ row hrow
        exact hpayable (hroot ▸ hfair.complete (.inr hstatus))
  | _ => cases hpayload

/-- Once some worker has sent the compensation of a saga, its user has no payment, in
this state and in every state that any further steps reach: none is stored, none of
the commands in flight ever creates one, and the saga is never completed. -/
theorem compensated_user_unpaid (S : Setting) {world : World} (h : Reachable S world)
    {key : String} (hcompensated : Compensated world key) {later : World}
    {trace : List (World × Event)}
    (hrun : StepSystem.Run (step S) world trace later) : Unpaid S later key := by
  obtain ⟨request, hmem, hpayload⟩ := hcompensated
  exact unpaid_of_compensated (sound_of_reachable (h.run hrun))
    ⟨request, sent_of_run hrun hmem, hpayload⟩

section Sample

/-- The payment service allows another currency than the one of the command. -/
def sampleSetting : Setting where
  env := sampleEnvironment
  service :=
    { sampleService with
      config := { sampleService.config with allowedCurrencies := ["USD"] } }
  requestOf := fun _ _ => sampleCommand.payload
  userOf := fun _ => sampleUser.id

def sampleDelivery : Request :=
  .createPayment (newEnvelopeWithMetadata "payment.intent.create" "m-1" "correlation-1"
    "" "" "onboarding-service"
    { idempotencyKey := "payment:key-1"
      requestHash := "step-hash"
      userId := "user-1"
      customerName := "Ada"
      customerEmail := "ada@example.com"
      customerCellphone := "11999990000"
      customerTaxId := "12345678901"
      amount := 10
      currency := "BRL" })

/-- A worker creates the user, sees the payment refused and sends the compensation. -/
def sampleEvents : List Event :=
  (Onboarding.SingleRun.userSteps "w-1" sampleCommand sampleUser).map .worker ++
    [.worker (.advance "w-1"),
     .payment (.start "i-1" sampleDelivery),
     .payment (.act "i-1" sampleChoice),
     .payment (.act "i-1" sampleChoice),
     .payment (.act "i-1" sampleChoice),
     .reply "w-1" "i-1",
     .worker (.mark "w-1" 0 0),
     .worker (.advance "w-1")]

theorem compensated_user_unpaid_sample : ∃ world, Reachable sampleSetting world ∧
    Compensated world "key-1" ∧ Unpaid sampleSetting world "key-1" := by
  have hreplay : (StepSystem.replay (step sampleSetting) World.init
      sampleEvents).map World.sent =
        some [requestUserCreation sampleEnvironment sampleCommand,
          requestPaymentCreation sampleEnvironment sampleCommand sampleUser,
          requestUserCompensation sampleCommand sampleUser] := by
    decide +kernel
  obtain ⟨world, hworld, hsent⟩ := Option.map_eq_some_iff.mp hreplay
  have hcompensated : Compensated world "key-1" :=
    ⟨requestUserCompensation sampleCommand sampleUser, by simp [hsent], _, rfl, rfl⟩
  have hreach : Reachable sampleSetting world := (StepSystem.run_of_replay hworld).reachable
  exact ⟨world, hreach, hcompensated,
    compensated_user_unpaid sampleSetting hreach hcompensated .nil⟩

end Sample

end Modularis.EndToEnd.Compensation
