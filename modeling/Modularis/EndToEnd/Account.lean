import Modularis.EndToEnd.Compensation
import Modularis.Identity.Owners
import Modularis.Onboarding.Snapshots
import Modularis.Payments.Orders

/-!
The account creation as a whole: the onboarding workers, the transactions of identity
and the handlers of the payment service.  A command that was sent may be delivered at
any time, any number of times and in any order, an answer may reach any worker that
waits for it, late or never, and every RPC may fail.
-/

namespace Modularis.EndToEnd.Account

open Modularis.Foundation
open Modularis.Foundation.Column (varchar eq_of_varchar eq_of_varchar_eq)
open Modularis.Shared.Text
open Modularis.Shared.Uuid
open Modularis.Onboarding.Contracts
open Modularis.Onboarding.Repository (AccountCreationSaga)
open Modularis.Onboarding.Service
open Modularis.Onboarding.Workers (Worker sends)
open Modularis.Onboarding.Invariant (Consistent)
open Modularis.Onboarding.Refusal (append_left_cancel)
open Modularis.Onboarding.Agreement (Answers AnswerOk)
open Modularis.Onboarding.Discipline
open Modularis.Onboarding.Snapshots
open Modularis.Identity.Database (UserEntity IdentityDatabase)
open Modularis.Identity.Service (RpcErrorPayload UserCreateCommandResult
  CompensationCommandResult toPayload)
open Modularis.Identity.Transactions (Answer answered)
open Modularis.Identity.Store (Known)
open Modularis.Identity.Owners
open Modularis.Payments.Models (Payment)
open Modularis.Payments.Handlers (Service)
open Modularis.Payments.Refusals (Supported Explained explained_of_replied)
open Modularis.Payments.Uniqueness (Stored AnswersFor)
open Modularis.Payments.Orders (OrderedBy)
open Modularis.EndToEnd.Compensation (readPayload readIntent readResponse paymentCommand
  replyTo replyTo_some Commanded commanded_mono)

/-- What identity reads of the payload of a command. -/
def readUserCommand (payload : UserCreateCommandPayload) :
    Identity.Service.UserCreateCommandPayload where
  idempotencyKey := payload.idempotencyKey
  requestHash := payload.requestHash
  email := payload.email
  name := payload.name
  cellphone := payload.cellphone
  taxId := payload.taxId

/-- A compensation, as the listener reads it. -/
def readCompensationCommand (payload : UserCompensationCommandPayload) :
    Identity.Service.UserCompensationCommandPayload where
  idempotencyKey := payload.idempotencyKey
  userId := payload.userId
  reason := payload.reason

/-- A user, as the worker reads it. -/
def readUser (user : Identity.Service.UserPayload) : UserPayload where
  id := user.id
  email := user.email
  name := user.name
  isPremium := user.isPremium

/-- An error, as the worker reads it. -/
def readError (error : RpcErrorPayload) : ProblemSnapshot where
  status := error.status
  title := error.title
  detail := error.detail
  code := some error.code

/-- What `onRpcReply` hands to the worker. -/
def readUserAnswer : Except RpcErrorPayload UserCreateCommandResult →
    RpcResponse UserCreateResponsePayload
  | .ok result => .success { user := readUser result.user, replayed := result.replayed }
  | .error error => .failure (readError error)

/-- The answer to a compensation, as the worker reads it. -/
def readCompensationAnswer : Except RpcErrorPayload CompensationCommandResult →
    RpcResponse CompensationResultPayload
  | .ok result => .success { compensated := result.compensated, replayed := result.replayed }
  | .error error => .failure (readError error)

/-- The payload of a request to create a user, as the listener reads it. -/
def userCommand (request : RpcRequest) :
    Option Identity.Service.UserCreateCommandPayload :=
  match request.command with
  | .userCreate payload => some (readUserCommand payload)
  | _ => none

/-- The payload of a request to undo a user, as the listener reads it. -/
def compensationCommand (request : RpcRequest) :
    Option Identity.Service.UserCompensationCommandPayload :=
  match request.command with
  | .userCompensate payload => some (readCompensationCommand payload)
  | _ => none

/-- What stays as it is: the services, and the request for which a key and a hash
stand. -/
structure Setting where
  env : Environment
  service : Service
  requestOf : String → String → OnboardingAccountCreateCommandPayload

/-- The services, the commands that were sent and the answers that identity gave. -/
structure World where
  onboarding : Onboarding.Workers.World
  identity : Identity.Transactions.World
  payments : Payments.Interleaving.World
  sent : List RpcRequest
  answers : List Answer

/-- Nothing has happened in any of the services. -/
def World.init : World where
  onboarding := .init
  identity := .init
  payments := .init
  sent := []
  answers := []

/-- `replyUser w n` hands the answer number `n` of identity to the worker `w`, and
`replyPayment w i` the reply of the invocation `i`. -/
inductive Event where
  | worker (event : Onboarding.Workers.Event)
  | identity (event : Identity.Transactions.Event)
  | payment (event : Payments.Interleaving.Event)
  | replyUser (w : String) (n : Nat)
  | replyCompensation (w : String) (n : Nat)
  | replyPayment (w i : String)

/-- Requests with one key and hash are equal.  Successes come only from the services;
an RPC may always fail, to the payment service without its reply only with an error. -/
def admits (S : Setting) : Onboarding.Workers.Event → Bool
  | .create _ command _ => decide (command.payload =
      S.requestOf command.payload.idempotencyKey command.payload.requestHash)
  | .answerUser _ (.resolved (.success _)) => false
  | .answerCompensation _ (.resolved (.success _)) => false
  | .answerPayment _ (.rejected (.error _)) => true
  | .answerPayment _ _ => false
  | _ => true

/-- A delivered command was sent. -/
def deliversUser (sent : List RpcRequest) : Identity.Transactions.Event → Bool
  | .createUser _ command _ => decide (some command.payload ∈ sent.map userCommand)
  | .compensateUser _ command =>
      decide (some command.payload ∈ sent.map compensationCommand)
  | _ => true

/-- The payment service draws no empty id. -/
def deliversPayment (sent : List RpcRequest) (event : Payments.Interleaving.Event) : Bool :=
  Compensation.delivers sent event &&
    match event with
    | .act _ choice => decide (choice.newId ≠ "")
    | _ => true

/-- The command to whose reply the worker listens. -/
def awaited (env : Environment) : Worker → Option RpcRequest
  | .running _ _ command (.awaitingUser _) _ => some (requestUserCreation env command)
  | .running _ _ command (.awaitingPayment current) _ =>
      current.userPayload.map (requestPaymentCreation env command)
  | .running _ _ command (.awaitingCompensation current) _ =>
      current.userPayload.map (requestUserCompensation command)
  | _ => none

/-- The answer of identity, if it is to the command.  The bus tells commands apart by a
random id; here the answer to an equal command may be taken as well. -/
def userAnswer (payload : Identity.Service.UserCreateCommandPayload) :
    Answer → Option (Except RpcErrorPayload UserCreateCommandResult)
  | .created command answer => if command.payload = payload then some answer else none
  | _ => none

/-- The answer to this compensation, if it is one. -/
def compensationAnswer (payload : Identity.Service.UserCompensationCommandPayload) :
    Answer → Option (Except RpcErrorPayload CompensationCommandResult)
  | .compensated command answer => if command.payload = payload then some answer else none
  | _ => none

/-- A step of the workers, with the command that it sends. -/
def World.stepWorker (S : Setting) (world : World) (event : Onboarding.Workers.Event) :
    Option World :=
  (Onboarding.Workers.step S.env world.onboarding event).map fun onboarding =>
    { world with
      onboarding := onboarding
      sent := world.sent ++ (sends S.env world.onboarding event).toList }

/-- A step of one service, on commands that were sent. -/
def step (S : Setting) (world : World) : Event → Option World
  | .worker event => if admits S event then world.stepWorker S event else none
  | .identity event =>
      if deliversUser world.sent event then
        (Identity.Transactions.step world.identity event).map fun identity =>
          { world with
            identity := identity
            answers := world.answers ++ (answered (world.identity, event)).toList }
      else none
  | .payment event =>
      if deliversPayment world.sent event then
        (Payments.Interleaving.step S.service world.payments event).map fun payments =>
          { world with payments := payments }
      else none
  | .replyUser w n =>
      ((awaited S.env (world.onboarding.workers w)).bind userCommand).bind fun payload =>
        (world.answers[n]?.bind (userAnswer payload)).bind fun answer =>
          world.stepWorker S (.answerUser w (.resolved (readUserAnswer answer)))
  | .replyCompensation w n =>
      ((awaited S.env (world.onboarding.workers w)).bind compensationCommand).bind
        fun payload => (world.answers[n]?.bind (compensationAnswer payload)).bind
          fun answer => world.stepWorker S
            (.answerCompensation w (.resolved (readCompensationAnswer answer)))
  | .replyPayment w i =>
      ((awaited S.env (world.onboarding.workers w)).bind paymentCommand).bind fun payload =>
        (replyTo world.payments payload i).bind fun response =>
          world.stepWorker S (.answerPayment w (.resolved (readResponse response)))

abbrev Run (S : Setting) := StepSystem.Run (step S) World.init

abbrev Reachable (S : Setting) := StepSystem.Reachable (step S) World.init

/-- The command to create this user was sent. -/
def Created (sent : List RpcRequest)
    (payload : Identity.Service.UserCreateCommandPayload) : Prop :=
  ∃ request ∈ sent, userCommand request = some payload

/-- A compensation that was sent names the user. -/
def Named (sent : List RpcRequest) (id : UUID) : Prop :=
  ∃ request ∈ sent, ∃ payload, compensationCommand request = some payload ∧
    UUID.fromString payload.userId = some id

/-- Identity has answered the user step of the request with the user. -/
def Provided (answers : List Answer) (payload : OnboardingAccountCreateCommandPayload)
    (user : UserPayload) : Prop :=
  ∃ command result, .created command (.ok result) ∈ answers ∧
    command.payload.idempotencyKey = userStepKey payload.idempotencyKey ∧
    user = readUser result.user

/-- The stored payment is the one of the request, for this user. -/
structure PaymentOf (S : Setting) (payload : OnboardingAccountCreateCommandPayload)
    (user : UserPayload) (stored : Payment) : Prop where
  idempotencyKey : stored.idempotencyKey = paymentStepKey payload.idempotencyKey
  userId : stored.userId = user.id
  amount : stored.amount = payload.amount
  currency : stored.currency = toUpper S.service.unicodeToUpper payload.currency

/-- The payment that the saga keeps is the stored one. -/
structure Shows (payment : PublicPaymentIntentPayload) (stored : Payment) : Prop where
  id : payment.id = stored.id
  paymentReference : payment.paymentReference = stored.paymentReference
  amount : payment.amount = stored.amount
  currency : payment.currency = stored.currency

/-- A stored payment belongs to the request and is what is shown. -/
def Paid (S : Setting) (payments : Payments.Interleaving.World)
    (payload : OnboardingAccountCreateCommandPayload) (user : UserPayload)
    (payment : PublicPaymentIntentPayload) : Prop :=
  ∃ stored, Stored payments.shared stored ∧ PaymentOf S payload user stored ∧
    Shows payment stored

/-- The payment service allows the currency of the request. -/
def Payable (S : Setting) (payload : OnboardingAccountCreateCommandPayload) : Prop :=
  Supported S.service payload.currency

/-- What the workers of a world were told and may be told. -/
def facts (S : Setting) (world : World) : Facts where
  provided := Provided world.answers
  paid := Paid S world.payments
  payable := Payable S

/-- The services, and what is on its way between them. -/
structure Sound (S : Setting) (world : World) : Prop where
  answers : Answers world.onboarding
  disciplined : Disciplined (rule (facts S world)) S.requestOf world.onboarding
  sent : ∀ request ∈ world.sent, Sent S.env world.onboarding.store request
  identity : Accounted (Created world.sent) (Named world.sent) world.identity world.answers
  refusals : Payments.Refusals.Sound S.service world.payments
  unique : Payments.Uniqueness.Sound world.payments
  orders : Payments.Orders.Sound S.service world.payments
  delivered : ∀ i invocation, world.payments.invocations i = some invocation →
    ∀ envelope, invocation.request = .createPayment envelope →
      Commanded world.sent envelope.payload
  made : ∀ stored, Stored world.payments.shared stored →
    ∃ payload, Commanded world.sent payload ∧ OrderedBy S.service payload stored

section Commands

variable {S : Setting} {world : World}

theorem of_created (h : Sound S world)
    {payload : Identity.Service.UserCreateCommandPayload}
    (hcreated : Created world.sent payload) :
    ∃ command row, userCommand (requestUserCreation S.env command) = some payload ∧
      world.onboarding.store.sagas.row command.payload.idempotencyKey = some row ∧
      row.requestPayload = command.payload := by
  obtain ⟨request, hmem, hpayload⟩ := hcreated
  cases h.sent request hmem with
  | userCreate hrow hroot => exact ⟨_, _, hpayload, hrow, hroot⟩
  | paymentCreate => cases hpayload
  | userCompensate => cases hpayload

theorem of_commanded (h : Sound S world)
    {payload : Payments.Models.PaymentCreateCommandPayload}
    (hcommanded : Commanded world.sent payload) :
    ∃ command user row, paymentCommand (requestPaymentCreation S.env command user) =
        some payload ∧
      world.onboarding.store.sagas.row command.payload.idempotencyKey = some row ∧
      row.requestPayload = command.payload ∧ row.userPayload = some user := by
  obtain ⟨request, hmem, hpayload⟩ := hcommanded
  cases h.sent request hmem with
  | userCreate => cases hpayload
  | paymentCreate hrow hroot huser => exact ⟨_, _, _, hpayload, hrow, hroot, huser⟩
  | userCompensate => cases hpayload

theorem of_named (h : Sound S world) {id : UUID} (hnamed : Named world.sent id) :
    ∃ key row user, world.onboarding.store.sagas.row key = some row ∧
      row.userPayload = some user ∧ row.nextAction = .compensateUser ∧
      UUID.fromString user.id = some id := by
  obtain ⟨request, hmem, payload, hpayload, hid⟩ := hnamed
  cases h.sent request hmem with
  | userCreate => cases hpayload
  | paymentCreate => cases hpayload
  | userCompensate hrow hroot huser hnext =>
      obtain rfl := Option.some.inj hpayload
      exact ⟨_, _, _, hrow, huser, hnext, hid⟩

theorem commanded_unique (h : Sound S world)
    {p q : Payments.Models.PaymentCreateCommandPayload} (hp : Commanded world.sent p)
    (hq : Commanded world.sent q) (hkey : p.idempotencyKey = q.idempotencyKey) : p = q := by
  obtain ⟨command, user, row, hpayload, hrow, hroot, huser⟩ := of_commanded h hp
  obtain ⟨command', user', row', hpayload', hrow', hroot', huser'⟩ := of_commanded h hq
  obtain rfl := Option.some.inj hpayload
  obtain rfl := Option.some.inj hpayload'
  have hsame : command.payload.idempotencyKey = command'.payload.idempotencyKey :=
    append_left_cancel hkey
  rw [hsame] at hrow
  obtain rfl := Option.some.inj (hrow.symm.trans hrow')
  obtain rfl := Option.some.inj (huser.symm.trans huser')
  have hpayload := hroot.symm.trans hroot'
  simp only [readPayload, hpayload]

theorem orderedBy_of_key (h : Sound S world) {stored : Payment}
    (hstored : Stored world.payments.shared stored)
    {payload : Payments.Models.PaymentCreateCommandPayload}
    (hcommanded : Commanded world.sent payload)
    (hkey : stored.idempotencyKey = payload.idempotencyKey) :
    OrderedBy S.service payload stored := by
  obtain ⟨payload', hcommanded', hordered⟩ := h.made stored hstored
  obtain rfl := commanded_unique h hcommanded' hcommanded
    (hordered.idempotencyKey.symm.trans hkey)
  exact hordered

/-- The user was made from the request and has its data, as the columns keep them. -/
structure UserOf (payload : OnboardingAccountCreateCommandPayload) (owner : UserEntity) :
    Prop where
  email : varchar 255 payload.email = some owner.email
  name : varchar 120 payload.name = some owner.name
  cellphone : varchar 40 payload.cellphone = some owner.cellphone
  taxId : varchar 32 payload.taxId = some owner.taxId

theorem userOf_of_madeFrom {env : Environment} {command : CreateCommand}
    {payload : Identity.Service.UserCreateCommandPayload} {owner : UserEntity}
    (hpayload : userCommand (requestUserCreation env command) = some payload)
    (hmade : MadeFrom payload owner) : UserOf command.payload owner := by
  obtain rfl := Option.some.inj hpayload
  exact ⟨hmade.email, hmade.name, hmade.cellphone, hmade.taxId⟩

/-- The user is shown as it is stored, or as the request has it. -/
def Shown (payload : OnboardingAccountCreateCommandPayload) (owner : UserEntity)
    (user : UserPayload) : Prop :=
  user = readUser (toPayload owner) ∨
    user = readUser (toPayload { owner with email := payload.email, name := payload.name })

theorem Shown.id {payload : OnboardingAccountCreateCommandPayload} {owner : UserEntity}
    {user : UserPayload} (h : Shown payload owner user) : user.id = owner.id.toString := by
  rcases h with rfl | rfl
  · rfl
  · rfl

theorem shown_of_shows {env : Environment} {command : CreateCommand}
    {payload : Identity.Service.UserCreateCommandPayload} {owner : UserEntity}
    {user : Identity.Service.UserPayload}
    (hpayload : userCommand (requestUserCreation env command) = some payload)
    (hshows : Identity.Owners.Shows payload owner user) :
    Shown command.payload owner (readUser user) := by
  obtain rfl := Option.some.inj hpayload
  exact hshows.imp (congrArg readUser) (congrArg readUser)

theorem key_of_row {σ : Onboarding.Workers.World} (h : Consistent σ) {key : String}
    {row : AccountCreationSaga} (hrow : σ.store.sagas.row key = some row) :
    row.requestPayload.idempotencyKey = key :=
  (h.rows key row hrow).payload_key.trans (σ.store.sagas.key_row key row hrow)

theorem answer_of_row (h : Sound S world) {key : String} {row : AccountCreationSaga}
    {user : UserPayload} (hrow : world.onboarding.store.sagas.row key = some row)
    (huser : row.userPayload = some user) : ∃ command result payload owner stored,
      .created command (.ok result) ∈ world.answers ∧ user = readUser result.user ∧
      command.payload.idempotencyKey = userStepKey key ∧ Created world.sent payload ∧
      varchar 128 payload.idempotencyKey = some stored ∧
      varchar 128 command.payload.idempotencyKey = some stored ∧ MadeFrom payload owner ∧
      Identity.Owners.Shows payload owner result.user ∧ Known world.identity owner.id ∧
      (Housed world.identity.db stored owner ∨ Receipted world.identity.db owner.id) := by
  obtain ⟨command, result, hmem, hkey, hshown⟩ :=
    (h.disciplined.rows key row hrow).kept.user user huser
  rw [key_of_row h.answers.consistent hrow] at hkey
  obtain ⟨payload, owner, stored, hanswered⟩ := h.identity.answered command result hmem
  exact ⟨command, result, payload, owner, stored, hmem, hshown, hkey, hanswered⟩

theorem owner_of_row (h : Sound S world) {key : String} {row : AccountCreationSaga}
    {user : UserPayload} (hrow : world.onboarding.store.sagas.row key = some row)
    (huser : row.userPayload = some user) : ∃ owner : UserEntity,
      UUID.fromString user.id = some owner.id ∧ Known world.identity owner.id := by
  obtain ⟨_, _, _, owner, _, _, rfl, _, _, _, _, _, hshows, hknown, _⟩ :=
    answer_of_row h hrow huser
  refine ⟨owner, ?_, hknown⟩
  rcases hshows with hshows | hshows
  all_goals
    rw [hshows]
    exact fromString_toString owner.id

/-- Which user the snapshot of a row shows, and whose it is. -/
structure Snapshot (world : World) (key : String) (row : AccountCreationSaga)
    (user : UserPayload) (owner : UserEntity) : Prop where
  userOf : UserOf row.requestPayload owner
  shown : Shown row.requestPayload owner user
  known : Known world.identity owner.id
  owned : Owned world.identity world.answers owner.id (some (userStepKey key))
  housed : Housed world.identity.db (userStepKey key) owner ∨
    Receipted world.identity.db owner.id

/-- The keys of the sagas end without a blank: the gateway trims them. -/
def Trimmed (world : World) : Prop :=
  ∀ key ∈ world.onboarding.store.sagas.keys, key.toList.getLast? ≠ some ' '

instance (world : World) : Decidable (Trimmed world) :=
  inferInstanceAs (Decidable (∀ key ∈ world.onboarding.store.sagas.keys, _))

theorem Trimmed.userStepKey (h : Trimmed world) {key : String} {row : AccountCreationSaga}
    (hrow : world.onboarding.store.sagas.row key = some row) :
    (userStepKey key).toList.getLast? ≠ some ' ' := by
  have hend := h key ((world.onboarding.store.sagas.mem_keys key).mpr (by simp [hrow]))
  rw [Onboarding.Service.userStepKey, String.toList_append, List.getLast?_append]
  cases hlast : key.toList.getLast? with
  | none => decide
  | some c =>
      rw [hlast] at hend
      exact hend

theorem snapshot_of_row (h : Sound S world) (htrimmed : Trimmed world) {key : String}
    {row : AccountCreationSaga} {user : UserPayload}
    (hrow : world.onboarding.store.sagas.row key = some row)
    (huser : row.userPayload = some user) : ∃ owner, Snapshot world key row user owner := by
  obtain ⟨command, result, payload, owner, stored, hmem, rfl, hkey, hcreated, hsame, hsame',
    hmade, hshows, hknown, hhoused⟩ := answer_of_row h hrow huser
  obtain ⟨origin, row', hpayload, hrow', hroot⟩ := of_created h hcreated
  have hstep : payload.idempotencyKey = userStepKey origin.payload.idempotencyKey := by
    rw [← Option.some.inj hpayload]
    rfl
  rw [hkey] at hsame'
  rw [hstep] at hsame
  have hend := htrimmed.userStepKey hrow
  have hend' := htrimmed.userStepKey hrow'
  rw [← append_left_cancel (eq_of_varchar_eq hend hend' hsame' hsame)] at hrow'
  obtain rfl := Option.some.inj (hrow'.symm.trans hrow)
  obtain rfl := eq_of_varchar hend hsame'
  have hshown := shown_of_shows hpayload hshows
  refine ⟨owner, ?_, ?_, hknown, ?_, hhoused⟩
  · rw [hroot]
    exact userOf_of_madeFrom hpayload hmade
  · rw [hroot]
    exact hshown
  · rw [← hsame', ← hkey]
    exact .answered hmem hshown.id

theorem Snapshot.id {key : String} {row : AccountCreationSaga} {user : UserPayload}
    {owner : UserEntity} (h : Snapshot world key row user owner) :
    UUID.fromString user.id = some owner.id := by
  rw [h.shown.id]
  exact fromString_toString owner.id

theorem key_of_user (h : Sound S world) (htrimmed : Trimmed world) {key key' : String}
    {row row' : AccountCreationSaga} {user user' : UserPayload}
    (hrow : world.onboarding.store.sagas.row key = some row)
    (hrow' : world.onboarding.store.sagas.row key' = some row')
    (huser : row.userPayload = some user) (huser' : row'.userPayload = some user')
    (hid : user.id = user'.id) : key = key' := by
  obtain ⟨owner, howner⟩ := snapshot_of_row h htrimmed hrow huser
  obtain ⟨owner', howner'⟩ := snapshot_of_row h htrimmed hrow' huser'
  have hsame : owner.id = owner'.id :=
    Option.some.inj (howner.id.symm.trans ((congrArg _ hid).trans howner'.id))
  exact append_left_cancel (Option.some.inj
    (h.identity.single owner.id _ _ howner.owned (hsame ▸ howner'.owned)))

theorem housed_of_row (h : Sound S world) (htrimmed : Trimmed world) {key : String}
    {row : AccountCreationSaga} {user : UserPayload} {owner : UserEntity}
    (hrow : world.onboarding.store.sagas.row key = some row)
    (howner : Snapshot world key row user owner) :
    Housed world.identity.db (userStepKey key) owner ∨ row.nextAction = .compensateUser := by
  rcases howner.housed with hhoused | hreceipted
  · exact .inl hhoused
  · obtain ⟨key', row', user', hrow', huser', hnext, hid⟩ :=
      of_named h (h.identity.receipted owner.id hreceipted)
    obtain ⟨owner', howner'⟩ := snapshot_of_row h htrimmed hrow' huser'
    have hsame : owner'.id = owner.id := Option.some.inj (howner'.id.symm.trans hid)
    have hkey : key' = key := append_left_cancel (Option.some.inj
      (h.identity.single owner.id _ _ (hsame ▸ howner'.owned) howner.owned))
    rw [hkey] at hrow'
    obtain rfl := Option.some.inj (hrow.symm.trans hrow')
    exact .inr hnext

end Commands

section Answers

variable {S : Setting} {world : World}

theorem paid_of_answered (h : Sound S world) {command : CreateCommand} {user : UserPayload}
    {payload : Payments.Models.PaymentCreateCommandPayload}
    (hcommanded : Commanded world.sent payload)
    (hpayload : paymentCommand (requestPaymentCreation S.env command user) = some payload)
    {stored : Payment} {data : Payments.Models.PaymentIntentPayload}
    (hstored : Stored world.payments.shared stored) (hanswers : AnswersFor stored payload data) :
    Payable S command.payload ∧
      Paid S world.payments command.payload user (toPublicPayment (readIntent data)) := by
  have hordered := orderedBy_of_key h hstored hcommanded hanswers.idempotencyKey
  obtain rfl := Option.some.inj hpayload
  exact ⟨hordered.supported, stored, hstored,
    ⟨hordered.idempotencyKey, hordered.userId, hordered.amount, hordered.currency⟩,
    ⟨hanswers.id, hanswers.paymentReference, hanswers.amount, hanswers.currency⟩⟩

theorem unsupported_of_explained (h : Sound S world)
    {payload : Payments.Models.PaymentCreateCommandPayload}
    (hcommanded : Commanded world.sent payload) {response : Payments.Handlers.RpcResponse}
    (hexplained : Explained S.service payload world.payments.shared response)
    {reason : Thrown} (hreason : sendRpc (.resolved (readResponse response)) = .error reason)
    (hfinal : isRetryable (toProblem reason) = false) :
    ¬ Supported S.service payload.currency := by
  cases response with
  | success data => cases hreason
  | error status title detail code =>
      obtain rfl := Except.error.inj hreason
      rw [isRetryable_toProblem_toException, Bool.not_eq_false', decide_eq_true_eq] at hfinal
      have hstatus : status = 400 ∨ status = 409 := by
        simp only [Permanent] at hfinal
        omega
      rcases hexplained with hfailure | ⟨_, hcurrency⟩ | ⟨_, payment, hstored, hkey, hhash⟩
      · omega
      · exact hcurrency
      · exact absurd (orderedBy_of_key h hstored hcommanded hkey).requestHash hhash

theorem awaited_payment {env : Environment} {worker : Worker}
    {payload : Payments.Models.PaymentCreateCommandPayload}
    (h : (awaited env worker).bind paymentCommand = some payload) :
    ∃ origin key command current queue user,
      worker = .running origin key command (.awaitingPayment current) queue ∧
      current.userPayload = some user ∧
      paymentCommand (requestPaymentCreation env command user) = some payload := by
  obtain ⟨request, hrequest, hpayload⟩ := Option.bind_eq_some_iff.mp h
  unfold awaited at hrequest
  split at hrequest
  · cases hrequest
    cases hpayload
  · rename_i origin key command current queue
    obtain ⟨user, huser, rfl⟩ := Option.map_eq_some_iff.mp hrequest
    exact ⟨origin, key, command, current, queue, user, rfl, huser, hpayload⟩
  · obtain ⟨user, huser, rfl⟩ := Option.map_eq_some_iff.mp hrequest
    cases hpayload
  · cases hrequest

theorem awaited_user {env : Environment} {worker : Worker}
    {payload : Identity.Service.UserCreateCommandPayload}
    (h : (awaited env worker).bind userCommand = some payload) :
    ∃ origin key command current queue,
      worker = .running origin key command (.awaitingUser current) queue ∧
      userCommand (requestUserCreation env command) = some payload := by
  obtain ⟨request, hrequest, hpayload⟩ := Option.bind_eq_some_iff.mp h
  unfold awaited at hrequest
  split at hrequest
  · rename_i origin key command current queue
    cases hrequest
    exact ⟨origin, key, command, current, queue, rfl, hpayload⟩
  · obtain ⟨user, huser, rfl⟩ := Option.map_eq_some_iff.mp hrequest
    cases hpayload
  · obtain ⟨user, huser, rfl⟩ := Option.map_eq_some_iff.mp hrequest
    cases hpayload
  · cases hrequest

theorem userAnswer_some {payload : Identity.Service.UserCreateCommandPayload}
    {answers : List Answer} {n : Nat} {answer : Except RpcErrorPayload UserCreateCommandResult}
    (h : answers[n]?.bind (userAnswer payload) = some answer) :
    ∃ command, .created command answer ∈ answers ∧ command.payload = payload := by
  obtain ⟨given, hn, hgiven⟩ := Option.bind_eq_some_iff.mp h
  unfold userAnswer at hgiven
  split at hgiven
  · obtain ⟨hpayload, hsame⟩ := Option.ite_none_right_eq_some.mp hgiven
    obtain rfl := Option.some.inj hsame
    exact ⟨_, List.mem_of_getElem? hn, hpayload⟩
  · cases hgiven

theorem admits_of_admits {F : Facts} {event : Onboarding.Workers.Event}
    (hadmits : admits S event = true) :
    Admits (rule F) S.requestOf world.onboarding event := by
  cases event with
  | create =>
      simp only [admits, decide_eq_true_eq] at hadmits
      exact hadmits
  | answerUser w outcome =>
      intro origin k command machine queue hw next hnext
      refine machineTrue_answerUser hnext ?_
      rintro answer rfl
      cases hadmits
  | answerPayment w outcome =>
      intro origin k command machine queue hw next hnext
      match outcome with
      | .rejected (.error message) =>
          refine machineTrue_answerPayment hnext ?_ ?_
          · rintro _ _ _ ⟨⟩
          · rintro _ ⟨⟩ ⟨⟩
      | .resolved _ | .rejected (.http _ _) | .rejected (.problemResponse _)
      | .rejected (.sagaError _) | .rejected .other => cases hadmits
  | answerCompensation w outcome =>
      intro origin k command machine queue hw next hnext
      exact machineTrue_answerCompensation hnext
  | _ => trivial

theorem admits_of_replyUser {w : String} {n : Nat}
    {payload : Identity.Service.UserCreateCommandPayload}
    {answer : Except RpcErrorPayload UserCreateCommandResult}
    (hawaited : (awaited S.env (world.onboarding.workers w)).bind userCommand = some payload)
    (hanswer : world.answers[n]?.bind (userAnswer payload) = some answer) :
    Admits (rule (facts S world)) S.requestOf world.onboarding
      (.answerUser w (.resolved (readUserAnswer answer))) := by
  intro origin k command machine queue hw next hnext
  obtain ⟨given, hgiven, rfl⟩ := userAnswer_some hanswer
  obtain ⟨_, _, _, current, _, hother, hpayload⟩ := awaited_user hawaited
  cases hother.symm.trans hw
  refine machineTrue_answerUser hnext ?_
  intro response hresponse
  cases answer with
  | error error => cases hresponse
  | ok result =>
      cases hresponse
      refine ⟨given, result, hgiven, ?_, rfl⟩
      rw [← Option.some.inj hpayload]
      rfl

theorem admits_of_replyPayment (h : Sound S world) {w i : String}
    {payload : Payments.Models.PaymentCreateCommandPayload}
    {response : Payments.Handlers.RpcResponse}
    (hawaited : (awaited S.env (world.onboarding.workers w)).bind paymentCommand =
      some payload)
    (hreply : replyTo world.payments payload i = some response) :
    Admits (rule (facts S world)) S.requestOf world.onboarding
      (.answerPayment w (.resolved (readResponse response))) := by
  intro origin k command machine queue hw next hnext
  obtain ⟨envelope, reply, hi, rfl, rfl⟩ := replyTo_some hreply
  obtain ⟨_, _, _, current, _, user, hother, huser, hpayload⟩ := awaited_payment hawaited
  cases hother.symm.trans hw
  have hcommanded := h.delivered i _ hi envelope rfl
  refine machineTrue_answerPayment hnext ?_ ?_
  · rintro _ data ⟨⟩ hdata
    have hbacked := Payments.Uniqueness.backed_of_answered h.unique ⟨reply, hi, rfl⟩
    cases hresponse : reply.payload with
    | error => simp [hresponse, readResponse] at hdata
    | success given =>
        obtain ⟨stored, hstored, hanswers⟩ := hbacked given hresponse
        obtain ⟨hpayable, hpaid⟩ := paid_of_answered h hcommanded hpayload hstored hanswers
        simp only [hresponse, readResponse, RpcOutcome.resolved.injEq,
          RpcResponse.success.injEq] at hdata
        exact ⟨hpayable, user, huser, hdata ▸ hpaid⟩
  · intro reason hreason hfinal
    have hrefused := unsupported_of_explained h hcommanded
      (explained_of_replied h.refusals hi) hreason hfinal
    rw [← Option.some.inj hpayload] at hrefused
    exact hrefused

end Answers

section Steps

variable {S : Setting} {world next : World}

theorem sound_init (S : Setting) : Sound S World.init where
  answers := Onboarding.Agreement.answers_init
  disciplined := disciplined_init
  sent := fun _ hrequest => absurd hrequest List.not_mem_nil
  identity := accounted_init
  refusals := Payments.Refusals.sound_init
  unique := Payments.Uniqueness.sound_of_reachable (s := S.service) (.refl _)
  orders := Payments.Orders.sound_init
  delivered := by
    intro i invocation hi
    cases hi
  made := by
    intro stored hstored
    cases hstored

theorem sound_of_worker (h : Sound S world) {event : Onboarding.Workers.Event}
    (hadmits : Admits (rule (facts S world)) S.requestOf world.onboarding event)
    (hstep : world.stepWorker S event = some next) : Sound S next := by
  obtain ⟨onboarding, honboarding, rfl⟩ := Option.map_eq_some_iff.mp hstep
  have hconsistent := h.answers.consistent
  exact
    { answers := Onboarding.Agreement.answers_step h.answers honboarding
      disciplined :=
        disciplined_step (local_rule _) hconsistent h.disciplined hadmits honboarding
      sent := by
        intro request hrequest
        refine sent_of_step (local_rule (facts S world)) hconsistent h.disciplined
          honboarding ?_
        rcases List.mem_append.mp hrequest with hold | hnew
        · exact h.sent request hold
        · exact sent_of_sends hconsistent h.disciplined (Option.mem_toList.mp hnew)
      identity := h.identity.mono
        (fun _ ⟨request, hmem, hrest⟩ => ⟨request, List.mem_append_left _ hmem, hrest⟩)
        (fun _ ⟨request, hmem, hrest⟩ => ⟨request, List.mem_append_left _ hmem, hrest⟩)
      refusals := h.refusals
      unique := h.unique
      orders := h.orders
      delivered := fun i invocation hi envelope hrequest =>
        commanded_mono (h.delivered i invocation hi envelope hrequest) _
      made := by
        intro stored hstored
        obtain ⟨payload, hcommanded, hordered⟩ := h.made stored hstored
        exact ⟨payload, commanded_mono hcommanded _, hordered⟩ }

theorem fits_of_delivers {event : Identity.Transactions.Event} {sent : List RpcRequest}
    (h : deliversUser sent event = true) : Fits (Created sent) (Named sent) event := by
  cases event with
  | createUser tx command id => exact List.mem_map.mp (of_decide_eq_true h)
  | compensateUser tx command =>
      obtain ⟨request, hmem, hpayload⟩ := List.mem_map.mp (of_decide_eq_true h)
      exact fun id hid => ⟨request, hmem, command.payload, hpayload, hid⟩
  | execute | rollback => trivial

theorem sound_of_identity (h : Sound S world) {event : Identity.Transactions.Event}
    {identity : Identity.Transactions.World} (hdelivers : deliversUser world.sent event = true)
    (hstep : Identity.Transactions.step world.identity event = some identity) :
    Sound S
      { world with
        identity := identity
        answers := world.answers ++ (answered (world.identity, event)).toList } where
  answers := h.answers
  disciplined := by
    refine disciplined_grows h.disciplined ?_ (fun _ _ _ => id) rfl
    rintro payload user ⟨command, result, hmem, hrest⟩
    exact ⟨command, result, List.mem_append_left _ hmem, hrest⟩
  sent := h.sent
  identity := accounted_step h.identity (fits_of_delivers hdelivers) hstep
  refusals := h.refusals
  unique := h.unique
  orders := h.orders
  delivered := h.delivered
  made := h.made

theorem PaymentOf.same {payload : OnboardingAccountCreateCommandPayload} {user : UserPayload}
    {p q : Payment} (h : PaymentOf S payload user p)
    (hsame : Payments.Aggregate.SameIdentity p q) : PaymentOf S payload user q where
  idempotencyKey := hsame.idempotencyKey.trans h.idempotencyKey
  userId := hsame.userId.trans h.userId
  amount := hsame.amount.trans h.amount
  currency := hsame.currency.trans h.currency

theorem paid_of_kept {payments : Payments.Interleaving.World}
    (hkept : Payments.Uniqueness.Kept world.payments.shared payments.shared)
    {payload : OnboardingAccountCreateCommandPayload} {user : UserPayload}
    {payment : PublicPaymentIntentPayload} (h : Paid S world.payments payload user payment) :
    Paid S payments payload user payment := by
  obtain ⟨p, hp, hof, hshows⟩ := h
  obtain ⟨q, hq, hsame⟩ := hkept p hp
  exact ⟨q, hq, hof.same hsame, hshows.id.trans hsame.id.symm,
    hshows.paymentReference.trans hsame.paymentReference.symm,
    hshows.amount.trans hsame.amount.symm, hshows.currency.trans hsame.currency.symm⟩

theorem sound_of_payment (h : Sound S world) {event : Payments.Interleaving.Event}
    {payments : Payments.Interleaving.World}
    (hdelivers : deliversPayment world.sent event = true)
    (hstep : Payments.Interleaving.step S.service world.payments event = some payments) :
    Sound S { world with payments := payments } := by
  obtain ⟨hdelivers, hdraws⟩ := Bool.and_eq_true_iff.mp hdelivers
  obtain ⟨horders, hmoved⟩ := Payments.Orders.sound_of_step h.orders hstep
  have hids : Payments.Uniqueness.DrawsIds event := by
    cases event with
    | act i choice =>
        change choice.newId ≠ ""
        exact of_decide_eq_true hdraws
    | _ => trivial
  have hdrawn := (Payments.Uniqueness.step_drawn hids).trans hstep
  have hkept : Payments.Uniqueness.Kept world.payments.shared payments.shared := by
    cases hmoved with
    | kept hsame => exact hsame ▸ .refl _
    | acted _ _ _ hadds => exact hadds.kept
  exact
    { answers := h.answers
      disciplined := disciplined_grows h.disciplined (fun _ _ => id)
        (fun _ _ _ => paid_of_kept hkept) rfl
      sent := h.sent
      identity := h.identity
      refusals := (Payments.Refusals.sound_of_step h.refusals hstep).1
      unique := (h.unique.step
        (fun _ _ _ hunique _ => Payments.Uniqueness.safe_program hunique) hdrawn).1
      orders := horders
      delivered := by
        intro i invocation hi envelope hrequest
        rcases Pool.started_of_step hstep hi with rfl | ⟨rest, hbefore⟩
        · rw [hrequest] at hdelivers
          obtain ⟨request, hmem, hcommand⟩ := List.mem_map.mp (of_decide_eq_true hdelivers)
          exact ⟨request, hmem, hcommand⟩
        · exact h.delivered i _ hbefore envelope hrequest
      made := by
        intro stored hstored
        cases hmoved with
        | kept hsame =>
            refine h.made stored ?_
            rw [← hsame]
            exact hstored
        | acted i invocation hi hadds =>
            rcases hadds.new stored hstored with ⟨p, hp, hsame⟩ | ⟨envelope, hrequest, hmade⟩
            · obtain ⟨payload, hcommanded, hmade⟩ := h.made p hp
              exact ⟨payload, hcommanded, hmade.same hsame⟩
            · exact ⟨envelope.payload, h.delivered i invocation hi envelope hrequest, hmade⟩ }

theorem sound_of_step {event : Event} (h : Sound S world)
    (hstep : step S world event = some next) : Sound S next := by
  cases event with
  | worker event =>
      obtain ⟨hadmits, hstep⟩ := Option.ite_none_right_eq_some.mp hstep
      exact sound_of_worker h (admits_of_admits hadmits) hstep
  | identity event =>
      obtain ⟨hdelivers, hstep⟩ := Option.ite_none_right_eq_some.mp hstep
      obtain ⟨identity, hidentity, rfl⟩ := Option.map_eq_some_iff.mp hstep
      exact sound_of_identity h hdelivers hidentity
  | payment event =>
      obtain ⟨hdelivers, hstep⟩ := Option.ite_none_right_eq_some.mp hstep
      obtain ⟨payments, hpayments, rfl⟩ := Option.map_eq_some_iff.mp hstep
      exact sound_of_payment h hdelivers hpayments
  | replyUser w n =>
      obtain ⟨payload, hawaited, hstep⟩ := Option.bind_eq_some_iff.mp hstep
      obtain ⟨answer, hanswer, hstep⟩ := Option.bind_eq_some_iff.mp hstep
      exact sound_of_worker h (admits_of_replyUser hawaited hanswer) hstep
  | replyCompensation w n =>
      obtain ⟨payload, hawaited, hstep⟩ := Option.bind_eq_some_iff.mp hstep
      obtain ⟨answer, hanswer, hstep⟩ := Option.bind_eq_some_iff.mp hstep
      refine sound_of_worker h ?_ hstep
      intro origin k command machine queue hw next hnext
      exact machineTrue_answerCompensation hnext
  | replyPayment w i =>
      obtain ⟨payload, hawaited, hstep⟩ := Option.bind_eq_some_iff.mp hstep
      obtain ⟨response, hreply, hstep⟩ := Option.bind_eq_some_iff.mp hstep
      exact sound_of_worker h (admits_of_replyPayment h hawaited hreply) hstep

theorem sound_of_reachable (h : Reachable S world) : Sound S world :=
  h.invariant (sound_init S) fun _ _ _ => sound_of_step

end Steps

/-- What the services hold for a saga. -/
structure Backed (S : Setting) (world : World) (key : String) (row : AccountCreationSaga) :
    Prop where
  user : ∀ user, row.userPayload = some user → row.nextAction ≠ .compensateUser →
    ∃ owner, Housed world.identity.db (userStepKey key) owner ∧
      UserOf row.requestPayload owner ∧ Shown row.requestPayload owner user
  payment : ∀ payment, row.paymentPayload = some payment →
    ∃ user, row.userPayload = some user ∧
      Paid S world.payments row.requestPayload user payment
  completed : row.status = .completed → ∃ user payment,
    row.userPayload = some user ∧ row.paymentPayload = some payment
  refused : row.nextAction = .compensateUser → ∀ stored,
    Stored world.payments.shared stored → stored.idempotencyKey ≠ paymentStepKey key

/-- The services agree about all accounts: what a saga shows is stored, once for each
saga, and what is stored belongs to a saga. -/
structure Agreed (S : Setting) (world : World) : Prop where
  sagas : ∀ key row, world.onboarding.store.sagas.row key = some row →
    Backed S world key row
  users : ∀ key key' row row' user user',
    world.onboarding.store.sagas.row key = some row →
    world.onboarding.store.sagas.row key' = some row' →
    row.userPayload = some user → row'.userPayload = some user' →
    user.id = user'.id → key = key'
  payments : ∀ key key' row row' payment payment',
    world.onboarding.store.sagas.row key = some row →
    world.onboarding.store.sagas.row key' = some row' →
    row.paymentPayload = some payment → row'.paymentPayload = some payment' →
    payment.id = payment'.id → key = key'
  registered : ∀ stepKey request,
    world.identity.db.onboardingRequests.row stepKey = some request →
    ∃ key row owner, stepKey = userStepKey key ∧
      world.onboarding.store.sagas.row key = some row ∧
      Housed world.identity.db stepKey owner ∧ UserOf row.requestPayload owner
  ordered : ∀ stored, Stored world.payments.shared stored →
    ∃ key row user, world.onboarding.store.sagas.row key = some row ∧
      row.userPayload = some user ∧ row.nextAction ≠ .compensateUser ∧
      PaymentOf S row.requestPayload user stored
  answered : ∀ w command answer,
    Onboarding.Agreement.answered (world.onboarding.workers w) = some (command, answer) →
    ∃ owner stored,
      Housed world.identity.db (userStepKey command.payload.idempotencyKey) owner ∧
      UserOf (S.requestOf command.payload.idempotencyKey command.payload.requestHash) owner ∧
      Shown (S.requestOf command.payload.idempotencyKey command.payload.requestHash) owner
        answer.user ∧ Stored world.payments.shared stored ∧
      PaymentOf S (S.requestOf command.payload.idempotencyKey command.payload.requestHash)
        answer.user stored ∧
      Shows answer.payment stored

section Agreement

variable {S : Setting} {world : World}

theorem saga_of_stored (h : Sound S world) {stored : Payment}
    (hstored : Stored world.payments.shared stored) :
    ∃ key row user, world.onboarding.store.sagas.row key = some row ∧
      row.userPayload = some user ∧ row.nextAction ≠ .compensateUser ∧
      PaymentOf S row.requestPayload user stored := by
  obtain ⟨payload, hcommanded, hordered⟩ := h.made stored hstored
  obtain ⟨command, user, row, hpayload, hrow, hroot, huser⟩ := of_commanded h hcommanded
  obtain rfl := Option.some.inj hpayload
  refine ⟨_, row, user, hrow, huser, ?_, ?_⟩
  · intro hnext
    refine (h.disciplined.rows _ row hrow).kept.compensates hnext ?_
    rw [hroot]
    exact hordered.supported
  · rw [hroot]
    exact ⟨hordered.idempotencyKey, hordered.userId, hordered.amount, hordered.currency⟩

theorem snapshots_of_completed
    (hresponses : Onboarding.Agreement.ResponsesOk world.onboarding) {key : String}
    {row : AccountCreationSaga} {response : CreateAccountResponse}
    (hrow : world.onboarding.store.sagas.row key = some row)
    (hresponse : row.response = some response) :
    row.status = .completed ∧ row.userPayload = some response.user ∧
      row.paymentPayload = some response.payment := by
  obtain ⟨hstatus, hcomposed⟩ := hresponses key row hrow response hresponse
  refine ⟨hstatus, ?_⟩
  unfold composeResponse at hcomposed
  split at hcomposed
  · rename_i user payment huser hpayment
    obtain rfl := Except.ok.inj hcomposed
    exact ⟨huser, hpayment⟩
  · cases hcomposed

theorem shape_of_completed (h : Consistent world.onboarding) {key : String}
    {row : AccountCreationSaga} (hrow : world.onboarding.store.sagas.row key = some row)
    (hstatus : row.status = .completed) :
    row.nextAction = .noop ∧ ∃ response, row.response = some response := by
  have hshape := (h.rows key row hrow).shape
  simp only [Onboarding.Invariant.SagaShape, hstatus] at hshape
  exact ⟨hshape.1, Option.isSome_iff_exists.mp hshape.2.1⟩

theorem backed_of_sound (h : Sound S world) (htrimmed : Trimmed world) {key : String}
    {row : AccountCreationSaga} (hrow : world.onboarding.store.sagas.row key = some row) :
    Backed S world key row where
  user := by
    intro user huser hnext
    obtain ⟨owner, howner⟩ := snapshot_of_row h htrimmed hrow huser
    rcases housed_of_row h htrimmed hrow howner with hhoused | hcompensates
    · exact ⟨owner, hhoused, howner.userOf, howner.shown⟩
    · exact absurd hcompensates hnext
  payment := fun payment hpayment =>
    ((h.disciplined.rows key row hrow).kept.payment payment hpayment).2
  completed := by
    intro hstatus
    obtain ⟨_, response, hresponse⟩ := shape_of_completed h.answers.consistent hrow hstatus
    exact ⟨_, _, (snapshots_of_completed h.answers.responses hrow hresponse).2⟩
  refused := by
    intro hnext stored hstored hkey
    obtain ⟨key', row', user, hrow', _, hother, hpayment⟩ := saga_of_stored h hstored
    rw [hpayment.idempotencyKey, key_of_row h.answers.consistent hrow'] at hkey
    rw [append_left_cancel hkey, hrow] at hrow'
    obtain rfl := Option.some.inj hrow'
    exact hother hnext

theorem agreed_of_sound (h : Sound S world) (htrimmed : Trimmed world) : Agreed S world where
  sagas := fun key row => backed_of_sound h htrimmed
  users := fun key key' row row' user user' hrow hrow' huser huser' hid =>
    key_of_user h htrimmed hrow hrow' huser huser' hid
  payments := by
    intro key key' row row' payment payment' hrow hrow' hpayment hpayment' hid
    obtain ⟨user, _, stored, hstored, hof, hshows⟩ :=
      (backed_of_sound h htrimmed hrow).payment payment hpayment
    obtain ⟨user', _, stored', hstored', hof', hshows'⟩ :=
      (backed_of_sound h htrimmed hrow').payment payment' hpayment'
    have hsame : stored.id = stored'.id :=
      hshows.id.symm.trans (hid.trans hshows'.id)
    rw [Stored, hsame, hstored'] at hstored
    obtain rfl := Option.some.inj hstored
    have hkeys := append_left_cancel (hof.idempotencyKey.symm.trans hof'.idempotencyKey)
    rw [key_of_row h.answers.consistent hrow, key_of_row h.answers.consistent hrow'] at hkeys
    exact hkeys
  registered := by
    intro stepKey request hrequest
    obtain ⟨owner, payload, hcreated, hkey, hmade, hhoused⟩ :=
      h.identity.settled stepKey request hrequest
    obtain ⟨command, row, hpayload, hrow, hroot⟩ := of_created h hcreated
    refine ⟨_, row, owner, ?_, hrow, hhoused, ?_⟩
    · rw [← Option.some.inj hpayload] at hkey
      exact eq_of_varchar (htrimmed.userStepKey hrow) hkey
    · rw [hroot]
      exact userOf_of_madeFrom hpayload hmade
  ordered := fun stored => saga_of_stored h
  answered := by
    intro w command answer hanswered
    obtain ⟨row, response, hrow, hstatus, hhash, hresponse, hanswer⟩ :=
      h.answers.answers w command answer hanswered
    obtain ⟨hnoop, _⟩ := shape_of_completed h.answers.consistent hrow hstatus
    obtain ⟨_, huser, hpayment⟩ := snapshots_of_completed h.answers.responses
      hrow hresponse
    obtain ⟨owner, hhoused, huserOf, hshown⟩ := (backed_of_sound h htrimmed hrow).user _ huser
      (by simp [hnoop])
    obtain ⟨user, huser', stored, hstored, hof, hshows⟩ :=
      (backed_of_sound h htrimmed hrow).payment _ hpayment
    obtain rfl := Option.some.inj (huser.symm.trans huser')
    have hroot : row.requestPayload =
        S.requestOf command.payload.idempotencyKey command.payload.requestHash := by
      have hok := h.answers.consistent.rows _ row hrow
      have hintended := (h.disciplined.rows _ row hrow).intended
      rw [Onboarding.Verdicts.Intended, key_of_row h.answers.consistent hrow,
        hok.payload_hash, hhash] at hintended
      exact hintended
    rw [hroot] at huserOf hshown hof
    have hsame : answer.user = response.user ∧ answer.payment = response.payment := by
      rw [hanswer]
      exact ⟨rfl, rfl⟩
    rw [hsame.1, hsame.2]
    exact ⟨owner, stored, hhoused, huserOf, hshown, hstored, hof, hshows⟩

end Agreement

/-- In every state of every run the services agree: a saga that has seen its user or its
payment finds both stored, made from its own request and shared with no other saga, a
refused saga has no payment, nothing stored is without its saga, and every account that
was answered is there. -/
theorem services_agree (S : Setting) {world : World} (h : Reachable S world)
    (htrimmed : Trimmed world) : Agreed S world :=
  agreed_of_sound (sound_of_reachable h) htrimmed

theorem known_of_named (S : Setting) {world : World} (h : Reachable S world) {id : UUID}
    (hnamed : Named world.sent id) : Known world.identity id := by
  have hsound := sound_of_reachable h
  obtain ⟨key, row, user, hrow, huser, _, hid⟩ := of_named hsound hnamed
  obtain ⟨owner, howner, hknown⟩ := owner_of_row hsound hrow huser
  obtain rfl := Option.some.inj (howner.symm.trans hid)
  exact hknown

section Sample

open Modularis.Onboarding.SingleRun (sampleEnvironment sampleCommand)
open Modularis.Payments.Lifecycle (sampleService sampleChoice)
open Modularis.Identity.Redelivery (sampleId)
open Modularis.Shared.Messaging (newEnvelopeWithMetadata)

def sampleSetting : Setting where
  env := sampleEnvironment
  service := sampleService
  requestOf := fun _ _ => sampleCommand.payload

def sampleUserCommand : Identity.Service.UserCreateCommandMessage where
  correlationId := "correlation-1"
  payload :=
    { idempotencyKey := "user:key-1"
      requestHash := "step-hash"
      email := "ada@example.com"
      name := "Ada"
      cellphone := "11999990000"
      taxId := "12345678901" }

def samplePaymentCommand : Payments.Operations.Request :=
  .createPayment (newEnvelopeWithMetadata "payment.intent.create" "m-1" "correlation-1"
    "" "" "onboarding-service"
    { idempotencyKey := "payment:key-1"
      requestHash := "step-hash"
      userId := (sampleId (Fin.last 15)).toString
      customerName := "Ada"
      customerEmail := "ada@example.com"
      customerCellphone := "11999990000"
      customerTaxId := "12345678901"
      amount := 10
      currency := "BRL" })

/-- A worker creates the user and the payment, and answers its command. -/
def sampleEvents : List Event :=
  [.worker (.create "w-1" sampleCommand 0), .worker (.acquire "w-1" 0 0),
    .worker (.advance "w-1"),
    .identity (.createUser 0 sampleUserCommand (sampleId (Fin.last 15)))] ++
    List.replicate 6 (.identity (.execute 0)) ++
    [.replyUser "w-1" 0, .worker (.mark "w-1" 0 0), .worker (.advance "w-1"),
      .payment (.start "i-1" samplePaymentCommand)] ++
    List.replicate 11 (.payment (.act "i-1" sampleChoice)) ++
    [.replyPayment "w-1" "i-1", .worker (.mark "w-1" 0 0), .worker (.advance "w-1"),
      .worker (.mark "w-1" 0 0), .worker (.release "w-1" 0)]

theorem services_agree_sample : ∃ world command answer, Reachable sampleSetting world ∧
    Onboarding.Agreement.answered (world.onboarding.workers "w-1") = some (command, answer) ∧
    answer.payment.id = "payment-1" ∧ Agreed sampleSetting world := by
  have hreplay : ((StepSystem.replay (step sampleSetting) World.init sampleEvents).bind
      fun world => (Onboarding.Agreement.answered (world.onboarding.workers "w-1")).map
        fun answered => (answered.2.payment.id, decide (Trimmed world))) =
          some ("payment-1", true) := by
    decide +kernel
  obtain ⟨world, hworld, hanswered⟩ := Option.bind_eq_some_iff.mp hreplay
  obtain ⟨⟨command, answer⟩, hanswered, hid⟩ := Option.map_eq_some_iff.mp hanswered
  obtain ⟨hid, htrimmed⟩ := Prod.mk.inj hid
  have hreach : Reachable sampleSetting world := (StepSystem.run_of_replay hworld).reachable
  exact ⟨world, command, answer, hreach, hanswered, hid,
    services_agree sampleSetting hreach (of_decide_eq_true htrimmed)⟩

end Sample

end Modularis.EndToEnd.Account
