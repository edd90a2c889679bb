import Modularis.EndToEnd.Account
import Modularis.Gateway.AccountService

namespace Modularis.EndToEnd.Requests

open Modularis.Foundation
open Modularis.Foundation.Column (varchar)
open Modularis.Shared.Text (toUpper)
open Modularis.Onboarding.Contracts
open Modularis.Onboarding.Repository (AccountCreationSaga)
open Modularis.Onboarding.Service
open Modularis.Onboarding.Agreement (answered)
open Modularis.Identity.Database (UserEntity)
open Modularis.Identity.Service (toPayload)
open Modularis.Identity.Owners (Housed)
open Modularis.Payments.Models (Payment)
open Modularis.Payments.Handlers (Service)
open Modularis.Payments.Uniqueness (Stored)
open Modularis.Gateway.AccountService
open Modularis.EndToEnd.Account

variable {ν : Type}

/-- The services behind a gateway to which these requests are made. -/
def setting (enc : Encoding ν) (requests : List (CreateAccountDto ν)) (env : Environment)
    (service : Service) : Setting where
  env := env
  service := service
  requestOf := enc.requestOf requests

/-- A worker has answered the command that the gateway made of a request. -/
def AnsweredAs (enc : Encoding ν) (world : World) (key : String)
    (dto : CreateAccountDto ν) (answer : CreateAccountResponse) (w : String) : Prop :=
  ∃ command, answered (world.onboarding.workers w) = some (command, answer) ∧
    command.payload = enc.payload key dto

/-- The user and the payment of an answer are stored, as the request wants them.  The
columns of the user keep no blanks that are too many, and the answer shows the user as it is
stored or as the request has it. -/
structure Opened (enc : Encoding ν) (service : Service) (world : World) (key : String)
    (dto : CreateAccountDto ν) (answer : CreateAccountResponse) (owner : UserEntity)
    (stored : Payment) : Prop where
  housed : Housed world.identity.db (userStepKey key) owner
  email : varchar 255 dto.email = some owner.email
  name : varchar 120 dto.name = some owner.name
  cellphone : varchar 40 dto.cellphone = some owner.cellphone
  taxId : varchar 32 dto.taxId = some owner.taxId
  user : answer.user = readUser (toPayload owner) ∨ answer.user =
    readUser (toPayload { owner with email := dto.email, name := dto.name })
  paid : Stored world.payments.shared stored
  userId : stored.userId = answer.user.id
  amount : stored.amount = enc.valueOf dto.amount
  currency : stored.currency = toUpper service.unicodeToUpper dto.currency
  payment : Shows answer.payment stored

section Answers

variable {enc : Encoding ν} {requests : List (CreateAccountDto ν)} {env : Environment}
  {service : Service} {world : World} {key : String} {dto : CreateAccountDto ν}
  {answer : CreateAccountResponse} {w : String}

theorem opened_of_answered (hexact : enc.Exact) (hfree : enc.CollisionFree requests)
    (hsound : Sound (setting enc requests env service) world) (htrimmed : Trimmed world)
    (hdto : dto ∈ requests) (h : AnsweredAs enc world key dto answer w) :
    ∃ owner stored, Opened enc service world key dto answer owner stored := by
  obtain ⟨command, hanswered, hpayload⟩ := h
  obtain ⟨owner, stored, hhoused, huserOf, huser, hstored, hof, hshows⟩ :=
    (agreed_of_sound hsound htrimmed).answered w command answer hanswered
  have hrequest : (setting enc requests env service).requestOf
      command.payload.idempotencyKey command.payload.requestHash = enc.payload key dto := by
    rw [hpayload]
    exact Encoding.requestOf_payload hexact hfree hdto key
  rw [hrequest] at huserOf huser hof
  rw [hpayload] at hhoused
  exact ⟨owner, stored, hhoused, huserOf.email, huserOf.name, huserOf.cellphone,
    huserOf.taxId, huser, hstored, hof.userId, hof.amount, hof.currency, hshows⟩

theorem row_of_answered (hsound : Sound (setting enc requests env service) world)
    (h : AnsweredAs enc world key dto answer w) :
    ∃ row response, world.onboarding.store.sagas.row key = some row ∧
      row.requestHash = enc.requestHash dto ∧ row.response = some response ∧
      answer = withReplayFlag response answer.metadata.replayed ∧
      row.userPayload = some answer.user ∧ row.paymentPayload = some answer.payment := by
  obtain ⟨command, hanswered, hpayload⟩ := h
  obtain ⟨row, response, hrow, _, hhash, hresponse, hanswer⟩ :=
    hsound.answers.answers w command answer hanswered
  rw [hpayload] at hrow hhash
  obtain ⟨_, huser, hpayment⟩ := snapshots_of_completed hsound.answers.responses hrow
    hresponse
  refine ⟨row, response, hrow, hhash, hresponse, hanswer, ?_, ?_⟩
  · rw [hanswer, huser]
    rfl
  · rw [hanswer, hpayment]
    rfl

end Answers

/-- What two answers have to do with each other. -/
structure OneAccount (key key' : String) (dto dto' : CreateAccountDto ν)
    (answer answer' : CreateAccountResponse) (w w' : String) : Prop where
  request : key = key' → dto = dto'
  answers : key = key' → answer' = withReplayFlag answer answer'.metadata.replayed
  first : key = key' → answer.metadata.replayed = false →
    answer'.metadata.replayed = false → w = w'
  users : answer.user.id = answer'.user.id → key = key'
  payments : answer.payment.id = answer'.payment.id → key = key'

theorem oneAccount_of_answered {enc : Encoding ν} {requests : List (CreateAccountDto ν)}
    {env : Environment} {service : Service} (hexact : enc.Exact)
    (hfree : enc.CollisionFree requests) {world : World}
    (hsound : Sound (setting enc requests env service) world) (htrimmed : Trimmed world)
    {key key' w w' : String} {dto dto' : CreateAccountDto ν}
    {answer answer' : CreateAccountResponse} (hdto : dto ∈ requests)
    (hdto' : dto' ∈ requests) (h : AnsweredAs enc world key dto answer w)
    (h' : AnsweredAs enc world key' dto' answer' w') :
    OneAccount key key' dto dto' answer answer' w w' := by
  have hagreed := agreed_of_sound hsound htrimmed
  obtain ⟨row, response, hrow, hhash, hresponse, hanswer, huser, hpayment⟩ :=
    row_of_answered hsound h
  obtain ⟨row', response', hrow', hhash', hresponse', hanswer', huser', hpayment'⟩ :=
    row_of_answered hsound h'
  refine ⟨?_, ?_, ?_, ?_, ?_⟩
  · rintro rfl
    obtain rfl := Option.some.inj (hrow.symm.trans hrow')
    exact Encoding.eq_of_requestHash hexact hfree hdto hdto' (hhash.symm.trans hhash')
  · rintro rfl
    obtain rfl := Option.some.inj (hrow.symm.trans hrow')
    obtain rfl := Option.some.inj (hresponse.symm.trans hresponse')
    rw [hanswer, hanswer']
    rfl
  · rintro rfl hfirst hfirst'
    obtain ⟨command, hanswered, hpayload⟩ := h
    obtain ⟨command', hanswered', hpayload'⟩ := h'
    refine hsound.answers.once w w' command command' answer answer' hanswered hanswered' ?_
      hfirst hfirst'
    rw [hpayload, hpayload']
    rfl
  · exact hagreed.users key key' row row' _ _ hrow hrow' huser huser'
  · exact hagreed.payments key key' row row' _ _ hrow hrow' hpayment hpayment'

/-- A key stands for one account.  As long as no two requests have one digest, requests
that were answered under one key had one body and got one answer, of which at most one
is no replay; each answer shows a user and a payment that are stored and are made from
its own request, and answers under different keys share neither. -/
theorem one_account_per_key {enc : Encoding ν} {requests : List (CreateAccountDto ν)}
    {env : Environment} {service : Service} (hexact : enc.Exact)
    (hfree : enc.CollisionFree requests) {world : World}
    (hreach : Reachable (setting enc requests env service) world) (htrimmed : Trimmed world)
    {key key' w w' : String} {dto dto' : CreateAccountDto ν}
    {answer answer' : CreateAccountResponse} (hdto : dto ∈ requests)
    (hdto' : dto' ∈ requests) (h : AnsweredAs enc world key dto answer w)
    (h' : AnsweredAs enc world key' dto' answer' w') :
    (∃ owner stored, Opened enc service world key dto answer owner stored) ∧
      OneAccount key key' dto dto' answer answer' w w' :=
  have hsound := sound_of_reachable hreach
  ⟨opened_of_answered hexact hfree hsound htrimmed hdto h,
    oneAccount_of_answered hexact hfree hsound htrimmed hdto hdto' h h'⟩

section Sample

open Modularis.Onboarding.SingleRun (sampleEnvironment)
open Modularis.Payments.Lifecycle (sampleService)
open Modularis.Shared.StableHash (naturalText isNumberText_naturalText
  naturalText_injective)

def sampleDto : CreateAccountDto Nat where
  email := "ada@example.com"
  name := "Ada"
  cellphone := "11999990000"
  taxId := "12345678901"
  amount := 10
  currency := "BRL"

/-- The digest is the one of the only text that is hashed. -/
def sampleEncoding : Encoding Nat where
  valueOf := fun n => n
  numberText := naturalText
  digest := fun _ => "13f869ec997b2afcd7b5184dbf7cf7d6dbaedbe95e119aaf92cfabfe6040ce31"

def commandOf (correlationId messageId : String) : CreateCommand :=
  sampleEncoding.command correlationId messageId "key-1" sampleDto

/-- A worker creates the account. -/
def sampleRequests : List Event :=
  .worker (.create "w-1" (commandOf "correlation-1" "message-1") 0) :: sampleEvents.tail

/-- The request comes again; the second worker finds the account. -/
def sampleRepeated : List Event :=
  sampleRequests ++ [.worker (.create "w-2" (commandOf "correlation-2" "message-2") 5),
    .worker (.acquire "w-2" 5 5)]

theorem one_account_per_key_sample : ∃ world answer answer',
    AnsweredAs sampleEncoding world "key-1" sampleDto answer "w-1" ∧
      AnsweredAs sampleEncoding world "key-1" sampleDto answer' "w-2" ∧
      (answer.metadata.replayed, answer'.metadata.replayed) = (false, true) ∧
      (∃ owner stored,
        Opened sampleEncoding sampleService world "key-1" sampleDto answer owner stored) ∧
      OneAccount "key-1" "key-1" sampleDto sampleDto answer answer' "w-1" "w-2" := by
  have hreplay : ((StepSystem.replay
      (step (setting sampleEncoding [sampleDto] sampleEnvironment sampleService)) World.init
      sampleRepeated).bind fun world =>
        (answered (world.onboarding.workers "w-1")).bind fun first =>
          (answered (world.onboarding.workers "w-2")).map fun second =>
            ((first.1.payload, second.1.payload),
              (first.2.metadata.replayed, second.2.metadata.replayed),
              decide (Trimmed world))) =
          some ((sampleEncoding.payload "key-1" sampleDto,
            sampleEncoding.payload "key-1" sampleDto), (false, true), true) := by
    decide +kernel
  obtain ⟨world, hworld, hanswered⟩ := Option.bind_eq_some_iff.mp hreplay
  obtain ⟨⟨command, answer⟩, hfirst, hanswered⟩ := Option.bind_eq_some_iff.mp hanswered
  obtain ⟨⟨command', answer'⟩, hsecond, hequal⟩ := Option.map_eq_some_iff.mp hanswered
  obtain ⟨hpayloads, hflags⟩ := Prod.mk.inj hequal
  obtain ⟨hpayload, hpayload'⟩ := Prod.mk.inj hpayloads
  obtain ⟨hreplayed, htrimmed⟩ := Prod.mk.inj hflags
  have hreach := (StepSystem.run_of_replay hworld).reachable
  have hmade : AnsweredAs sampleEncoding world "key-1" sampleDto answer "w-1" :=
    ⟨command, hfirst, hpayload⟩
  have hmade' : AnsweredAs sampleEncoding world "key-1" sampleDto answer' "w-2" :=
    ⟨command', hsecond, hpayload'⟩
  have hfree : sampleEncoding.CollisionFree [sampleDto] := by
    intro dto hdto dto' hdto' _
    rw [List.mem_singleton.mp hdto, List.mem_singleton.mp hdto']
  exact ⟨world, answer, answer', hmade, hmade', hreplayed, one_account_per_key
    ⟨isNumberText_naturalText, naturalText_injective⟩ hfree hreach
    (of_decide_eq_true htrimmed) List.mem_cons_self List.mem_cons_self hmade hmade'⟩

end Sample

end Modularis.EndToEnd.Requests
