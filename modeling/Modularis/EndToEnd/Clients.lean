import Modularis.EndToEnd.Requests
import Modularis.Gateway.AccountController
import Modularis.Onboarding.CommandBus

/-!
`POST /accounts` from end to end: any number of gateway instances, the command queue of
the onboarding service and the exchange for replies, over the services behind them.  A
command may be delivered again and again, a reply may be lost, be late or come twice, and
an RPC may time out at any moment.
-/

namespace Modularis.EndToEnd.Clients

open Modularis.Foundation
open Modularis.Onboarding.Contracts
open Modularis.Onboarding.CommandConsumer
open Modularis.Onboarding.CommandBus
open Modularis.Onboarding.Agreement (answered)
open Modularis.Onboarding.Workers (Worker)
open Modularis.Identity.Database (UserEntity)
open Modularis.Payments.Handlers (Service)
open Modularis.Payments.Models (Payment)
open Modularis.Gateway.AccountService
open Modularis.Gateway.AccountController (HttpResponse Created respond trim getLast?_trim
  told)
open Modularis.Shared.RabbitBus (Json Call Stands Consistent readReply messageCorrelationId)

variable {ν : Type}

/-- A request that the controller has made a command of, at one instance of the gateway. -/
structure Request (ν : Type) where
  gateway : String
  promise : Nat
  rpcId : String
  correlationId : String
  messageId : String
  occurredAt : String
  header : String
  dto : CreateAccountDto ν

/-- The key that the gateway makes of the header. -/
def Request.key (request : Request ν) : String := trim request.header

/-- The command that the gateway makes of a request. -/
def Request.command (enc : Encoding ν) (request : Request ν) : CreateCommand :=
  enc.command request.correlationId request.messageId request.key request.dto

/-- The command, as it is sent. -/
def Request.json (enc : Encoding ν) (request : Request ν) : Json :=
  Encoding.commandJson request.occurredAt (request.command enc)

/-- What stays as it is: the services, the bodies of all requests, and the JSON texts. -/
structure Setting (ν : Type) where
  enc : Encoding ν
  requests : List (CreateAccountDto ν)
  env : Onboarding.Service.Environment
  service : Service
  http : Gateway.AccountController.Environment
  parseJson : String → Except String Json
  stringify : Json → String
  validates : Option Json → Except String Bool
  serviceName : String
  gatewayExchange : String
  onboardingExchange : String

namespace Setting

variable (S : Setting ν)

/-- The services behind the gateways. -/
def account : Account.Setting := Requests.setting S.enc S.requests S.env S.service

/-- `runtimeInstanceId` is the name of the instance. -/
def replyRoutingKey (runtimeInstanceId : String) : String :=
  S.serviceName ++ ".responses." ++ runtimeInstanceId

/-- The message that `sendRpc` publishes. -/
def message (request : Request ν) : ConsumeMessage where
  content := S.stringify (request.json S.enc)
  correlationId := some request.rpcId
  headers := fun key =>
    [("x-correlation-id", Json.string request.correlationId),
      ("x-causation-id", .string request.messageId),
      ("x-event-type", .string "onboarding.account.create"),
      ("x-event-version", .string "1.0.0"),
      ("x-response-exchange", .string S.gatewayExchange),
      ("x-response-routing-key", .string (S.replyRoutingKey request.gateway))].lookup key

/-- What the consumer makes of the message. -/
def read (request : Request ν) : Except Thrown Json :=
  readCommand S.parseJson S.validates (S.message request).content

/-- The answer of the consumer when the call of `create` ends so. -/
def answer (request : Request ν) (result : Except Thrown CreateAccountResponse)
    (draws : Draws) : Json :=
  handleCreateCommand S.parseJson S.validates (fun _ => result) draws (S.message request)

end Setting

section System

/-- The services, the gateways by their instance, the requests whose commands were
published, the request that a worker handles, and the published replies. -/
structure World (ν : Type) where
  account : Account.World
  buses : String → Shared.RabbitBus.World
  requests : List (Request ν)
  handles : String → Option (Request ν)
  replies : List Reply

/-- Nobody has asked for anything. -/
def World.init : World ν where
  account := .init
  buses := fun _ => .init
  requests := []
  handles := fun _ => none
  replies := []

/-- `bus` is an event of the bus that brings no message.  `deliver` hands the command of
the request number `n` to a new worker; `refuse` is a delivery whose payload is refused
and `fallback` one whose reply could not be published.  `reply` hands the reply number `n`
to an instance. -/
inductive Event (ν : Type) where
  | account (event : Account.Event)
  | bus (gateway : String) (event : Shared.RabbitBus.Event)
  | post (request : Request ν)
  | deliver (n : Nat) (w : String) (dateNow : Int)
  | respond (w : String) (draws : Draws)
  | refuse (n : Nat) (draws : Draws)
  | fallback (n : Nat) (draws : Draws) (id timestamp : String)
  | reply (n : Nat) (gateway : String)

/-- The event of a bus is no reply. -/
def bringsNoMessage : Shared.RabbitBus.Event → Bool
  | .connected | .timeout _ | .shutdown => true
  | _ => false

/-- The bus of a gateway has moved on. -/
def World.setBus (world : World ν) (gateway : String) (bus : Shared.RabbitBus.World) :
    World ν :=
  { world with buses := Function.update world.buses gateway bus }

theorem World.buses_setBus_self (world : World ν) (gateway : String)
    (bus : Shared.RabbitBus.World) : (world.setBus gateway bus).buses gateway = bus :=
  Function.update_self ..

theorem World.buses_setBus_of_ne (world : World ν) {gateway other : String}
    (bus : Shared.RabbitBus.World) (h : other ≠ gateway) :
    (world.setBus gateway bus).buses other = world.buses other :=
  Function.update_of_ne h ..

/-- A reply is on its way. -/
def World.publish (world : World ν) (reply : Option Reply) : World ν :=
  { world with replies := world.replies ++ reply.toList }

variable [DecidableEq ν]

/-- The ids that are drawn are new and not blank. -/
def fresh (S : Setting ν) (world : World ν) (request : Request ν) : Bool :=
  (world.buses request.gateway).ready &&
    decide (request.promise = (world.buses request.gateway).calls.length ∧
      request.rpcId ∉ world.requests.map Request.rpcId ∧
      messageCorrelationId (some request.rpcId) = some request.rpcId ∧
      request.key ≠ "" ∧ request.dto ∈ S.requests)

/-- A step behind the gateways, of a bus, or of a request on its way there and back. -/
def step (S : Setting ν) (world : World ν) : Event ν → Option (World ν)
  | .account event =>
      (Account.step S.account world.account event).map fun account =>
        { world with account := account }
  | .bus gateway event =>
      if bringsNoMessage event then
        (Shared.RabbitBus.step S.parseJson (world.buses gateway) event).map
          (world.setBus gateway)
      else none
  | .post request =>
      if fresh S world request then
        (Shared.RabbitBus.step S.parseJson (world.buses request.gateway)
          (.sendRpc "onboarding.account.create" request.rpcId)).map fun bus =>
            { world.setBus request.gateway bus with
              requests := world.requests ++ [request] }
      else none
  | .deliver n w dateNow =>
      world.requests[n]?.bind fun request =>
        ((S.read request).toOption.bind readCreateCommand).bind fun command =>
          (Account.step S.account world.account
            (.worker (.create w command dateNow))).map fun account =>
              { world with
                account := account
                handles := Function.update world.handles w (some request) }
  | .respond w draws =>
      (world.handles w).bind fun request =>
        match world.account.onboarding.workers w with
        | .settled _ outcome =>
            some (world.publish (publishResponse S.onboardingExchange (S.message request)
              (S.answer request (settlement outcome) draws)))
        | _ => none
  | .refuse n draws =>
      world.requests[n]?.bind fun request =>
        match S.read request with
        | .ok _ => none
        | .error _ =>
            some (world.publish (publishResponse S.onboardingExchange (S.message request)
              (S.answer request (.error .other) draws)))
  | .fallback n draws id timestamp =>
      world.requests[n]?.map fun request =>
        world.publish (publishResponse S.onboardingExchange (S.message request)
          (internalErrorResponse draws id timestamp (S.message request)))
  | .reply n gateway =>
      world.replies[n]?.bind fun reply =>
        if reply.exchange = S.gatewayExchange ∧
            reply.routingKey = S.replyRoutingKey gateway then
          (Shared.RabbitBus.step S.parseJson (world.buses gateway)
            (.reply reply.correlationId (S.stringify reply.envelope))).map
              (world.setBus gateway)
        else none

abbrev Reachable (S : Setting ν) := StepSystem.Reachable (step S) World.init

end System

/-- What the client of a request is told, once its RPC has settled. -/
def responseTo (S : Setting ν) (world : World ν) (request : Request ν) :
    Option HttpResponse :=
  ((world.buses request.gateway).settlementsOf request.promise).head?.map fun outcome =>
    respond S.http (some request.header) fun _ => outcome

section Invariant

variable {S : Setting ν} {world next : World ν}

/-- The command that a worker was started with is the one that its message holds. -/
def Reads (S : Setting ν) (request : Request ν) (command : CreateCommand) : Prop :=
  (S.read request).toOption.bind readCreateCommand = some command

/-- How a reply to a request came about. -/
inductive Answers (S : Setting ν) (world : World ν) (request : Request ν) : Json → Prop
  | ended {w : String} {command : CreateCommand}
      {outcome : Onboarding.Service.Outcome} (draws : Draws) :
      world.handles w = some request → Reads S request command →
      world.account.onboarding.workers w = .settled command outcome →
      Answers S world request (S.answer request (settlement outcome) draws)
  | refused {error : Thrown} (draws : Draws) : S.read request = .error error →
      Answers S world request (S.answer request (.error .other) draws)
  | failed (draws : Draws) (id timestamp : String) :
      Answers S world request (internalErrorResponse draws id timestamp (S.message request))

/-- The reply is one to the request. -/
structure RepliesTo (S : Setting ν) (world : World ν) (request : Request ν)
    (reply : Reply) : Prop where
  correlationId : reply.correlationId = some request.rpcId
  answers : Answers S world request reply.envelope

/-- A response with which a call was resolved is read off a published reply. -/
def Heard (S : Setting ν) (replies : List Reply) (rpcId : String) (response : Json) : Prop :=
  ∃ reply ∈ replies, messageCorrelationId reply.correlationId = some rpcId ∧
    readReply S.parseJson (S.stringify reply.envelope) = .resolved response

/-- What a request was posted with. -/
structure Posted (S : Setting ν) (buses : String → Shared.RabbitBus.World)
    (request : Request ν) : Prop where
  call : ∃ call ∈ (buses request.gateway).calls, call.rpcId = request.rpcId ∧
    call.promise = request.promise
  rpcId : messageCorrelationId (some request.rpcId) = some request.rpcId
  key : request.key ≠ ""
  dto : request.dto ∈ S.requests

/-- The buses, and what is on its way between them and the workers. -/
structure Linked (S : Setting ν) (world : World ν) : Prop where
  account : Account.Sound S.account world.account
  buses : ∀ gateway, Consistent (world.buses gateway)
  distinct : (world.requests.map Request.rpcId).Nodup
  posted : ∀ request ∈ world.requests, Posted S world.buses request
  handled : ∀ w request, world.handles w = some request → request ∈ world.requests ∧
    ∃ command, Reads S request command ∧
      Serves (world.account.onboarding.workers w) command
  replied : ∀ reply ∈ world.replies, ∃ request ∈ world.requests,
    RepliesTo S world request reply
  heard : ∀ gateway, ∀ call ∈ (world.buses gateway).calls, ∀ response,
    .resolved response ∈ (world.buses gateway).settlementsOf call.promise →
      Heard S world.replies call.rpcId response

theorem linked_init (S : Setting ν) : Linked S World.init where
  account := Account.sound_init S.account
  buses := fun _ => Shared.RabbitBus.consistent_init
  distinct := List.nodup_nil
  posted := by simp [World.init]
  handled := by simp [World.init]
  replied := by simp [World.init]
  heard := by simp [World.init, Shared.RabbitBus.World.init]

/-- A response that a call has after an event it had before, or the event brings it. -/
theorem resolved_of_advances {bus bus' : Shared.RabbitBus.World}
    {event : Shared.RabbitBus.Event} (h : Consistent bus)
    (hadvances : Shared.RabbitBus.Advances S.parseJson bus event bus') {call : Call}
    (hcall : call ∈ bus'.calls) {response : Json}
    (hmem : .resolved response ∈ bus'.settlementsOf call.promise) :
    call ∈ bus.calls ∧ (.resolved response ∈ bus.settlementsOf call.promise ∨
      Shared.RabbitBus.decides S.parseJson call event = some (.resolved response)) := by
  rw [hadvances.calls] at hcall
  rcases List.mem_append.mp hcall with hold | hnew
  · obtain ⟨settled, hstands⟩ := h.calls call hold
    refine ⟨hold, ?_⟩
    rw [(hadvances.old call hold settled hstands).settlements] at hmem
    rw [hstands.settlements]
    cases settled with
    | none => exact .inr (Option.mem_toList.mp hmem)
    | some outcome => exact .inl hmem
  · rw [(hadvances.new call (Option.mem_toList.mp hnew)).settlements] at hmem
    cases hmem

theorem Posted.mono {request : Request ν} {buses buses' : String → Shared.RabbitBus.World}
    (h : Posted S buses request)
    (hcalls : ∀ call ∈ (buses request.gateway).calls,
      call ∈ (buses' request.gateway).calls) : Posted S buses' request := by
  obtain ⟨call, hcall, hsame⟩ := h.call
  exact { h with call := ⟨call, hcalls call hcall, hsame⟩ }

theorem Answers.mono {request : Request ν} {envelope : Json}
    (h : Answers S world request envelope)
    (hhandles : ∀ w command, Serves (world.account.onboarding.workers w) command →
      next.handles w = world.handles w)
    (hsettled : ∀ w command outcome,
      world.account.onboarding.workers w = .settled command outcome →
        next.account.onboarding.workers w = .settled command outcome) :
    Answers S next request envelope := by
  cases h with
  | @ended w command outcome draws hw hreads hworker =>
      have hserves : Serves (world.account.onboarding.workers w) command := by
        rw [hworker]
        exact .inr rfl
      exact .ended draws ((hhandles w command hserves).trans hw) hreads
        (hsettled w command outcome hworker)
  | refused draws hrefused => exact .refused draws hrefused
  | failed draws id timestamp => exact .failed draws id timestamp

end Invariant

section Steps

variable {S : Setting ν} {world next : World ν}

theorem onboarding_of_step {T : Account.Setting} {before after : Account.World}
    {event : Account.Event} (hstep : Account.step T before event = some after) :
    after.onboarding = before.onboarding ∨ ∃ e,
      Onboarding.Workers.step T.env before.onboarding e = some after.onboarding := by
  have hworker : ∀ e, before.stepWorker T e = some after →
      ∃ e, Onboarding.Workers.step T.env before.onboarding e = some after.onboarding := by
    intro e he
    obtain ⟨onboarding, honboarding, rfl⟩ := Option.map_eq_some_iff.mp he
    exact ⟨e, honboarding⟩
  cases event with
  | worker e =>
      obtain ⟨_, hstep⟩ := Option.ite_none_right_eq_some.mp hstep
      exact .inr (hworker e hstep)
  | identity e =>
      obtain ⟨_, hstep⟩ := Option.ite_none_right_eq_some.mp hstep
      obtain ⟨identity, _, rfl⟩ := Option.map_eq_some_iff.mp hstep
      exact .inl rfl
  | payment e =>
      obtain ⟨_, hstep⟩ := Option.ite_none_right_eq_some.mp hstep
      obtain ⟨payments, _, rfl⟩ := Option.map_eq_some_iff.mp hstep
      exact .inl rfl
  | replyUser w n | replyCompensation w n | replyPayment w i =>
      obtain ⟨payload, _, hstep⟩ := Option.bind_eq_some_iff.mp hstep
      obtain ⟨answer, _, hstep⟩ := Option.bind_eq_some_iff.mp hstep
      exact .inr (hworker _ hstep)

theorem kept_of_account {T : Account.Setting} {before after : Account.World}
    {event : Account.Event} (hstep : Account.step T before event = some after) :
    (∀ w command, Serves (before.onboarding.workers w) command →
      Serves (after.onboarding.workers w) command) ∧
    ∀ w command outcome, before.onboarding.workers w = .settled command outcome →
      after.onboarding.workers w = .settled command outcome := by
  rcases onboarding_of_step hstep with hsame | ⟨e, he⟩
  · rw [hsame]
    exact ⟨fun _ _ => id, fun _ _ _ => id⟩
  · exact ⟨fun _ _ h => serves_of_step h he, fun _ _ _ h => settled_of_step h he⟩

theorem RepliesTo.mono {request : Request ν} {reply : Reply}
    (h : RepliesTo S world request reply)
    (hhandles : ∀ w command, Serves (world.account.onboarding.workers w) command →
      next.handles w = world.handles w)
    (hsettled : ∀ w command outcome,
      world.account.onboarding.workers w = .settled command outcome →
        next.account.onboarding.workers w = .settled command outcome) :
    RepliesTo S next request reply :=
  ⟨h.correlationId, h.answers.mono hhandles hsettled⟩

theorem linked_account {event : Account.Event} {account : Account.World}
    (h : Linked S world) (hstep : Account.step S.account world.account event = some account) :
    Linked S { world with account := account } := by
  obtain ⟨hserves, hsettled⟩ := kept_of_account hstep
  exact
    { h with
      account := Account.sound_of_step h.account hstep
      handled := by
        intro w request hw
        obtain ⟨hmem, command, hreads, hcommand⟩ := h.handled w request hw
        exact ⟨hmem, command, hreads, hserves w command hcommand⟩
      replied := by
        intro reply hreply
        obtain ⟨request, hmem, hto⟩ := h.replied reply hreply
        exact ⟨request, hmem, hto.mono (fun _ _ _ => rfl) hsettled⟩ }

theorem linked_bus {gateway : String} {event : Shared.RabbitBus.Event}
    {bus : Shared.RabbitBus.World} (h : Linked S world)
    (hstep : Shared.RabbitBus.step S.parseJson (world.buses gateway) event = some bus)
    (hbrings : ∀ call response, Shared.RabbitBus.decides S.parseJson call event =
      some (.resolved response) → Heard S world.replies call.rpcId response) :
    Linked S (world.setBus gateway bus) := by
  have hadvances := Shared.RabbitBus.step_advances (h.buses gateway) hstep
  have hcalls : ∀ other, ∀ call ∈ (world.buses other).calls,
      call ∈ ((world.setBus gateway bus).buses other).calls := by
    intro other call hcall
    by_cases hsame : other = gateway
    · subst hsame
      rw [World.buses_setBus_self, hadvances.calls]
      exact List.mem_append_left _ hcall
    · rwa [World.buses_setBus_of_ne _ _ hsame]
  constructor
  · exact h.account
  · intro other
    by_cases hsame : other = gateway
    · subst hsame
      rw [World.buses_setBus_self]
      exact hadvances.consistent
    · rw [World.buses_setBus_of_ne _ _ hsame]
      exact h.buses other
  · exact h.distinct
  · exact fun request hmem => (h.posted request hmem).mono (hcalls _)
  · exact h.handled
  · intro reply hreply
    obtain ⟨request, hmem, hto⟩ := h.replied reply hreply
    exact ⟨request, hmem, hto.mono (fun _ _ _ => rfl) fun _ _ _ => id⟩
  · intro other call hcall response hmem
    by_cases hsame : other = gateway
    · subst hsame
      rw [World.buses_setBus_self] at hcall hmem
      obtain ⟨hold, hbefore | hdecides⟩ :=
        resolved_of_advances (h.buses other) hadvances hcall hmem
      · exact h.heard other call hold response hbefore
      · exact hbrings call response hdecides
    · rw [World.buses_setBus_of_ne _ _ hsame] at hcall hmem
      exact h.heard other call hcall response hmem

theorem linked_post [DecidableEq ν] {request : Request ν} {bus : Shared.RabbitBus.World}
    (h : Linked S world) (hfresh : fresh S world request = true)
    (hstep : Shared.RabbitBus.step S.parseJson (world.buses request.gateway)
      (.sendRpc "onboarding.account.create" request.rpcId) = some bus) :
    Linked S { world.setBus request.gateway bus with
      requests := world.requests ++ [request] } := by
  have hlinked := linked_bus h hstep fun call response hdecides => by cases hdecides
  rw [fresh, Bool.and_eq_true, decide_eq_true_eq] at hfresh
  obtain ⟨hready, hpromise, hnew, hnamed, hkey, hdto⟩ := hfresh
  have hadvances := Shared.RabbitBus.step_advances (h.buses request.gateway) hstep
  have hmade : ∃ call ∈ ((world.setBus request.gateway bus).buses request.gateway).calls,
      call.rpcId = request.rpcId ∧ call.promise = request.promise := by
    rw [World.buses_setBus_self, hadvances.calls, Shared.RabbitBus.callMade, if_pos hready]
    exact ⟨_, List.mem_append_right _ (Option.mem_toList.mpr rfl), rfl, hpromise.symm⟩
  constructor
  · exact hlinked.account
  · exact hlinked.buses
  · rw [List.map_append, List.nodup_append]
    refine ⟨h.distinct, List.nodup_singleton _, ?_⟩
    rintro id hid other hother rfl
    rw [List.map_singleton, List.mem_singleton] at hother
    exact hnew (hother ▸ hid)
  · intro other hmem
    rcases List.mem_append.mp hmem with hold | hlast
    · exact hlinked.posted other hold
    · obtain rfl := List.mem_singleton.mp hlast
      exact ⟨hmade, hnamed, hkey, hdto⟩
  · intro w other hw
    obtain ⟨hmem, hcommand⟩ := hlinked.handled w other hw
    exact ⟨List.mem_append_left _ hmem, hcommand⟩
  · intro reply hreply
    obtain ⟨other, hmem, hto⟩ := hlinked.replied reply hreply
    exact ⟨other, List.mem_append_left _ hmem, hto.mono (fun _ _ _ => rfl) fun _ _ _ => id⟩
  · exact hlinked.heard

theorem linked_deliver {request : Request ν} {command : CreateCommand} {w : String}
    {dateNow : Int} {account : Account.World} (h : Linked S world)
    (hmem : request ∈ world.requests) (hreads : Reads S request command)
    (hstep : Account.step S.account world.account (.worker (.create w command dateNow)) =
      some account) :
    Linked S { world with
      account := account
      handles := Function.update world.handles w (some request) } := by
  have hlinked := linked_account h hstep
  obtain ⟨_, hworker⟩ := Option.ite_none_right_eq_some.mp hstep
  obtain ⟨onboarding, hcreate, rfl⟩ := Option.map_eq_some_iff.mp hworker
  have hstarted : world.account.onboarding.workers w = .fresh ∧
      commandOf (onboarding.workers w) = some command := by
    simp only [Onboarding.Workers.step] at hcreate
    split at hcreate
    · rename_i hfresh
      obtain rfl := Option.some.inj hcreate
      have hstarted : Function.update world.account.onboarding.workers w
          (.acquiring command (dateNow + Onboarding.Service.defaultSagaLeaseMs)) w =
            .acquiring command (dateNow + Onboarding.Service.defaultSagaLeaseMs) :=
        Function.update_self ..
      exact ⟨hfresh, congrArg commandOf hstarted⟩
    · cases hcreate
  have hother : ∀ v command', Serves (world.account.onboarding.workers v) command' →
      Function.update world.handles w (some request) v = world.handles v := by
    intro v command' hserves
    refine Function.update_of_ne ?_ ..
    rintro rfl
    rw [hstarted.1] at hserves
    exact not_serves_fresh hserves
  constructor
  · exact hlinked.account
  · exact hlinked.buses
  · exact hlinked.distinct
  · exact hlinked.posted
  · intro v other hv
    by_cases hsame : v = w
    · subst hsame
      have hnow : Function.update world.handles v (some request) v = some request :=
        Function.update_self ..
      obtain rfl := Option.some.inj (hnow.symm.trans hv)
      exact ⟨hmem, command, hreads, .inr hstarted.2⟩
    · have hkept : Function.update world.handles w (some request) v = world.handles v :=
        Function.update_of_ne hsame ..
      exact hlinked.handled v other (hkept.symm.trans hv)
  · intro reply hreply
    obtain ⟨other, hother', hto⟩ := h.replied reply hreply
    exact ⟨other, hother', hto.mono hother (kept_of_account hstep).2⟩
  · exact hlinked.heard

theorem linked_publish {request : Request ν} {envelope : Json} (h : Linked S world)
    (hmem : request ∈ world.requests) (hanswers : Answers S world request envelope) :
    Linked S (world.publish
      (publishResponse S.onboardingExchange (S.message request) envelope)) := by
  constructor
  · exact h.account
  · exact h.buses
  · exact h.distinct
  · exact h.posted
  · exact h.handled
  · intro reply hreply
    rcases List.mem_append.mp hreply with hold | hnew
    · obtain ⟨other, hother, hto⟩ := h.replied reply hold
      exact ⟨other, hother, hto.mono (fun _ _ _ => rfl) fun _ _ _ => id⟩
    · obtain ⟨routingKey, _, rfl⟩ := Option.map_eq_some_iff.mp (Option.mem_toList.mp hnew)
      refine ⟨request, hmem, (h.posted request hmem).rpcId, ?_⟩
      exact hanswers.mono (fun _ _ _ => rfl) fun _ _ _ => id
  · intro gateway call hcall response hresolved
    obtain ⟨reply, hreply, hheard⟩ := h.heard gateway call hcall response hresolved
    exact ⟨reply, List.mem_append_left _ hreply, hheard⟩

theorem linked_step [DecidableEq ν] {event : Event ν} (h : Linked S world)
    (hstep : step S world event = some next) : Linked S next := by
  cases event with
  | account event =>
      obtain ⟨account, haccount, rfl⟩ := Option.map_eq_some_iff.mp hstep
      exact linked_account h haccount
  | bus gateway event =>
      obtain ⟨hbrings, hstep⟩ := Option.ite_none_right_eq_some.mp hstep
      obtain ⟨bus, hbus, rfl⟩ := Option.map_eq_some_iff.mp hstep
      refine linked_bus h hbus fun call response hdecides => ?_
      cases event with
      | timeout timeout => cases (Option.ite_none_right_eq_some.mp hdecides).2
      | shutdown => cases hdecides
      | connected => cases hdecides
      | sendRpc routingKey rpcId => cases hbrings
      | reply correlationId content => cases hbrings
  | post request =>
      obtain ⟨hfresh, hstep⟩ := Option.ite_none_right_eq_some.mp hstep
      obtain ⟨bus, hbus, rfl⟩ := Option.map_eq_some_iff.mp hstep
      exact linked_post h hfresh hbus
  | deliver n w dateNow =>
      obtain ⟨request, hrequest, hstep⟩ := Option.bind_eq_some_iff.mp hstep
      obtain ⟨command, hreads, hstep⟩ := Option.bind_eq_some_iff.mp hstep
      obtain ⟨account, haccount, rfl⟩ := Option.map_eq_some_iff.mp hstep
      exact linked_deliver h (List.mem_of_getElem? hrequest) hreads haccount
  | respond w draws =>
      obtain ⟨request, hrequest, hstep⟩ := Option.bind_eq_some_iff.mp hstep
      obtain ⟨hmem, command, hreads, hserves⟩ := h.handled w request hrequest
      split at hstep
      · rename_i command' outcome hworker
        obtain rfl := Option.some.inj hstep
        rw [hworker] at hserves
        obtain hcrashed | hcommand := hserves
        · cases hcrashed
        · obtain rfl := Option.some.inj hcommand
          exact linked_publish h hmem (.ended draws hrequest hreads hworker)
      · cases hstep
  | refuse n draws =>
      obtain ⟨request, hrequest, hstep⟩ := Option.bind_eq_some_iff.mp hstep
      split at hstep
      · cases hstep
      · rename_i error hread
        obtain rfl := Option.some.inj hstep
        exact linked_publish h (List.mem_of_getElem? hrequest) (.refused draws hread)
  | fallback n draws id timestamp =>
      obtain ⟨request, hrequest, rfl⟩ := Option.map_eq_some_iff.mp hstep
      exact linked_publish h (List.mem_of_getElem? hrequest) (.failed draws id timestamp)
  | reply n gateway =>
      obtain ⟨reply, hreply, hstep⟩ := Option.bind_eq_some_iff.mp hstep
      obtain ⟨_, hstep⟩ := Option.ite_none_right_eq_some.mp hstep
      obtain ⟨bus, hbus, rfl⟩ := Option.map_eq_some_iff.mp hstep
      refine linked_bus h hbus fun call response hdecides => ?_
      obtain ⟨hid, hread⟩ := Option.ite_none_right_eq_some.mp hdecides
      exact ⟨reply, List.mem_of_getElem? hreply, hid, Option.some.inj hread⟩

theorem linked_of_reachable [DecidableEq ν] (h : Reachable S world) : Linked S world :=
  h.invariant (linked_init S) fun _ _ _ => linked_step

end Steps

section Responses

variable {S : Setting ν} {world : World ν} {request request' : Request ν}

/-- What was published is read as it was written. -/
structure Legible (S : Setting ν) (world : World ν) : Prop where
  commands : ∀ request ∈ world.requests,
    S.parseJson (S.stringify (request.json S.enc)) = .ok (request.json S.enc)
  replies : ∀ reply ∈ world.replies,
    S.parseJson (S.stringify reply.envelope) = .ok reply.envelope

/-- How the command of a request has ended. -/
inductive Ends (S : Setting ν) (world : World ν) (request : Request ν) :
    Except Thrown CreateAccountResponse → Prop
  | settled {w : String} {outcome : Onboarding.Service.Outcome} :
      world.handles w = some request →
      world.account.onboarding.workers w = .settled (request.command S.enc) outcome →
      Ends S world request (settlement outcome)
  | refused : S.validates ((request.json S.enc).get "payload") = .ok false →
      Ends S world request (.error invalidCommand)
  | unvalidated {message : String} :
      S.validates ((request.json S.enc).get "payload") = .error message →
      Ends S world request (.error (.error message))
  | failed : Ends S world request (.error .other)

theorem read_eq (h : Legible S world) (hmem : request ∈ world.requests) :
    S.read request = match S.validates ((request.json S.enc).get "payload") with
      | .error message => .error (.error message)
      | .ok false => .error invalidCommand
      | .ok true => .ok (request.json S.enc) := by
  have hparse := h.commands request hmem
  rw [Setting.read, readCommand, Setting.message, hparse]
  rfl

theorem command_of_reads (h : Legible S world) (hmem : request ∈ world.requests)
    {command : CreateCommand} (hreads : Reads S request command) :
    S.read request = .ok (request.json S.enc) ∧ command = request.command S.enc := by
  rw [Reads, read_eq h hmem] at hreads
  rw [read_eq h hmem]
  split at hreads
  · cases hreads
  · cases hreads
  · have hcommand : readCreateCommand (request.json S.enc) =
        some (request.command S.enc) := rfl
    exact ⟨rfl, Option.some.inj (hreads.symm.trans hcommand)⟩

theorem response_of_answer {result : Except Thrown CreateAccountResponse} {draws : Draws}
    {response : Json}
    (hparse : S.parseJson (S.stringify (S.answer request result draws)) =
      .ok (S.answer request result draws))
    (hread : readReply S.parseJson (S.stringify (S.answer request result draws)) =
      .resolved response) :
    response = rpcResponseJson (rpcResponse ((S.read request).bind fun _ => result)) := by
  rw [readReply_handleCreateCommand hparse] at hread
  exact (Shared.RabbitBus.Outcome.resolved.inj hread).symm

theorem ends_of_answers (h : Legible S world) (hmem : request ∈ world.requests)
    {envelope response : Json} (hanswers : Answers S world request envelope)
    (hparse : S.parseJson (S.stringify envelope) = .ok envelope)
    (hread : readReply S.parseJson (S.stringify envelope) = .resolved response) :
    ∃ result, Ends S world request result ∧
      response = rpcResponseJson (rpcResponse result) := by
  cases hanswers with
  | @ended w command outcome draws hw hreads hworker =>
      obtain ⟨hcommand, rfl⟩ := command_of_reads h hmem hreads
      have hresponse := response_of_answer hparse hread
      rw [hcommand] at hresponse
      exact ⟨_, .settled hw hworker, hresponse⟩
  | @refused error draws hrefused =>
      have hresponse := response_of_answer hparse hread
      rw [hrefused] at hresponse
      rw [read_eq h hmem] at hrefused
      split at hrefused
      · rename_i message hthrown
        obtain rfl := Except.error.inj hrefused
        exact ⟨_, .unvalidated hthrown, hresponse⟩
      · rename_i hinvalid
        obtain rfl := Except.error.inj hrefused
        exact ⟨_, .refused hinvalid, hresponse⟩
      · cases hrefused
  | failed draws id timestamp =>
      rw [readReply_internalErrorResponse hparse] at hread
      exact ⟨_, .failed, (Shared.RabbitBus.Outcome.resolved.inj hread).symm⟩

theorem ends_of_heard (hlinked : Linked S world) (h : Legible S world)
    (hmem : request ∈ world.requests) {response : Json}
    (hheard : Heard S world.replies request.rpcId response) :
    ∃ result, Ends S world request result ∧
      response = rpcResponseJson (rpcResponse result) := by
  obtain ⟨reply, hreply, hid, hread⟩ := hheard
  obtain ⟨other, hother, hto⟩ := hlinked.replied reply hreply
  rw [hto.correlationId, (hlinked.posted other hother).rpcId] at hid
  obtain rfl := List.inj_on_of_nodup_map hlinked.distinct hother hmem (Option.some.inj hid)
  exact ends_of_answers h hmem hto.answers (h.replies reply hreply) hread

theorem ends_of_response (hlinked : Linked S world) (h : Legible S world)
    (hmem : request ∈ world.requests) {response : HttpResponse}
    (hresponse : responseTo S world request = some response) :
    (∃ result, Ends S world request result ∧ response = told S.http result) ∨
      response = .problem Gateway.AccountController.unexpected := by
  have hposted := hlinked.posted request hmem
  obtain ⟨outcome, hhead, rfl⟩ := Option.map_eq_some_iff.mp hresponse
  have hsettled := List.mem_of_mem_head? hhead
  obtain ⟨call, hcall, hid, hpromise⟩ := hposted.call
  cases outcome with
  | rejected error =>
      right
      have hkey : trim request.header ≠ "" := hposted.key
      rw [respond, Gateway.AccountController.create, Option.getD_some, if_neg hkey]
      rfl
  | resolved response =>
      left
      rw [← hpromise] at hsettled
      have hheard := hlinked.heard _ call hcall response hsettled
      rw [hid] at hheard
      obtain ⟨result, hends, rfl⟩ := ends_of_heard hlinked h hmem hheard
      exact ⟨result, hends, Gateway.AccountController.respond_rpcResponseJson S.http
        hposted.key result⟩

variable [DecidableEq ν]

theorem responseTo_of_step {next : World ν} {event : Event ν} (h : Linked S world)
    (hstep : step S world event = some next) (hmem : request ∈ world.requests)
    {response : HttpResponse} (hresponse : responseTo S world request = some response) :
    request ∈ next.requests ∧ responseTo S next request = some response := by
  have hbus : ∀ gateway busEvent bus, Shared.RabbitBus.step S.parseJson
      (world.buses gateway) busEvent = some bus →
      responseTo S (world.setBus gateway bus) request = some response := by
    intro gateway busEvent bus hbus
    by_cases hsame : request.gateway = gateway
    · subst hsame
      have hadvances := Shared.RabbitBus.step_advances (h.buses request.gateway) hbus
      obtain ⟨call, hcall, _, hpromise⟩ := (h.posted request hmem).call
      obtain ⟨settled, hstands⟩ := (h.buses request.gateway).calls call hcall
      have hlater := hadvances.old call hcall settled hstands
      rw [responseTo, ← hpromise, hstands.settlements] at hresponse
      rw [responseTo, World.buses_setBus_self, ← hpromise, hlater.settlements]
      cases settled with
      | none => cases hresponse
      | some outcome => exact hresponse
    · rw [responseTo, World.buses_setBus_of_ne _ _ hsame]
      exact hresponse
  cases event with
  | account event =>
      obtain ⟨account, _, rfl⟩ := Option.map_eq_some_iff.mp hstep
      exact ⟨hmem, hresponse⟩
  | bus gateway event =>
      obtain ⟨_, hstep⟩ := Option.ite_none_right_eq_some.mp hstep
      obtain ⟨bus, hnext, rfl⟩ := Option.map_eq_some_iff.mp hstep
      exact ⟨hmem, hbus gateway event bus hnext⟩
  | post other =>
      obtain ⟨_, hstep⟩ := Option.ite_none_right_eq_some.mp hstep
      obtain ⟨bus, hnext, rfl⟩ := Option.map_eq_some_iff.mp hstep
      exact ⟨List.mem_append_left _ hmem, hbus other.gateway _ bus hnext⟩
  | deliver n w dateNow =>
      obtain ⟨other, _, hstep⟩ := Option.bind_eq_some_iff.mp hstep
      obtain ⟨command, _, hstep⟩ := Option.bind_eq_some_iff.mp hstep
      obtain ⟨account, _, rfl⟩ := Option.map_eq_some_iff.mp hstep
      exact ⟨hmem, hresponse⟩
  | respond w draws =>
      obtain ⟨other, _, hstep⟩ := Option.bind_eq_some_iff.mp hstep
      split at hstep
      · obtain rfl := Option.some.inj hstep
        exact ⟨hmem, hresponse⟩
      · cases hstep
  | refuse n draws =>
      obtain ⟨other, _, hstep⟩ := Option.bind_eq_some_iff.mp hstep
      split at hstep
      · cases hstep
      · obtain rfl := Option.some.inj hstep
        exact ⟨hmem, hresponse⟩
  | fallback n draws id timestamp =>
      obtain ⟨other, _, rfl⟩ := Option.map_eq_some_iff.mp hstep
      exact ⟨hmem, hresponse⟩
  | reply n gateway =>
      obtain ⟨reply, _, hstep⟩ := Option.bind_eq_some_iff.mp hstep
      obtain ⟨_, hstep⟩ := Option.ite_none_right_eq_some.mp hstep
      obtain ⟨bus, hnext, rfl⟩ := Option.map_eq_some_iff.mp hstep
      exact ⟨hmem, hbus gateway _ bus hnext⟩

theorem responseTo_of_run {later : World ν} {trace : List (World ν × Event ν)}
    (hreach : Reachable S world) (hrun : StepSystem.Run (step S) world trace later)
    (hmem : request ∈ world.requests) {response : HttpResponse}
    (hresponse : responseTo S world request = some response) :
    request ∈ later.requests ∧ responseTo S later request = some response := by
  induction hrun with
  | nil => exact ⟨hmem, hresponse⟩
  | snoc hbefore hstep ih =>
      exact responseTo_of_step (linked_of_reachable (hreach.run hbefore)) hstep ih.1 ih.2

/-- What a client is told is how the command of its own request ended, or that there was
no answer in time: what was sent twice, late or to others makes no difference, then or
later. -/
theorem responses_are_own {later : World ν} {trace : List (World ν × Event ν)}
    (hreach : Reachable S world) (h : Legible S world)
    (hrun : StepSystem.Run (step S) world trace later) (hmem : request ∈ world.requests)
    {response : HttpResponse} (hresponse : responseTo S world request = some response) :
    ((∃ result, Ends S world request result ∧ response = told S.http result) ∨
      response = .problem Gateway.AccountController.unexpected) ∧
        responseTo S later request = some response :=
  ⟨ends_of_response (linked_of_reachable hreach) h hmem hresponse,
    (responseTo_of_run hreach hrun hmem hresponse).2⟩

end Responses

section Accounts

variable {S : Setting ν} {world : World ν} {request request' : Request ν}

theorem created_of_told {env : Gateway.AccountController.Environment}
    {result : Except Thrown CreateAccountResponse} {created : Created}
    (h : .created created = told env result) :
    ∃ answer, result = .ok answer ∧ created.body = some (accountJson answer) ∧
      env.sign (some (.string answer.user.id)) = some created.cookie ∧
      created.idempotencyReplayed = if answer.metadata.replayed then "true" else "false" := by
  cases result with
  | error error => cases h
  | ok answer =>
      unfold told at h
      dsimp only at h
      split at h
      · rename_i token htoken
        obtain rfl := HttpResponse.created.inj h
        exact ⟨answer, rfl, rfl, htoken, rfl⟩
      · cases h

/-- The client has been told of this account, the answer to its own command. -/
structure Holds (S : Setting ν) (world : World ν) (request : Request ν) (created : Created)
    (answer : CreateAccountResponse) (w : String) : Prop where
  body : created.body = some (accountJson answer)
  cookie : S.http.sign (some (.string answer.user.id)) = some created.cookie
  replayed : created.idempotencyReplayed =
    if answer.metadata.replayed then "true" else "false"
  handled : world.handles w = some request
  answered : Requests.AnsweredAs S.enc world.account request.key request.dto answer w

theorem holds_of_created (hlinked : Linked S world) (h : Legible S world)
    (hmem : request ∈ world.requests) {created : Created}
    (hcreated : responseTo S world request = some (.created created)) :
    ∃ answer w, Holds S world request created answer w := by
  rcases ends_of_response hlinked h hmem hcreated with ⟨result, hends, htold⟩ | hproblem
  · obtain ⟨answer, hanswer, hbody, hcookie, hreplayed⟩ := created_of_told htold
    cases hends with
    | @settled w outcome hhandled hworker =>
        cases outcome with
        | resolved response =>
            obtain rfl := Except.ok.inj hanswer
            refine ⟨response, w, hbody, hcookie, hreplayed, hhandled, request.command S.enc,
              ?_, rfl⟩
            rw [hworker]
            rfl
        | rejected reason => cases hanswer
    | refused => cases hanswer
    | unvalidated => cases hanswer
    | failed => cases hanswer
  · cases hproblem

variable [DecidableEq ν]

/-- All sagas are of requests that the gateways have posted. -/
def FromGateways (world : World ν) : Prop :=
  ∀ key ∈ world.account.onboarding.store.sagas.keys, key ∈ world.requests.map Request.key

omit [DecidableEq ν] in
theorem FromGateways.trimmed (h : FromGateways world) : Account.Trimmed world.account := by
  intro key hkey
  obtain ⟨request, _, rfl⟩ := List.mem_map.mp (h key hkey)
  exact getLast?_trim request.header

/-- What clients are told of accounts fits together.  An account in a response is stored,
made from the request it answers and shown with the cookie of its own user; requests with
one key that got an account had one body and got the same one, only one of them not as a
replay; and under different keys neither users nor payments are shared. -/
theorem clients_agree (hexact : S.enc.Exact) (hfree : S.enc.CollisionFree S.requests)
    (hreach : Reachable S world) (h : Legible S world) (hgateways : FromGateways world)
    (hmem : request ∈ world.requests) (hmem' : request' ∈ world.requests)
    {created created' : Created}
    (hcreated : responseTo S world request = some (.created created))
    (hcreated' : responseTo S world request' = some (.created created')) :
    ∃ answer answer' w w', Holds S world request created answer w ∧
      Holds S world request' created' answer' w' ∧
      (∃ owner stored, Requests.Opened S.enc S.service world.account request.key
        request.dto answer owner stored) ∧
      Requests.OneAccount request.key request'.key request.dto request'.dto answer answer'
        request.rpcId request'.rpcId := by
  have hlinked := linked_of_reachable hreach
  obtain ⟨answer, w, hholds⟩ := holds_of_created hlinked h hmem hcreated
  obtain ⟨answer', w', hholds'⟩ := holds_of_created hlinked h hmem' hcreated'
  have hdto := (hlinked.posted request hmem).dto
  have hdto' := (hlinked.posted request' hmem').dto
  have htrimmed := hgateways.trimmed
  have hone := Requests.oneAccount_of_answered hexact hfree hlinked.account htrimmed hdto
    hdto' hholds.answered hholds'.answered
  refine ⟨answer, answer', w, w', hholds, hholds',
    Requests.opened_of_answered hexact hfree hlinked.account htrimmed hdto
      hholds.answered,
    hone.request, hone.answers, ?_, hone.users, hone.payments⟩
  intro hkey hfirst hfirst'
  have hworker := hone.first hkey hfirst hfirst'
  have hhandled := hholds'.handled
  rw [← hworker, hholds.handled] at hhandled
  rw [Option.some.inj hhandled]

end Accounts

section Sample

open Modularis.EndToEnd.Requests (sampleEncoding sampleDto)
open Modularis.Onboarding.SingleRun (sampleEnvironment)
open Modularis.Payments.Lifecycle (sampleService)

def sampleRequest : Request Nat where
  gateway := "gateway-1"
  promise := 0
  rpcId := "rpc-1"
  correlationId := "correlation-1"
  messageId := "message-1"
  occurredAt := "2026-01-01T00:00:00.000Z"
  header := "key-1"
  dto := sampleDto

/-- What the worker answers. -/
def sampleAnswer : CreateAccountResponse where
  user :=
    { id := "ffffffff-ffff-ffff-ffff-ffffffffffff"
      email := "ada@example.com"
      name := "Ada"
      isPremium := false }
  payment :=
    { id := "payment-1"
      paymentReference := "ref-1"
      amount := 10
      currency := "BRL"
      paymentStatus := "PENDING"
      deliveryStatus := "PENDING"
      expiresAt := "1970-01-01T00:31:00Z"
      qrCode := ""
      qrCodeImageUrl := none }
  metadata :=
    { correlationId := "correlation-1"
      idempotencyKey := "key-1"
      replayed := false }

def sampleDraws : Draws where
  messageId := "message-2"
  correlationId := "correlation-2"
  occurredAt := "2026-01-01T00:00:01.000Z"

def sampleReplyJson : Json :=
  envelope sampleDraws (some (.string "correlation-1")) (some (.string "message-1"))
    (some (rpcResponseJson (.success sampleAnswer)))

@[irreducible] def sampleCommandText : String :=
  "\x7b\"schemaVersion\":\"1.0.0\",\"messageId\":\"message-1\"," ++
  "\"correlationId\":\"correlation-1\",\"occurredAt\":\"2026-01-01T00:00:00.000Z\"," ++
  "\"type\":\"onboarding.account.create\",\"eventVersion\":\"1.0.0\"," ++
  "\"id\":\"message-1\",\"timestamp\":\"2026-01-01T00:00:00.000Z\"," ++
  "\"eventType\":\"onboarding.account.create\",\"source\":\"api-gateway\"," ++
  "\"payload\":\x7b\"idempotencyKey\":\"key-1\",\"requestHash\":" ++
  "\"13f869ec997b2afcd7b5184dbf7cf7d6dbaedbe95e119aaf92cfabfe6040ce31\"," ++
  "\"email\":\"ada@example.com\",\"name\":\"Ada\",\"cellphone\":\"11999990000\"," ++
  "\"taxId\":\"12345678901\",\"amount\":10,\"currency\":\"BRL\"\x7d\x7d"

@[irreducible] def sampleReplyText : String :=
  "\x7b\"schemaVersion\":\"1.0.0\",\"messageId\":\"message-2\"," ++
  "\"correlationId\":\"correlation-1\",\"causationId\":\"message-1\"," ++
  "\"occurredAt\":\"2026-01-01T00:00:01.000Z\"," ++
  "\"type\":\"onboarding.account.create.response\",\"eventVersion\":\"1.0.0\"," ++
  "\"id\":\"message-2\",\"timestamp\":\"2026-01-01T00:00:01.000Z\"," ++
  "\"eventType\":\"onboarding.account.create.response\"," ++
  "\"source\":\"onboarding-service\",\"payload\":\x7b\"success\":true," ++
  "\"data\":\x7b\"user\":\x7b\"id\":\"ffffffff-ffff-ffff-ffff-ffffffffffff\"," ++
  "\"email\":\"ada@example.com\",\"name\":\"Ada\",\"isPremium\":false\x7d," ++
  "\"payment\":\x7b\"id\":\"payment-1\",\"paymentReference\":\"ref-1\"," ++
  "\"amount\":10,\"currency\":\"BRL\",\"paymentStatus\":\"PENDING\"," ++
  "\"deliveryStatus\":\"PENDING\",\"expiresAt\":\"1970-01-01T00:31:00Z\"," ++
  "\"qrCode\":\"\"\x7d,\"meta\":\x7b\"correlationId\":\"correlation-1\"," ++
  "\"idempotencyKey\":\"key-1\",\"replayed\":false\x7d\x7d\x7d\x7d"

/-- The texts of the two values that are sent. -/
def sampleStringify (value : Json) : String :=
  match value.get "type" with
  | some (.string "onboarding.account.create") => sampleCommandText
  | _ => sampleReplyText

def sampleParser (content : String) : Except String Json :=
  if content = sampleCommandText then .ok (sampleRequest.json sampleEncoding)
  else if content = sampleReplyText then .ok sampleReplyJson
  else .error "Unexpected token"

def sampleSetting : Setting Nat where
  enc := sampleEncoding
  requests := [sampleDto]
  env := sampleEnvironment
  service := sampleService
  http :=
    { numberText := fun _ => "10"
      messageOf := fun _ _ => "Http Exception"
      sign := fun _ => some "token-1" }
  parseJson := sampleParser
  stringify := sampleStringify
  validates := fun _ => .ok true
  serviceName := "api-gateway"
  gatewayExchange := "modularis.responses"
  onboardingExchange := "modularis.responses"

theorem sampleParser_command :
    sampleParser sampleCommandText = .ok (sampleRequest.json sampleEncoding) :=
  if_pos rfl

theorem sampleParser_reply : sampleParser sampleReplyText = .ok sampleReplyJson := by
  have hother : sampleReplyText ≠ sampleCommandText := by decide +kernel
  exact (if_neg hother).trans (if_pos rfl)

theorem sample_stringify :
    sampleStringify (sampleRequest.json sampleEncoding) = sampleCommandText ∧
      sampleStringify sampleReplyJson = sampleReplyText := by
  constructor
  · rfl
  · rfl

/-- The answer that a worker has ended with. -/
def settledAnswer : Worker → Option CreateAccountResponse
  | .settled _ (.resolved answer) => some answer
  | _ => none

theorem settled_of_settledAnswer {worker : Worker} {answer : CreateAccountResponse}
    (h : settledAnswer worker = some answer) :
    ∃ command, worker = .settled command (.resolved answer) := by
  unfold settledAnswer at h
  split at h
  · obtain rfl := Option.some.inj h
    exact ⟨_, rfl⟩
  · cases h

theorem replay_account {S : Setting ν} [DecidableEq ν] {world : World ν}
    {account : Account.World} {events : List Account.Event}
    (h : StepSystem.replay (Account.step S.account) world.account events = some account) :
    StepSystem.replay (step S) world (events.map .account) =
      some { world with account := account } := by
  induction events generalizing world with
  | nil =>
      obtain rfl := Option.some.inj h
      rfl
  | cons event events ih =>
      obtain ⟨next, hstep, hrest⟩ := Option.bind_eq_some_iff.mp h
      refine StepSystem.replay_cons ?_ (@ih { world with account := next } hrest)
      simp only [step, hstep, Option.map_some]

def sampleOpenBus : Shared.RabbitBus.World :=
  { Shared.RabbitBus.World.init with ready := true }

def sampleOpen : World Nat := World.init.setBus "gateway-1" sampleOpenBus

/-- The gateway has posted the request. -/
def samplePosted : World Nat :=
  { sampleOpen.setBus "gateway-1"
      (Shared.RabbitBus.sendRpc sampleOpenBus "onboarding.account.create" "rpc-1") with
    requests := [sampleRequest] }

theorem sample_posted : StepSystem.replay (step sampleSetting) World.init
    [.bus "gateway-1" .connected, .post sampleRequest] = some samplePosted := by
  have hconnected : step sampleSetting World.init (.bus "gateway-1" .connected) =
      some sampleOpen := rfl
  refine StepSystem.replay_cons hconnected (StepSystem.replay_cons ?_ rfl)
  have hfresh : fresh sampleSetting sampleOpen sampleRequest = true := by decide +kernel
  have hbus : sampleOpen.buses sampleRequest.gateway = sampleOpenBus :=
    World.buses_setBus_self _ _ _
  rw [step, if_pos hfresh, hbus]
  rfl

theorem sample_parsed : sampleSetting.parseJson (sampleSetting.message sampleRequest).content =
    .ok (sampleRequest.json sampleEncoding) :=
  (congrArg sampleParser sample_stringify.1).trans sampleParser_command

theorem sample_read :
    sampleSetting.read sampleRequest = .ok (sampleRequest.json sampleEncoding) := by
  simp only [Setting.read, readCommand, sample_parsed]
  rfl

/-- The worker has answered. -/
def sampleSettled (account : Account.World) : World Nat :=
  { samplePosted with
    account := account
    handles := Function.update samplePosted.handles "w-1" (some sampleRequest) }

theorem sample_settled : ∃ account command,
    account.onboarding.workers "w-1" = .settled command (.resolved sampleAnswer) ∧
      account.onboarding.store.sagas.keys = ["key-1"] ∧
      Reachable sampleSetting (sampleSettled account) := by
  have hreplay : ((StepSystem.replay (Account.step sampleSetting.account) Account.World.init
      Requests.sampleRequests).bind fun account =>
        (settledAnswer (account.onboarding.workers "w-1")).map fun answer =>
          (answer, account.onboarding.store.sagas.keys)) = some (sampleAnswer, ["key-1"]) := by
    decide +kernel
  obtain ⟨account, haccount, hsettled⟩ := Option.bind_eq_some_iff.mp hreplay
  obtain ⟨answer, hsettled, hboth⟩ := Option.map_eq_some_iff.mp hsettled
  obtain ⟨rfl, hkeys⟩ := Prod.mk.inj hboth
  obtain ⟨command, hworker⟩ := settled_of_settledAnswer hsettled
  obtain ⟨first, hfirst, hrest⟩ := Option.bind_eq_some_iff.mp haccount
  have hdeliver : step sampleSetting samplePosted (.deliver 0 "w-1" 0) =
      some (sampleSettled first) := by
    have hrequest : samplePosted.requests[0]? = some sampleRequest := rfl
    have hcommand : readCreateCommand (sampleRequest.json sampleEncoding) =
        some (sampleEncoding.command "correlation-1" "message-1" "key-1" sampleDto) := by
      have hkey : sampleRequest.key = "key-1" := by decide +kernel
      have hread : readCreateCommand (sampleRequest.json sampleEncoding) =
        some (sampleRequest.command sampleEncoding) := rfl
      rw [hread, Request.command, hkey]
      rfl
    have hstarted : Account.step sampleSetting.account samplePosted.account
        (.worker (.create "w-1"
          (sampleEncoding.command "correlation-1" "message-1" "key-1" sampleDto) 0)) =
            some first := hfirst
    simp only [step, hrequest, Option.bind_some, sample_read, Except.toOption, hcommand,
      hstarted, Option.map_some]
    rfl
  have hlater : StepSystem.replay (step sampleSetting) (sampleSettled first)
      (Requests.sampleRequests.tail.map .account) = some (sampleSettled account) :=
    replay_account hrest
  have hrun := StepSystem.replay_append sample_posted (StepSystem.replay_cons hdeliver hlater)
  exact ⟨account, command, hworker, hkeys, (StepSystem.run_of_replay hrun).reachable⟩

def sampleReply : Reply where
  exchange := "modularis.responses"
  routingKey := "api-gateway.responses.gateway-1"
  correlationId := some "rpc-1"
  envelope := sampleReplyJson

def sampleCreated : Created where
  body := some (accountJson sampleAnswer)
  cookie := "token-1"
  idempotencyReplayed := "false"

theorem sample_answer : publishResponse sampleSetting.onboardingExchange
    (sampleSetting.message sampleRequest)
    (sampleSetting.answer sampleRequest (.ok sampleAnswer) sampleDraws) =
      some sampleReply := by
  have houtcome : Onboarding.CommandConsumer.outcome sampleSetting.parseJson
      sampleSetting.validates (fun _ => .ok sampleAnswer)
      (sampleSetting.message sampleRequest).content = .ok sampleAnswer :=
    congrArg (Except.bind · fun _ => .ok sampleAnswer) sample_read
  have henvelope : sampleSetting.answer sampleRequest (.ok sampleAnswer) sampleDraws =
      sampleReplyJson := by
    simp only [Setting.answer, handleCreateCommand, houtcome, commandProperty, sample_parsed]
    rfl
  rw [henvelope]
  have hkey : headerString (sampleSetting.message sampleRequest) "x-response-routing-key" =
      some "api-gateway.responses.gateway-1" := by
    decide +kernel
  have hexchange : headerString (sampleSetting.message sampleRequest) "x-response-exchange" =
      some "modularis.responses" := by
    decide +kernel
  have hid : messageCorrelationId (sampleSetting.message sampleRequest).correlationId =
      some "rpc-1" := by
    decide +kernel
  rw [publishResponse, hkey, hexchange, hid]
  rfl

theorem sample_responded : ∃ world, Reachable sampleSetting world ∧
    Legible sampleSetting world ∧ FromGateways world ∧ sampleRequest ∈ world.requests ∧
    responseTo sampleSetting world sampleRequest = some (.created sampleCreated) := by
  obtain ⟨account, command, hworker, hkeys, hreach⟩ := sample_settled
  have hrespond : step sampleSetting (sampleSettled account) (.respond "w-1" sampleDraws) =
      some { sampleSettled account with replies := [sampleReply] } := by
    have hupdate : Function.update samplePosted.handles "w-1" (some sampleRequest) "w-1" =
        some sampleRequest := Function.update_self ..
    have hhandles : (sampleSettled account).handles "w-1" = some sampleRequest := hupdate
    have hsettled : (sampleSettled account).account.onboarding.workers "w-1" =
        .settled command (.resolved sampleAnswer) := hworker
    simp only [step, hhandles, Option.bind_some, hsettled, settlement, sample_answer]
    rfl
  have hreply : step sampleSetting { sampleSettled account with replies := [sampleReply] }
      (.reply 0 "gateway-1") = some
        (World.setBus { sampleSettled account with replies := [sampleReply] } "gateway-1"
          (Shared.RabbitBus.onRpcReply sampleParser
            (samplePosted.buses "gateway-1") (some "rpc-1") sampleReplyText)) := by
    have hroute : sampleReply.exchange = sampleSetting.gatewayExchange ∧
        sampleReply.routingKey = sampleSetting.replyRoutingKey "gateway-1" := by
      decide +kernel
    have htext : sampleSetting.stringify sampleReply.envelope = sampleReplyText :=
      sample_stringify.2
    have hfound : ([sampleReply] : List Reply)[0]? = some sampleReply := rfl
    simp only [step, hfound, Option.bind_some, if_pos hroute, htext]
    rfl
  refine ⟨_, (hreach.tail hrespond).tail hreply, ⟨?_, ?_⟩, ?_, List.mem_singleton_self _, ?_⟩
  · intro request hrequest
    obtain rfl := List.mem_singleton.mp hrequest
    exact sample_parsed
  · intro reply hreply'
    obtain rfl := List.mem_singleton.mp hreply'
    exact (congrArg sampleParser sample_stringify.2).trans sampleParser_reply
  · intro key hkey
    have hmem : key ∈ account.onboarding.store.sagas.keys := hkey
    rw [hkeys, List.mem_singleton] at hmem
    rw [hmem]
    have hposted : sampleRequest.key = "key-1" := by decide +kernel
    exact List.mem_map.mpr ⟨sampleRequest, List.mem_singleton_self _, hposted⟩
  · have hread : readReply sampleParser sampleReplyText =
        .resolved (rpcResponseJson (rpcResponse (.ok sampleAnswer))) := by
      simp only [readReply, sampleParser_reply]
      rfl
    have hbefore : samplePosted.buses "gateway-1" =
        Shared.RabbitBus.sendRpc sampleOpenBus "onboarding.account.create" "rpc-1" := by
      have hposted := World.buses_setBus_self sampleOpen "gateway-1"
        (Shared.RabbitBus.sendRpc sampleOpenBus "onboarding.account.create" "rpc-1")
      exact hposted
    have hsettled : (Shared.RabbitBus.onRpcReply sampleParser
        (Shared.RabbitBus.sendRpc sampleOpenBus "onboarding.account.create" "rpc-1")
        (some "rpc-1") sampleReplyText).settlementsOf 0 =
          [readReply sampleParser sampleReplyText] := rfl
    have houtcomes : ∀ world : World Nat, ((world.setBus "gateway-1"
        (Shared.RabbitBus.onRpcReply sampleParser (samplePosted.buses "gateway-1")
          (some "rpc-1") sampleReplyText)).buses sampleRequest.gateway).settlementsOf
            sampleRequest.promise = [readReply sampleParser sampleReplyText] := by
      intro world
      rw [hbefore]
      have hbus := World.buses_setBus_self world "gateway-1"
        (Shared.RabbitBus.onRpcReply sampleParser
          (Shared.RabbitBus.sendRpc sampleOpenBus "onboarding.account.create" "rpc-1")
          (some "rpc-1") sampleReplyText)
      exact (congrArg (Shared.RabbitBus.World.settlementsOf · 0) hbus).trans hsettled
    have hresponse := Gateway.AccountController.respond_rpcResponseJson sampleSetting.http
      (show trim sampleRequest.header ≠ "" by decide +kernel) (.ok sampleAnswer)
    rw [responseTo, houtcomes, hread]
    exact congrArg some hresponse

theorem responses_are_own_sample : ∃ world response,
    responseTo sampleSetting world sampleRequest = some response ∧
      (((∃ result, Ends sampleSetting world sampleRequest result ∧
          response = told sampleSetting.http result) ∨
        response = .problem Gateway.AccountController.unexpected) ∧
          responseTo sampleSetting world sampleRequest = some response) := by
  obtain ⟨world, hreach, hlegible, _, hmem, hresponse⟩ := sample_responded
  exact ⟨world, _, hresponse, responses_are_own hreach hlegible .nil hmem hresponse⟩

theorem clients_agree_sample : ∃ world answer answer' w w',
    Holds sampleSetting world sampleRequest sampleCreated answer w ∧
      Holds sampleSetting world sampleRequest sampleCreated answer' w' ∧
      (∃ owner stored, Requests.Opened sampleEncoding sampleService world.account
        sampleRequest.key sampleRequest.dto answer owner stored) ∧
      Requests.OneAccount sampleRequest.key sampleRequest.key sampleRequest.dto
        sampleRequest.dto answer answer' "rpc-1" "rpc-1" := by
  obtain ⟨world, hreach, hlegible, hgateways, hmem, hresponse⟩ := sample_responded
  have hfree : sampleEncoding.CollisionFree [sampleDto] := by
    intro dto hdto dto' hdto' _
    rw [List.mem_singleton.mp hdto, List.mem_singleton.mp hdto']
  exact ⟨world, clients_agree
    ⟨Shared.StableHash.isNumberText_naturalText, Shared.StableHash.naturalText_injective⟩
    hfree hreach hlegible hgateways hmem hmem hresponse hresponse⟩

end Sample

end Modularis.EndToEnd.Clients
